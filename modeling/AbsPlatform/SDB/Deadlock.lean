import AbsPlatform.SDB.Permissions
import AbsPlatform.SDB.Threads

/-!
# Deadlock — cycles of module threads that block each other

A thread that sends a packet holds its own lock and asks for the destination's.  Two modules that
send to each other at the same time therefore stop for good, and so does any ring of them.
`no_deadlock_iff` says that this is the only way: a run stays free of such cycles exactly as long
as no thread starts to send to a module from which a chain of sends in progress leads back to it.

A thread may also send to its own module.  It has its lock then already, and the test for a deadlock
with itself is never met (`self_send_finds_free`).
-/

namespace AbsPlatform
namespace SDB

open MCS Lib

/-! ## Which locks a thread holds -/

namespace PC

/-- The thread holds its own lock. -/
def inside : PC → Bool
  | .idle => false
  | .woken => false
  | .loop => true
  | .fetching _ _ => true
  | .locking _ => true
  | .testing _ => true
  | .waiting _ => true
  | .copied _ => true

/-- The call a thread is in. -/
def call : PC → Option Call
  | .idle => none
  | .woken => none
  | .loop => none
  | .fetching _ _ => none
  | .locking c => some c
  | .testing c => some c
  | .waiting c => some c
  | .copied c => some c

/-- The module whose lock the thread holds for its call. -/
def entered : PC → Option Nat
  | .idle => none
  | .woken => none
  | .loop => none
  | .fetching _ _ => none
  | .locking _ => none
  | .testing c => some c.dst
  | .waiting _ => none
  | .copied c => some c.dst

/-- How often thread `i` holds the lock of module `m`. -/
def holds (i : Nat) (pc : PC) (m : Nat) : Nat :=
  (if m = i ∧ pc.inside = true then 1 else 0) + (if pc.entered = some m then 1 else 0)

theorem inside_of_call {pc : PC} {c : Call} (h : pc.call = some c) : pc.inside = true := by
  cases pc <;> simp [call, inside] at h ⊢

theorem holds_self {i : Nat} {pc : PC} (h : pc.inside = true) : 0 < pc.holds i i := by
  simp [holds, h]

theorem holds_entered {i m : Nat} {pc : PC} (h : pc.entered = some m) : 0 < pc.holds i m := by
  simp [holds, h]

end PC

/-- The locks are held as the threads' places say, a thread that sends has nothing in its own
region, and it does not wait for itself. -/
structure LockInv (t : Threads) : Prop where
  agree : Mutex.Agree t.lock fun i m => (t.pc i).holds i m
  empty : ∀ {i c}, (t.pc i).call = some c → (t.bus.modules i).mailbox = none
  apart : ∀ {i c}, t.pc i = .waiting c → i ≠ c.dst

section Invariant

variable {cfg : ThreadConfig} {t t' : Threads} {a : ThreadAct} {i j m : Nat} {c : Call} {pc' : PC}

theorem lockInv_of_started (h : Started t) : LockInv t where
  agree := by
    intro i m
    simp [h.lock, h.pc, Mutex.depth, PC.holds, PC.inside, PC.entered]
  empty := by
    intro i c hc
    simp [h.pc, PC.call] at hc
  apart := by
    intro i c hc
    simp [h.pc] at hc

/-- Two threads do not hold the same lock. -/
theorem LockInv.exclusive (h : LockInv t) (hi : 0 < (t.pc i).holds i m)
    (hj : 0 < (t.pc j).holds j m) : i = j :=
  h.agree.unique hi hj

/-- A thread moves without touching a lock. -/
theorem agree_goto (h : Mutex.Agree t.lock fun i m => (t.pc i).holds i m)
    (hsame : ∀ m, pc'.holds i m = (t.pc i).holds i m) :
    Mutex.Agree t.lock fun j m => (Function.update t.pc i pc' j).holds j m := by
  intro j m
  by_cases hj : j = i
  · subst hj
    simpa [hsame m] using h j m
  · simpa [Function.update_of_ne hj] using h j m

theorem agree_goto_lock (h : Mutex.Agree t.lock fun i m => (t.pc i).holds i m) {l : Mutex Nat}
    (hlock : (t.lock m).lock i = some l) (hself : pc'.holds i m = (t.pc i).holds i m + 1)
    (hother : ∀ k, k ≠ m → pc'.holds i k = (t.pc i).holds i k) :
    Mutex.Agree (Function.update t.lock m l) fun j k =>
      (Function.update t.pc i pc' j).holds j k := by
  refine h.lock hlock (by simpa using hself) ?_
  intro j k hjk
  by_cases hj : j = i
  · subst hj
    simpa using hother k (hjk.resolve_left (not_not.2 rfl))
  · simp [Function.update_of_ne hj]

theorem agree_goto_unlock (h : Mutex.Agree t.lock fun i m => (t.pc i).holds i m)
    (hself : (t.pc i).holds i m = pc'.holds i m + 1)
    (hother : ∀ k, k ≠ m → pc'.holds i k = (t.pc i).holds i k) :
    Mutex.Agree (Function.update t.lock m (t.lock m).unlock) fun j k =>
      (Function.update t.pc i pc' j).holds j k := by
  refine h.unlock (t := i) (by simpa using hself) ?_
  intro j k hjk
  by_cases hj : j = i
  · subst hj
    simpa using hother k (hjk.resolve_left (not_not.2 rfl))
  · simp [Function.update_of_ne hj]

/-- What is left to show when thread `i` moves to `pc'` and the mailboxes stay. -/
theorem lockInv_goto (h : LockInv t) (hpc : t'.pc = Function.update t.pc i pc')
    (hagree : Mutex.Agree t'.lock fun j m => (Function.update t.pc i pc' j).holds j m)
    (hbox : ∀ k, (t.bus.modules k).mailbox = none → (t'.bus.modules k).mailbox = none)
    (hcall : ∀ c, pc'.call = some c → (t.bus.modules i).mailbox = none)
    (hwait : ∀ c, pc' = .waiting c → i ≠ c.dst) : LockInv t' where
  agree := hpc ▸ hagree
  empty := by
    intro j c hc
    rw [hpc] at hc
    refine hbox j ?_
    by_cases hj : j = i
    · subst hj
      exact hcall c (by simpa using hc)
    · exact h.empty (by simpa [Function.update_of_ne hj] using hc)
  apart := by
    intro j c hc
    rw [hpc] at hc
    by_cases hj : j = i
    · subst hj
      exact hwait c (by simpa using hc)
    · exact h.apart (by simpa [Function.update_of_ne hj] using hc)

/-- A thread moves without touching a lock or a mailbox. -/
theorem LockInv.move (h : LockInv t) {pc : PC} (hpc : t.pc i = pc)
    (hpc' : t'.pc = Function.update t.pc i pc') (hlock : t'.lock = t.lock)
    (hholds : ∀ m, pc'.holds i m = pc.holds i m)
    (hbox : ∀ k, (t.bus.modules k).mailbox = none → (t'.bus.modules k).mailbox = none)
    (hcall : ∀ c, pc'.call = some c → (t.bus.modules i).mailbox = none)
    (hwait : ∀ c, pc' = .waiting c → i ≠ c.dst) : LockInv t' := by
  refine lockInv_goto h hpc' ?_ hbox hcall hwait
  rw [hlock]
  exact agree_goto h.agree fun m => hpc ▸ hholds m

/-- The step that marks a region as valid: nobody but its writer can be in the middle of a call
there. -/
theorem lockInv_publish (h : LockInv t) {bus : Bus} (hpc : t.pc i = .copied c)
    (hother : ∀ k, k ≠ c.dst → (bus.modules k).mailbox = (t.bus.modules k).mailbox)
    (hpc' : t'.pc = Function.update t.pc i .loop) (hbus : t'.bus = bus)
    (hlock : t'.lock = Function.update t.lock c.dst (t.lock c.dst).unlock) : LockInv t' where
  agree := by
    rw [hpc', hlock]
    refine agree_goto_unlock h.agree ?_ ?_
    · simp [hpc, PC.holds, PC.inside, PC.entered]
    · intro k hk
      simp [hpc, PC.holds, PC.inside, PC.entered, Ne.symm hk]
  empty := by
    intro j d hd
    have hji : j ≠ i := by
      rintro rfl
      simp [hpc', PC.call] at hd
    rw [hpc', Function.update_of_ne hji] at hd
    have hjdst : j ≠ c.dst := by
      -- both would hold the lock of `j`
      rintro rfl
      have hi : 0 < (t.pc i).holds i c.dst := PC.holds_entered (by simp [hpc, PC.entered])
      exact hji (h.exclusive (PC.holds_self (PC.inside_of_call hd)) hi)
    rw [hbus, hother j hjdst]
    exact h.empty hd
  apart := by
    intro j d hd
    exact h.apart (Threads.pc_of_update hpc' hd (by simp)).2

theorem Transition.lockInv (htrans : Transition cfg t a t') (h : LockInv t) : LockInv t' := by
  cases htrans with
  | quiet bus hboxes =>
      exact ⟨h.agree, fun hc => (hboxes.mailbox _).trans (h.empty hc), h.apart⟩
  | wake i hpc =>
      exact h.move hpc rfl rfl (fun _ => rfl) (fun k hk => hk) (by simp [PC.call]) (by simp)
  | resume i l hpc hlock =>
      refine lockInv_goto h rfl (agree_goto_lock h.agree hlock ?_ ?_) (fun k hk => hk)
        (by simp [PC.call]) (by simp)
      · simp [hpc, PC.holds, PC.inside, PC.entered]
      · intro k hk
        simp [hpc, PC.holds, PC.inside, PC.entered, hk]
  | rest i hpc =>
      refine lockInv_goto h rfl (agree_goto_unlock h.agree ?_ ?_) (fun k hk => hk)
        (by simp [PC.call]) (by simp)
      · simp [hpc, PC.holds, PC.inside, PC.entered]
      · intro k hk
        simp [hpc, PC.holds, PC.inside, PC.entered, hk]
  | fetch i r hpc _ _ =>
      exact h.move hpc rfl rfl (fun _ => rfl) (fun k hk => hk) (by simp [PC.call]) (by simp)
  | consume i src pkt bus hpc _ hempty hother =>
      refine h.move hpc rfl rfl (fun _ => rfl) ?_ (by simp [PC.call]) (by simp)
      intro k hk
      by_cases hki : k = i
      · exact hki ▸ hempty
      · exact (hother k hki).trans hk
  | call i ptrs bus c _ hcalls hboxes =>
      refine h.move hcalls.pc rfl rfl (fun _ => rfl) (fun k hk => (hboxes.mailbox k).trans hk)
        (fun _ _ => ?_) (by simp)
      simpa [Threads.valid] using hcalls.valid
  | enter i c l hpc hlock =>
      refine lockInv_goto h rfl (agree_goto_lock h.agree hlock ?_ ?_) (fun k hk => hk)
        (fun _ _ => h.empty (by rw [hpc]; rfl)) (by simp)
      · simp [hpc, PC.holds, PC.inside, PC.entered]
      · intro k hk
        simp [hpc, PC.holds, PC.inside, PC.entered, Ne.symm hk]
  | giveUp i c bus hpc hvalid hself _ =>
      -- its own region is empty
      have hnone : (t.bus.modules i).mailbox = none := h.empty (by rw [hpc]; rfl)
      simp [Threads.valid, ← hself, hnone] at hvalid
  | wait i c hpc hne =>
      refine lockInv_goto h rfl (agree_goto_unlock h.agree ?_ ?_) (fun k hk => hk)
        (fun _ _ => h.empty (by rw [hpc]; rfl)) ?_
      · simp [hpc, PC.holds, PC.inside, PC.entered]
      · intro k hk
        simp [hpc, PC.holds, PC.inside, PC.entered, Ne.symm hk]
      · rintro d ⟨⟩
        exact hne
  | again i c hpc =>
      exact h.move hpc rfl rfl (fun _ => rfl) (fun k hk => hk)
        (fun _ _ => h.empty (by rw [hpc]; rfl)) (by simp)
  | copy i c ptrs data _ hpc _ _ _ =>
      exact h.move hpc rfl rfl (fun _ => rfl) (fun k hk => hk)
        (fun _ _ => h.empty (by rw [hpc]; rfl)) (by simp)
  | publish i c bus hpc _ _ hother =>
      exact lockInv_publish h hpc hother rfl rfl rfl

theorem Threads.run_lockInv {acts : List ThreadAct} (hstart : Started t)
    (h : t.run cfg acts = some t') : LockInv t' :=
  Threads.run_invariant (fun hinv htrans => Transition.lockInv htrans hinv)
    (lockInv_of_started hstart) h

end Invariant

/-! ## Cycles -/

namespace Threads

/-- Thread `i` is in `sdb_module_write_mcs_packet`, on its way to another module `j`. -/
def Writes (t : Threads) (i j : Nat) : Prop := i ≠ j ∧ ∃ c, (t.pc i).call = some c ∧ c.dst = j

/-- Thread `i` can only go on when the lock of `j` or its region is free. -/
def BlockedOn (t : Threads) (i j : Nat) : Prop :=
  ∃ c, c.dst = j ∧ ((t.pc i = .locking c ∧ (t.lock j).lock i = none) ∨ t.pc i = .waiting c)

/-- A cycle of threads, each of which is blocked on the lock or the mailbox of the next. -/
def Deadlock (t : Threads) : Prop := HasCycle t.BlockedOn

end Threads

/-- The next step starts a call to another module, from which calls in progress lead back. -/
def ClosesCycle (cfg : ThreadConfig) (t : Threads) (a : ThreadAct) : Prop :=
  ∃ i ptrs bus c, a = .step i ptrs ∧ Calls cfg t i bus c ∧ i ≠ c.dst ∧
    Relation.ReflTransGen t.Writes c.dst i

section Cycles

variable {cfg : ThreadConfig} {t t' : Threads} {a : ThreadAct} {i j : Nat}

theorem writes_of_blockedOn (h : LockInv t) (hblocked : t.BlockedOn i j) : t.Writes i j := by
  rcases hblocked with ⟨c, rfl, ⟨hpc, hlock⟩ | hpc⟩
  · -- a thread that waits for a lock is in front of `pthread_mutex_lock`
    refine ⟨?_, c, by simp [hpc, PC.call], rfl⟩
    -- a thread can always take its own lock once more
    intro hself
    rcases Mutex.lock_eq_none_iff.1 hlock with ⟨u, hne, hdepth⟩
    have hu : 0 < (t.pc u).holds u c.dst := Nat.lt_of_lt_of_eq hdepth (h.agree u c.dst)
    have hi : 0 < (t.pc i).holds i c.dst := by
      rw [← hself]
      exact PC.holds_self (by simp [hpc, PC.inside])
    exact hne (h.exclusive hu hi)
  · exact ⟨h.apart hpc, c, by simp [hpc, PC.call], rfl⟩

/-- A thread in a call to a module whose thread is in a call itself does not get on. -/
theorem blockedOn_of_writes (h : LockInv t) (hwrites : t.Writes i j)
    (hj : ∃ k, t.Writes j k) : t.BlockedOn i j := by
  rcases hwrites with ⟨hne, c, hc, rfl⟩
  rcases hj with ⟨_, _, d, hd, _⟩
  -- the thread of `j` is in a call, so it holds the lock of `j`, and `i` cannot have entered
  have hown : 0 < (t.pc c.dst).holds c.dst c.dst := PC.holds_self (PC.inside_of_call hd)
  have hnot : (t.pc i).entered ≠ some c.dst := fun hentered =>
    hne (h.exclusive (PC.holds_entered hentered) hown)
  refine ⟨c, rfl, ?_⟩
  cases hpc : t.pc i with
  | locking d' =>
      have hsame : d' = c := by simpa [hpc, PC.call] using hc
      subst hsame
      refine Or.inl ⟨rfl, Mutex.lock_eq_none_iff.2 ⟨d'.dst, hne.symm, ?_⟩⟩
      rw [h.agree]
      exact hown
  | waiting d' =>
      have hsame : d' = c := by simpa [hpc, PC.call] using hc
      exact Or.inr (hsame ▸ rfl)
  -- with the lock of `j` the thread would have entered
  | testing d' =>
      have hsame : d' = c := by simpa [hpc, PC.call] using hc
      simp [hpc, hsame, PC.entered] at hnot
  | copied d' =>
      have hsame : d' = c := by simpa [hpc, PC.call] using hc
      simp [hpc, hsame, PC.entered] at hnot
  | idle => simp [hpc, PC.call] at hc
  | woken => simp [hpc, PC.call] at hc
  | loop => simp [hpc, PC.call] at hc
  | fetching src pkt => simp [hpc, PC.call] at hc

/-- A deadlock is a cycle of calls in progress. -/
theorem deadlock_iff (h : LockInv t) : t.Deadlock ↔ HasCycle t.Writes := by
  constructor
  · exact fun hcycle => hcycle.mono fun i j => writes_of_blockedOn h
  · exact fun hcycle => hcycle.restrict.mono fun i j hij => blockedOn_of_writes h hij.1 hij.2

/-- The calls in progress when a thread is somewhere else. -/
theorem writes_goto {pc' : PC} (hpc : t'.pc = Function.update t.pc i pc') (x y : Nat) :
    t'.Writes x y ↔ (x ≠ i ∧ t.Writes x y) ∨
      (x = i ∧ i ≠ y ∧ ∃ c, pc'.call = some c ∧ c.dst = y) := by
  unfold Threads.Writes
  rw [hpc]
  by_cases hx : x = i
  · subst hx
    simp
  · simp [hx]

/-- A thread that does not start a call adds none. -/
theorem writes_of_goto {pc' : PC} (hpc : t'.pc = Function.update t.pc i pc')
    (hcall : ∀ c, pc'.call = some c → (t.pc i).call = some c) (x y : Nat)
    (h : t'.Writes x y) : t.Writes x y := by
  rcases (writes_goto hpc x y).1 h with ⟨_, hold⟩ | ⟨rfl, hne, c, hc, hdst⟩
  · exact hold
  · exact ⟨hne, c, hcall c hc, hdst⟩

/-- The start of a call adds one pair, unless the packet is for the sender itself. -/
theorem writes_of_call {bus : Bus} {c : Call} (hcalls : Calls cfg t i bus c)
    (hpc : t'.pc = Function.update t.pc i (.locking c)) (x y : Nat) :
    t'.Writes x y ↔ t.Writes x y ∨ (x = i ∧ y = c.dst ∧ i ≠ c.dst) := by
  -- at the head of its loop a thread is in no call
  have hnone : ∀ z, ¬ t.Writes i z := by
    rintro z ⟨_, d, hd, _⟩
    simp [hcalls.pc, PC.call] at hd
  rw [writes_goto hpc]
  by_cases hx : x = i
  · subst hx
    simp only [ne_eq, not_true_eq_false, false_and, false_or, hnone, true_and, PC.call,
      Option.some.injEq, exists_eq_left']
    constructor
    · rintro ⟨hne, rfl⟩
      exact ⟨rfl, hne⟩
    · rintro ⟨rfl, hne⟩
      exact ⟨hne, rfl⟩
  · simp [hx]

/-- A step starts a call, or it adds no call in progress. -/
theorem Transition.writes_cases (h : Transition cfg t a t') :
    (∀ x y, t'.Writes x y → t.Writes x y) ∨
      ∃ i ptrs bus c, a = .step i ptrs ∧ Calls cfg t i bus c ∧
        t'.pc = Function.update t.pc i (.locking c) := by
  cases h with
  | quiet bus _ => exact Or.inl fun x y hw => hw
  | wake i hpc => exact Or.inl (writes_of_goto rfl (by simp [PC.call]))
  | resume i l hpc _ => exact Or.inl (writes_of_goto rfl (by simp [PC.call]))
  | rest i hpc => exact Or.inl (writes_of_goto rfl (by simp [PC.call]))
  | fetch i r hpc _ _ => exact Or.inl (writes_of_goto rfl (by simp [PC.call]))
  | consume i src pkt bus hpc _ _ _ => exact Or.inl (writes_of_goto rfl (by simp [PC.call]))
  | call i ptrs bus c ha hcalls _ => exact Or.inr ⟨i, ptrs, bus, c, ha, hcalls, rfl⟩
  | enter i c l hpc _ => exact Or.inl (writes_of_goto rfl (by simp [hpc, PC.call]))
  | giveUp i c bus hpc _ _ _ => exact Or.inl (writes_of_goto rfl (by simp [PC.call]))
  | wait i c hpc _ => exact Or.inl (writes_of_goto rfl (by simp [hpc, PC.call]))
  | again i c hpc => exact Or.inl (writes_of_goto rfl (by simp [hpc, PC.call]))
  | copy i c ptrs data _ hpc _ _ _ => exact Or.inl (writes_of_goto rfl (by simp [hpc, PC.call]))
  | publish i c bus hpc _ _ _ => exact Or.inl (writes_of_goto rfl (by simp [PC.call]))

/-- One step: a deadlock comes about exactly when a call closes a cycle. -/
theorem deadlock_step_iff (hinv : LockInv t) (hfree : ¬ t.Deadlock) (h : t.act cfg a = some t') :
    t'.Deadlock ↔ ClosesCycle cfg t a := by
  have htrans := act_transition h
  have hinv' := htrans.lockInv hinv
  rw [deadlock_iff hinv] at hfree
  rw [deadlock_iff hinv']
  constructor
  · intro hcycle
    rcases htrans.writes_cases with hsub | ⟨i, ptrs, bus, c, rfl, hcalls, hpc⟩
    · exact absurd (hcycle.mono hsub) hfree
    · by_cases hself : i = c.dst
      · -- a packet for the sender itself blocks nobody
        refine absurd (hcycle.mono fun x y hxy => ?_) hfree
        exact ((writes_of_call hcalls hpc x y).1 hxy).resolve_right fun hnew => hnew.2.2 hself
      · have hinsert : ∀ x y, t'.Writes x y ↔ t.Writes x y ∨ (x = i ∧ y = c.dst) := by
          intro x y
          simpa [hself] using writes_of_call hcalls hpc x y
        exact ⟨i, ptrs, bus, c, rfl, hcalls, hself, (hasCycle_insert_iff hinsert hfree).1 hcycle⟩
  · rintro ⟨i, ptrs, bus, c, rfl, hcalls, hself, hback⟩
    have ht' : t' = { t with bus := bus }.goto i (.locking c) :=
      Option.some.inj (h.symm.trans (Threads.step_of_calls hcalls ptrs))
    have hinsert : ∀ x y, t'.Writes x y ↔ t.Writes x y ∨ (x = i ∧ y = c.dst) := by
      intro x y
      simpa [hself] using writes_of_call hcalls (congrArg Threads.pc ht') x y
    exact (hasCycle_insert_iff hinsert hfree).2 hback

theorem not_deadlock_of_started (h : Started t) : ¬ t.Deadlock := by
  rintro ⟨i, hi⟩
  rcases Relation.TransGen.head'_iff.1 hi with ⟨j, ⟨c, _, ⟨hpc, _⟩ | hpc⟩, _⟩
  · simp [h.pc] at hpc
  · simp [h.pc] at hpc

/-- A whole run from a state without a deadlock. -/
theorem run_deadlock_iff (acts : List ThreadAct) (hinv : LockInv t) (hfree : ¬ t.Deadlock)
    (hrun : t.run cfg acts = some t') :
    (∀ pre post u, acts = pre ++ post → t.run cfg pre = some u → ¬ u.Deadlock) ↔
      ∀ pre a post u, acts = pre ++ a :: post → t.run cfg pre = some u → ¬ ClosesCycle cfg u a := by
  simp only [Threads.run_eq_foldlM] at hrun ⊢
  exact never_iff (fun hlocks hact => (act_transition hact).lockInv hlocks) deadlock_step_iff hinv
    hfree hrun

end Cycles

/-- A run of the threads stays free of deadlocks exactly when none of its steps starts a call to
another module from which calls in progress lead back to the caller. -/
theorem no_deadlock_iff (cfg : ThreadConfig) (t t' : Threads) (acts : List ThreadAct)
    (hstart : Started t) (hrun : t.run cfg acts = some t') :
    (∀ pre post u, acts = pre ++ post → t.run cfg pre = some u → ¬ u.Deadlock) ↔
      ∀ pre a post u, acts = pre ++ a :: post → t.run cfg pre = some u → ¬ ClosesCycle cfg u a :=
  run_deadlock_iff acts (lockInv_of_started hstart) (not_deadlock_of_started hstart) hrun

/-! A page for the region of each module. -/

theorem page_pos (m : Nat) : 0 < 4096 * (m % sdbModuleMax + 1) := by omega

theorem page_end (m : Nat) :
    4096 * (m % sdbModuleMax + 1) + sdbModuleDataSize ≤ 256 ^ Arch.lp64.ptrSize := by
  have hmod : m % sdbModuleMax < sdbModuleMax := Nat.mod_lt m (by decide)
  have hspace : 4096 * 20 + 1024 ≤ 256 ^ Arch.lp64.ptrSize := by decide
  simp only [sdbModuleMax, sdbModuleDataSize] at hmod ⊢
  exact Nat.le_trans (by omega) hspace

/-- The shipped program with addresses for its regions. -/
def shippedThreads : ThreadConfig where
  toSDBConfig := shippedConfig .lp64
  dataAddr := fun m => 4096 * (m % sdbModuleMax + 1)
  dataAddr_pos := page_pos
  dataAddr_end := page_end

/-- The threads of the core and the process manager, before they do anything. -/
def twoThreads : Threads where
  bus := coreAndProcman
  data := fun _ => ⟨fun _ => 0⟩
  lock := fun _ => .free
  pc := fun _ => .woken
  written := fun _ => []
  read := fun _ => []

theorem started_twoThreads : Started twoThreads :=
  ⟨fresh_coreAndProcman, by decide, fun _ => rfl, fun _ => rfl, fun _ => rfl, fun _ => rfl⟩

/-- Pointers for the packets of the examples. -/
def somePointers : Pointers where
  args := 77
  dest := 88
  data := 99

/-- The core sends `test` to the process manager: it takes its lock, calls, takes the other lock,
copies the packet and marks the region as valid. -/
def sendRun : List ThreadAct :=
  [.client 0 testBytes, .observe 0, .step 0 somePointers, .step 0 somePointers,
    .step 0 somePointers, .step 0 somePointers, .step 0 somePointers]

/-- A call closes a cycle only if another thread is in a call already. -/
theorem ClosesCycle.other {cfg : ThreadConfig} {t : Threads} {a : ThreadAct}
    (h : ClosesCycle cfg t a) :
    ∃ i ptrs j, a = .step i ptrs ∧ i < t.bus.sdbModuleLast ∧ j < t.bus.sdbModuleLast ∧ i ≠ j ∧
      (t.pc j).call.isSome = true := by
  rcases h with ⟨i, ptrs, bus, c, ha, hcalls, hne, hback⟩
  have hdst : c.dst < t.bus.sdbModuleLast := by
    rw [← (sameBoxes_socketCall hcalls.call).last]
    exact Nat.lt_of_not_le fun hle => hcalls.taken (Or.inl hle)
  -- the chain back to the caller is not empty, so it starts with a call of the destination
  rcases Relation.ReflTransGen.cases_head hback with hsame | ⟨k, ⟨_, d, hd, _⟩, _⟩
  · exact absurd hsame.symm hne
  · exact ⟨i, ptrs, c.dst, ha, hcalls.lt, hdst, hne, by simp [hd]⟩

theorem no_deadlock_iff_send :
    ∃ t, twoThreads.run shippedThreads sendRun = some t ∧ (t.written 1).length = 1 ∧
      ¬ t.Deadlock := by
  -- in every state before a step of the run, thread 1 is in no call
  have hquiet : ∀ n < sendRun.length, (twoThreads.run shippedThreads (sendRun.take n)).all
      (fun u => u.bus.sdbModuleLast = 2 && (u.pc 1).call.isNone) = true := by decide +kernel
  refine ⟨_, rfl, by decide +kernel, ?_⟩
  refine (no_deadlock_iff shippedThreads twoThreads _ sendRun started_twoThreads rfl).2 ?_ sendRun
    [] _ (by simp) rfl
  intro pre a post u hsplit hpre hcloses
  have hu := Threads.all_states hquiet hsplit hpre
  simp only [Bool.and_eq_true, decide_eq_true_eq, Option.isNone_iff_eq_none] at hu
  rcases hcloses.other with ⟨i, ptrs, j, rfl, hi, hj, hne, hcall⟩
  -- the other thread is not in a call, and the run has steps of thread 0 only
  have hj0 : j ≠ 1 := by
    rintro rfl
    simp [hu.2] at hcall
  have hi1 : i = 1 := by omega
  have hmem : ThreadAct.step i ptrs ∈ sendRun := by simp [hsplit]
  simp [sendRun, hi1] at hmem

/-- The process manager sends `test` to the core. -/
def crossPacket : MCSPacket := rawPacket 8 0 (some coreName) emptyBlock emptyBlock

/-- The two modules send to each other: both threads take their own locks, and both call. -/
def crossRun : List ThreadAct :=
  [.client 0 testBytes, .client 1 (mcsWriteCommand commandSet crossPacket openFd).2, .observe 0,
    .observe 1, .step 0 somePointers, .step 1 somePointers, .step 0 somePointers,
    .step 1 somePointers]

/-- Each thread holds its own lock and waits for the other's. -/
theorem crossRun_deadlock :
    Started twoThreads ∧ ∃ t, twoThreads.run shippedThreads crossRun = some t ∧ t.Deadlock := by
  refine ⟨started_twoThreads, _, rfl, 0, ?_⟩
  -- 0 is blocked on the lock of 1, and 1 on that of 0
  refine Relation.TransGen.head (b := 1) ⟨_, ?_, Or.inl ⟨rfl, ?_⟩⟩
    (.single ⟨_, ?_, Or.inl ⟨rfl, ?_⟩⟩)
  · rfl
  · rfl
  · rfl
  · rfl

/-! ## Sending to oneself -/

/-- A thread that sends to its own module finds the region in use: it prints "Deadlock detected" and
returns. -/
def Threads.DetectsDeadlock (t : Threads) (i : Nat) : Prop :=
  ∃ c, t.pc i = .testing c ∧ c.dst = i ∧ t.valid i = true

section SelfSend

variable {cfg : ThreadConfig} {t t' : Threads} {i : Nat}

/-- It would go on with its lock held twice. -/
theorem Threads.step_of_detectsDeadlock (ptrs : Pointers) (h : t.DetectsDeadlock i) :
    ∃ t', t.step cfg ptrs i = some t' ∧ t'.pc i = .loop ∧ t'.lock = t.lock := by
  rcases h with ⟨c, hpc, rfl, hvalid⟩
  refine ⟨{ t with bus := closeCall cfg.toSDBConfig c.dst c t.bus }.goto c.dst .loop, ?_, ?_, rfl⟩
  · simp only [Threads.step, hpc, hvalid, if_true]
  · simp [Threads.goto]

/-- In every state of every run, a thread that is in a call to its own module has a free region, so
that it does not return from the call by detecting a deadlock; at the head of its main loop it holds
its lock once. -/
theorem self_send_finds_free (cfg : ThreadConfig) (t t' : Threads) (acts : List ThreadAct)
    (hstart : Started t) (hrun : t.run cfg acts = some t') (i : Nat) :
    (∀ c, (t'.pc i).call = some c → c.dst = i → t'.valid i = false) ∧
      ¬ t'.DetectsDeadlock i ∧
      (t'.pc i = .loop → (t'.lock i).depth i = 1) := by
  have hinv : LockInv t' := Threads.run_lockInv hstart hrun
  have hfree : ∀ c, (t'.pc i).call = some c → t'.valid i = false := by
    intro c hc
    simp [Threads.valid, hinv.empty hc]
  refine ⟨fun c hc _ => hfree c hc, ?_, fun hpc => ?_⟩
  · rintro ⟨c, hpc, _, hvalid⟩
    have hempty : t'.valid i = false := hfree c (by rw [hpc]; rfl)
    rw [hempty] at hvalid
    cases hvalid
  · have hdepth : (t'.lock i).depth i = (t'.pc i).holds i i := hinv.agree i i
    rw [hdepth, hpc]
    simp [PC.holds, PC.inside, PC.entered]

/-- The core sends `test` to itself. -/
def selfPacket : MCSPacket := rawPacket 9 0 (some coreName) emptyBlock emptyBlock

/-- It takes its lock, calls, and takes its lock again. -/
def selfRun : List ThreadAct :=
  [.client 0 (mcsWriteCommand commandSet selfPacket openFd).2, .observe 0, .step 0 somePointers,
    .step 0 somePointers, .step 0 somePointers]

theorem self_send_finds_free_selfRun :
    ∃ t c, twoThreads.run shippedThreads selfRun = some t ∧ t.pc 0 = .testing c ∧ c.dst = 0 ∧
      t.valid 0 = false := by
  have hend : (twoThreads.run shippedThreads selfRun).any
      (fun t => match t.pc 0 with | .testing c => c.dst = 0 | _ => false) = true := by
    decide +kernel
  rcases (Option.any_eq_true _ _).1 hend with ⟨t, hrun, ht⟩
  cases hpc : t.pc 0 with
  | testing c =>
      have hdst : c.dst = 0 := by simpa [hpc] using ht
      have hcall : (t.pc 0).call = some c := by rw [hpc]; rfl
      exact ⟨t, c, hrun, hpc, hdst,
        (self_send_finds_free shippedThreads twoThreads t selfRun started_twoThreads hrun 0).1 c
          hcall hdst⟩
  | _ => simp [hpc] at ht

end SelfSend

end SDB
end AbsPlatform
