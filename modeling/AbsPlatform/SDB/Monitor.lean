import AbsPlatform.SDB.Handoff
import AbsPlatform.SDB.Notify

/-!
# Monitor — condition variables that wake nobody by themselves

The threads of `Threads` with the wait sets of their condition variables: a thread in
`pthread_cond_wait` goes on only after a broadcast that came after it began to wait.  A module's
condition variable is broadcast by the observer and by whoever has filled its region, and not by
the owner when it has emptied the region.

`no_lost_wakeup_iff` says when that matters: a writer is left behind exactly when the owner of an
empty region goes to wait while the writer is waiting for that region.
-/

namespace AbsPlatform
namespace SDB

open MCS Lib

/-! ## The monitor -/

namespace PC

/-- In `pthread_cond_wait`. -/
def parked : PC → Bool
  | .idle => true
  | .waiting _ => true
  | _ => false

/-- Where a broadcast on the condition variable of module `m` puts thread `j`. -/
def wake (m j : Nat) : PC → PC
  | .idle => if j = m then .woken else .idle
  | .waiting c => if c.dst = m then .locking c else .waiting c
  | pc => pc

end PC

structure Monitor where
  threads : Threads
  /-- whether a module's condition variable has been broadcast since its region became free -/
  broadcast : Nat → Bool

namespace Monitor

/-- All modules are registered; each thread has made its first broadcast. -/
def start (t : Threads) : Monitor := ⟨t, fun _ => true⟩

/-- `pthread_cond_broadcast`. -/
def condBroadcast (m : Nat) (u : Monitor) : Monitor where
  threads := { u.threads with pc := fun j => (u.threads.pc j).wake m j }
  broadcast := Function.update u.broadcast m true

/-- What the last step of a thread has done besides: marking a region as valid comes with a
broadcast, and marking it as free does not. -/
def notify (i : Nat) (pc : PC) (u : Monitor) : Monitor :=
  match pc with
  | .copied c => u.condBroadcast c.dst
  | .fetching _ _ => { u with broadcast := Function.update u.broadcast i false }
  | _ => u

def act (cfg : ThreadConfig) (u : Monitor) (a : ThreadAct) : Option Monitor :=
  match a with
  | .client _ _ =>
      match u.threads.act cfg a with
      | none => none
      | some t => some { u with threads := t }
  | .observe m =>
      match u.threads.act cfg a with
      | none => none
      | some t => some ({ u with threads := t }.condBroadcast m)
  | .step i _ =>
      if (u.threads.pc i).parked then
        none
      else
        match u.threads.act cfg a with
        | none => none
        | some t => some ({ u with threads := t }.notify i (u.threads.pc i))

def run (cfg : ThreadConfig) (u : Monitor) (acts : List ThreadAct) : Option Monitor :=
  acts.foldlM (act cfg) u

end Monitor

/-! ## Runs of the monitor and runs of the threads -/

/-- A thread in `pthread_cond_wait` belongs to a registered module. -/
def Registered (t : Threads) : Prop := ∀ j, (t.pc j).parked = true → j < t.bus.sdbModuleLast

section Simulation

variable {cfg : ThreadConfig} {t t' : Threads} {a : ThreadAct} {j m : Nat}

/-- Threads of `js` have been woken. -/
def wakeAll (m : Nat) (js : List Nat) (t : Threads) : Threads :=
  { t with pc := fun j => if j ∈ js then (t.pc j).wake m j else t.pc j }

theorem PC.wake_wake (pc : PC) : (pc.wake m j).wake m j = pc.wake m j := by
  cases pc with
  | idle =>
      by_cases hj : j = m
      · simp [wake, hj]
      · simp [wake, hj]
  | waiting c =>
      by_cases hdst : c.dst = m
      · simp [wake, hdst]
      · simp [wake, hdst]
  | _ => rfl

theorem PC.wake_of_not_parked {pc : PC} (h : pc.parked = false) : pc.wake m j = pc := by
  cases pc with
  | idle => cases h
  | waiting c => cases h
  | _ => rfl

/-- Waking one thread is a step of it, or nothing. -/
theorem run_wake_one (cfg : ThreadConfig) (m : Nat) (hj : j < t.bus.sdbModuleLast) :
    ∃ acts, t.run cfg acts = some (t.goto j ((t.pc j).wake m j)) := by
  by_cases hsame : (t.pc j).wake m j = t.pc j
  · refine ⟨[], ?_⟩
    rw [hsame, Threads.goto, Function.update_eq_self]
    rfl
  · refine ⟨[.step j ⟨0, 0, 0⟩], ?_⟩
    cases hpc : t.pc j with
    | idle =>
        have hjm : j = m := by
          by_contra hne
          simp [hpc, PC.wake, hne] at hsame
        subst hjm
        simp [Threads.run, Threads.act, hj, Threads.step, hpc, PC.wake]
    | waiting c =>
        have hdst : c.dst = m := by
          by_contra hne
          simp [hpc, PC.wake, hne] at hsame
        simp [Threads.run, Threads.act, hj, Threads.step, hpc, PC.wake, hdst]
    | _ => exact absurd (PC.wake_of_not_parked (by simp [hpc, PC.parked])) hsame

theorem run_wakeAll (cfg : ThreadConfig) (m : Nat) (js : List Nat)
    (hjs : ∀ j ∈ js, j < t.bus.sdbModuleLast) :
    ∃ acts, t.run cfg acts = some (wakeAll m js t) := by
  induction js generalizing t with
  | nil => exact ⟨[], by simp [Threads.run, wakeAll]⟩
  | cons j js ih =>
      rcases run_wake_one cfg m (hjs j (by simp)) with ⟨first, hfirst⟩
      rcases ih (t := t.goto j ((t.pc j).wake m j)) (fun k hk => hjs k (by simp [hk])) with
        ⟨rest, hrest⟩
      refine ⟨first ++ rest, ?_⟩
      rw [Threads.run_append hfirst, hrest]
      -- waking a thread twice is waking it once
      have hpc : ∀ k, (wakeAll m js (t.goto j ((t.pc j).wake m j))).pc k =
          (wakeAll m (j :: js) t).pc k := by
        intro k
        by_cases hk : k = j
        · subst hk
          simp [wakeAll, Threads.goto, PC.wake_wake]
        · simp [wakeAll, Threads.goto, hk]
      exact congrArg (fun pc => some { t with pc := pc }) (funext hpc)

/-- A broadcast is a run of the threads it wakes. -/
theorem run_condBroadcast (cfg : ThreadConfig) (m : Nat) (u : Monitor)
    (h : Registered u.threads) :
    ∃ acts, u.threads.run cfg acts = some (u.condBroadcast m).threads := by
  rcases run_wakeAll cfg m (List.range u.threads.bus.sdbModuleLast) (t := u.threads) (by simp) with
    ⟨acts, hacts⟩
  refine ⟨acts, hacts.trans ?_⟩
  have hpc : ∀ j, (wakeAll m (List.range u.threads.bus.sdbModuleLast) u.threads).pc j =
      (u.threads.pc j).wake m j := by
    intro j
    by_cases hj : j < u.threads.bus.sdbModuleLast
    · simp [wakeAll, hj]
    · -- the threads beyond the last module do not wait
      have hnot : (u.threads.pc j).parked = false := by
        simpa using mt (h j) hj
      simp [wakeAll, hj, PC.wake_of_not_parked hnot]
  exact congrArg (fun pc => some { u.threads with pc := pc }) (funext hpc)

theorem Transition.last (h : Transition cfg t a t') :
    t'.bus.sdbModuleLast = t.bus.sdbModuleLast := by
  cases h with
  | quiet bus hboxes => exact hboxes.last
  | consume i src pkt bus _ hlast _ _ => exact hlast
  | call i ptrs bus c _ _ hboxes => exact hboxes.last
  | giveUp i c bus _ _ _ hboxes => exact hboxes.last
  | publish i c bus _ hlast _ _ => exact hlast
  | _ => rfl

theorem registered_act (h : Registered t) (hact : t.act cfg a = some t') : Registered t' := by
  intro j hj
  rw [(act_transition hact).last]
  cases a with
  | client m bytes =>
      cases hact
      exact h j hj
  | observe m =>
      simp only [Threads.act] at hact
      split_ifs at hact
      cases hact
      exact h j hj
  | step i ptrs =>
      by_cases hji : j = i
      · simp only [Threads.act] at hact
        split_ifs at hact with hlt
        exact hji ▸ hlt
      · rw [((act_step hact).other hji).1] at hj
        exact h j hj

theorem registered_condBroadcast (m : Nat) {u : Monitor} (h : Registered u.threads) :
    Registered (u.condBroadcast m).threads := by
  intro j hj
  refine h j ?_
  by_contra hnot
  have hsame := PC.wake_of_not_parked (m := m) (j := j) (Bool.not_eq_true _ ▸ hnot)
  exact hnot (hsame ▸ hj)

/-- A step of the monitor is one of the threads, with or without a broadcast after it. -/
theorem monitor_act_cases {u u' : Monitor} (h : u.act cfg a = some u') :
    ∃ v : Monitor, u.threads.act cfg a = some v.threads ∧
      (u'.threads = v.threads ∨ ∃ m, u' = v.condBroadcast m) := by
  unfold Monitor.act at h
  cases hact : u.threads.act cfg a with
  | none =>
      rw [hact] at h
      split at h
      · cases h
      · cases h
      · split_ifs at h
  | some t =>
      rw [hact] at h
      refine ⟨{ u with threads := t }, rfl, ?_⟩
      split at h
      · cases h
        exact Or.inl rfl
      · cases h
        exact Or.inr ⟨_, rfl⟩
      · split_ifs at h
        cases h
        unfold Monitor.notify
        split
        · exact Or.inr ⟨_, rfl⟩
        · exact Or.inl rfl
        · exact Or.inl rfl

/-- Every run of the monitor is a run of the threads, one in which nobody wakes up by chance. -/
theorem run_threads {u u' : Monitor} {acts : List ThreadAct} (h : Registered u.threads)
    (hrun : u.run cfg acts = some u') :
    ∃ acts', u.threads.run cfg acts' = some u'.threads := by
  -- the run so far is the invariant
  refine (Lib.run_invariant (I := fun v => Registered v.threads ∧
    ∃ acts', u.threads.run cfg acts' = some v.threads) ?_ ⟨h, [], rfl⟩ hrun).2
  rintro v v' b ⟨hv, acts', hacts'⟩ hact
  rcases monitor_act_cases hact with ⟨w, hw, hsame | ⟨m, rfl⟩⟩
  · refine ⟨hsame ▸ registered_act hv hw, acts' ++ [b], ?_⟩
    rw [Threads.run_append hacts', Threads.run_cons hw, hsame]
    rfl
  · have hreg := registered_act hv hw
    rcases run_condBroadcast cfg m w hreg with ⟨woken, hwoken⟩
    refine ⟨registered_condBroadcast m hreg, acts' ++ b :: woken, ?_⟩
    rw [Threads.run_append hacts', Threads.run_cons hw, hwoken]

theorem registered_of_started (h : Started t) : Registered t := by
  intro j hj
  simp [h.pc, PC.parked] at hj

/-- What holds of all runs of the threads holds of the monitor: the region of a module hands over
each packet once. -/
theorem run_handInv {u' : Monitor} {acts : List ThreadAct} (hstart : Started t)
    (hrun : (Monitor.start t).run cfg acts = some u') : HandInv cfg u'.threads := by
  rcases run_threads (registered_of_started hstart) hrun with ⟨acts', hacts'⟩
  exact Threads.run_handInv hstart hacts'

end Simulation

/-! ## Lost wake-ups -/

/-- Thread `i` waits for a region that is free, whose owner waits as well, and there has been no
broadcast since the region became free. -/
def LostWakeup (u : Monitor) : Prop :=
  ∃ i c, u.threads.pc i = .waiting c ∧ u.threads.pc c.dst = .idle ∧
    u.threads.valid c.dst = false ∧ u.broadcast c.dst = false

/-- The owner of module `m` has nothing to do, and the next step is its `pthread_cond_wait`. -/
structure Rests (u : Monitor) (a : ThreadAct) (m : Nat) : Prop where
  act : ∃ ptrs, a = .step m ptrs
  lt : m < u.threads.bus.sdbModuleLast
  pc : u.threads.pc m = .loop
  valid : u.threads.valid m = false
  dataSocket : (u.threads.bus.modules m).dataSocket = false

/-- An owner goes to wait while another thread waits for its region. -/
def LeavesWriter (u : Monitor) (a : ThreadAct) : Prop :=
  ∃ i c, u.threads.pc i = .waiting c ∧ Rests u a c.dst

/-- Whoever waits for a region has found it full, and there has been no broadcast since. -/
def WaitInv (u : Monitor) : Prop :=
  ∀ i c, u.threads.pc i = .waiting c →
    u.threads.valid c.dst = true ∨ u.broadcast c.dst = false

/-- A step that puts no owner to wait: a waiting thread has just found the region full, or the
region has just been emptied by its owner, or nothing has changed for it. -/
structure Steady (u u' : Monitor) : Prop where
  waiting : ∀ {j c}, u'.threads.pc j = .waiting c →
    u'.threads.valid c.dst = true ∨
      (u'.broadcast c.dst = false ∧ u'.threads.pc c.dst ≠ .idle) ∨
      (u.threads.pc j = .waiting c ∧ u'.threads.valid c.dst = u.threads.valid c.dst ∧
        u'.broadcast c.dst = u.broadcast c.dst)
  idle : ∀ {m}, u'.threads.pc m = .idle → u.threads.pc m = .idle

section Steps

variable {cfg : ThreadConfig} {u u' : Monitor} {a : ThreadAct} {i m : Nat}

theorem Steady.waitInv (h : Steady u u') (hinv : WaitInv u) : WaitInv u' := by
  intro j c hj
  rcases h.waiting hj with hfull | ⟨hquiet, _⟩ | ⟨hold, hvalid, hbroadcast⟩
  · exact Or.inl hfull
  · exact Or.inr hquiet
  · rw [hvalid, hbroadcast]
    exact hinv j c hold

theorem Steady.lost (h : Steady u u') (hlost : LostWakeup u') : LostWakeup u := by
  rcases hlost with ⟨j, c, hj, hidle, hempty, hquiet⟩
  rcases h.waiting hj with hfull | ⟨_, hnot⟩ | ⟨hold, hvalid, hbroadcast⟩
  · simp [hempty] at hfull
  · exact absurd hidle hnot
  · exact ⟨j, c, hold, h.idle hidle, hvalid ▸ hempty, hbroadcast ▸ hquiet⟩

/-- A thread moves, and not into `pthread_cond_wait`. -/
theorem steady_goto (pc' : PC)
    (hpc : u'.threads.pc = Function.update u.threads.pc i pc')
    (hpark : pc'.parked = false) (hvalid : ∀ k, u'.threads.valid k = u.threads.valid k)
    (hbroadcast : u'.broadcast = u.broadcast) : Steady u u' where
  waiting := by
    intro j c hj
    have hne : PC.waiting c ≠ pc' := fun h => by simp [← h, PC.parked] at hpark
    have hold := (Threads.pc_of_update hpc hj hne).2
    exact Or.inr (Or.inr ⟨hold, hvalid c.dst, congrFun hbroadcast c.dst⟩)
  idle := by
    intro m hm
    have hne : PC.idle ≠ pc' := fun h => by simp [← h, PC.parked] at hpark
    exact (Threads.pc_of_update hpc hm hne).2

theorem steady_of_same (hpc : u'.threads.pc = u.threads.pc)
    (hvalid : ∀ k, u'.threads.valid k = u.threads.valid k)
    (hbroadcast : u'.broadcast = u.broadcast) : Steady u u' where
  waiting := fun {j c} hj =>
    Or.inr (Or.inr ⟨congrFun hpc j ▸ hj, hvalid c.dst, congrFun hbroadcast c.dst⟩)
  idle := fun {m} hm => congrFun hpc m ▸ hm

/-- A broadcast leaves nobody on that condition variable. -/
theorem PC.wake_eq_waiting {pc : PC} {j : Nat} {c : Call} (h : pc.wake m j = .waiting c) :
    pc = .waiting c ∧ c.dst ≠ m := by
  unfold PC.wake at h
  split at h
  · split_ifs at h
  · split_ifs at h with hdst
    cases h
    exact ⟨rfl, hdst⟩
  · next hnot => exact absurd h (hnot c)

theorem PC.wake_eq_idle {pc : PC} {j : Nat} (h : pc.wake m j = .idle) : pc = .idle := by
  unfold PC.wake at h
  split at h
  · rfl
  · split_ifs at h
  · exact h

/-- A broadcast on `m`, after which only the region of `m` may have changed. -/
theorem steady_condBroadcast {v : Monitor}
    (hpc : ∀ j pc, pc.parked = true → v.threads.pc j = pc → u.threads.pc j = pc)
    (hvalid : ∀ k, k ≠ m → v.threads.valid k = u.threads.valid k)
    (hbroadcast : v.broadcast = u.broadcast) : Steady u (v.condBroadcast m) where
  waiting := by
    intro j c hj
    rcases PC.wake_eq_waiting hj with ⟨hold, hdst⟩
    refine Or.inr (Or.inr ⟨hpc j _ rfl hold, hvalid c.dst hdst, ?_⟩)
    simp [Monitor.condBroadcast, hdst, hbroadcast]
  idle := fun {k} hk => hpc k _ rfl (PC.wake_eq_idle hk)

/-- The owner of `i` has emptied its region. -/
theorem steady_consume (hpc : u'.threads.pc = Function.update u.threads.pc i .loop)
    (hvalid : ∀ k, k ≠ i → u'.threads.valid k = u.threads.valid k)
    (hbroadcast : u'.broadcast = Function.update u.broadcast i false) : Steady u u' where
  waiting := by
    intro j c hj
    by_cases hdst : c.dst = i
    · exact Or.inr (Or.inl ⟨by simp [hbroadcast, hdst], by simp [hpc, hdst]⟩)
    · have hold := (Threads.pc_of_update hpc hj (by simp)).2
      exact Or.inr (Or.inr ⟨hold, hvalid c.dst hdst, by simp [hbroadcast, hdst]⟩)
  idle := fun {k} hk => (Threads.pc_of_update hpc hk (by simp)).2

theorem SameBoxes.valid {t t' : Threads} (h : SameBoxes t.bus t'.bus) (k : Nat) :
    t'.valid k = t.valid k := by
  simp [Threads.valid, h.mailbox]

theorem valid_update (t : Threads) (k : Nat) {f : SDBModule → SDBModule}
    (h : ∀ x, (f x).mailbox = x.mailbox) (j : Nat) :
    ({ t with bus := t.bus.update k f } : Threads).valid j = t.valid j :=
  SameBoxes.valid (t := t) (sameBoxes_update h) j

/-- What a step of a thread comes to. -/
theorem step_steady {ptrs : Pointers} {t' : Threads} (hlt : i < u.threads.bus.sdbModuleLast)
    (hgoes : (u.threads.pc i).parked = false) (h : u.threads.step cfg ptrs i = some t') :
    Rests u (.step i ptrs) i ∨
      Steady u ({ u with threads := t' }.notify i (u.threads.pc i)) := by
  cases step_case h with
  | wake hpc => simp [hpc, PC.parked] at hgoes
  | again c hpc => simp [hpc, PC.parked] at hgoes
  | resume l hpc _ =>
      rw [hpc]
      exact Or.inr (steady_goto .loop rfl rfl (fun _ => rfl) rfl)
  | fetch r hpc _ _ =>
      rw [hpc]
      exact Or.inr (steady_goto (.fetching r.1 r.2) rfl rfl (fun _ => rfl) rfl)
  | handle bus hpc _ _ hcall hend =>
      rw [hpc]
      exact Or.inr (steady_of_same rfl (sameBoxes_of_no_call hcall hend).valid rfl)
  | refuse bus c hpc _ _ hcall _ =>
      rw [hpc]
      have hboxes : SameBoxes u.threads.bus (closeCall cfg.toSDBConfig i c bus) :=
        (sameBoxes_socketCall hcall).trans sameBoxes_closeCall
      exact Or.inr (steady_of_same rfl hboxes.valid rfl)
  | call bus c hpc _ _ hcall _ =>
      rw [hpc]
      exact Or.inr (steady_goto (.locking c) rfl rfl (sameBoxes_socketCall hcall).valid rfl)
  | rest hpc hvalid hsocket => exact Or.inl ⟨⟨ptrs, rfl⟩, hlt, hpc, hvalid, hsocket⟩
  | consume src pkt hpc =>
      rw [hpc]
      refine Or.inr (steady_consume (i := i) rfl (fun k hk => ?_) rfl)
      exact congrArg Option.isSome (processPktSdb_mailbox_of_ne (src, pkt) hk)
  | enter c l hpc _ =>
      rw [hpc]
      exact Or.inr (steady_goto (.testing c) rfl rfl (fun _ => rfl) rfl)
  | giveUp c hpc _ _ =>
      rw [hpc]
      exact Or.inr (steady_goto .loop rfl rfl sameBoxes_closeCall.valid rfl)
  | wait c hpc hvalid _ =>
      rw [hpc]
      -- the writer begins to wait because the region is full
      refine Or.inr ⟨fun {j d} hj => ?_, fun {k} hk => ?_⟩
      · by_cases hji : j = i
        · have hd : c = d := by simpa [Threads.goto, Monitor.notify, hji] using hj
          exact Or.inl (hd ▸ hvalid)
        · refine Or.inr (Or.inr ⟨?_, rfl, rfl⟩)
          simpa [Threads.goto, Threads.unlock, Monitor.notify, hji] using hj
      · exact (Threads.pc_of_update rfl hk (by simp)).2
  | copy c data hpc _ _ _ =>
      rw [hpc]
      exact Or.inr (steady_goto (.copied c) rfl rfl (fun _ => rfl) rfl)
  | publish c hpc =>
      rw [hpc]
      refine Or.inr (steady_condBroadcast (fun j pc hpark hj => ?_) (fun k hk => ?_) rfl)
      · refine (Threads.pc_of_update rfl hj ?_).2
        rintro rfl
        simp [PC.parked] at hpark
      · exact congrArg Option.isSome (closeCall_setValid_mailbox_of_ne hk)

/-- An action puts an owner to wait, or it is steady. -/
theorem act_steady (h : u.act cfg a = some u') : (∃ m, Rests u a m) ∨ Steady u u' := by
  cases a with
  | client k bytes =>
      cases h
      refine Or.inr (steady_of_same rfl (fun j => valid_update _ k ?_ j) rfl)
      exact fun _ => rfl
  | observe k =>
      simp only [Monitor.act, Threads.act] at h
      split_ifs at h
      cases h
      refine Or.inr (steady_condBroadcast (fun j pc _ hj => hj)
        (fun j _ => valid_update _ k ?_ j) rfl)
      exact fun _ => rfl
  | step i ptrs =>
      simp only [Monitor.act] at h
      split_ifs at h with hparked
      simp only [Threads.act] at h
      split_ifs at h with hlt
      cases hstep : u.threads.step cfg ptrs i with
      | none => simp [hstep] at h
      | some t' =>
          simp only [hstep, Option.some.injEq] at h
          have hsteady := step_steady hlt (by simpa using hparked) hstep
          exact h ▸ hsteady.imp (fun hrests => ⟨i, hrests⟩) id

/-- The owner's `pthread_cond_wait`. -/
theorem Rests.result (h : Rests u a m) (hact : u.act cfg a = some u') :
    u' = { u with threads := (u.threads.unlock m).goto m .idle } := by
  rcases h.act with ⟨ptrs, rfl⟩
  simp only [Monitor.act, h.pc, PC.parked, Threads.act, h.lt, Threads.step, h.valid, h.dataSocket,
    Monitor.notify, Bool.false_eq_true, if_false, if_true, Option.some.injEq] at hact
  exact hact.symm

theorem waitInv_act (hinv : WaitInv u) (h : u.act cfg a = some u') : WaitInv u' := by
  rcases act_steady h with ⟨m, hrests⟩ | hsteady
  · rw [hrests.result h]
    intro j c hj
    exact hinv j c (Threads.pc_of_update (t := u.threads.unlock m) rfl hj (by simp)).2
  · exact hsteady.waitInv hinv

/-- One step: a writer is left behind exactly when an owner goes to wait before it. -/
theorem lostWakeup_step_iff (hinv : WaitInv u) (hgood : ¬ LostWakeup u)
    (h : u.act cfg a = some u') : LostWakeup u' ↔ LeavesWriter u a := by
  constructor
  · intro hlost
    rcases act_steady h with ⟨m, hrests⟩ | hsteady
    · rw [hrests.result h] at hlost
      rcases hlost with ⟨j, c, hj, hidle, hempty, hquiet⟩
      have hold : u.threads.pc j = .waiting c :=
        (Threads.pc_of_update (t := u.threads.unlock m) rfl hj (by simp)).2
      by_cases hdst : c.dst = m
      · exact ⟨j, c, hold, hdst ▸ hrests⟩
      · have hidle' : u.threads.pc c.dst = .idle := by
          simpa [Threads.goto, Threads.unlock, hdst] using hidle
        exact absurd ⟨j, c, hold, hidle', hempty, hquiet⟩ hgood
    · exact absurd (hsteady.lost hlost) hgood
  · rintro ⟨j, c, hj, hrests⟩
    rw [hrests.result h]
    -- the writer had found the region full, so there was no broadcast since it was emptied
    have hquiet : u.broadcast c.dst = false :=
      (hinv j c hj).resolve_left (by simp [hrests.valid])
    have hne : j ≠ c.dst := by
      intro hself
      rw [hself, hrests.pc] at hj
      cases hj
    refine ⟨j, c, ?_, by simp [Threads.goto], hrests.valid, hquiet⟩
    simpa [Threads.goto, Threads.unlock, hne] using hj

end Steps

/-- A run of the threads has no lost wake-up at a mailbox exactly when no owner goes to wait, its
region being empty, while another thread waits for that region. -/
theorem no_lost_wakeup_iff (cfg : ThreadConfig) (t : Threads) (u' : Monitor)
    (acts : List ThreadAct) (hstart : Started t)
    (hrun : (Monitor.start t).run cfg acts = some u') :
    (∀ pre post u, acts = pre ++ post → (Monitor.start t).run cfg pre = some u →
        ¬ LostWakeup u) ↔
      ∀ pre a post u, acts = pre ++ a :: post → (Monitor.start t).run cfg pre = some u →
        ¬ LeavesWriter u a := by
  have hnone : ∀ i c, (Monitor.start t).threads.pc i ≠ .waiting c := by
    intro i c hi
    rw [show (Monitor.start t).threads.pc i = .woken from hstart.pc i] at hi
    cases hi
  refine never_iff waitInv_act lostWakeup_step_iff (fun i c hi => absurd hi (hnone i c)) ?_ hrun
  rintro ⟨i, c, hi, _⟩
  exact hnone i c hi

theorem sendRun_wakes :
    (∃ u, (Monitor.start twoThreads).run shippedThreads sendRun = some u ∧
      (u.threads.written 1).length = 1) ∧
    ∀ pre post u, sendRun = pre ++ post →
      (Monitor.start twoThreads).run shippedThreads pre = some u → ¬ LostWakeup u := by
  -- thread 0 is never at the head of its loop without something to do
  have hbusy : ∀ n < sendRun.length,
      ((Monitor.start twoThreads).run shippedThreads (sendRun.take n)).all
        (fun u => (u.threads.pc 0).call.isSome || !(u.threads.pc 0).inside ||
          (u.threads.bus.modules 0).dataSocket) = true := by decide +kernel
  have hend : ((Monitor.start twoThreads).run shippedThreads sendRun).any
      (fun u => (u.threads.written 1).length = 1) = true := by decide +kernel
  rcases (Option.any_eq_true _ _).1 hend with ⟨u', hrun, hwritten⟩
  refine ⟨⟨u', hrun, of_decide_eq_true hwritten⟩, ?_⟩
  refine (no_lost_wakeup_iff shippedThreads twoThreads u' sendRun started_twoThreads hrun).2 ?_
  rintro pre a post u hsplit hpre ⟨i, c, _, hrests⟩
  rcases hrests.act with ⟨ptrs, rfl⟩
  have hdst : c.dst = 0 := by
    have hmem : ThreadAct.step c.dst ptrs ∈ sendRun := by simp [hsplit]
    simp [sendRun] at hmem
    exact hmem.1
  have hu := Lib.all_states hbusy hsplit hpre
  rw [← hdst] at hu
  simp [hrests.pc, PC.call, PC.inside, hrests.dataSocket] at hu

/-- The core sends `test` twice.  The second time it finds the region of the process manager full
and waits; the process manager empties the region and waits as well. -/
def lateRun : List ThreadAct :=
  [.client 0 (testBytes ++ testBytes), .observe 0, .step 0 somePointers, .step 0 somePointers,
    .step 0 somePointers, .step 0 somePointers, .step 0 somePointers, .step 0 somePointers,
    .observe 0, .step 0 somePointers, .step 0 somePointers, .step 0 somePointers,
    .step 0 somePointers, .step 1 somePointers, .step 1 somePointers, .step 1 somePointers,
    .step 1 somePointers]

/-- The thread waits for the region of module `m`. -/
def PC.waitsFor (m : Nat) : PC → Bool
  | .waiting c => c.dst = m
  | _ => false

theorem PC.waitsFor_iff {m : Nat} {pc : PC} :
    pc.waitsFor m = true ↔ ∃ c, pc = .waiting c ∧ c.dst = m := by
  cases pc with
  | waiting c => simp [waitsFor]
  | _ => simp [waitsFor]

theorem lateRun_lost :
    Started twoThreads ∧
      ∃ u, (Monitor.start twoThreads).run shippedThreads lateRun = some u ∧ LostWakeup u ∧
        ∀ ptrs, u.act shippedThreads (.step 0 ptrs) = none ∧
          u.act shippedThreads (.step 1 ptrs) = none := by
  have hend : ((Monitor.start twoThreads).run shippedThreads lateRun).any (fun u =>
      (u.threads.pc 0).waitsFor 1 && (u.threads.pc 1).parked && !(u.threads.pc 1).inside &&
        !u.threads.valid 1 && !u.broadcast 1) = true := by decide +kernel
  rcases (Option.any_eq_true _ _).1 hend with ⟨u, hrun, hu⟩
  simp only [Bool.and_eq_true, PC.waitsFor_iff, Bool.not_eq_true'] at hu
  rcases hu with ⟨⟨⟨⟨⟨c, hwaits, hdst⟩, hparked⟩, hinside⟩, hvalid⟩, hbroadcast⟩
  have hidle : u.threads.pc 1 = .idle := by
    cases hpc : u.threads.pc 1 <;> simp [hpc, PC.parked, PC.inside] at hparked hinside ⊢
  refine ⟨started_twoThreads, u, hrun, ⟨0, c, hwaits, ?_⟩, fun ptrs => ⟨?_, ?_⟩⟩
  · rw [hdst]
    exact ⟨hidle, hvalid, hbroadcast⟩
  · simp [Monitor.act, hwaits, PC.parked]
  · simp [Monitor.act, hparked]

end SDB
end AbsPlatform
