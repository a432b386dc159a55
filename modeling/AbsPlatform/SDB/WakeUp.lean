import AbsPlatform.SDB.Admission

/-!
# WakeUp — the observer and the pipe that wakes it up

`sdb_observer_thread` waits in `select` for the descriptors of the modules and for a pipe, to which
the thread of a new module writes when its handshake is through.  The write end of the pipe is
published in `sdb_observer_fd`; a module that comes earlier finds -1 there and writes nothing.

The steps of the registry are those of `Registry`, with the call of `sdb_observer_wake_up` in front
of the main loop.  Whenever the observer is blocked in `select`, it watches every module and no
module has unread data; it can be blocked in its first `read` only if every module has come before
the pipe was published (`observer_blocked`).  A client that has been refused leaves a closed
descriptor in the set: `select` fails from then on, and no module is told about data any more until
the descriptor is used again (`refused_silences`).
-/

namespace AbsPlatform
namespace SDB

open Lib MCS

/-! ## State -/

/-- Where `sdb_observer_thread` is. -/
inductive Observer
  /-- in front of `pipe` -/
  | start
  /-- in front of `sdb_observer_fd = pipefd[1]` -/
  | piped
  /-- in the first `read` -/
  | initial
  /-- at the beginning of the loop -/
  | top
  /-- it has read `sdb_module_last`, and these descriptors are in the set -/
  | collecting (last : Nat) (fds : List Nat)
  /-- in `select` -/
  | selecting (fds : List Nat)
  /-- `select` has found the pipe -/
  | draining
  /-- `select` has found these descriptors, and not the pipe -/
  | serving (last : Nat) (ready : List Nat)
  deriving DecidableEq

/-- What the thread of a slot has done of `sdb_observer_wake_up`. -/
inductive Wake
  | before
  /-- it has seen a descriptor -/
  | writing
  | woken
  /-- it has seen -1 -/
  | missed
  deriving DecidableEq

structure Watch where
  reg : Registry
  observer : Observer
  /-- `sdb_observer_fd` is not -1 -/
  published : Bool
  /-- bytes in the pipe -/
  pipe : Nat
  wake : Nat → Wake
  /-- something can be read from a descriptor -/
  readable : Nat → Bool
  /-- `data_socket` of each slot -/
  dataSocket : Nat → Bool

namespace Watch

def init : Watch where
  reg := Registry.init
  observer := .start
  published := false
  pipe := 0
  wake := fun _ => .before
  readable := fun _ => false
  dataSocket := fun _ => false

/-! ## Steps -/

/-- The loop over the slots behind `select`; `free` are the slots whose `trylock` succeeds. -/
def serve (s : Watch) (last : Nat) (ready free : List Nat) : Nat → Bool := fun i =>
  (decide (i < last) && decide ((s.reg.slots i).rfd ∈ ready) && decide (i ∈ free)) ||
    s.dataSocket i

/-- `sdb_observer_thread`, to the next place where it may block. -/
def observe (s : Watch) (free : List Nat) : Option Watch :=
  match s.observer with
  | .start => some { s with observer := .piped }
  | .piped => some { s with observer := .initial, published := true }
  | .initial => if 0 < s.pipe then some { s with observer := .top, pipe := s.pipe - 1 } else none
  | .top => some { s with observer := .collecting s.reg.last [] }
  | .collecting last fds =>
      if fds.length < last then
        some { s with observer := .collecting last (fds ++ [(s.reg.slots fds.length).rfd]) }
      else
        some { s with observer := .selecting fds }
  | .selecting fds =>
      -- `select` fails for a descriptor that is not open
      if fds.any fun fd => !s.reg.isOpen fd then some { s with observer := .top }
      else if 0 < s.pipe then some { s with observer := .draining }
      else if fds.any s.readable then
        some { s with observer := .serving fds.length (fds.filter s.readable) }
      else none
  | .draining => if 0 < s.pipe then some { s with observer := .top, pipe := s.pipe - 1 } else none
  | .serving last ready =>
      some { s with observer := .top, dataSocket := s.serve last ready free }

end Watch

inductive WatchAct
  /-- the director or the thread of a slot -/
  | registry (a : RegistryAct)
  /-- thread `i` clears `data_socket` and tests `sdb_observer_fd` -/
  | test (i : Nat)
  /-- thread `i` writes to the pipe -/
  | write (i : Nat)
  | observer (free : List Nat)
  /-- something arrives -/
  | arrive (fd : Nat)
  /-- thread `i` reads from its connection in the handshake, and `more` is left to read -/
  | take (i : Nat) (more : Bool)
  /-- thread `i` goes through `process_pkt_socket`, which clears `data_socket` only when it `got` a
  packet, and `more` is left to read -/
  | handle (i : Nat) (got more : Bool)

namespace Watch

def act (t : MCSTables) (s : Watch) : WatchAct → Option Watch
  | .registry (.finish i) =>
      -- the main loop comes behind the call
      if s.wake i = .woken ∨ s.wake i = .missed then
        (s.reg.act t (.finish i)).map fun reg => { s with reg := reg }
      else none
  | .registry .observe => none
  | .registry a => (s.reg.act t a).map fun reg => { s with reg := reg }
  | .test i =>
      if (s.reg.slots i).phase = .greeted ∧ s.wake i = .before then
        some { s with
          wake := Function.update s.wake i (if s.published then .writing else .missed)
          dataSocket := Function.update s.dataSocket i false }
      else none
  | .write i =>
      if s.wake i = .writing then
        some { s with wake := Function.update s.wake i .woken, pipe := s.pipe + 1 }
      else none
  | .observer free => s.observe free
  | .arrive fd =>
      if s.reg.isOpen fd = true then
        some { s with readable := Function.update s.readable fd true }
      else none
  | .take i more =>
      if (s.reg.slots i).phase = .shaking then
        some { s with readable := Function.update s.readable (s.reg.slots i).rfd more }
      else none
  | .handle i got more =>
      if (s.reg.slots i).phase = .running ∧ s.dataSocket i = true then
        some { s with
          readable := Function.update s.readable (s.reg.slots i).rfd more
          dataSocket := Function.update s.dataSocket i !got }
      else none

end Watch

/-! ## What a step can do -/

inductive ObserverEffect (s : Watch) : Watch → Prop
  | pipe : s.observer = .start → ObserverEffect s { s with observer := .piped }
  | publish : s.observer = .piped →
      ObserverEffect s { s with observer := .initial, published := true }
  /-- a byte is read, at the beginning or behind `select` -/
  | drain : s.observer = .initial ∨ s.observer = .draining → 0 < s.pipe →
      ObserverEffect s { s with observer := .top, pipe := s.pipe - 1 }
  | begin : s.observer = .top → ObserverEffect s { s with observer := .collecting s.reg.last [] }
  | collect (last : Nat) (fds : List Nat) : s.observer = .collecting last fds → fds.length < last →
      ObserverEffect s
        { s with observer := .collecting last (fds ++ [(s.reg.slots fds.length).rfd]) }
  | select (last : Nat) (fds : List Nat) : s.observer = .collecting last fds → last ≤ fds.length →
      ObserverEffect s { s with observer := .selecting fds }
  | fail (fds : List Nat) (fd : Nat) : s.observer = .selecting fds → fd ∈ fds →
      s.reg.isOpen fd = false → ObserverEffect s { s with observer := .top }
  | woken (fds : List Nat) : s.observer = .selecting fds → (∀ fd ∈ fds, s.reg.isOpen fd = true) →
      0 < s.pipe → ObserverEffect s { s with observer := .draining }
  | ready (fds : List Nat) : s.observer = .selecting fds → (∀ fd ∈ fds, s.reg.isOpen fd = true) →
      s.pipe = 0 →
      ObserverEffect s { s with observer := .serving fds.length (fds.filter s.readable) }
  | serve (last : Nat) (ready free : List Nat) : s.observer = .serving last ready →
      ObserverEffect s { s with observer := .top, dataSocket := s.serve last ready free }

inductive WatchEffect (t : MCSTables) (s : Watch) : WatchAct → Watch → Prop
  | registry (a : RegistryAct) (reg : Registry) : s.reg.act t a = some reg →
      (∀ i, a = .finish i → s.wake i = .woken ∨ s.wake i = .missed) →
      WatchEffect t s (.registry a) { s with reg := reg }
  | missed (i : Nat) : (s.reg.slots i).phase = .greeted → s.wake i = .before →
      s.published = false →
      WatchEffect t s (.test i) { s with
        wake := Function.update s.wake i .missed
        dataSocket := Function.update s.dataSocket i false }
  | seen (i : Nat) : (s.reg.slots i).phase = .greeted → s.wake i = .before → s.published = true →
      WatchEffect t s (.test i) { s with
        wake := Function.update s.wake i .writing
        dataSocket := Function.update s.dataSocket i false }
  | write (i : Nat) : s.wake i = .writing →
      WatchEffect t s (.write i)
        { s with wake := Function.update s.wake i .woken, pipe := s.pipe + 1 }
  | observer (free : List Nat) (s' : Watch) : ObserverEffect s s' →
      WatchEffect t s (.observer free) s'
  /-- something arrives, or is read in the handshake -/
  | arrive (a : WatchAct) (readable : Nat → Bool) :
      WatchEffect t s a { s with readable := readable }
  | handle (i : Nat) (got more : Bool) : (s.reg.slots i).phase = .running →
      s.dataSocket i = true →
      WatchEffect t s (.handle i got more) { s with
        readable := Function.update s.readable (s.reg.slots i).rfd more
        dataSocket := Function.update s.dataSocket i !got }

section Inversion

variable {t : MCSTables} {s s' : Watch} {a : WatchAct} {free : List Nat}

theorem observe_effect (h : s.observe free = some s') : ObserverEffect s s' := by
  unfold Watch.observe at h
  cases hobserver : s.observer with
  | start =>
      simp only [hobserver, Option.some.injEq] at h
      exact h ▸ .pipe hobserver
  | piped =>
      simp only [hobserver, Option.some.injEq] at h
      exact h ▸ .publish hobserver
  | initial =>
      simp only [hobserver, Option.ite_none_right_eq_some, Option.some.injEq] at h
      exact h.2 ▸ .drain (.inl hobserver) h.1
  | top =>
      simp only [hobserver, Option.some.injEq] at h
      exact h ▸ .begin hobserver
  | collecting last fds =>
      simp only [hobserver] at h
      split_ifs at h with hlt
      · exact Option.some.inj h ▸ .collect last fds hobserver hlt
      · exact Option.some.inj h ▸ .select last fds hobserver (Nat.le_of_not_lt hlt)
  | selecting fds =>
      simp only [hobserver] at h
      split_ifs at h with hclosed hpipe hready
      · rcases List.any_eq_true.1 hclosed with ⟨fd, hfd, hshut⟩
        exact Option.some.inj h ▸ .fail fds fd hobserver hfd (by simpa using hshut)
      · refine Option.some.inj h ▸ .woken fds hobserver (fun fd hfd => ?_) hpipe
        by_contra hshut
        exact hclosed (List.any_eq_true.2 ⟨fd, hfd, by simpa using hshut⟩)
      · refine Option.some.inj h ▸ .ready fds hobserver (fun fd hfd => ?_) (by omega)
        by_contra hshut
        exact hclosed (List.any_eq_true.2 ⟨fd, hfd, by simpa using hshut⟩)
  | draining =>
      simp only [hobserver, Option.ite_none_right_eq_some, Option.some.injEq] at h
      exact h.2 ▸ .drain (.inr hobserver) h.1
  | serving last ready =>
      simp only [hobserver, Option.some.injEq] at h
      exact h ▸ .serve last ready free hobserver

theorem watch_effect (h : s.act t a = some s') : WatchEffect t s a s' := by
  cases a with
  | registry a =>
      by_cases hfinish : ∃ i, a = .finish i
      · rcases hfinish with ⟨i, rfl⟩
        simp only [Watch.act, Option.ite_none_right_eq_some, Option.map_eq_some_iff] at h
        rcases h with ⟨hdone, reg, hreg, rfl⟩
        exact .registry (.finish i) reg hreg fun j hj => by cases hj; exact hdone
      · have hlift : (s.reg.act t a).map (fun reg => { s with reg := reg }) = some s' := by
          cases a with
          | finish i => exact absurd ⟨i, rfl⟩ hfinish
          | observe => cases h
          | _ => exact h
        rcases Option.map_eq_some_iff.1 hlift with ⟨reg, hreg, rfl⟩
        exact .registry a reg hreg fun i hi => absurd ⟨i, hi⟩ hfinish
  | test i =>
      simp only [Watch.act, Option.ite_none_right_eq_some, Option.some.injEq] at h
      rcases h with ⟨⟨hphase, hbefore⟩, rfl⟩
      cases hpublished : s.published with
      | false => simpa [hpublished] using WatchEffect.missed i hphase hbefore hpublished
      | true => simpa [hpublished] using WatchEffect.seen i hphase hbefore hpublished
  | write i =>
      simp only [Watch.act, Option.ite_none_right_eq_some, Option.some.injEq] at h
      exact h.2 ▸ .write i h.1
  | observer free => exact .observer free s' (observe_effect h)
  | arrive fd =>
      simp only [Watch.act, Option.ite_none_right_eq_some, Option.some.injEq] at h
      exact h.2 ▸ .arrive _ _
  | take i more =>
      simp only [Watch.act, Option.ite_none_right_eq_some, Option.some.injEq] at h
      exact h.2 ▸ .arrive _ _
  | handle i got more =>
      simp only [Watch.act, Option.ite_none_right_eq_some, Option.some.injEq] at h
      rcases h with ⟨⟨hphase, hdata⟩, rfl⟩
      exact .handle i got more hphase hdata

end Inversion

/-! ## Slots that keep their descriptor -/

/-- The handshake of the slot is through. -/
def Slot.Greeted (slot : Slot) : Prop := slot.phase = .greeted ∨ slot.phase = .running

section Registry

variable {t : MCSTables} {r r' : Registry} {a : RegistryAct} {i : Nat}

theorem Slot.Greeted.ne {slot : Slot} (h : slot.Greeted) {p : Phase}
    (hp : p ≠ .greeted ∧ p ≠ .running) : slot.phase ≠ p := by
  rintro rfl
  exact h.elim hp.1 hp.2

/-- Behind the handshake, a slot changes when its thread comes to the main loop. -/
theorem slots_act (hinv : r.Inv) (h : r.act t a = some r')
    (hi : (r.slots i).Greeted ∨ (r.slots i).phase = .exited) :
    r'.slots i = r.slots i ∨
      ((r.slots i).phase = .greeted ∧
        r'.slots i = { r.slots i with allocated := true, phase := .running }) := by
  -- the other steps write to a slot in another phase
  have hset : ∀ {j : Nat} {slot : Slot} {p : Phase}, (r.slots j).phase = p →
      (p ≠ .greeted ∧ p ≠ .running) ∧ p ≠ .exited → (r.set j slot).slots i = r.slots i := by
    intro j slot p hj hp
    refine Registry.set_slots_of_ne r slot ?_
    rintro rfl
    rcases hi with hi | hi
    · exact hi.ne hp.1 hj
    · exact hp.2 (hj.symm.trans hi)
  cases act_effect h with
  | accept fd _ _ => exact .inl rfl
  | store id fd created hd =>
      have hzero : (r.slots id).phase = .unused := by
        rw [(hinv.director id fd hd).2.1]
        rfl
      exact .inl (hset hzero (by decide))
  | start j hj => exact .inl (hset hj (by decide))
  | receive j input greeting hj => exact .inl (hset hj (by decide))
  | finish j hj =>
      by_cases hij : i = j
      · subst hij
        exact .inr ⟨hj, Registry.set_slots_self r i _⟩
      · exact .inl (Registry.set_slots_of_ne r _ hij)
  | leave j hj => exact .inl (hset hj (by decide))
  | lookup j dest _ => exact .inl rfl
  | observe => exact .inl rfl

/-- A slot whose handshake is through stays so, on its descriptor. -/
theorem greeted_act (hinv : r.Inv) (h : r.act t a = some r') (hi : (r.slots i).Greeted) :
    (r'.slots i).Greeted ∧ (r'.slots i).rfd = (r.slots i).rfd := by
  rcases slots_act hinv h (.inl hi) with hsame | ⟨_, hnew⟩
  · rw [hsame]
    exact ⟨hi, rfl⟩
  · rw [hnew]
    exact ⟨.inr rfl, rfl⟩

/-- A slot whose thread has left is not used again. -/
theorem exited_act (hinv : r.Inv) (h : r.act t a = some r') (hi : (r.slots i).phase = .exited) :
    r'.slots i = r.slots i := by
  refine (slots_act hinv h (.inr hi)).resolve_right fun hnew => ?_
  cases hi.symm.trans hnew.1

/-- A descriptor is opened by `accept`. -/
theorem closed_act {fd : Nat} (h : r.act t a = some r') (hfd : r.isOpen fd = false)
    (hno : a ≠ .accept fd) : r'.isOpen fd = false := by
  cases act_effect h with
  | accept fd' _ _ =>
      have hne : fd ≠ fd' := by
        rintro rfl
        exact hno rfl
      simpa [Registry.accept, hne] using hfd
  | leave j _ =>
      simp only [Registry.set, Registry.clean, Function.update_apply]
      split_ifs
      · rfl
      · rfl
      · exact hfd
  | _ => exact hfd

end Registry

/-! ## Invariant -/

/-- The module of slot `i` is through with `sdb_observer_wake_up`, and no byte is left to tell the
observer about it. -/
def Watch.Told (s : Watch) (i : Nat) : Prop :=
  s.wake i = .missed ∨ (s.wake i = .woken ∧ s.pipe = 0)

/-- What the observer knows at the places where it may stay. -/
def Watch.Knows (s : Watch) : Prop :=
  match s.observer with
  | .start | .piped => s.pipe = 0 ∧ ∀ i, s.wake i ≠ .writing ∧ s.wake i ≠ .woken
  | .initial => ∀ i, s.wake i = .woken → 0 < s.pipe
  | .top => True
  | .collecting last fds => fds.length ≤ last ∧
      ∀ i, s.Told i → i < last ∧ (i < fds.length → (s.reg.slots i).rfd ∈ fds)
  | .selecting fds => ∀ i, s.Told i → (s.reg.slots i).rfd ∈ fds
  | .draining => 0 < s.pipe
  | .serving _ _ => True

structure Watch.Inv (s : Watch) : Prop where
  reg : s.reg.Inv
  published : s.published = true ↔ s.observer ≠ .start ∧ s.observer ≠ .piped
  greeted : ∀ i, s.wake i ≠ .before → (s.reg.slots i).Greeted
  running : ∀ i, (s.reg.slots i).phase = .running → s.wake i = .woken ∨ s.wake i = .missed
  knows : s.Knows

section Preservation

variable {t : MCSTables} {s s' : Watch} {i : Nat}

theorem Watch.Told.ne_before (h : s.Told i) : s.wake i ≠ .before := by
  rcases h with h | ⟨h, _⟩ <;> simp [h]

theorem watch_inv_init : Watch.init.Inv where
  reg := Registry.inv_init
  published := by simp [Watch.init]
  greeted := fun i h => absurd rfl h
  running := nofun
  knows := ⟨rfl, fun _ => ⟨nofun, nofun⟩⟩

/-- A told module has been accepted. -/
theorem Watch.Inv.told_lt (h : s.Inv) (hi : s.Told i) : i < s.reg.last := by
  refine h.reg.lt_last ?_
  exact (h.greeted i hi.ne_before).ne (by decide)

theorem Watch.Inv.observe (h : s.Inv) (heff : ObserverEffect s s') : s'.Inv := by
  have hknows := h.knows
  cases heff with
  | pipe hobserver =>
      refine ⟨h.reg, ?_, h.greeted, h.running, ?_⟩
      · simpa [hobserver] using h.published
      · simpa [Watch.Knows, hobserver] using hknows
  | publish hobserver =>
      refine ⟨h.reg, by simp, h.greeted, h.running, ?_⟩
      simp only [Watch.Knows, hobserver] at hknows
      intro i hi
      exact absurd hi (hknows.2 i).2
  | drain hobserver _ =>
      refine ⟨h.reg, ?_, h.greeted, h.running, trivial⟩
      rcases hobserver with hobserver | hobserver <;> simpa [hobserver] using h.published
  | begin hobserver =>
      refine ⟨h.reg, ?_, h.greeted, h.running, Nat.zero_le _, ?_⟩
      · simpa [hobserver] using h.published
      · intro i hi
        exact ⟨h.told_lt (s := s) hi, fun hlt => absurd hlt (Nat.not_lt_zero _)⟩
  | collect last fds hobserver hlt =>
      simp only [Watch.Knows, hobserver] at hknows
      refine ⟨h.reg, by simpa [hobserver] using h.published, h.greeted, h.running, ?_, ?_⟩
      · rw [List.length_append, List.length_singleton]
        exact hlt
      · intro i hi
        rcases hknows.2 i hi with ⟨hlast, hin⟩
        refine ⟨hlast, fun hlen => ?_⟩
        rw [List.length_append, List.length_singleton] at hlen
        rcases Nat.lt_succ_iff_lt_or_eq.1 hlen with hold | rfl
        · exact List.mem_append_left _ (hin hold)
        · exact List.mem_append_right _ (by simp)
  | select last fds hobserver hle =>
      simp only [Watch.Knows, hobserver] at hknows
      refine ⟨h.reg, by simpa [hobserver] using h.published, h.greeted, h.running, ?_⟩
      intro i hi
      rcases hknows.2 i hi with ⟨hlast, hin⟩
      exact hin (Nat.lt_of_lt_of_le hlast hle)
  | fail fds fd hobserver _ _ =>
      exact ⟨h.reg, by simpa [hobserver] using h.published, h.greeted, h.running, trivial⟩
  | woken fds hobserver _ hpipe =>
      exact ⟨h.reg, by simpa [hobserver] using h.published, h.greeted, h.running, hpipe⟩
  | ready fds hobserver _ _ =>
      exact ⟨h.reg, by simpa [hobserver] using h.published, h.greeted, h.running, trivial⟩
  | serve last ready free hobserver =>
      exact ⟨h.reg, by simpa [hobserver] using h.published, h.greeted, h.running, trivial⟩

/-- A step of another thread that leaves the pipe as it is and tells about no other module. -/
theorem Watch.Knows.mono (h : s.Knows) (hobserver : s'.observer = s.observer)
    (hpipe : s'.pipe = s.pipe) (hwake : ∀ i, s'.wake i ≠ .before → s'.wake i ≠ .writing →
      s'.wake i = s.wake i)
    (hwriting : s.observer = .start ∨ s.observer = .piped → ∀ i, s'.wake i ≠ .writing)
    (hrfd : ∀ i, s'.wake i ≠ .before → (s'.reg.slots i).rfd = (s.reg.slots i).rfd) : s'.Knows := by
  have htold : ∀ i, s'.Told i → s.Told i := by
    intro i hi
    rcases hi with hi | ⟨hi, hzero⟩
    · exact .inl ((hwake i (by simp [hi]) (by simp [hi])).symm.trans hi)
    · exact .inr ⟨(hwake i (by simp [hi]) (by simp [hi])).symm.trans hi, hpipe ▸ hzero⟩
  have hwoken : ∀ i, s'.wake i = .woken → s.wake i = .woken := fun i hi =>
    (hwake i (by simp [hi]) (by simp [hi])).symm.trans hi
  unfold Watch.Knows at h ⊢
  rw [hobserver, hpipe]
  cases hcase : s.observer with
  | start =>
      rw [hcase] at h
      exact ⟨h.1, fun i => ⟨hwriting (.inl hcase) i, fun hi => (h.2 i).2 (hwoken i hi)⟩⟩
  | piped =>
      rw [hcase] at h
      exact ⟨h.1, fun i => ⟨hwriting (.inr hcase) i, fun hi => (h.2 i).2 (hwoken i hi)⟩⟩
  | initial =>
      rw [hcase] at h
      exact fun i hi => h i (hwoken i hi)
  | top => trivial
  | collecting last fds =>
      rw [hcase] at h
      refine ⟨h.1, fun i hi => ?_⟩
      rw [hrfd i hi.ne_before]
      exact h.2 i (htold i hi)
  | selecting fds =>
      rw [hcase] at h
      intro i hi
      rw [hrfd i hi.ne_before]
      exact h i (htold i hi)
  | draining =>
      rw [hcase] at h
      exact h
  | serving last ready => trivial

theorem Watch.Inv.not_writing (h : s.Inv) (hobserver : s.observer = .start ∨ s.observer = .piped)
    (i : Nat) : s.wake i ≠ .writing := by
  have hknows := h.knows
  rcases hobserver with hobserver | hobserver
  all_goals
    simp only [Watch.Knows, hobserver] at hknows
    exact (hknows.2 i).1

/-- Before the pipe is published, nobody has written to it. -/
theorem Watch.Inv.missed (h : s.Inv) (hphase : (s.reg.slots i).phase = .greeted)
    (hpublished : s.published = false) :
    ({ s with
      wake := Function.update s.wake i .missed
      dataSocket := Function.update s.dataSocket i false } : Watch).Inv := by
  have hearly : s.observer = .start ∨ s.observer = .piped := by
    by_contra hlate
    rw [not_or] at hlate
    simp [h.published.2 hlate] at hpublished
  refine ⟨h.reg, h.published, fun j hj => ?_, fun j hj => ?_, ?_⟩
  · by_cases hji : j = i
    · subst hji
      exact .inl hphase
    · exact h.greeted j (by simpa [hji] using hj)
  · by_cases hji : j = i
    · subst hji
      exact .inr (by simp)
    · simpa [hji] using h.running j hj
  · have hknows := h.knows
    have hupdate : (∀ j, s.wake j ≠ .writing ∧ s.wake j ≠ .woken) → ∀ j,
        Function.update s.wake i .missed j ≠ .writing ∧
          Function.update s.wake i .missed j ≠ .woken := by
      intro hall j
      by_cases hji : j = i
      · subst hji
        simp
      · simpa [hji] using hall j
    rcases hearly with hobserver | hobserver
    all_goals
      simp only [Watch.Knows, hobserver] at hknows ⊢
      exact ⟨hknows.1, hupdate hknows.2⟩

theorem Watch.Inv.seen (h : s.Inv) (hphase : (s.reg.slots i).phase = .greeted)
    (hpublished : s.published = true) :
    ({ s with
      wake := Function.update s.wake i .writing
      dataSocket := Function.update s.dataSocket i false } : Watch).Inv := by
  have hlate := h.published.1 hpublished
  refine ⟨h.reg, h.published, fun j hj => ?_, fun j hj => ?_, ?_⟩
  · by_cases hji : j = i
    · subst hji
      exact .inl hphase
    · exact h.greeted j (by simpa [hji] using hj)
  · have hji : j ≠ i := by
      rintro rfl
      cases hphase.symm.trans hj
    simpa [hji] using h.running j hj
  · refine h.knows.mono rfl rfl (fun j _ hj => ?_) (fun hearly => ?_) fun _ _ => rfl
    · have hji : j ≠ i := by
        rintro rfl
        simp at hj
      simp [hji]
    · exact absurd hearly (not_or.2 hlate)

/-- The byte is in the pipe, so the observer will look again. -/
theorem Watch.Inv.write (h : s.Inv) (hwriting : s.wake i = .writing) :
    ({ s with wake := Function.update s.wake i .woken, pipe := s.pipe + 1 } : Watch).Inv := by
  have hmissed : ∀ j, ({ s with
      wake := Function.update s.wake i .woken, pipe := s.pipe + 1 } : Watch).Told j → s.Told j := by
    rintro j (hj | ⟨_, hzero⟩)
    · have hji : j ≠ i := by
        rintro rfl
        simp at hj
      exact .inl (by simpa [hji] using hj)
    · cases hzero
  refine ⟨h.reg, h.published, fun j hj => ?_, fun j hj => ?_, ?_⟩
  · by_cases hji : j = i
    · subst hji
      exact h.greeted j (by simp [hwriting])
    · exact h.greeted j (by simpa [hji] using hj)
  · by_cases hji : j = i
    · subst hji
      exact .inl (by simp)
    · simpa [hji] using h.running j hj
  · have hknows := h.knows
    have hnot := h.not_writing
    unfold Watch.Knows at hknows ⊢
    cases hobserver : s.observer with
    | start => exact absurd hwriting (hnot (.inl hobserver) i)
    | piped => exact absurd hwriting (hnot (.inr hobserver) i)
    | initial => exact fun _ _ => Nat.succ_pos _
    | top => trivial
    | collecting last fds =>
        simp only [hobserver] at hknows
        exact ⟨hknows.1, fun j hj => hknows.2 j (hmissed j hj)⟩
    | selecting fds =>
        simp only [hobserver] at hknows
        exact fun j hj => hknows j (hmissed j hj)
    | draining => exact Nat.succ_pos _
    | serving last ready => trivial

theorem Watch.Inv.act {a : WatchAct} (h : s.Inv) (hact : s.act t a = some s') : s'.Inv := by
  cases watch_effect hact with
  | registry a reg hreg hfinish =>
      have hgreeted := fun i (hi : s.wake i ≠ .before) => greeted_act h.reg hreg (h.greeted i hi)
      refine ⟨h.reg.act hreg, h.published, fun i hi => (hgreeted i hi).1, fun i hi => ?_, ?_⟩
      · rcases (Registry.running_act h.reg hreg i).1 hi with hold | hnew
        · exact h.running i hold
        · exact hfinish i hnew
      · exact h.knows.mono rfl rfl (fun _ _ _ => rfl) h.not_writing fun i hi => (hgreeted i hi).2
  | missed i hphase _ hpublished => exact h.missed hphase hpublished
  | seen i hphase _ hpublished => exact h.seen hphase hpublished
  | write i hwriting => exact h.write hwriting
  | observer free s' heff => exact h.observe heff
  | arrive a readable =>
      exact ⟨h.reg, h.published, h.greeted, h.running,
        h.knows.mono rfl rfl (fun _ _ _ => rfl) h.not_writing fun _ _ => rfl⟩
  | handle i got more hphase _ =>
      exact ⟨h.reg, h.published, h.greeted, h.running,
        h.knows.mono rfl rfl (fun _ _ _ => rfl) h.not_writing fun _ _ => rfl⟩

theorem watch_inv_of_run {acts : List WatchAct} (h : acts.foldlM (Watch.act t) .init = some s) :
    s.Inv :=
  run_invariant (fun hs hact => hs.act hact) watch_inv_init h

end Preservation

/-! ## Blocked -/

/-- The observer cannot go on. -/
def Watch.Blocked (s : Watch) : Prop := ∀ free, s.observe free = none

theorem Watch.Inv.blocked {s : Watch} (h : s.Inv) (hblocked : s.Blocked) :
    (s.observer = .initial ∧ s.pipe = 0) ∨
      ∃ fds, s.observer = .selecting fds ∧ s.pipe = 0 ∧ ∀ fd ∈ fds, s.readable fd = false := by
  have hnone := hblocked []
  have hknows := h.knows
  unfold Watch.observe at hnone
  cases hobserver : s.observer with
  | initial =>
      simp only [hobserver] at hnone
      split_ifs at hnone with hpipe
      exact .inl ⟨rfl, by omega⟩
  | selecting fds =>
      simp only [hobserver] at hnone
      split_ifs at hnone with hclosed hpipe hready
      refine .inr ⟨fds, rfl, by omega, fun fd hfd => ?_⟩
      by_contra hread
      exact hready (List.any_eq_true.2 ⟨fd, hfd, by simpa using hread⟩)
  | draining =>
      simp only [Watch.Knows, hobserver] at hknows
      simp [hobserver, hknows] at hnone
  | collecting last fds =>
      simp only [hobserver] at hnone
      split_ifs at hnone
  | start => simp [hobserver] at hnone
  | piped => simp [hobserver] at hnone
  | top => simp [hobserver] at hnone
  | serving last ready => simp [hobserver] at hnone

/-- When the observer is blocked in `select`, it watches every module in its main loop, and none of
them has data; when it is blocked in its first `read`, every one of them has come before the pipe
was published. -/
theorem observer_blocked (t : MCSTables) {acts : List WatchAct} {s : Watch}
    (h : acts.foldlM (Watch.act t) .init = some s) (hblocked : s.Blocked) :
    (s.observer = .initial ∧ ∀ i, (s.reg.slots i).phase = .running → s.wake i = .missed) ∨
      ∃ fds, s.observer = .selecting fds ∧ ∀ i, (s.reg.slots i).phase = .running →
        (s.reg.slots i).rfd ∈ fds ∧ s.readable (s.reg.slots i).rfd = false := by
  have hinv := watch_inv_of_run h
  have hknows := hinv.knows
  rcases hinv.blocked hblocked with ⟨hobserver, hpipe⟩ | ⟨fds, hobserver, hpipe, hread⟩
  · refine .inl ⟨hobserver, fun i hi => ?_⟩
    simp only [Watch.Knows, hobserver] at hknows
    refine (hinv.running i hi).resolve_left fun hwoken => ?_
    have := hknows i hwoken
    omega
  · refine .inr ⟨fds, hobserver, fun i hi => ?_⟩
    simp only [Watch.Knows, hobserver] at hknows
    have hin : (s.reg.slots i).rfd ∈ fds := by
      refine hknows i ?_
      rcases hinv.running i hi with hwoken | hmissed
      · exact .inr ⟨hwoken, hpipe⟩
      · exact .inl hmissed
    exact ⟨hin, hread _ hin⟩

/-- A module registers and gets data while the observer is in front of `pipe`. -/
def earlyRun : List WatchAct :=
  (Registry.connectAndSend 0 Registry.coreHandshake).map WatchAct.registry ++
    ([.test 0, .registry (.finish 0), .arrive 3, .observer [], .observer []] : List WatchAct)

/-- The observer never learns about a module that comes too early. -/
theorem observer_blocked_early :
    ∃ s, earlyRun.foldlM (Watch.act commandSet) .init = some s ∧ s.Blocked ∧
      (s.reg.slots 0).phase = .running ∧ s.readable (s.reg.slots 0).rfd = true ∧
      s.wake 0 = .missed := by
  have hrun : (earlyRun.foldlM (Watch.act commandSet) .init).any (fun s =>
      s.observer = .initial ∧ s.pipe = 0 ∧ (s.reg.slots 0).phase = .running ∧
      s.readable (s.reg.slots 0).rfd = true) = true := by decide +kernel
  rcases (Option.any_eq_true _ _).1 hrun with ⟨s, hs, hstate⟩
  rcases of_decide_eq_true hstate with ⟨hobserver, hpipe, hrunning, hreadable⟩
  have hblocked : s.Blocked := fun free => by simp [Watch.observe, hobserver, hpipe]
  refine ⟨s, hs, hblocked, hrunning, hreadable, ?_⟩
  rcases observer_blocked commandSet hs hblocked with ⟨_, hmissed⟩ | ⟨fds, hselecting, _⟩
  · exact hmissed 0 hrunning
  · cases hobserver.symm.trans hselecting

/-! ## A closed descriptor in the set -/

/-- The thread of slot `i` has left and its descriptor is closed; the observer has it in its set, or
will have it there before it comes to `select`. -/
structure Watch.Silent (s : Watch) (i : Nat) : Prop where
  inv : s.Inv
  exited : (s.reg.slots i).phase = .exited
  closed : s.reg.isOpen (s.reg.slots i).rfd = false
  observer : match s.observer with
    | .top => True
    | .collecting last fds => i < last ∧ (i < fds.length → (s.reg.slots i).rfd ∈ fds)
    | .selecting fds => (s.reg.slots i).rfd ∈ fds
    | _ => False

section Silence

variable {t : MCSTables} {s s' : Watch} {i : Nat}

theorem Watch.Silent.observe (h : s.Silent i) (heff : ObserverEffect s s') :
    s'.Silent i ∧ s'.pipe = s.pipe ∧ s'.dataSocket = s.dataSocket := by
  have hobserver := h.observer
  have hinv := h.inv.observe heff
  cases heff with
  | begin htop =>
      refine ⟨⟨hinv, h.exited, h.closed, ?_, ?_⟩, rfl, rfl⟩
      · exact h.inv.reg.lt_last (by simp [h.exited])
      · exact fun hlt => absurd hlt (Nat.not_lt_zero _)
  | collect last fds hcollecting hlt =>
      simp only [hcollecting] at hobserver
      refine ⟨⟨hinv, h.exited, h.closed, hobserver.1, fun hlen => ?_⟩, rfl, rfl⟩
      rw [List.length_append, List.length_singleton] at hlen
      rcases Nat.lt_succ_iff_lt_or_eq.1 hlen with hold | rfl
      · exact List.mem_append_left _ (hobserver.2 hold)
      · exact List.mem_append_right _ (by simp)
  | select last fds hcollecting hle =>
      simp only [hcollecting] at hobserver
      have hin := hobserver.2 (Nat.lt_of_lt_of_le hobserver.1 hle)
      exact ⟨⟨hinv, h.exited, h.closed, hin⟩, rfl, rfl⟩
  | fail fds fd _ _ _ => exact ⟨⟨hinv, h.exited, h.closed, trivial⟩, rfl, rfl⟩
  | woken fds hselecting hopen _ =>
      -- `select` succeeds on open descriptors only
      simp only [hselecting] at hobserver
      exact absurd (hopen _ hobserver) (by simp [h.closed])
  | ready fds hselecting hopen _ =>
      simp only [hselecting] at hobserver
      exact absurd (hopen _ hobserver) (by simp [h.closed])
  | pipe hstart => simp [hstart] at hobserver
  | publish hpiped => simp [hpiped] at hobserver
  | drain hread _ => rcases hread with hread | hread <;> simp [hread] at hobserver
  | serve last ready free hserving => simp [hserving] at hobserver

/-- A step that keeps the silence: the pipe is not read, and no flag is set. -/
def Watch.Quieter (s s' : Watch) : Prop :=
  s.pipe ≤ s'.pipe ∧ ∀ j, s'.dataSocket j = true → s.dataSocket j = true

theorem Watch.quieter_refl (s : Watch) : s.Quieter s := ⟨Nat.le_refl _, fun _ hj => hj⟩

theorem Watch.Quieter.trans {s₁ : Watch} (h : s.Quieter s₁) (h₁ : s₁.Quieter s') : s.Quieter s' :=
  ⟨Nat.le_trans h.1 h₁.1, fun j hj => h.2 j (h₁.2 j hj)⟩

theorem of_update_false {f : Nat → Bool} {i j : Nat} (h : Function.update f i false j = true) :
    f j = true := by
  by_cases hji : j = i
  · subst hji
    simp at h
  · simpa [hji] using h

theorem Watch.Silent.act {a : WatchAct} (h : s.Silent i)
    (hno : a ≠ .registry (.accept (s.reg.slots i).rfd)) (hact : s.act t a = some s') :
    (s'.Silent i ∧ s'.reg.slots i = s.reg.slots i) ∧ s.Quieter s' := by
  have hinv := h.inv.act hact
  cases watch_effect hact with
  | registry a reg hreg _ =>
      have hslot := exited_act h.inv.reg hreg h.exited
      have hclosed : reg.isOpen (s.reg.slots i).rfd = false := by
        refine closed_act hreg h.closed ?_
        rintro rfl
        exact hno rfl
      refine ⟨⟨⟨hinv, ?_, ?_, ?_⟩, hslot⟩, s.quieter_refl⟩
      · exact hslot ▸ h.exited
      · exact hslot ▸ hclosed
      · exact hslot ▸ h.observer
  | missed j _ _ _ =>
      exact ⟨⟨⟨hinv, h.exited, h.closed, h.observer⟩, rfl⟩, Nat.le_refl _, fun _ => of_update_false⟩
  | seen j _ _ _ =>
      exact ⟨⟨⟨hinv, h.exited, h.closed, h.observer⟩, rfl⟩, Nat.le_refl _, fun _ => of_update_false⟩
  | write j _ =>
      exact ⟨⟨⟨hinv, h.exited, h.closed, h.observer⟩, rfl⟩, Nat.le_succ _, fun _ hj => hj⟩
  | observer free s' heff =>
      rcases h.observe heff with ⟨hsilent, hpipe, hdata⟩
      refine ⟨⟨hsilent, ?_⟩, hpipe.ge, fun j hj => hdata ▸ hj⟩
      cases heff <;> rfl
  | arrive a readable =>
      exact ⟨⟨⟨hinv, h.exited, h.closed, h.observer⟩, rfl⟩, s.quieter_refl⟩
  | handle j got more _ hdata =>
      refine ⟨⟨⟨hinv, h.exited, h.closed, h.observer⟩, rfl⟩, Nat.le_refl _, fun k hk => ?_⟩
      by_cases hkj : k = j
      · rw [hkj]
        exact hdata
      · simpa [hkj] using hk

/-- The observer spins. -/
theorem Watch.Silent.not_blocked (h : s.Silent i) : ¬ s.Blocked := by
  intro hblocked
  have hobserver := h.observer
  rcases h.inv.blocked hblocked with ⟨hinitial, _⟩ | ⟨fds, hselecting, _⟩
  · simp [hinitial] at hobserver
  · have hnone := hblocked []
    simp only [hselecting] at hobserver
    have hbad : fds.any (fun fd => !s.reg.isOpen fd) = true :=
      List.any_eq_true.2 ⟨_, hobserver, by simp [h.closed]⟩
    simp [Watch.observe, hselecting, hbad] at hnone

end Silence

/-- A refused client silences the others: once its thread has left and the observer comes to the
beginning of its loop, the observer spins without reading the pipe, and no module is told about data
until the descriptor is handed out again. -/
theorem refused_silences (t : MCSTables) {before acts : List WatchAct} {s s' : Watch} {i : Nat}
    (hbefore : before.foldlM (Watch.act t) .init = some s)
    (hexited : (s.reg.slots i).phase = .exited)
    (hclosed : s.reg.isOpen (s.reg.slots i).rfd = false) (htop : s.observer = .top)
    (hno : WatchAct.registry (.accept (s.reg.slots i).rfd) ∉ acts)
    (h : acts.foldlM (Watch.act t) s = some s') :
    ¬ s'.Blocked ∧ s.pipe ≤ s'.pipe ∧ ∀ j, s'.dataSocket j = true → s.dataSocket j = true := by
  have hsilent : s.Silent i := ⟨watch_inv_of_run hbefore, hexited, hclosed, by simp [htop]⟩
  have hrun := run_invariant_of
    (I := fun u : Watch => (u.Silent i ∧ u.reg.slots i = s.reg.slots i) ∧ s.Quieter u)
    (C := fun _ a => a ≠ .registry (.accept (s.reg.slots i).rfd))
    (fun {u u' a} hu hne hact => by
      rcases hu with ⟨⟨hsilent, hslot⟩, hquieter⟩
      rcases hsilent.act (hslot ▸ hne) hact with ⟨⟨hsilent', hslot'⟩, hquieter'⟩
      exact ⟨⟨hsilent', hslot'.trans hslot⟩, hquieter.trans hquieter'⟩)
    ⟨⟨hsilent, rfl⟩, s.quieter_refl⟩ ?_ h
  · exact ⟨hrun.1.1.not_blocked, hrun.2⟩
  · rintro pre a post u rfl _ rfl
    exact hno (by simp)

/-- A module registers and wakes the observer up, and another client is refused. -/
def refusedBefore : List WatchAct :=
  List.flatten [[.observer [], .observer []],
    (Registry.connectAndSend 0 Registry.coreHandshake).map .registry,
    [.test 0, .write 0, .registry (.finish 0), .observer []],
    (Registry.connectAndSend 1 Registry.badHandshake).map .registry, [.registry (.leave 1)]]

/-- The module gets data, and the observer goes once around. -/
def refusedAfter : List WatchAct :=
  [.arrive 3, .observer [], .observer [], .observer [], .observer [], .observer []]

theorem refused_silences_core :
    ∃ s s', refusedBefore.foldlM (Watch.act commandSet) .init = some s ∧
      refusedAfter.foldlM (Watch.act commandSet) s = some s' ∧
      (s'.reg.slots 0).phase = .running ∧ s'.readable (s'.reg.slots 0).rfd = true ∧
      ¬ s'.Blocked ∧ s'.dataSocket 0 = false := by
  have hbefore : (refusedBefore.foldlM (Watch.act commandSet) .init).any (fun s =>
      ((s.reg.slots 1).phase = .exited ∧ (s.reg.slots 1).rfd = 4 ∧ s.reg.isOpen 4 = false ∧
        s.observer = .top ∧ s.dataSocket 0 = false) ∧
      (refusedAfter.foldlM (Watch.act commandSet) s).any (fun s' =>
        (s'.reg.slots 0).phase = .running ∧ s'.readable (s'.reg.slots 0).rfd = true)) = true := by
    decide +kernel
  rcases (Option.any_eq_true _ _).1 hbefore with ⟨s, hs, hstate⟩
  rcases of_decide_eq_true hstate with ⟨⟨hexited, hrfd, hclosed, htop, hflag⟩, hafter⟩
  rcases (Option.any_eq_true _ _).1 hafter with ⟨s', hs', hstate'⟩
  rcases of_decide_eq_true hstate' with ⟨hrunning, hreadable⟩
  rcases refused_silences commandSet hs hexited (by rw [hrfd]; exact hclosed) htop
    (by simp [refusedAfter, hrfd]) hs' with ⟨hspins, _, hsilent⟩
  refine ⟨s, s', hs, hs', hrunning, hreadable, hspins, ?_⟩
  by_contra hset
  simp [hsilent 0 (by simpa using hset)] at hflag

end SDB
end AbsPlatform
