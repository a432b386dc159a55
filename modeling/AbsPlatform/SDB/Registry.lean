import Mathlib.Logic.Function.Basic
import AbsPlatform.Lib.Runs
import AbsPlatform.SDB.Handshake

/-!
# Registry — connections, slots and descriptors

The table `sdb_module` while clients come and go: `sdb_director_thread` accepts a connection and
`sdb_module_init` takes a slot for it, `sdb_module_thread` goes through the handshake, the threads
of registered modules look destinations up, and `sdb_observer_thread` collects descriptors.  A step
goes from one access to what the threads share to the next.

A slot is visible to the other threads as soon as `sdb_module_last` has been incremented, and
`sdb_module_last` is never decremented.  The table has no end here; `indices` says which slots a
step touches.  Descriptors are numbers, as for the operating system, and are used again once they
have been closed.  Descriptor 0 is taken before the first connection: it is the standard input, or
else the first descriptor that the program has opened.
-/

namespace AbsPlatform
namespace SDB

open Lib MCS

/-! ## State -/

/-- Where the thread of a slot is. -/
inductive Phase
  /-- `sdb_module_init` has not come to `pthread_create` -/
  | unused
  /-- `pthread_create` has failed; it returns a positive number then, and nobody notices -/
  | orphaned
  /-- the thread has not run yet -/
  | created
  /-- with `mod->lock`, in `mcs_read_command` -/
  | shaking
  /-- the handshake is valid -/
  | greeted
  /-- at `error_pkt` or `error_ret` -/
  | refused
  /-- in the main loop -/
  | running
  | exited
  deriving DecidableEq

/-- The phases in which the connection has been stored and not been closed. -/
def Phase.Live (p : Phase) : Prop := p ≠ .unused ∧ p ≠ .exited

/-- A slot of the table; static storage starts as zero. -/
structure Slot where
  rfd : Nat
  wfd : Nat
  /-- `none` for NULL -/
  name : Option CString
  group : SDBGroup
  /-- `data` leads to a region -/
  allocated : Bool
  /-- the thread of the slot has taken `lock` and not given it back for good -/
  locked : Bool
  phase : Phase

def Slot.zero : Slot where
  rfd := 0
  wfd := 0
  name := none
  group := .syscore
  allocated := false
  locked := false
  phase := .unused

/-- The slot of a module that others can send to: it has a name and a region, and its lock will be
free again. -/
structure Slot.Registered (slot : Slot) : Prop where
  name : slot.name.isSome = true
  region : slot.allocated = true
  lock : ¬ (slot.phase = .exited ∧ slot.locked = true)

structure Registry where
  slots : Nat → Slot
  /-- `sdb_module_last` -/
  last : Nat
  /-- the descriptors in use -/
  isOpen : Nat → Bool
  /-- the slot and the connection that `sdb_module_init` has at hand -/
  director : Option (Nat × Nat)

namespace Registry

def init : Registry where
  slots := fun _ => Slot.zero
  last := 0
  isOpen := fun fd => fd = 0
  director := none

def set (s : Registry) (i : Nat) (slot : Slot) : Registry :=
  { s with slots := Function.update s.slots i slot }

/-! ## Steps -/

/-- `accept`, and `sdb_module_init` up to the end of its critical section. -/
def accept (s : Registry) (fd : Nat) : Registry :=
  { s with
    last := s.last + 1
    isOpen := Function.update s.isOpen fd true
    director := some (s.last, fd) }

/-- The rest of `sdb_module_init`; `created` says whether there is a thread. -/
def store (s : Registry) (id fd : Nat) (created : Bool) : Registry :=
  { s.set id
      { s.slots id with
        rfd := fd
        wfd := fd
        phase := if created then .created else .orphaned } with
    director := none }

end Registry

/-- A slot after the first packet of its connection. -/
def Slot.greet (slot : Slot) : Greeting → Slot
  | .unreadable => { slot with phase := .refused }
  | .refused none => { slot with phase := .refused }
  | .refused (some name) => { slot with name := some name, phase := .refused }
  | .accepted name group => { slot with name := some name, group := group, phase := .greeted }

namespace Registry

/-- `sdb_module_clean`. -/
def clean (s : Registry) (i : Nat) : Registry :=
  { s with
    isOpen :=
      Function.update (Function.update s.isOpen (s.slots i).rfd false) (s.slots i).wfd false }

/-- The loop of `process_pkt_message` over `n` slots from slot `i` on: the slot it finds; `none`
when it follows a name that is NULL. -/
def lookupFrom (slots : Nat → Slot) (dest : CString) : (n i : Nat) → Option (Option Nat)
  | 0, _ => some none
  | n + 1, i =>
      match (slots i).name with
      | none => none
      | some name => if dest = name then some (some i) else lookupFrom slots dest n (i + 1)

/-- The slots that the loop compares with the destination. -/
def comparedFrom (slots : Nat → Slot) (dest : CString) : (n i : Nat) → List Nat
  | 0, _ => []
  | n + 1, i =>
      i :: match (slots i).name with
        | none => []
        | some name => if dest = name then [] else comparedFrom slots dest n (i + 1)

def lookup (s : Registry) (dest : CString) : Option (Option Nat) :=
  lookupFrom s.slots dest s.last 0

def compared (s : Registry) (dest : CString) : List Nat := comparedFrom s.slots dest s.last 0

end Registry

inductive RegistryAct
  | accept (fd : Nat)
  | store (created : Bool)
  /-- thread `i` from its start to `pthread_mutex_lock` -/
  | start (i : Nat)
  /-- thread `i` reads its first packet from these bytes -/
  | receive (i : Nat) (input : List UInt8)
  /-- thread `i` answers `OK`, allocates its region and comes to the main loop -/
  | finish (i : Nat)
  /-- thread `i` leaves, with its lock -/
  | leave (i : Nat)
  /-- thread `i` handles a message to this destination -/
  | lookup (i : Nat) (dest : CString)
  /-- the observer fills its set -/
  | observe
  deriving DecidableEq

namespace Registry

def act (t : MCSTables) (s : Registry) : RegistryAct → Option Registry
  | .accept fd =>
      -- a descriptor in use is not handed out again
      if s.director = none ∧ s.isOpen fd = false then some (s.accept fd) else none
  | .store created =>
      match s.director with
      | none => none
      | some (id, fd) => some (s.store id fd created)
  | .start i =>
      if (s.slots i).phase = .created then
        some (s.set i { s.slots i with locked := true, phase := .shaking })
      else none
  | .receive i input =>
      if (s.slots i).phase = .shaking then
        match firstPacket t (s.slots i).rfd openFd input with
        | none => none
        | some first => some (s.set i ((s.slots i).greet first.greeting))
      else none
  | .finish i =>
      if (s.slots i).phase = .greeted then
        some (s.set i { s.slots i with allocated := true, phase := .running })
      else none
  | .leave i =>
      if (s.slots i).phase = .refused then
        some ((s.clean i).set i { s.slots i with phase := .exited })
      else none
  | .lookup i dest =>
      if (s.slots i).phase = .running ∧ (s.lookup dest).isSome then some s else none
  | .observe => some s

def run (t : MCSTables) (s : Registry) (acts : List RegistryAct) : Option Registry :=
  acts.foldlM (act t) s

/-- The slots of the table that a step uses.  The one that a call of `sdb_module_init` uses is fixed
when it reads `sdb_module_last`. -/
def indices (s : Registry) : RegistryAct → List Nat
  | .accept _ => [s.last]
  | .store _ => (s.director.map Prod.fst).toList
  | .start i | .receive i _ | .finish i | .leave i => [i]
  | .lookup i dest => i :: s.compared dest
  | .observe => List.range s.last

end Registry

/-! ## What a step can do -/

inductive RegistryEffect (s : Registry) : RegistryAct → Registry → Prop
  | accept (fd : Nat) : s.director = none → s.isOpen fd = false →
      RegistryEffect s (.accept fd) (s.accept fd)
  | store (id fd : Nat) (created : Bool) : s.director = some (id, fd) →
      RegistryEffect s (.store created) (s.store id fd created)
  | start (i : Nat) : (s.slots i).phase = .created →
      RegistryEffect s (.start i) (s.set i { s.slots i with locked := true, phase := .shaking })
  | receive (i : Nat) (input : List UInt8) (greeting : Greeting) : (s.slots i).phase = .shaking →
      RegistryEffect s (.receive i input) (s.set i ((s.slots i).greet greeting))
  | finish (i : Nat) : (s.slots i).phase = .greeted →
      RegistryEffect s (.finish i)
        (s.set i { s.slots i with allocated := true, phase := .running })
  | leave (i : Nat) : (s.slots i).phase = .refused →
      RegistryEffect s (.leave i) ((s.clean i).set i { s.slots i with phase := .exited })
  | lookup (i : Nat) (dest : CString) : (s.slots i).phase = .running →
      RegistryEffect s (.lookup i dest) s
  | observe : RegistryEffect s .observe s

section Inversion

variable {t : MCSTables} {s s' : Registry} {a : RegistryAct}

theorem act_effect (h : s.act t a = some s') : RegistryEffect s a s' := by
  cases a with
  | accept fd =>
      simp only [Registry.act, Option.ite_none_right_eq_some, Option.some.injEq] at h
      rcases h with ⟨⟨hidle, hfree⟩, rfl⟩
      exact .accept fd hidle hfree
  | store created =>
      cases hdirector : s.director with
      | none => simp [Registry.act, hdirector] at h
      | some d =>
          simp only [Registry.act, hdirector, Option.some.injEq] at h
          exact h ▸ .store d.1 d.2 created hdirector
  | start i =>
      simp only [Registry.act, Option.ite_none_right_eq_some, Option.some.injEq] at h
      rcases h with ⟨hphase, rfl⟩
      exact .start i hphase
  | receive i input =>
      simp only [Registry.act, Option.ite_none_right_eq_some] at h
      rcases h with ⟨hphase, h⟩
      cases hfirst : firstPacket t (s.slots i).rfd openFd input with
      | none => simp [hfirst] at h
      | some first =>
          simp only [hfirst, Option.some.injEq] at h
          exact h ▸ .receive i input first.greeting hphase
  | finish i =>
      simp only [Registry.act, Option.ite_none_right_eq_some, Option.some.injEq] at h
      rcases h with ⟨hphase, rfl⟩
      exact .finish i hphase
  | leave i =>
      simp only [Registry.act, Option.ite_none_right_eq_some, Option.some.injEq] at h
      rcases h with ⟨hphase, rfl⟩
      exact .leave i hphase
  | lookup i dest =>
      simp only [Registry.act, Option.ite_none_right_eq_some, Option.some.injEq] at h
      rcases h with ⟨⟨hphase, _⟩, rfl⟩
      exact .lookup i dest hphase
  | observe =>
      cases h
      exact .observe

end Inversion

/-! ## Invariant -/

/-- What a slot holds in each phase. -/
structure Slot.Consistent (slot : Slot) : Prop where
  named : slot.phase = .greeted ∨ slot.phase = .running → slot.name.isSome = true
  region : slot.allocated = true ↔ slot.phase = .running

/-- Before and after, a module has no region. -/
theorem Slot.Consistent.of_phase {slot : Slot} {p : Phase} (h : slot.phase = p)
    (hp : p ≠ .greeted ∧ p ≠ .running) (hfree : slot.allocated = false) : slot.Consistent where
  named := fun hphase => by
    rw [h] at hphase
    exact (hphase.elim hp.1 hp.2).elim
  region := by
    rw [h]
    exact iff_of_false (by simp [hfree]) hp.2

theorem Slot.Consistent.free {slot : Slot} (h : slot.Consistent) {p : Phase}
    (hphase : slot.phase = p) (hp : p ≠ .running) : slot.allocated = false := by
  rw [← Bool.not_eq_true, h.region, hphase]
  exact hp

theorem Slot.consistent_zero : Slot.zero.Consistent := .of_phase rfl (by decide) rfl

/-- The modules one can send to are the ones in their main loop. -/
theorem Slot.Consistent.registered_iff {slot : Slot} (h : slot.Consistent) :
    slot.Registered ↔ slot.phase = .running := by
  constructor
  · intro hreg
    exact h.region.1 hreg.region
  · intro hphase
    refine ⟨h.named (.inr hphase), h.region.2 hphase, fun hstuck => ?_⟩
    rw [hphase] at hstuck
    cases hstuck.1

namespace Registry

structure Inv (s : Registry) : Prop where
  zero_open : s.isOpen 0 = true
  fresh : ∀ i, s.last ≤ i → s.slots i = Slot.zero
  consistent : ∀ i, (s.slots i).Consistent
  /-- a connection that is stored is open -/
  live : ∀ i, (s.slots i).phase.Live →
    s.isOpen (s.slots i).rfd = true ∧ (s.slots i).rfd ≠ 0 ∧ (s.slots i).wfd = (s.slots i).rfd
  distinct : ∀ i j, (s.slots i).phase.Live → (s.slots j).phase.Live →
    (s.slots i).rfd = (s.slots j).rfd → i = j
  /-- a connection that is about to be stored is open, and no slot has it yet -/
  director : ∀ id fd, s.director = some (id, fd) →
    id < s.last ∧ s.slots id = Slot.zero ∧ s.isOpen fd = true ∧ fd ≠ 0 ∧
      ∀ i, (s.slots i).phase.Live → (s.slots i).rfd ≠ fd

end Registry

theorem not_live_zero : ¬ Slot.zero.phase.Live := fun h => h.1 rfl

theorem Phase.Live.of_eq {p : Phase} (q : Phase) (h : p = q) (hq : q ≠ .unused ∧ q ≠ .exited) :
    p.Live :=
  h ▸ hq

/-- A thread goes on in the handshake: from one live phase to the next, on the same connection. -/
structure Advances (slot slot' : Slot) : Prop where
  rfd : slot'.rfd = slot.rfd
  wfd : slot'.wfd = slot.wfd
  live : slot.phase.Live
  live' : slot'.phase.Live

theorem advances_greet {slot : Slot} (h : slot.phase = .shaking) (greeting : Greeting) :
    Advances slot (slot.greet greeting) := by
  have hlive : slot.phase.Live := .of_eq .shaking h (by decide)
  cases greeting with
  | unreadable => exact ⟨rfl, rfl, hlive, .of_eq .refused rfl (by decide)⟩
  | accepted name group => exact ⟨rfl, rfl, hlive, .of_eq .greeted rfl (by decide)⟩
  | refused name =>
      cases name with
      | none => exact ⟨rfl, rfl, hlive, .of_eq .refused rfl (by decide)⟩
      | some name => exact ⟨rfl, rfl, hlive, .of_eq .refused rfl (by decide)⟩

theorem consistent_greet {slot : Slot} (hc : slot.Consistent) (h : slot.phase = .shaking)
    (greeting : Greeting) : (slot.greet greeting).Consistent := by
  have hfree : slot.allocated = false := hc.free h (by decide)
  cases greeting with
  | unreadable => exact .of_phase (p := .refused) rfl (by decide) hfree
  | accepted name group =>
      exact ⟨fun _ => rfl, iff_of_false (fun htrue => by simp [Slot.greet, hfree] at htrue) nofun⟩
  | refused name =>
      cases name with
      | none => exact .of_phase (p := .refused) rfl (by decide) hfree
      | some name => exact .of_phase (p := .refused) rfl (by decide) hfree

namespace Registry

section Preservation

variable {t : MCSTables} {s s' : Registry} {a : RegistryAct} {i : Nat}

theorem inv_init : init.Inv where
  zero_open := rfl
  fresh := fun _ _ => rfl
  consistent := fun _ => Slot.consistent_zero
  live := fun _ h => absurd h not_live_zero
  distinct := fun _ _ h => absurd h not_live_zero
  director := nofun

theorem Inv.lt_last (h : s.Inv) (hi : (s.slots i).phase ≠ .unused) : i < s.last := by
  by_contra hle
  exact hi (by rw [h.fresh i (Nat.not_lt.1 hle)]; rfl)

theorem set_slots_self (s : Registry) (i : Nat) (slot : Slot) : (s.set i slot).slots i = slot := by
  simp [set]

theorem set_slots_of_ne (s : Registry) {i j : Nat} (slot : Slot) (h : j ≠ i) :
    (s.set i slot).slots j = s.slots j := by
  simp [set, h]

/-- Writing a slot in use leaves the slots past the last one as they were. -/
theorem Inv.fresh_set (h : s.Inv) (hi : i < s.last) (slot : Slot) {j : Nat} (hj : s.last ≤ j) :
    (s.set i slot).slots j = Slot.zero := by
  rw [set_slots_of_ne s slot (by omega)]
  exact h.fresh j hj

theorem Inv.consistent_set (h : s.Inv) {slot : Slot} (hc : slot.Consistent) (j : Nat) :
    ((s.set i slot).slots j).Consistent := by
  by_cases hj : j = i
  · rw [hj, set_slots_self]
    exact hc
  · rw [set_slots_of_ne s slot hj]
    exact h.consistent j

theorem Inv.accept (h : s.Inv) {fd : Nat} (hfree : s.isOpen fd = false) : (s.accept fd).Inv where
  zero_open := by
    by_cases h0 : (0 : Nat) = fd
    · simp [Registry.accept, ← h0]
    · simp [Registry.accept, h0, h.zero_open]
  fresh := fun i hi => h.fresh i (Nat.le_of_succ_le hi)
  consistent := h.consistent
  live := by
    intro i hi
    rcases h.live i hi with ⟨hopen, hne, hwfd⟩
    refine ⟨?_, hne, hwfd⟩
    by_cases hsame : (s.slots i).rfd = fd
    · simp [Registry.accept, hsame]
    · simp [Registry.accept, hsame, hopen]
  distinct := h.distinct
  director := by
    intro id fd' hd
    cases hd
    refine ⟨Nat.lt_succ_self _, h.fresh _ (Nat.le_refl _), by simp [Registry.accept], ?_, ?_⟩
    · rintro rfl
      simp [h.zero_open] at hfree
    · intro i hi hsame
      have hopen := (h.live i hi).1
      have hclosed : s.isOpen (s.slots i).rfd = false := hsame ▸ hfree
      simp [hopen] at hclosed

theorem Inv.store (h : s.Inv) {id fd : Nat} {created : Bool} (hd : s.director = some (id, fd)) :
    (s.store id fd created).Inv := by
  rcases h.director id fd hd with ⟨hlt, hzero, hopen, hne, hnew⟩
  have hself : ((s.store id fd created).slots id) =
      { s.slots id with rfd := fd, wfd := fd, phase := if created then .created else .orphaned } :=
    set_slots_self _ _ _
  have hother : ∀ j, j ≠ id → (s.store id fd created).slots j = s.slots j :=
    fun j hj => set_slots_of_ne _ _ hj
  have hphase : (if created = true then Phase.created else .orphaned) ≠ .greeted ∧
      (if created = true then Phase.created else .orphaned) ≠ .running := by
    cases created <;> decide
  have hfree : (s.slots id).allocated = false := by
    rw [hzero]
    rfl
  constructor
  · exact h.zero_open
  · exact fun i hi => h.fresh_set hlt _ hi
  · exact h.consistent_set (.of_phase rfl hphase hfree)
  · intro i
    by_cases hi : i = id
    · rw [hi, hself]
      exact fun _ => ⟨hopen, hne, rfl⟩
    · rw [hother i hi]
      exact h.live i
  · intro i j
    by_cases hi : i = id
    · by_cases hj : j = id
      · exact fun _ _ _ => hi.trans hj.symm
      · rw [hi, hself, hother j hj]
        exact fun _ hlive hsame => absurd hsame.symm (hnew j hlive)
    · by_cases hj : j = id
      · rw [hj, hself, hother i hi]
        exact fun hlive _ hsame => absurd hsame (hnew i hlive)
      · rw [hother i hi, hother j hj]
        exact h.distinct i j
  · exact nofun

/-- The thread of a slot goes on. -/
theorem Inv.advance (h : s.Inv) {slot : Slot} (hadv : Advances (s.slots i) slot)
    (hc : slot.Consistent) : (s.set i slot).Inv := by
  have hself : (s.set i slot).slots i = slot := set_slots_self _ _ _
  have hother : ∀ j, j ≠ i → (s.set i slot).slots j = s.slots j :=
    fun j hj => set_slots_of_ne _ _ hj
  -- for the descriptors it is as if nothing had changed
  have hrfd : ∀ j, ((s.set i slot).slots j).rfd = (s.slots j).rfd := by
    intro j
    by_cases hj : j = i
    · rw [hj, hself, hadv.rfd]
    · rw [hother j hj]
  have hlive : ∀ j, ((s.set i slot).slots j).phase.Live → (s.slots j).phase.Live := by
    intro j
    by_cases hj : j = i
    · exact fun _ => hj ▸ hadv.live
    · rw [hother j hj]
      exact id
  constructor
  · exact h.zero_open
  · exact fun j hj => h.fresh_set (h.lt_last hadv.live.1) slot hj
  · exact h.consistent_set hc
  · intro j hj
    rcases h.live j (hlive j hj) with ⟨hopen, hne, hwfd⟩
    rw [hrfd j]
    refine ⟨hopen, hne, ?_⟩
    by_cases hji : j = i
    · rw [hji, hself, hadv.wfd]
      exact hji ▸ hwfd
    · rw [hother j hji]
      exact hwfd
  · intro j k hj hk hsame
    rw [hrfd j, hrfd k] at hsame
    exact h.distinct j k (hlive j hj) (hlive k hk) hsame
  · intro id fd hd
    rcases h.director id fd hd with ⟨hid, hzero, hopen, hne, hnew⟩
    have hidi : id ≠ i := by
      rintro rfl
      exact not_live_zero (hzero ▸ hadv.live)
    refine ⟨hid, (hother id hidi).trans hzero, hopen, hne, fun j hj => ?_⟩
    rw [hrfd j]
    exact hnew j (hlive j hj)

/-- The thread of a slot leaves and closes its connection. -/
theorem Inv.leave (h : s.Inv) (hphase : (s.slots i).phase = .refused) :
    ((s.clean i).set i { s.slots i with phase := .exited }).Inv := by
  have hi : (s.slots i).phase.Live := .of_eq .refused hphase (by decide)
  rcases h.live i hi with ⟨_, hne0, hwfd⟩
  have hself : ((s.clean i).set i { s.slots i with phase := .exited }).slots i =
      { s.slots i with phase := .exited } := set_slots_self _ _ _
  have hother : ∀ j, j ≠ i → ((s.clean i).set i { s.slots i with phase := .exited }).slots j =
      s.slots j := fun j hj => set_slots_of_ne _ _ hj
  -- exactly one descriptor is closed
  have hopen : ∀ fd, fd ≠ (s.slots i).rfd →
      ((s.clean i).set i { s.slots i with phase := .exited }).isOpen fd = s.isOpen fd := by
    intro fd hfd
    simp [set, clean, hwfd, hfd]
  have hlive : ∀ j, (((s.clean i).set i { s.slots i with phase := .exited }).slots j).phase.Live →
      j ≠ i ∧ (s.slots j).phase.Live := by
    intro j hj
    by_cases hji : j = i
    · rw [hji, hself] at hj
      exact absurd rfl hj.2
    · rw [hother j hji] at hj
      exact ⟨hji, hj⟩
  constructor
  · rw [hopen 0 hne0.symm]
    exact h.zero_open
  · exact fun j hj => h.fresh_set (h.lt_last hi.1) _ hj
  · have hfree : (s.slots i).allocated = false := (h.consistent i).free hphase (by decide)
    exact h.consistent_set (.of_phase (p := .exited) rfl (by decide) hfree)
  · intro j hj
    rcases hlive j hj with ⟨hji, hj'⟩
    rcases h.live j hj' with ⟨hjopen, hjne, hjwfd⟩
    rw [hother j hji, hopen _ fun hsame => hji (h.distinct j i hj' hi hsame)]
    exact ⟨hjopen, hjne, hjwfd⟩
  · intro j k hj hk
    rcases hlive j hj with ⟨hji, hj'⟩
    rcases hlive k hk with ⟨hki, hk'⟩
    rw [hother j hji, hother k hki]
    exact h.distinct j k hj' hk'
  · intro id fd hd
    rcases h.director id fd hd with ⟨hid, hzero, hfd, hne, hnew⟩
    have hidi : id ≠ i := by
      rintro rfl
      exact not_live_zero (hzero ▸ hi)
    refine ⟨hid, (hother id hidi).trans hzero, ?_, hne, fun j hj => ?_⟩
    · rw [hopen fd (hnew i hi).symm]
      exact hfd
    · rcases hlive j hj with ⟨hji, hj'⟩
      rw [hother j hji]
      exact hnew j hj'

theorem Inv.act (h : s.Inv) (hact : s.act t a = some s') : s'.Inv := by
  cases act_effect hact with
  | accept fd _ hfree => exact h.accept hfree
  | store id fd created hd => exact h.store hd
  | start i hphase =>
      have hfree : (s.slots i).allocated = false := (h.consistent i).free hphase (by decide)
      refine h.advance ⟨rfl, rfl, .of_eq .created hphase (by decide),
        .of_eq .shaking rfl (by decide)⟩ ?_
      exact .of_phase (p := .shaking) rfl (by decide) hfree
  | receive i input greeting hphase =>
      exact h.advance (advances_greet hphase greeting)
        (consistent_greet (h.consistent i) hphase greeting)
  | finish i hphase =>
      refine h.advance ⟨rfl, rfl, .of_eq .greeted hphase (by decide),
        .of_eq .running rfl (by decide)⟩ ?_
      exact ⟨fun _ => (h.consistent i).named (.inl hphase), iff_of_true rfl rfl⟩
  | leave i hphase => exact h.leave hphase
  | lookup i dest _ => exact h
  | observe => exact h

theorem inv_of_run {acts : List RegistryAct} (h : init.run t acts = some s) : s.Inv :=
  run_invariant (fun hs hact => hs.act hact) inv_init h

end Preservation

end Registry

end SDB
end AbsPlatform
