import Mathlib.Data.List.Nodup
import Mathlib.Logic.Function.Basic
import Mathlib.Logic.Relation
import Mathlib.Tactic.SplitIfs
import AbsPlatform.Lib.Runs

/-!
# LockProgram — operations that take locks and give them back

An operation is a program over mutexes and shared data.  Any number of threads run operations; a
step is one lock operation or one section without any, so that the steps of the threads interleave
in every way.  A thread that asks for a mutex that is held waits, also when it is the holder.

`Sound` is checked along a program: it gives back what it has taken, asks for locks in the order of
their rank, and ends with a lock only behind a section that is marked as bad.  For such programs
`balanced_iff` says that operations end with the locks they started with, and that every chain of
waiting threads ends in one that does not wait, exactly when no bad section is run.
-/

namespace AbsPlatform
namespace Lib

/-! ## Programs -/

/-- The rest of an operation. -/
inductive LockProgram (A L D : Type)
  | done
  | lock (l : L) (k : LockProgram A L D)
  | unlock (l : L) (k : LockProgram A L D)
  /-- a section named `a` that does not wait; what follows depends on the data it has found -/
  | run (a : A) (f : D → Option D) (k : D → LockProgram A L D)

namespace LockProgram

variable {A L D : Type}

/-- Waiting on a condition variable with the lock `l`.  It may end at any time. -/
def wait (l : L) (k : LockProgram A L D) : LockProgram A L D := .unlock l (.lock l k)

/-- A program that has taken the locks `held` and gives them back. -/
def Sound [DecidableEq L] (rank : L → Nat) (bad : A → D → Prop) :
    List L → LockProgram A L D → Prop
  | held, done => held = []
  | held, lock l k => (∀ l' ∈ held, rank l' < rank l) ∧ Sound rank bad (l :: held) k
  | held, unlock l k => l ∈ held ∧ Sound rank bad (held.erase l) k
  | held, run a f k => ∀ d d', f d = some d' →
      -- a bad section ends the operation with locks
      (bad a d → held ≠ [] ∧ k d = done) ∧ (¬ bad a d → Sound rank bad held (k d))

end LockProgram

open LockProgram

/-! ## Threads -/

structure LockState (T A L D : Type) where
  data : D
  holder : L → Option T
  /-- the rest of the operation of each thread, `done` outside of operations -/
  prog : T → LockProgram A L D
  /-- the holders of the locks when a thread began its last operation -/
  before : T → L → Option T

inductive LockAct (T O : Type)
  | call (t : T) (o : O)
  | step (t : T)

def LockAct.thread {T O : Type} : LockAct T O → T
  | call t _ => t
  | step t => t

@[simp] theorem LockAct.thread_call {T O : Type} (t : T) (o : O) : (call t o).thread = t := rfl

namespace LockState

variable {T A L D O : Type} [DecidableEq T] [DecidableEq L]

/-- Nobody holds a lock. -/
def start (data : D) : LockState T A L D where
  data := data
  holder := fun _ => none
  prog := fun _ => .done
  before := fun _ _ => none

def goto (s : LockState T A L D) (t : T) (p : LockProgram A L D) : LockState T A L D :=
  { s with prog := Function.update s.prog t p }

def setHolder (s : LockState T A L D) (l : L) (t : Option T) : LockState T A L D :=
  { s with holder := Function.update s.holder l t }

/-- One step of a thread; using a lock that does not exist is a fault. -/
def act (program : O → LockProgram A L D) (usable : D → L → Bool) (s : LockState T A L D) :
    LockAct T O → Option (LockState T A L D)
  | .call t o =>
      match s.prog t with
      | .done => some { s.goto t (program o) with before := Function.update s.before t s.holder }
      | _ => none
  | .step t =>
      match s.prog t with
      | .done => none
      | .lock l k =>
          if usable s.data l = true ∧ s.holder l = none then
            some ((s.setHolder l (some t)).goto t k)
          else none
      | .unlock l k =>
          if usable s.data l = true ∧ s.holder l = some t then
            some ((s.setHolder l none).goto t k)
          else none
      | .run _ f k =>
          match f s.data with
          | none => none
          | some d => some ({ s with data := d }.goto t (k s.data))

/-- The thread asks for the lock. -/
def Wants (s : LockState T A L D) (t : T) (l : L) : Prop := ∃ k, s.prog t = .lock l k

/-- The thread waits for a lock that is held. -/
def Blocked (s : LockState T A L D) (t : T) : Prop := ∃ l, s.Wants t l ∧ s.holder l ≠ none

/-- The thread is about to run a bad section. -/
def Leaks (bad : A → D → Prop) (s : LockState T A L D) (t : T) : Prop :=
  ∃ a f k, s.prog t = .run a f k ∧ bad a s.data

/-- Every operation that is over has left its thread with the locks it started with. -/
def Returned (s : LockState T A L D) : Prop :=
  ∀ t, s.prog t = .done → ∀ l, s.holder l = some t ↔ s.before t l = some t

/-- The thread asks for a lock that the other one holds. -/
def WaitsFor (s : LockState T A L D) (t u : T) : Prop := ∃ l, s.Wants t l ∧ s.holder l = some u

/-- Behind a thread that waits there is, at the end of the chain of those who wait for each other,
a thread inside an operation that does not wait. -/
def Released (s : LockState T A L D) : Prop :=
  ∀ t u, s.WaitsFor t u → ∃ w, Relation.ReflTransGen s.WaitsFor u w ∧ s.prog w ≠ .done ∧
    ¬ s.Blocked w

/-! ## What a step does -/

section Effects

variable {program : O → LockProgram A L D} {usable : D → L → Bool} {s s' : LockState T A L D}
  {a : LockAct T O} {t u : T}

inductive Effect (program : O → LockProgram A L D) (s : LockState T A L D) :
    LockAct T O → LockState T A L D → Prop
  | call (t : T) (o : O) : s.prog t = .done →
      Effect program s (.call t o)
        { s.goto t (program o) with before := Function.update s.before t s.holder }
  | lock (t : T) (l : L) (k : LockProgram A L D) : s.prog t = .lock l k → s.holder l = none →
      Effect program s (.step t) ((s.setHolder l (some t)).goto t k)
  | unlock (t : T) (l : L) (k : LockProgram A L D) : s.prog t = .unlock l k →
      s.holder l = some t → Effect program s (.step t) ((s.setHolder l none).goto t k)
  | run (t : T) (a : A) (f : D → Option D) (k : D → LockProgram A L D) (d : D) :
      s.prog t = .run a f k → f s.data = some d →
      Effect program s (.step t) ({ s with data := d }.goto t (k s.data))

theorem act_effect (h : s.act program usable a = some s') : Effect program s a s' := by
  cases a with
  | call t o =>
      cases hprog : s.prog t with
      | done =>
          simp only [act, hprog, Option.some.injEq] at h
          subst h
          exact .call t o hprog
      | lock l k => simp [act, hprog] at h
      | unlock l k => simp [act, hprog] at h
      | run a f k => simp [act, hprog] at h
  | step t =>
      cases hprog : s.prog t with
      | done => simp [act, hprog] at h
      | lock l k =>
          simp only [act, hprog] at h
          split_ifs at h with hfree
          cases h
          exact .lock t l k hprog hfree.2
      | unlock l k =>
          simp only [act, hprog] at h
          split_ifs at h with hmine
          cases h
          exact .unlock t l k hprog hmine.2
      | run a f k =>
          simp only [act, hprog] at h
          cases hf : f s.data with
          | none => simp [hf] at h
          | some d =>
              rw [hf] at h
              cases h
              exact .run t a f k d hprog hf

theorem Effect.busy (h : Effect program s (.step t) s') : s.prog t ≠ .done := by
  cases h with
  | lock _ l k hprog hfree => simp [hprog]
  | unlock _ l k hprog hmine => simp [hprog]
  | run _ a f k d hprog hf => simp [hprog]

/-! ## What a thread holds -/

/-- The thread holds what it held at its last call and the locks `held`. -/
structure Holds (s : LockState T A L D) (t : T) (held : List L) : Prop where
  nodup : held.Nodup
  holder_iff : ∀ l, s.holder l = some t ↔ s.before t l = some t ∨ l ∈ held
  not_before : ∀ l ∈ held, s.before t l ≠ some t

/-- A thread does not notice the steps of the others. -/
theorem Effect.other (h : Effect program s a s') (hu : u ≠ a.thread) :
    s'.prog u = s.prog u ∧ s'.before u = s.before u ∧
      ∀ l, s'.holder l = some u ↔ s.holder l = some u := by
  cases h with
  | call t o hidle =>
      exact ⟨Function.update_of_ne hu _ _, Function.update_of_ne hu _ _, fun l => Iff.rfl⟩
  | lock t l k hprog hfree =>
      refine ⟨Function.update_of_ne hu _ _, rfl, fun l' => ?_⟩
      by_cases hl : l' = l
      · subst hl
        have hne : t ≠ u := Ne.symm hu
        simp [goto, setHolder, hfree, hne]
      · simp [goto, setHolder, hl]
  | unlock t l k hprog hmine =>
      refine ⟨Function.update_of_ne hu _ _, rfl, fun l' => ?_⟩
      by_cases hl : l' = l
      · subst hl
        have hne : t ≠ u := Ne.symm hu
        simp [goto, setHolder, hmine, hne]
      · simp [goto, setHolder, hl]
  | run t a f k d hprog hf =>
      exact ⟨Function.update_of_ne hu _ _, rfl, fun l => Iff.rfl⟩

/-- A step does not begin an operation. -/
theorem Effect.busy_of_busy (h : Effect program s (.step u) s') (hactive : s'.prog t ≠ .done) :
    s.prog t ≠ .done := by
  by_cases ht : t = u
  · subst ht
    exact h.busy
  · rw [← (h.other ht).1]
    exact hactive

theorem Holds.other {held : List L} (hheld : s.Holds u held) (h : Effect program s a s')
    (hu : u ≠ a.thread) : s'.Holds u held := by
  rcases h.other hu with ⟨_, hbefore, hholder⟩
  refine ⟨hheld.nodup, fun l => ?_, fun l hl => ?_⟩
  · rw [hholder l, hbefore]
    exact hheld.holder_iff l
  · rw [hbefore]
    exact hheld.not_before l hl

theorem Holds.lock {held : List L} {l : L} (hheld : s.Holds t held) (hfree : s.holder l = none)
    (k : LockProgram A L D) : ((s.setHolder l (some t)).goto t k).Holds t (l :: held) := by
  -- a lock that nobody holds is in neither part of what the thread holds
  have hnot : ¬ (s.before t l = some t ∨ l ∈ held) := by
    rw [← hheld.holder_iff l, hfree]
    simp
  rw [not_or] at hnot
  refine ⟨List.nodup_cons.2 ⟨hnot.2, hheld.nodup⟩, fun l' => ?_, fun l' hl' => ?_⟩
  · by_cases hl : l' = l
    · subst hl
      simp [goto, setHolder]
    · simpa [goto, setHolder, hl] using hheld.holder_iff l'
  · rcases List.mem_cons.1 hl' with rfl | hmem
    · exact hnot.1
    · exact hheld.not_before l' hmem

theorem Holds.unlock {held : List L} {l : L} (hheld : s.Holds t held) (hl : l ∈ held)
    (k : LockProgram A L D) : ((s.setHolder l none).goto t k).Holds t (held.erase l) := by
  refine ⟨hheld.nodup.erase l, fun l' => ?_, fun l' hl' => ?_⟩
  · rw [hheld.nodup.mem_erase_iff]
    by_cases hl' : l' = l
    · subst hl'
      simpa [goto, setHolder] using hheld.not_before l' hl
    · simpa [goto, setHolder, hl'] using hheld.holder_iff l'
  · exact hheld.not_before l' (List.mem_of_mem_erase hl')

/-- A step of a thread along a sound program leads to a sound program, unless it leaks. -/
theorem Effect.own {rank : L → Nat} {bad : A → D → Prop} {held : List L}
    (h : Effect program s (.step t) s') (hleak : ¬ s.Leaks bad t) (hheld : s.Holds t held)
    (hsound : Sound rank bad held (s.prog t)) :
    ∃ held', s'.Holds t held' ∧ Sound rank bad held' (s'.prog t) := by
  cases h with
  | lock _ l k hprog hfree =>
      rw [hprog] at hsound
      exact ⟨l :: held, hheld.lock hfree k, by simpa [goto] using hsound.2⟩
  | unlock _ l k hprog hmine =>
      rw [hprog] at hsound
      exact ⟨held.erase l, hheld.unlock hsound.1 k, by simpa [goto] using hsound.2⟩
  | run _ a f k d hprog hf =>
      rw [hprog] at hsound
      have hgood : ¬ bad a s.data := fun hbad => hleak ⟨a, f, k, hprog, hbad⟩
      refine ⟨held, ⟨hheld.nodup, hheld.holder_iff, hheld.not_before⟩, ?_⟩
      simpa [goto] using (hsound s.data d hf).2 hgood

/-- A step that leaks ends the operation with locks. -/
theorem Effect.leak {rank : L → Nat} {bad : A → D → Prop} {held : List L}
    (h : Effect program s (.step t) s') (hleak : s.Leaks bad t) (hheld : s.Holds t held)
    (hsound : Sound rank bad held (s.prog t)) :
    s'.prog t = .done ∧ s'.Holds t held ∧ held ≠ [] := by
  rcases hleak with ⟨a, f, k, hprog, hbad⟩
  rw [hprog] at hsound
  cases h with
  | lock _ l k hprog' _ => simp [hprog] at hprog'
  | unlock _ l k hprog' _ => simp [hprog] at hprog'
  | run _ a' f' k' d hprog' hf =>
      rw [hprog] at hprog'
      cases hprog'
      rcases (hsound s.data d hf).1 hbad with ⟨hne, hdone⟩
      refine ⟨?_, ⟨hheld.nodup, hheld.holder_iff, hheld.not_before⟩, hne⟩
      simpa [goto] using hdone

end Effects

/-! ## Runs -/

section Balance

variable {program : O → LockProgram A L D} {usable : D → L → Bool} {rank : L → Nat}
  {bad : A → D → Prop} {s s' : LockState T A L D} {a : LockAct T O}

/-- The threads inside operations are on sound programs.  This is so in every run. -/
def Sane (rank : L → Nat) (bad : A → D → Prop) (s : LockState T A L D) : Prop :=
  ∀ t, s.prog t ≠ .done → ∃ held, s.Holds t held ∧ Sound rank bad held (s.prog t)

/-- The same for all threads, and nobody has begun an operation with a lock.  This is so until a
bad section is run. -/
structure Clean (rank : L → Nat) (bad : A → D → Prop) (s : LockState T A L D) : Prop where
  before_ne : ∀ t l, s.before t l ≠ some t
  sound : ∀ t, ∃ held, s.Holds t held ∧ Sound rank bad held (s.prog t)

section States

omit [DecidableEq T]

theorem clean_start (data : D) : (start data : LockState T A L D).Clean rank bad where
  before_ne := fun t l => by simp [start]
  sound := fun t => ⟨[], ⟨List.nodup_nil, by simp [start], by simp⟩, rfl⟩

theorem Clean.returned (hs : s.Clean rank bad) : s.Returned := by
  intro t hidle l
  rcases hs.sound t with ⟨held, hheld, hsound⟩
  rw [hidle] at hsound
  have hnil : held = [] := hsound
  rw [hheld.holder_iff l, hnil]
  simp

/-- A thread with a lock is inside an operation. -/
theorem Clean.busy (hs : s.Clean rank bad) {t : T} {l : L} (hholder : s.holder l = some t) :
    s.prog t ≠ .done := by
  intro hidle
  exact hs.before_ne t l ((hs.returned t hidle l).1 hholder)

/-- Locks are asked for in the order of their rank. -/
theorem Clean.rank_lt (hs : s.Clean rank bad) {t : T} {l l' : L} (hwants : s.Wants t l')
    (hholder : s.holder l = some t) : rank l < rank l' := by
  rcases hs.sound t with ⟨held, hheld, hsound⟩
  rcases hwants with ⟨k, hprog⟩
  rw [hprog] at hsound
  rcases (hheld.holder_iff l).1 hholder with hbefore | hmem
  · exact absurd hbefore (hs.before_ne t l)
  · exact hsound.1 l hmem

theorem Clean.exists_not_blocked {n : Nat} (hrank : ∀ l, rank l ≤ n) (hs : s.Clean rank bad)
    {t : T} {l : L} (hholder : s.holder l = some t) :
    ∃ w, Relation.ReflTransGen s.WaitsFor t w ∧ s.prog w ≠ .done ∧ ¬ s.Blocked w := by
  -- a holder that waits asks for a lock of a higher rank
  induction hm : n - rank l using Nat.strongRecOn generalizing t l with
  | ind m ih =>
      by_cases hblocked : s.Blocked t
      · rcases hblocked with ⟨l', hwants, hheld⟩
        rcases Option.ne_none_iff_exists'.1 hheld with ⟨u, hu⟩
        have hlt := hs.rank_lt hwants hholder
        have hle := hrank l'
        rcases ih (n - rank l') (by omega) hu rfl with ⟨w, hchain, hw⟩
        exact ⟨w, hchain.head ⟨l', hwants, hu⟩, hw⟩
      · exact ⟨t, .refl, hs.busy hholder, hblocked⟩

theorem Clean.released {n : Nat} (hrank : ∀ l, rank l ≤ n) (hs : s.Clean rank bad) :
    s.Released := by
  rintro t u ⟨l, _, hholder⟩
  exact hs.exists_not_blocked hrank hholder

theorem Clean.sane (hs : s.Clean rank bad) : s.Sane rank bad := fun t _ => hs.sound t

omit [DecidableEq L] in
/-- A thread that waits for one outside of operations waits in vain. -/
theorem not_released {t u : T} (hwaits : s.WaitsFor t u) (hidle : s.prog u = .done) :
    ¬ s.Released := by
  intro hreleased
  rcases hreleased t u hwaits with ⟨w, hchain, hbusy, _⟩
  rcases hchain.cases_head with rfl | ⟨v, ⟨l, ⟨k, hprog⟩, _⟩, _⟩
  · exact hbusy hidle
  · simp [hidle] at hprog

end States

omit [DecidableEq L] in
theorem holds_of_call (s : LockState T A L D) (t : T) (p : LockProgram A L D) :
    Holds { s.goto t p with before := Function.update s.before t s.holder } t [] := by
  refine ⟨List.nodup_nil, fun l => ?_, fun l hl => absurd hl List.not_mem_nil⟩
  simp [goto]

theorem Sane.act (hprogram : ∀ o, Sound rank bad [] (program o)) (hs : s.Sane rank bad)
    (h : s.act program usable a = some s') : s'.Sane rank bad := by
  have heffect := act_effect h
  intro u hactive
  by_cases hu : u = a.thread
  · subst hu
    cases a with
    | call t o =>
        cases heffect
        exact ⟨[], holds_of_call s t _, by simpa [goto] using hprogram o⟩
    | step t =>
        rcases hs t heffect.busy with ⟨held, hheld, hsound⟩
        by_cases hleak : s.Leaks bad t
        · exact absurd (heffect.leak hleak hheld hsound).1 hactive
        · exact heffect.own hleak hheld hsound
  · rcases heffect.other hu with ⟨hprog, _, _⟩
    rw [hprog] at hactive ⊢
    rcases hs u hactive with ⟨held, hheld, hsound⟩
    exact ⟨held, hheld.other heffect hu, hsound⟩

theorem Clean.act (hprogram : ∀ o, Sound rank bad [] (program o)) (hs : s.Clean rank bad)
    (hleak : ∀ t, a = .step t → ¬ s.Leaks bad t) (h : s.act program usable a = some s') :
    s'.Clean rank bad := by
  have heffect := act_effect h
  refine ⟨fun u l => ?_, fun u => ?_⟩
  · cases heffect with
    | call t o hidle =>
        by_cases hu : u = t
        · subst hu
          have hfree : s.holder l ≠ some u := fun hholder => hs.busy hholder hidle
          simpa [goto] using hfree
        · simpa [goto, hu] using hs.before_ne u l
    | lock t l k _ _ => exact hs.before_ne u _
    | unlock t l k _ _ => exact hs.before_ne u _
    | run t a f k d _ _ => exact hs.before_ne u _
  · rcases hs.sound u with ⟨held, hheld, hsound⟩
    by_cases hu : u = a.thread
    · subst hu
      cases a with
      | call t o =>
          cases heffect
          exact ⟨[], holds_of_call s t _, by simpa [goto] using hprogram o⟩
      | step t => exact heffect.own (hleak t rfl) hheld hsound
    · rw [(heffect.other hu).1]
      exact ⟨held, hheld.other heffect hu, hsound⟩

/-- After a leak an operation has ended with a lock it did not start with. -/
theorem Sane.not_returned (hs : s.Sane rank bad) {t : T} (hleak : s.Leaks bad t)
    (h : s.act program usable (.step t) = some s') : ¬ s'.Returned := by
  have heffect := act_effect h
  rcases hs t heffect.busy with ⟨held, hheld, hsound⟩
  rcases heffect.leak hleak hheld hsound with ⟨hidle, hheld', hne⟩
  rcases List.exists_mem_of_ne_nil held hne with ⟨l, hl⟩
  intro hreturned
  have hholder : s'.holder l = some t := (hheld'.holder_iff l).2 (Or.inr hl)
  exact hheld'.not_before l hl ((hreturned t hidle l).1 hholder)

/-- The thread has had the lock since before its operation, if it is in one. -/
def Keeps (s : LockState T A L D) (t : T) (l : L) : Prop :=
  s.holder l = some t ∧ (s.prog t ≠ .done → s.before t l = some t)

theorem Keeps.act (hs : s.Sane rank bad) {t : T} {l : L} (hkeeps : s.Keeps t l)
    (h : s.act program usable a = some s') : s'.Keeps t l := by
  rcases hkeeps with ⟨hholder, hbefore⟩
  have heffect := act_effect h
  cases a with
  | call u o =>
      cases heffect
      refine ⟨hholder, fun hactive => ?_⟩
      by_cases hu : t = u
      · subst hu
        simpa [goto] using hholder
      · simpa [goto, hu] using hbefore (by simpa [goto, hu] using hactive)
  | step u =>
      have hwas := fun hactive => hbefore (heffect.busy_of_busy (t := t) hactive)
      cases heffect with
      | lock _ l' k hprog hfree =>
          have hl : l ≠ l' := by
            rintro rfl
            simp [hfree] at hholder
          exact ⟨by simpa [goto, setHolder, hl] using hholder, hwas⟩
      | unlock _ l' k hprog hmine =>
          rcases hs u (by simp [hprog]) with ⟨held, hheld, hsound⟩
          rw [hprog] at hsound
          -- an operation gives back only what it has taken
          have hl : l ≠ l' := by
            rintro rfl
            rw [hholder] at hmine
            cases hmine
            exact hheld.not_before l hsound.1 (hbefore (by simp [hprog]))
          exact ⟨by simpa [goto, setHolder, hl] using hholder, hwas⟩
      | run _ b f k d hprog hf => exact ⟨hholder, hwas⟩

/-- A lock that a thread has outside of its operations stays with it for ever. -/
theorem Sane.kept (hprogram : ∀ o, Sound rank bad [] (program o)) (hs : s.Sane rank bad) {t : T}
    {l : L} (hidle : s.prog t = .done) (hholder : s.holder l = some t) {acts : List (LockAct T O)}
    (h : acts.foldlM (LockState.act program usable) s = some s') : s'.holder l = some t := by
  have hinit : s.Sane rank bad ∧ s.Keeps t l := ⟨hs, hholder, fun hactive => absurd hidle hactive⟩
  have hfinal : s'.Sane rank bad ∧ s'.Keeps t l :=
    run_invariant (I := fun s => s.Sane rank bad ∧ s.Keeps t l)
      (fun hI hact => ⟨hI.1.act hprogram hact, hI.2.act hI.1 hact⟩) hinit h
  exact hfinal.2.1

/-- The locks are balanced in every state of a run exactly when no step of it runs a bad
section. -/
theorem balanced_iff {n : Nat} (hprogram : ∀ o, Sound rank bad [] (program o))
    (hrank : ∀ l, rank l ≤ n) (data : D) (acts : List (LockAct T O)) :
    (∀ pre post s, acts = pre ++ post → pre.foldlM (act program usable) (start data) = some s →
        s.Returned ∧ s.Released) ↔
      ∀ pre t post s s', acts = pre ++ .step t :: post →
        pre.foldlM (act program usable) (start data) = some s →
        s.act program usable (.step t) = some s' → ¬ s.Leaks bad t := by
  constructor
  · intro hall pre t post s s' hsplit hpre hstep hleak
    have hsane : s.Sane rank bad :=
      run_invariant (fun hs hact => hs.act hprogram hact) (clean_start data).sane hpre
    have hlater := hall (pre ++ [.step t]) post s' (by simp [hsplit]) (run_snoc hpre hstep)
    exact hsane.not_returned hleak hstep hlater.1
  · intro hall pre post s hsplit hpre
    have hclean : s.Clean rank bad := by
      refine run_invariant_of
        (C := fun u a => ∀ t u', a = .step t → u.act program usable a = some u' → ¬ u.Leaks bad t)
        (fun hs hC hact => hs.act hprogram (fun t ht => hC t _ ht hact) hact) (clean_start data)
        (fun pre' a post' u hsplit' hpre' t u' ht hact => ?_) hpre
      subst ht
      exact hall pre' t (post' ++ post) u u' (by simp [hsplit, hsplit']) hpre' hact
    exact ⟨hclean.returned, hclean.released hrank⟩

end Balance

/-! ## A thread alone -/

section Alone

variable {program : O → LockProgram A L D} {usable : D → L → Bool} {s : LockState T A L D} {t : T}

/-- What a program comes to when no other thread takes a step: the holders of the locks and the
data at its end, `none` when it waits for ever or is at fault. -/
def alone (usable : D → L → Bool) (t : T) :
    LockProgram A L D → (L → Option T) → D → Option ((L → Option T) × D)
  | .done, holder, d => some (holder, d)
  | .lock l k, holder, d =>
      if usable d l = true ∧ holder l = none then
        alone usable t k (Function.update holder l (some t)) d
      else none
  | .unlock l k, holder, d =>
      if usable d l = true ∧ holder l = some t then
        alone usable t k (Function.update holder l none) d
      else none
  | .run _ f k, holder, d =>
      match f d with
      | none => none
      | some d' => alone usable t (k d) holder d'

section

variable {holder : L → Option T} {d : D} {a : A} {l : L} {p : LockProgram A L D}
  {f : D → Option D} {k : D → LockProgram A L D}

theorem alone_lock (hl : usable d l = true) (hfree : holder l = none) :
    alone usable t (.lock l p) holder d =
      alone usable t p (Function.update holder l (some t)) d := by
  simp [alone, hl, hfree]

theorem alone_lock_held (hheld : holder l ≠ none) :
    alone usable t (.lock l p) holder d = none := by
  simp [alone, hheld]

theorem alone_unlock (hl : usable d l = true) (hfree : holder l = none) :
    alone usable t (.unlock l p) (Function.update holder l (some t)) d =
      alone usable t p holder d := by
  have hback : Function.update (Function.update holder l (some t)) l none = holder := by
    rw [Function.update_idem, ← hfree, Function.update_eq_self]
  simp [alone, hl, hback]

theorem alone_run :
    alone usable t (.run a f k) holder d = (f d).bind (alone usable t (k d) holder) := by
  cases hf : f d <;> simp [alone, hf]

end

/-- The steps of a thread alone are a run. -/
theorem run_of_alone (program : O → LockProgram A L D) {holder' : L → Option T} {d' : D}
    (h : alone usable t (s.prog t) s.holder s.data = some (holder', d')) :
    ∃ n s', (List.replicate n (LockAct.step t)).foldlM (act program usable) s = some s' ∧
      s'.prog t = .done ∧ s'.holder = holder' ∧ s'.data = d' := by
  generalize hp : s.prog t = p at h
  induction p generalizing s with
  | done =>
      cases h
      exact ⟨0, s, rfl, hp, rfl, rfl⟩
  | lock l k ih =>
      simp only [alone] at h
      split_ifs at h with hfree
      have hstep : s.act program usable (.step t) = some ((s.setHolder l (some t)).goto t k) := by
        simp [act, hp, hfree]
      rcases ih (s := (s.setHolder l (some t)).goto t k) (by simp [goto]) h with ⟨n, s', hrun, hs'⟩
      exact ⟨n + 1, s', (run_cons hstep _).trans hrun, hs'⟩
  | unlock l k ih =>
      simp only [alone] at h
      split_ifs at h with hmine
      have hstep : s.act program usable (.step t) = some ((s.setHolder l none).goto t k) := by
        simp [act, hp, hmine]
      rcases ih (s := (s.setHolder l none).goto t k) (by simp [goto]) h with ⟨n, s', hrun, hs'⟩
      exact ⟨n + 1, s', (run_cons hstep _).trans hrun, hs'⟩
  | run a f k ih =>
      simp only [alone] at h
      cases hf : f s.data with
      | none => simp [hf] at h
      | some d =>
          rw [hf] at h
          have hstep : s.act program usable (.step t) =
              some ({ s with data := d }.goto t (k s.data)) := by
            simp [act, hp, hf]
          rcases ih s.data (s := { s with data := d }.goto t (k s.data)) (by simp [goto]) h with
            ⟨n, s', hrun, hs'⟩
          exact ⟨n + 1, s', (run_cons hstep _).trans hrun, hs'⟩

/-- The call of an operation and its steps alone are a run. -/
theorem run_of_call {o : O} {holder' : L → Option T} {d' : D} (hidle : s.prog t = .done)
    (h : alone usable t (program o) s.holder s.data = some (holder', d')) :
    ∃ (acts : List (LockAct T O)) (s' : LockState T A L D),
      acts.foldlM (act program usable) s = some s' ∧
        s'.prog t = .done ∧ s'.holder = holder' ∧ s'.data = d' := by
  rcases Option.isSome_iff_exists.1 (show (s.act program usable (.call t o)).isSome = true by
    simp [act, hidle]) with ⟨s₁, hs₁⟩
  have hprog : s₁.prog t = program o ∧ s₁.holder = s.holder ∧ s₁.data = s.data := by
    cases act_effect hs₁
    exact ⟨by simp [goto], rfl, rfl⟩
  rw [← hprog.1, ← hprog.2.1, ← hprog.2.2] at h
  rcases run_of_alone program h with ⟨n, s', hrun, hs'⟩
  exact ⟨_, s', (run_cons hs₁ _).trans hrun, hs'⟩

end Alone

end LockState

end Lib
end AbsPlatform
