import Mathlib.Logic.Function.Basic
import Mathlib.Logic.Relation
import Mathlib.Tactic.SplitIfs

/-!
# Locks — recursive mutexes and cycles of waiting threads

A recursive mutex counts how often its owner has locked it.  When a program says for each of its
threads how often it holds each mutex, `Agree` says that the mutexes are in that state; two threads
then never hold the same one.

The second part is about a relation such as *waits for* that grows by one pair at a time: a new
pair closes a cycle exactly when there was a path between its ends already.
-/

namespace AbsPlatform
namespace Lib

/-! ## Mutexes -/

inductive Mutex (τ : Type)
  | free
  /-- held by `owner`, once and `more` times -/
  | held (owner : τ) (more : Nat)
  deriving DecidableEq

namespace Mutex

variable {τ : Type} [DecidableEq τ] {m m' : Mutex τ} {t u : τ}

/-- How often a thread holds the mutex. -/
def depth : Mutex τ → τ → Nat
  | free, _ => 0
  | held owner more, t => if owner = t then more + 1 else 0

/-- Taking the mutex: a thread has to wait while another one holds it. -/
def lock (t : τ) : Mutex τ → Option (Mutex τ)
  | free => some (held t 0)
  | held owner more => if owner = t then some (held owner (more + 1)) else none

/-- Giving it back once. -/
def unlock : Mutex τ → Mutex τ
  | free => free
  | held _ 0 => free
  | held owner (more + 1) => held owner more

theorem depth_unique (ht : 0 < m.depth t) (hu : 0 < m.depth u) : t = u := by
  cases m with
  | free => simp [depth] at ht
  | held owner more =>
      have howner : owner = t ∧ owner = u := by
        constructor
        · by_contra hne
          simp [depth, hne] at ht
        · by_contra hne
          simp [depth, hne] at hu
      exact howner.1.symm.trans howner.2

theorem depth_lock (h : m.lock t = some m') (u : τ) :
    m'.depth u = if u = t then m.depth u + 1 else m.depth u := by
  cases m with
  | free =>
      cases h
      by_cases hu : u = t
      · simp [depth, hu]
      · simp [depth, hu, Ne.symm hu]
  | held owner more =>
      simp only [lock] at h
      split_ifs at h with howner
      cases h
      subst howner
      by_cases hu : u = owner
      · simp [depth, hu]
      · simp [depth, hu, Ne.symm hu]

theorem lock_eq_none_iff : m.lock t = none ↔ ∃ u, u ≠ t ∧ 0 < m.depth u := by
  cases m with
  | free => simp [lock, depth]
  | held owner more =>
      by_cases howner : owner = t
      · subst howner
        simp only [lock, if_true, depth, reduceCtorEq, false_iff, not_exists, not_and]
        intro u hu
        simp [Ne.symm hu]
      · simp only [lock, howner, if_false, true_iff]
        exact ⟨owner, howner, by simp [depth]⟩

theorem depth_unlock (h : 0 < m.depth t) (u : τ) :
    m.unlock.depth u = if u = t then m.depth u - 1 else m.depth u := by
  cases m with
  | free => simp [depth] at h
  | held owner more =>
      have howner : owner = t := by
        by_contra hne
        simp [depth, hne] at h
      subst howner
      by_cases hu : u = owner
      · subst hu
        cases more <;> simp [unlock, depth]
      · cases more <;> simp [unlock, depth, hu, Ne.symm hu]

/-! ## Mutexes and what the threads hold -/

variable {ν : Type} [DecidableEq ν]

/-- Each thread holds each mutex as often as the program says. -/
def Agree (locks : ν → Mutex τ) (holds : τ → ν → Nat) : Prop :=
  ∀ t x, (locks x).depth t = holds t x

variable {locks : ν → Mutex τ} {holds holds' : τ → ν → Nat} {x : ν}

omit [DecidableEq ν] in
theorem Agree.unique (h : Agree locks holds) (ht : 0 < holds t x) (hu : 0 < holds u x) : t = u :=
  depth_unique (m := locks x) (by rw [h]; exact ht) (by rw [h]; exact hu)

theorem Agree.lock (h : Agree locks holds) (hlock : (locks x).lock t = some m')
    (hself : holds' t x = holds t x + 1)
    (hother : ∀ u y, u ≠ t ∨ y ≠ x → holds' u y = holds u y) :
    Agree (Function.update locks x m') holds' := by
  intro u y
  by_cases hy : y = x
  · subst hy
    rw [Function.update_self, depth_lock hlock, h]
    by_cases hu : u = t
    · rw [if_pos hu, hu, hself]
    · rw [if_neg hu, hother u y (Or.inl hu)]
  · rw [Function.update_of_ne hy, h, hother u y (Or.inr hy)]

theorem Agree.unlock (h : Agree locks holds) (hself : holds t x = holds' t x + 1)
    (hother : ∀ u y, u ≠ t ∨ y ≠ x → holds' u y = holds u y) :
    Agree (Function.update locks x (locks x).unlock) holds' := by
  intro u y
  by_cases hy : y = x
  · subst hy
    have hpos : 0 < (locks y).depth t := by
      rw [h, hself]
      exact Nat.succ_pos _
    rw [Function.update_self, depth_unlock hpos, h]
    by_cases hu : u = t
    · rw [if_pos hu, hu, hself, Nat.add_sub_cancel]
    · rw [if_neg hu, hother u y (Or.inl hu)]
  · rw [Function.update_of_ne hy, h, hother u y (Or.inr hy)]

end Mutex

/-! ## Cycles -/

section Cycles

variable {α : Type} {r r' : α → α → Prop} {i j : α}

def HasCycle (r : α → α → Prop) : Prop := ∃ a, Relation.TransGen r a a

theorem HasCycle.mono (h : HasCycle r) (hsub : ∀ a b, r a b → r' a b) : HasCycle r' := by
  rcases h with ⟨a, ha⟩
  exact ⟨a, Relation.TransGen.mono hsub a a ha⟩

/-- Everything on a cycle has a successor. -/
theorem HasCycle.restrict (h : HasCycle r) : HasCycle fun a b => r a b ∧ ∃ c, r b c := by
  have hout : ∀ {a b : α}, Relation.TransGen r a b → ∃ c, r a c := by
    intro a b hab
    rcases Relation.TransGen.head'_iff.1 hab with ⟨c, hac, _⟩
    exact ⟨c, hac⟩
  have hpath : ∀ {a b : α}, Relation.TransGen r a b → (∃ c, r b c) →
      Relation.TransGen (fun a b => r a b ∧ ∃ c, r b c) a b := by
    intro a b hab hb
    -- a path whose end has a successor: so has everything on it
    induction hab using Relation.TransGen.head_induction_on with
    | single hstep => exact .single ⟨hstep, hb⟩
    | head hstep hrest ih => exact .head ⟨hstep, hout hrest⟩ ih
  rcases h with ⟨a, ha⟩
  exact ⟨a, hpath ha (hout ha)⟩

/-- A path with a new pair goes around it or through it. -/
theorem path_insert (h : ∀ a b, r' a b ↔ r a b ∨ (a = i ∧ b = j)) {a b : α}
    (hpath : Relation.TransGen r' a b) :
    Relation.TransGen r a b ∨ (Relation.ReflTransGen r a i ∧ Relation.ReflTransGen r j b) := by
  induction hpath with
  | single hstep =>
      rcases (h _ _).1 hstep with hold | ⟨rfl, rfl⟩
      · exact Or.inl (.single hold)
      · exact Or.inr ⟨.refl, .refl⟩
  | tail _ hstep ih =>
      rcases (h _ _).1 hstep with hold | ⟨rfl, rfl⟩
      · -- an old pair makes the path longer on either side
        exact ih.imp (·.tail hold) fun hvia => ⟨hvia.1, hvia.2.tail hold⟩
      · -- the new pair: what led to it is a path without it, up to its first use
        exact Or.inr ⟨ih.elim (·.to_reflTransGen) (·.1), .refl⟩

theorem hasCycle_insert_iff (h : ∀ a b, r' a b ↔ r a b ∨ (a = i ∧ b = j))
    (hacyclic : ¬ HasCycle r) :
    HasCycle r' ↔ Relation.ReflTransGen r j i := by
  constructor
  · rintro ⟨a, ha⟩
    rcases path_insert h ha with hold | ⟨hto, hfrom⟩
    · exact absurd ⟨a, hold⟩ hacyclic
    · exact hfrom.trans hto
  · intro hback
    have hnew : r' i j := (h i j).2 (Or.inr ⟨rfl, rfl⟩)
    have hpath : Relation.ReflTransGen r' j i :=
      Relation.ReflTransGen.mono (fun a b hab => (h a b).2 (Or.inl hab)) j i hback
    exact ⟨i, .head' hnew hpath⟩

end Cycles

end Lib
end AbsPlatform
