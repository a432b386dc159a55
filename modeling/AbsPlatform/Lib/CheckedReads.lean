import Mathlib.Logic.Basic

/-!
# CheckedReads — computations that read from a region

A computation reads at one index after the other and stops at the first one outside of the region
it may read.  `indices` are the indexes it has read, that first one included, and `value` is its
result when there is no such index; the last field says that this is the only way to have none.
`Spec` says when a computation has a value and what is known of it, and the rules below put the one
of a sequence together from those of its parts.
-/

namespace AbsPlatform
namespace Lib

structure Checked {ι : Type} (inside : ι → Prop) (α : Type) where
  indices : List ι
  value : Option α
  value_iff : value.isSome = true ↔ ∀ i ∈ indices, inside i

namespace Checked

variable {ι α β : Type} {inside : ι → Prop}

theorem ret_iff (a : α) : (some a).isSome = true ↔ ∀ i ∈ ([] : List ι), inside i := by simp

/-- A value, and nothing read. -/
def ret (a : α) : Checked inside α where
  indices := []
  value := some a
  value_iff := ret_iff a

theorem andThen_iff (x : Checked inside α) (f : α → Checked inside β) :
    (x.value.bind fun a => (f a).value).isSome = true ↔
      ∀ i ∈ x.indices ++ x.value.elim [] (fun a => (f a).indices), inside i := by
  cases hx : x.value with
  | none =>
      have hno : ¬ ∀ i ∈ x.indices, inside i := by simp [← x.value_iff, hx]
      simpa using hno
  | some a =>
      have hyes : ∀ i ∈ x.indices, inside i := x.value_iff.1 (by simp [hx])
      simp only [Option.bind_some, Option.elim_some, List.mem_append, (f a).value_iff]
      constructor
      · rintro h i (hi | hi)
        · exact hyes i hi
        · exact h i hi
      · intro h i hi
        exact h i (Or.inr hi)

/-- The second computation starts when the first one has a value. -/
def andThen (x : Checked inside α) (f : α → Checked inside β) : Checked inside β where
  indices := x.indices ++ x.value.elim [] fun a => (f a).indices
  value := x.value.bind fun a => (f a).value
  value_iff := andThen_iff x f

instance : Monad (Checked inside) where
  pure := ret
  bind := andThen

theorem read_iff {mem : ι → Option β} (hmem : ∀ i, (mem i).isSome = true ↔ inside i) (i : ι) :
    (mem i).isSome = true ↔ ∀ j ∈ [i], inside j := by
  simpa using hmem i

/-- A read of `mem`, which has something at the indexes inside. -/
def read (mem : ι → Option β) (hmem : ∀ i, (mem i).isSome = true ↔ inside i) (i : ι) :
    Checked inside β where
  indices := [i]
  value := mem i
  value_iff := read_iff hmem i

@[simp] theorem value_pure (a : α) : (pure a : Checked inside α).value = some a := rfl

@[simp] theorem value_bind (x : Checked inside α) (f : α → Checked inside β) :
    (x >>= f).value = x.value.bind fun a => (f a).value := rfl

/-- The computation has a value exactly when `Q`, and then one that satisfies `R`. -/
structure Spec (x : Checked inside α) (Q : Prop) (R : α → Prop) : Prop where
  isSome_iff : x.value.isSome = true ↔ Q
  holds : ∀ a, x.value = some a → R a

namespace Spec

variable {x y : Checked inside α} {f : α → Checked inside β} {Q Q' P : Prop} {R R' : α → Prop}
  {S : β → Prop}

theorem done {a : α} (h : R a) : Spec (pure a : Checked inside α) True R where
  isSome_iff := by simp
  holds := by
    intro b hb
    cases hb
    exact h

theorem ret (a : α) : Spec (pure a : Checked inside α) True (· = a) := done rfl

/-- All the indexes are inside exactly when `Q`. -/
theorem forall_inside_iff (hx : Spec x Q R) : (∀ i ∈ x.indices, inside i) ↔ Q :=
  x.value_iff.symm.trans hx.isSome_iff

theorem of_iff (hx : Spec x Q R) (hQ : Q ↔ Q') (hR : Q → ∀ a, R a → R' a) : Spec x Q' R' where
  isSome_iff := hx.isSome_iff.trans hQ
  holds := fun a ha => hR (hx.isSome_iff.1 (by simp [ha])) a (hx.holds a ha)

/-- A sequence: the second part may be judged knowing what the first one needs and returns. -/
theorem bind (hx : Spec x Q R) (hf : Q → ∀ a, R a → Spec (f a) P S) :
    Spec (x >>= f) (Q ∧ P) S := by
  constructor
  · rw [value_bind]
    cases ha : x.value with
    | none =>
        have hQ : ¬ Q := by simp [← hx.isSome_iff, ha]
        simp [hQ]
    | some a =>
        have hQ : Q := hx.isSome_iff.1 (by simp [ha])
        rw [Option.bind_some, (hf hQ a (hx.holds a ha)).isSome_iff]
        simp [hQ]
  · intro b hb
    rw [value_bind, Option.bind_eq_some_iff] at hb
    rcases hb with ⟨a, ha, hb⟩
    have hQ : Q := hx.isSome_iff.1 (by simp [ha])
    exact (hf hQ a (hx.holds a ha)).holds b hb

theorem ite {c : Prop} [Decidable c] (hx : c → Spec x Q R) (hy : ¬ c → Spec y P R) :
    Spec (if c then x else y) ((c → Q) ∧ (¬ c → P)) R := by
  by_cases hc : c
  · rw [if_pos hc]
    exact (hx hc).of_iff (by simp [hc]) fun _ _ h => h
  · rw [if_neg hc]
    exact (hy hc).of_iff (by simp [hc]) fun _ _ h => h

end Spec
end Checked
end Lib
end AbsPlatform
