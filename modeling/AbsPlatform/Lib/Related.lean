import Mathlib.Data.List.Forall2

/-!
# Related — two programs on related data

Two partial programs agree up to a relation when both fail or their results are related
(`Option.Rel`).  The rules follow the program: a sequence, a test that both make, and a read from
two lists whose elements are related one by one.
-/

namespace AbsPlatform
namespace Lib

variable {α β γ δ : Type} {R : α → β → Prop} {S : γ → δ → Prop}

/-- What both programs compute from the same data. -/
theorem rel_eq (x : Option α) : Option.Rel Eq x x := by
  cases x with
  | none => exact .none
  | some a => exact .some rfl

theorem rel_bind {x : Option α} {y : Option β} {f : α → Option γ} {g : β → Option δ}
    (h : Option.Rel R x y) (hfg : ∀ a b, R a b → Option.Rel S (f a) (g b)) :
    Option.Rel S (x.bind f) (y.bind g) := by
  cases h with
  | some hab => exact hfg _ _ hab
  | none => exact .none

theorem rel_map {x : Option α} {y : Option β} {f : α → γ} {g : β → δ} (h : Option.Rel R x y)
    (hfg : ∀ a b, R a b → S (f a) (g b)) : Option.Rel S (x.map f) (y.map g) := by
  cases h with
  | some hab => exact .some (hfg _ _ hab)
  | none => exact .none

theorem rel_ite {p : Prop} [Decidable p] {x x' : Option α} {y y' : Option β}
    (h : Option.Rel R x y) (h' : Option.Rel R x' y') :
    Option.Rel R (if p then x else x') (if p then y else y') := by
  split
  · exact h
  · exact h'

/-- Results that do not show the difference are equal. -/
theorem bind_eq_of_rel {x : Option α} {y : Option β} {f : α → Option γ} {g : β → Option γ}
    (h : Option.Rel R x y) (hfg : ∀ a b, R a b → f a = g b) : x.bind f = y.bind g := by
  cases h with
  | some hab => exact hfg _ _ hab
  | none => rfl

theorem rel_getElem? {l : List α} {l' : List β} (h : List.Forall₂ R l l') (i : Nat) :
    Option.Rel R l[i]? l'[i]? := by
  induction h generalizing i with
  | nil => exact .none
  | cons hab _ ih =>
      cases i with
      | zero => exact .some hab
      | succ i => simpa using ih i

theorem isEmpty_eq_of_forall₂ {l : List α} {l' : List β} (h : List.Forall₂ R l l') :
    l.isEmpty = l'.isEmpty := by
  cases h <;> rfl

end Lib
end AbsPlatform
