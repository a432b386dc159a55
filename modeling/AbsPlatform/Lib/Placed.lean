import Mathlib.Data.List.Basic

/-!
# Placed — what stands at an offset of a file

`Placed file o xs` says that `file` has `xs` at offset `o`.  A file that is put together from parts
has each of them at the sum of the lengths before it; the rules below take the parts apart again, in
the order in which a decoder comes to them.
-/

namespace AbsPlatform
namespace Lib

variable {α β : Type}

def Placed (file : List α) (o : Nat) (xs : List α) : Prop := xs <+: file.drop o

instance [DecidableEq α] (file : List α) (o : Nat) (xs : List α) : Decidable (Placed file o xs) :=
  inferInstanceAs (Decidable (xs <+: file.drop o))

/-- A row of parts is at least as long as their number. -/
theorem length_le_flatMap {f : β → List α} (hf : ∀ b, f b ≠ []) (parts : List β) :
    parts.length ≤ (parts.flatMap f).length := by
  induction parts with
  | nil => exact Nat.le_refl 0
  | cons b parts ih =>
      have hpos := List.length_pos_iff.2 (hf b)
      rw [List.flatMap_cons, List.length_append, List.length_cons]
      omega

namespace Placed

variable {file xs ys : List α} {o : Nat}

/-- The middle of three parts. -/
theorem middle (before xs after : List α) :
    Placed (before ++ xs ++ after) before.length xs := by
  rw [Placed, List.append_assoc, List.drop_left]
  exact List.prefix_append xs after

theorem append_iff :
    Placed file o (xs ++ ys) ↔ Placed file o xs ∧ Placed file (o + xs.length) ys := by
  constructor
  · rintro ⟨rest, hrest⟩
    rw [List.append_assoc] at hrest
    refine ⟨⟨ys ++ rest, hrest⟩, ⟨rest, ?_⟩⟩
    rw [← List.drop_drop, ← hrest, List.drop_left]
  · rintro ⟨⟨rest, hrest⟩, ⟨rest', hrest'⟩⟩
    rw [← List.drop_drop, ← hrest, List.drop_left] at hrest'
    exact ⟨rest', by rw [List.append_assoc, hrest', hrest]⟩

theorem left (h : Placed file o (xs ++ ys)) : Placed file o xs := (append_iff.1 h).1

theorem right (h : Placed file o (xs ++ ys)) : Placed file (o + xs.length) ys := (append_iff.1 h).2

/-- Something placed is inside. -/
theorem add_length_le (h : Placed file o xs) (hne : xs ≠ []) : o + xs.length ≤ file.length := by
  have hlen := h.length_le
  have hpos := List.length_pos_iff.2 hne
  rw [List.length_drop] at hlen
  omega

theorem getElem? (h : Placed file o xs) {i : Nat} (hi : i < xs.length) : file[o + i]? = xs[i]? := by
  rcases h with ⟨rest, hrest⟩
  rw [← List.getElem?_drop, ← hrest, List.getElem?_append_left hi]

theorem of_getElem? (h : ∀ i < xs.length, file[o + i]? = xs[i]?) : Placed file o xs := by
  rw [Placed, List.prefix_iff_getElem?]
  intro i hi
  rw [List.getElem?_drop, h i hi, List.getElem?_eq_getElem hi]

/-- An element of a row of parts stands behind the ones before it. -/
theorem flatMap {f : β → List α} {parts : List β} (h : Placed file o (parts.flatMap f)) {i : Nat}
    {part : β} (hi : parts[i]? = some part) :
    Placed file (o + ((parts.take i).flatMap f).length) (f part) := by
  rcases List.getElem?_eq_some_iff.1 hi with ⟨hlt, rfl⟩
  rw [← List.take_append_drop i parts, List.drop_eq_getElem_cons hlt, List.flatMap_append,
    List.flatMap_cons] at h
  exact h.right.left

/-- The same for parts of one length. -/
theorem flatMap_of_length {f : β → List α} {parts : List β} {n : Nat} (hf : ∀ b, (f b).length = n)
    (h : Placed file o (parts.flatMap f)) {i : Nat} {part : β} (hi : parts[i]? = some part) :
    Placed file (o + n * i) (f part) := by
  rcases List.getElem?_eq_some_iff.1 hi with ⟨hlt, _⟩
  have hlen : ((parts.take i).flatMap f).length = n * i := by
    simp [List.length_flatMap, hf, Nat.min_eq_left (Nat.le_of_lt hlt), Nat.mul_comm]
  exact hlen ▸ h.flatMap hi

end Placed
end Lib
end AbsPlatform
