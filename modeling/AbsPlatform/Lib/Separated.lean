import Mathlib.Data.List.TakeWhile

/-!
# Separated — lists up to a separator

A list is cut at the first place where a separator stands.  What is in front of the cut is what
`takeWhile` finds, and the cut is unique.
-/

namespace AbsPlatform
namespace Lib

section

variable {α : Type} {a c : α} {xs ys l : List α}

/-- The search for a separator stops in front of the first one. -/
theorem takeWhile_append_cons [DecidableEq α] (h : a ∉ xs) :
    (xs ++ a :: ys).takeWhile (· ≠ a) = xs := by
  have hpos : ∀ b ∈ xs, decide (b ≠ a) = true := by
    intro b hb
    exact decide_eq_true fun hba => h (hba ▸ hb)
  rw [List.takeWhile_append_of_pos hpos, List.takeWhile_cons_of_neg (by simp), List.append_nil]

/-- A list with a separator is what is in front of the first one and what is behind it. -/
theorem eq_takeWhile_append_cons [DecidableEq α] (h : a ∈ l) :
    l = l.takeWhile (· ≠ a) ++ a :: (l.dropWhile (· ≠ a)).tail := by
  rcases List.eq_append_cons_of_mem h with ⟨xs, ys, rfl, hxs⟩
  have hdrop : (xs ++ a :: ys).dropWhile (· ≠ a) = a :: ys := by
    have hsplit := List.takeWhile_append_dropWhile (p := (· ≠ a)) (l := xs ++ a :: ys)
    rw [takeWhile_append_cons hxs] at hsplit
    exact List.append_cancel_left hsplit
  rw [takeWhile_append_cons hxs, hdrop, List.tail_cons]

/-- The first occurrence of an element in front of the place where `p` fails. -/
theorem exists_append_cons_of_mem_takeWhile {p : α → Bool} (h : c ∈ l.takeWhile p) :
    ∃ xs ys, l = xs ++ c :: ys ∧ c ∉ xs ∧ ∀ b ∈ xs, p b = true := by
  rcases List.eq_append_cons_of_mem h with ⟨xs, ys, hsplit, hxs⟩
  refine ⟨xs, ys ++ l.dropWhile p, ?_, hxs, ?_⟩
  · rw [← List.cons_append, ← List.append_assoc, ← hsplit, List.takeWhile_append_dropWhile]
  · intro b hb
    exact List.mem_takeWhile_imp (l := l) (by simp [hsplit, hb])

/-- Two lists up to a separator, when neither of them has the separator of the other. -/
theorem append_cons_inj {xs' ys' : List α} {a' : α} (hxs : a' ∉ xs) (hxs' : a ∉ xs')
    (h : xs ++ a :: ys = xs' ++ a' :: ys') : xs = xs' ∧ a = a' ∧ ys = ys' := by
  rcases List.append_eq_append_iff.1 h with ⟨_ | ⟨b, m⟩, hm, htail⟩ | ⟨_ | ⟨b, m⟩, hm, htail⟩
  · rw [List.append_nil] at hm
    rw [List.nil_append] at htail
    exact ⟨hm.symm, List.cons.inj htail⟩
  · rcases List.cons.inj htail with ⟨rfl, _⟩
    exact absurd (by simp [hm]) hxs'
  · rw [List.append_nil] at hm
    rw [List.nil_append] at htail
    exact ⟨hm, (List.cons.inj htail).imp Eq.symm Eq.symm⟩
  · rcases List.cons.inj htail with ⟨rfl, _⟩
    exact absurd (by simp [hm]) hxs

end

end Lib
end AbsPlatform
