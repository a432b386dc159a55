import Mathlib.Data.List.Basic

/-!
# Emitter — programs that write through a pointer into a block

An emitter is given what has been written to the block so far, and returns what has been written
when it is through; writing behind the end of the block has no result.  A text that is put together
in memory is terminated again and again, so the rule for a sequence keeps one place free: an emitter
*writes* a text when it appends it whenever the text and one place more fit.
-/

namespace AbsPlatform
namespace Lib

/-- What has been written, before and after. -/
abbrev Emitter (β : Type) : Type := List β → Option (List β)

namespace Emitter

variable {α β : Type}

/-- Write a text and move the pointer behind it. -/
def put (cap : Nat) (text : List β) : Emitter β := fun out =>
  if out.length + text.length ≤ cap then some (out ++ text) else none

/-- Write one element and leave the pointer at it. -/
def mark (cap : Nat) : Emitter β := fun out =>
  if out.length < cap then some out else none

/-- `strcpy`, and the pointer to the terminator. -/
def copy (cap : Nat) (text : List β) : Emitter β := put cap text >=> mark cap

/-- A loop. -/
def each (f : α → Emitter β) : List α → Emitter β
  | [] => some
  | a :: l => f a >=> each f l

/-- The text is appended if it fits with one place to spare. -/
def Writes (cap : Nat) (e : Emitter β) (text : List β) : Prop :=
  ∀ out : List β, out.length + text.length < cap → e out = some (out ++ text)

variable {cap : Nat} {e f : Emitter β} {t u : List β}

theorem writes_nil : Writes cap (some : Emitter β) [] := by
  intro out _
  rw [List.append_nil]

theorem writes_put (cap : Nat) (t : List β) : Writes cap (put cap t) t := by
  intro out h
  exact if_pos (Nat.le_of_lt h)

theorem writes_mark : Writes cap (mark cap : Emitter β) [] := by
  intro out h
  rw [List.append_nil]
  exact if_pos h

theorem Writes.andThen (he : Writes cap e t) (hf : Writes cap f u) :
    Writes cap (e >=> f) (t ++ u) := by
  intro out h
  rw [List.length_append] at h
  have hfirst : e out = some (out ++ t) := he out (by omega)
  have hsecond : f (out ++ t) = some (out ++ t ++ u) := hf (out ++ t) (by simp; omega)
  show (e out).bind f = _
  rw [hfirst, Option.bind_some, hsecond, List.append_assoc]

theorem writes_copy (cap : Nat) (t : List β) : Writes cap (copy cap t) t := by
  have h := (writes_put cap t).andThen writes_mark
  rwa [List.append_nil] at h

theorem writes_each {g : α → Emitter β} {text : α → List β} {l : List α}
    (h : ∀ a ∈ l, Writes cap (g a) (text a)) : Writes cap (each g l) (l.flatMap text) := by
  induction l with
  | nil => exact writes_nil
  | cons a l ih =>
      have hhead := h a (by simp)
      have htail := ih fun b hb => h b (by simp [hb])
      exact hhead.andThen htail

theorem writes_ite {c : Prop} [Decidable c] (he : c → Writes cap e t) (hf : ¬ c → Writes cap f u) :
    Writes cap (if c then e else f) (if c then t else u) := by
  by_cases hc : c
  · rw [if_pos hc, if_pos hc]
    exact he hc
  · rw [if_neg hc, if_neg hc]
    exact hf hc

/-- A whole text and its terminator. -/
theorem Writes.terminated (he : Writes cap e t) (h : t.length < cap) (z : β) :
    (e >=> put cap [z]) [] = some (t ++ [z]) := by
  have hfirst : e [] = some t := by simpa using he [] (by simpa using h)
  show (e []).bind (put cap [z]) = _
  rw [hfirst]
  exact if_pos h

end Emitter
end Lib
end AbsPlatform
