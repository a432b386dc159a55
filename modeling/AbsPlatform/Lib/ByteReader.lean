import Mathlib.Data.List.Basic

/-!
# ByteReader — readers over a byte stream and the grammars they recognise

A `ByteReader` takes bytes from the front of a stream and either returns a value or fails; the
bytes it has taken are gone in both cases, as with a file descriptor.

A grammar is a relation `G : List UInt8 → α → Prop` ("this byte string spells that value").  The
one property proved about a reader is `Recognises p G`: it returns `v` and stops in front of `rest`
exactly when the stream is a spelling of `v` followed by `rest`.  The rules below build the grammar
of a composed reader from those of its parts.
-/

namespace AbsPlatform
namespace Lib

/-- A reader: the value read (or `none`) and the bytes left in the stream. -/
def ByteReader (α : Type) : Type :=
  List UInt8 → Option α × List UInt8

namespace ByteReader

variable {α β : Type}

/-- Return a value without reading. -/
def ret (a : α) : ByteReader α := fun s => (some a, s)

/-- Fail without reading. -/
def fail : ByteReader α := fun s => (none, s)

/-- Read with `p`, then continue with the value read. -/
def andThen (p : ByteReader α) (f : α → ByteReader β) : ByteReader β := fun s =>
  match p s with
  | (some a, rest) => f a rest
  | (none, rest) => (none, rest)

instance : Monad ByteReader where
  pure := ret
  bind := andThen

/-- `p` returns the values of `G`, each after exactly one of its spellings. -/
def Recognises (p : ByteReader α) (G : List UInt8 → α → Prop) : Prop :=
  ∀ s v rest, p s = (some v, rest) ↔ ∃ b, s = b ++ rest ∧ G b v

/-- The grammar of a sequence: a spelling of `a` followed by a continuation that depends on it. -/
def Seq (G : List UInt8 → α → Prop) (H : α → List UInt8 → β → Prop) (b : List UInt8) (v : β) :
    Prop :=
  ∃ b₁ a b₂, b = b₁ ++ b₂ ∧ G b₁ a ∧ H a b₂ v

namespace Recognises

theorem ret (a : α) :
    Recognises (pure a : ByteReader α) (fun b v => b = [] ∧ v = a) := by
  intro s v rest
  constructor
  · intro h
    have h' : some a = some v ∧ s = rest := by
      simpa using (Prod.mk.injEq _ _ _ _).mp h
    exact ⟨[], by simpa using h'.2, rfl, (Option.some.inj h'.1).symm⟩
  · rintro ⟨b, rfl, rfl, rfl⟩
    rfl

theorem fail : Recognises (ByteReader.fail : ByteReader α) (fun _ _ => False) := by
  intro s v rest
  constructor
  · intro h
    exact absurd (congrArg Prod.fst h) (by simp [ByteReader.fail])
  · rintro ⟨_, _, h⟩
    exact h.elim

theorem bind {p : ByteReader α} {f : α → ByteReader β} {G : List UInt8 → α → Prop}
    {H : α → List UInt8 → β → Prop} (hp : Recognises p G) (hf : ∀ a, Recognises (f a) (H a)) :
    Recognises (p >>= f) (Seq G H) := by
  intro s v rest
  have hrun : (p >>= f) s = andThen p f s := rfl
  constructor
  · intro h
    rw [hrun, andThen] at h
    -- The first reader must have succeeded, or the whole would have failed.
    rcases hps : p s with ⟨_ | a, mid⟩
    · rw [hps] at h
      simp at h
    · rw [hps] at h
      rcases (hp s a mid).1 hps with ⟨b₁, rfl, hG⟩
      rcases (hf a mid v rest).1 h with ⟨b₂, rfl, hH⟩
      exact ⟨b₁ ++ b₂, by simp, b₁, a, b₂, rfl, hG, hH⟩
  · rintro ⟨b, rfl, b₁, a, b₂, rfl, hG, hH⟩
    -- each part reads its own spelling and stops in front of the next
    have h₁ : p (b₁ ++ b₂ ++ rest) = (some a, b₂ ++ rest) :=
      (hp _ _ _).2 ⟨b₁, by simp, hG⟩
    have h₂ : f a (b₂ ++ rest) = (some v, rest) := (hf a _ _ _).2 ⟨b₂, rfl, hH⟩
    rw [hrun, andThen, h₁]
    exact h₂

theorem ite {c : Prop} [Decidable c] {p q : ByteReader α} {G H : List UInt8 → α → Prop}
    (hp : c → Recognises p G) (hq : ¬ c → Recognises q H) :
    Recognises (if c then p else q) (fun b v => (c ∧ G b v) ∨ (¬ c ∧ H b v)) := by
  by_cases hc : c
  · intro s v rest
    simpa [hc] using hp hc s v rest
  · intro s v rest
    simpa [hc] using hq hc s v rest

/-- Replace a grammar by an equivalent one. -/
theorem congr {p : ByteReader α} {G H : List UInt8 → α → Prop} (hp : Recognises p G)
    (hGH : ∀ b v, G b v ↔ H b v) : Recognises p H := by
  intro s v rest
  rw [hp s v rest]
  simp only [hGH]

end Recognises

end ByteReader

end Lib
end AbsPlatform
