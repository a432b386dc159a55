import Mathlib.Data.List.GetD
import Mathlib.Data.List.OfFn
import AbsPlatform.Lib.Separated

/-!
# Region — a block of memory of fixed size

Bytes are copied into a block and out of it at offsets from its start; a copy that would leave the
block fails.  `Holds r pos bs` says which bytes are at an offset.  What holds is kept by every copy
to another part of the block, and it is what a later copy out of the block returns.
-/

namespace AbsPlatform
namespace Lib

structure Region (size : Nat) where
  cell : Fin size → UInt8

namespace Region

variable {size : Nat}

/-- Copy bytes into the block. -/
def write (r : Region size) (pos : Nat) (bs : List UInt8) : Option (Region size) :=
  if pos + bs.length ≤ size then
    some ⟨fun i => if pos ≤ i.val then bs.getD (i.val - pos) (r.cell i) else r.cell i⟩
  else
    none

/-- Copy bytes out of the block. -/
def read (r : Region size) (pos len : Nat) : Option { bs : List UInt8 // bs.length = len } :=
  if h : pos + len ≤ size then
    some ⟨List.ofFn fun k : Fin len => r.cell ⟨pos + k.val, by omega⟩, by simp⟩
  else
    none

/-- The bytes of a string that ends with a NUL inside the block. -/
def readString (r : Region size) (pos : Nat) : Option (List UInt8) := do
  let rest ← r.read pos (size - pos)
  if (0 : UInt8) ∈ rest.1 then some (rest.1.takeWhile fun b => b ≠ 0) else none

/-- The bytes at an offset. -/
structure Holds (r : Region size) (pos : Nat) (bs : List UInt8) : Prop where
  bound : pos + bs.length ≤ size
  cell : ∀ (k : Nat) (hk : k < bs.length), r.cell ⟨pos + k, by omega⟩ = bs[k]

variable {r r' : Region size} {pos pos' : Nat} {bs bs' : List UInt8}

/-! ## Copying out -/

theorem Holds.read (h : r.Holds pos bs) {len : Nat} (hlen : bs.length = len) :
    r.read pos len = some ⟨bs, hlen⟩ := by
  subst hlen
  simp only [Region.read, h.bound, dif_pos, Option.some.injEq, Subtype.mk.injEq]
  refine List.ext_getElem (by simp) fun k hk hk' => ?_
  simpa using h.cell k hk'

/-- Two neighbouring parts of the block. -/
theorem holds_append_iff :
    r.Holds pos (bs ++ bs') ↔ r.Holds pos bs ∧ r.Holds (pos + bs.length) bs' := by
  constructor
  · intro h
    have hbound := h.bound
    simp only [List.length_append] at hbound
    refine ⟨⟨by omega, fun k hk => ?_⟩, ⟨by omega, fun k hk => ?_⟩⟩
    · have hcell := h.cell k (by simp; omega)
      simpa [List.getElem_append_left hk] using hcell
    · have hcell := h.cell (bs.length + k) (by simp; omega)
      simpa [Nat.add_assoc] using hcell
  · rintro ⟨h, h'⟩
    have hbound := h'.bound
    refine ⟨by simp; omega, fun k hk => ?_⟩
    -- a byte of the whole is a byte of one of the parts
    by_cases hlt : k < bs.length
    · simpa [List.getElem_append_left hlt] using h.cell k hlt
    · have hk' : k - bs.length < bs'.length := by
        simp only [List.length_append] at hk
        omega
      have hcell := h'.cell (k - bs.length) hk'
      have hpos : pos + bs.length + (k - bs.length) = pos + k := by omega
      simpa [List.getElem_append_right (Nat.le_of_not_lt hlt), hpos] using hcell

/-- Every part of the block holds something. -/
theorem exists_holds (r : Region size) {len : Nat} (h : pos + len ≤ size) :
    ∃ bs, bs.length = len ∧ r.Holds pos bs := by
  refine ⟨List.ofFn fun k : Fin len => r.cell ⟨pos + k.val, by omega⟩, by simp,
    ⟨by simpa using h, ?_⟩⟩
  intro k hk
  simp

theorem Holds.readString (h : r.Holds pos (bs ++ [0])) (hbs : ∀ b ∈ bs, b ≠ 0) :
    r.readString pos = some bs := by
  have hbound := h.bound
  -- what follows the terminator does not matter
  rcases r.exists_holds (show pos + (bs ++ [0]).length + (size - (pos + (bs ++ [0]).length)) ≤ size
    by omega) with ⟨tail, htail, hholds⟩
  have hall : r.Holds pos ((bs ++ [0]) ++ tail) := holds_append_iff.2 ⟨h, hholds⟩
  have hlen : ((bs ++ [0]) ++ tail).length = size - pos := by
    rw [List.length_append, htail]
    omega
  have hstop : ((bs ++ [0]) ++ tail).takeWhile (fun b => b ≠ 0) = bs := by
    rw [List.append_assoc]
    exact takeWhile_append_cons fun hmem => hbs 0 hmem rfl
  simpa [Region.readString, hall.read hlen] using hstop

/-! ## Copying in -/

theorem exists_write (r : Region size) (h : pos + bs.length ≤ size) :
    ∃ r', r.write pos bs = some r' :=
  ⟨_, if_pos h⟩

theorem write_bound (h : r.write pos bs = some r') : pos + bs.length ≤ size := by
  by_contra hout
  simp [write, hout] at h

theorem cell_write (h : r.write pos bs = some r') (i : Fin size) :
    r'.cell i = if pos ≤ i.val then bs.getD (i.val - pos) (r.cell i) else r.cell i := by
  unfold write at h
  split_ifs at h
  cases h
  rfl

theorem holds_write (h : r.write pos bs = some r') : r'.Holds pos bs := by
  refine ⟨write_bound h, fun k hk => ?_⟩
  rw [cell_write h]
  simp [hk]

/-- What is elsewhere stays. -/
theorem Holds.write (hholds : r.Holds pos' bs') (h : r.write pos bs = some r')
    (hapart : pos' + bs'.length ≤ pos ∨ pos + bs.length ≤ pos') : r'.Holds pos' bs' := by
  refine ⟨hholds.bound, fun k hk => ?_⟩
  rw [cell_write h, ← hholds.cell k hk]
  -- in front of the new bytes the test fails, and behind them there is none to take
  rcases hapart with hbefore | hafter
  · rw [if_neg (by simp; omega)]
  · rw [if_pos (by simp; omega), List.getD_eq_default _ _ (by simp; omega)]

end Region

end Lib
end AbsPlatform
