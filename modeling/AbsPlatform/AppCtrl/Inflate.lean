import Mathlib.Data.List.Basic
import AbsPlatform.Lib.LittleEndian

/-!
# Inflate — the decompression of zlib

The source is not part of the repository, so `inflate` is a parameter of what is read with it.  What
the results rest on is `Zlib.Decodes`: fed with compressed data in pieces of any size, and given the
room for what is missing, it produces the contents.

`stored` is the part of a raw `inflate` for blocks that are stored: a byte with the type of the
block, the length and its complement, and the contents.  It goes from byte to byte, refuses the
blocks of the other types, and decodes what a compressor makes of a file it cannot make smaller
(`stored_decodes`, `header_gives_storedBlock`).
-/

namespace AbsPlatform
namespace AppCtrl

open Lib

/-! ## The interface -/

/-- The return codes of zlib. -/
inductive ZRet
  | ok
  | streamEnd
  | needDict
  | errno
  | streamError
  | dataError
  | memError
  | bufError
  deriving DecidableEq

/-- The outcome of a call of `inflate`. -/
structure Inflated (σ : Type) where
  state : σ
  /-- `avail_in` after the call -/
  left : Nat
  /-- the bytes at `next_out` -/
  out : List UInt8
  ret : ZRet

/-- The decompression of zlib. -/
structure Zlib (σ : Type) where
  /-- `inflateInit2`; the error in place of the state -/
  inflateInit : Except ZRet σ
  /-- `inflate`, with the input and the room for the output -/
  inflate : σ → List UInt8 → Nat → Inflated σ

/-- What zlib does with compressed data: fed piece by piece, with room for exactly what is missing,
it either takes the whole piece or has given everything.  `R` relates a state to the data that it
still needs and to what it will give. -/
structure Zlib.Decodes {σ : Type} (z : Zlib σ) (data plain : List UInt8)
    (R : σ → List UInt8 → List UInt8 → Prop) : Prop where
  init : ∃ s, z.inflateInit = .ok s ∧ R s data plain
  finished : ∀ {s out}, R s [] out → out = []
  piece : ∀ {s xs rest out}, xs ≠ [] → out ≠ [] → R s (xs ++ rest) out →
    ((z.inflate s xs out.length).ret = .ok ∧ (z.inflate s xs out.length).left = 0 ∧
      ∃ out', out = (z.inflate s xs out.length).out ++ out' ∧
        R (z.inflate s xs out.length).state rest out') ∨
    (((z.inflate s xs out.length).ret = .ok ∨ (z.inflate s xs out.length).ret = .streamEnd) ∧
      (z.inflate s xs out.length).out = out)

/-! ## Stored blocks -/

inductive StoredState
  /-- before a block -/
  | header
  /-- in the two lengths of a block, with the bytes of them that have been read -/
  | lengths (last : Bool) (seen : List UInt8)
  /-- in the contents of a block, with the number of bytes behind the next one -/
  | contents (last : Bool) (left : Nat)
  | done
  | bad
  deriving DecidableEq

namespace StoredState

/-- With this many bytes left of a block. -/
def within (last : Bool) : Nat → StoredState
  | 0 => if last then done else header
  | left + 1 => contents last left

def next : StoredState → UInt8 → StoredState
  -- the low bit is set in the last block, and the two above it are the type
  | header, b => if b.toNat / 2 % 4 = 0 then lengths (b.toNat % 2 = 1) [] else bad
  | lengths last [b₀, b₁, b₂], b₃ =>
      if word16 [b₂, b₃] = ~~~ word16 [b₀, b₁] then within last (word16 [b₀, b₁]).toNat else bad
  | lengths last seen, b => lengths last (seen ++ [b])
  | contents last left, _ => within last left
  | done, _ => done
  | bad, _ => bad

/-- The next byte goes to the output. -/
def copies : StoredState → Bool
  | contents _ _ => true
  | _ => false

def ret : StoredState → ZRet
  | done => .streamEnd
  | bad => .dataError
  | _ => .ok

/-- The next byte is not taken. -/
def stops (s : StoredState) (room : Nat) : Bool :=
  s = done || s = bad || (s.copies && room = 0)

end StoredState

def inflateFrom : StoredState → List UInt8 → (room : Nat) → Inflated StoredState
  | s, [], _ => { state := s, left := 0, out := [], ret := s.ret }
  | s, b :: xs, room =>
      if s.stops room then { state := s, left := xs.length + 1, out := [], ret := s.ret }
      else if s.copies then
        let r := inflateFrom (s.next b) xs (room - 1)
        { r with out := b :: r.out }
      else inflateFrom (s.next b) xs room

/-- A call that gets nowhere is an error. -/
def stored : Zlib StoredState where
  inflateInit := .ok .header
  inflate := fun s xs room =>
    let r := inflateFrom s xs room
    if r.ret = .ok ∧ r.left = xs.length ∧ r.out = [] then { r with ret := .bufError } else r

/-- All of the input is taken, and the stream is at its end with these bytes. -/
def StoredState.Gives (s : StoredState) (data : List UInt8) (room : Nat) (out : List UInt8) :
    Prop :=
  inflateFrom s data room = { state := .done, left := 0, out := out, ret := .streamEnd }

section

variable {s : StoredState} {xs rest out : List UInt8} {room : Nat}

/-- At the end of the stream there is no more input. -/
theorem nil_of_done_gives (h : StoredState.done.Gives xs room out) : xs = [] ∧ out = [] := by
  cases xs with
  | nil => exact ⟨rfl, (Inflated.mk.inj h).2.2.1.symm⟩
  | cons b xs => exact absurd (Inflated.mk.inj h).2.1 (Nat.succ_ne_zero _)

theorem not_bad_gives : ¬ StoredState.bad.Gives xs room out := by
  intro h
  cases xs with
  | nil => exact nomatch (Inflated.mk.inj h).1
  | cons b xs => exact nomatch (Inflated.mk.inj h).1

/-- The input may come in two pieces. -/
theorem StoredState.Gives.split (h : s.Gives (xs ++ rest) room out) :
    ∃ s' out₁ out₂,
      inflateFrom s xs room = { state := s', left := 0, out := out₁, ret := s'.ret } ∧
        out = out₁ ++ out₂ ∧ s'.Gives rest (room - out₁.length) out₂ := by
  induction xs generalizing s room out with
  | nil => exact ⟨s, [], out, rfl, rfl, h⟩
  | cons b xs ih =>
      rw [Gives, List.cons_append, inflateFrom] at h
      rw [inflateFrom]
      split_ifs at h ⊢ with hstops hcopies
      · exact absurd (Inflated.mk.inj h).2.1 (Nat.succ_ne_zero _)
      · obtain ⟨hstate, hleft, hout, hret⟩ := Inflated.mk.inj h
        have hnext : (s.next b).Gives (xs ++ rest) (room - 1)
            (inflateFrom (s.next b) (xs ++ rest) (room - 1)).out := by
          rw [Gives, ← hstate, ← hleft, ← hret]
        rcases ih hnext with ⟨s', out₁, out₂, hrun, hsplit, hrest⟩
        refine ⟨s', b :: out₁, out₂, by simp only [hrun], ?_, ?_⟩
        · rw [← hout, hsplit, List.cons_append]
        · rwa [List.length_cons, Nat.add_comm, ← Nat.sub_sub]
      · exact ih h

end

/-- Data that is decoded at once is decoded in pieces. -/
theorem stored_decodes {data plain : List UInt8}
    (h : StoredState.header.Gives data plain.length plain) :
    stored.Decodes data plain fun s todo out => s.Gives todo out.length out where
  init := ⟨.header, rfl, h⟩
  finished := fun hgives => (Inflated.mk.inj hgives).2.2.1.symm
  piece := by
    intro s xs rest out hxs hout hgives
    rcases hgives.split with ⟨s', out₁, out₂, hrun, hsplit, hrest⟩
    have htaken : ¬ 0 = xs.length := fun hzero => hxs (List.length_eq_zero_iff.1 hzero.symm)
    have hinflate : stored.inflate s xs out.length =
        { state := s', left := 0, out := out₁, ret := s'.ret } := by
      simp only [stored, hrun, htaken, false_and, and_false, if_false]
    have hroom : out.length - out₁.length = out₂.length := by
      rw [hsplit, List.length_append, Nat.add_sub_cancel_left]
    rw [hroom] at hrest
    rw [hinflate]
    cases s' with
    | done =>
        have hnil := (nil_of_done_gives hrest).2
        exact .inr ⟨.inr rfl, by simp [hsplit, hnil]⟩
    | bad => exact absurd hrest not_bad_gives
    | header => exact .inl ⟨rfl, rfl, out₂, hsplit, hrest⟩
    | lengths last seen => exact .inl ⟨rfl, rfl, out₂, hsplit, hrest⟩
    | contents last left => exact .inl ⟨rfl, rfl, out₂, hsplit, hrest⟩

/-! ## The last block -/

/-- What a compressor makes of a file that it stores in one block. -/
def storedBlock (plain : List UInt8) : List UInt8 :=
  1 :: (bytes16 (UInt16.ofNat plain.length) ++ bytes16 (~~~ UInt16.ofNat plain.length)) ++ plain

theorem within_gives (plain : List UInt8) :
    (StoredState.within true plain.length).Gives plain plain.length plain := by
  induction plain with
  | nil => rfl
  | cons b plain ih =>
      have hrest : inflateFrom (.within true plain.length) plain plain.length =
          { state := .done, left := 0, out := plain, ret := .streamEnd } := ih
      show inflateFrom (.contents true plain.length) (b :: plain) (plain.length + 1) = _
      simp [inflateFrom, StoredState.stops, StoredState.copies, StoredState.next, hrest]

theorem header_gives_storedBlock {plain : List UInt8} (h : plain.length < 65536) :
    StoredState.header.Gives (storedBlock plain) plain.length plain := by
  have hlen : (UInt16.ofNat plain.length).toNat = plain.length := by
    rw [UInt16.toNat_ofNat']
    exact Nat.mod_eq_of_lt h
  -- five bytes in front of the contents
  obtain ⟨b₀, b₁, hlow⟩ := List.length_eq_two.1 (length_bytes16 (UInt16.ofNat plain.length))
  obtain ⟨b₂, b₃, hhigh⟩ := List.length_eq_two.1 (length_bytes16 (~~~ UInt16.ofNat plain.length))
  have hlow' : word16 [b₀, b₁] = UInt16.ofNat plain.length := by rw [← hlow, word16_bytes16]
  have hhigh' : word16 [b₂, b₃] = ~~~ UInt16.ofNat plain.length := by rw [← hhigh, word16_bytes16]
  have hrest := within_gives plain
  unfold StoredState.Gives at hrest ⊢
  simp only [storedBlock, hlow, hhigh, List.cons_append, List.nil_append]
  simp [inflateFrom, StoredState.stops, StoredState.copies, StoredState.next, hlow', hhigh', hlen,
    hrest]

end AppCtrl
end AbsPlatform
