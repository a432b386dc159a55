import Mathlib.Data.List.Nodup
import Mathlib.Data.Nat.ModEq
import Mathlib.Logic.Function.Basic

/-!
# RegisterFile — words spread over byte registers

A device with byte registers is a function from addresses to bytes.  `writeWord` sends the bytes of
a 32-bit word to a list of registers, the most significant of them first, and `readWord` is the
number such a list of registers holds.
-/

namespace AbsPlatform
namespace Lib

/-- The registers of a device, by address. -/
abbrev Registers (α : Type*) := α → UInt8

namespace Registers

variable {α : Type*}

/-- The number a list of registers holds, most significant register first. -/
def readWord (regs : List α) (file : Registers α) : Nat :=
  match regs with
  | [] => 0
  | reg :: rest => (file reg).toNat * 256 ^ rest.length + readWord rest file

theorem readWord_congr {regs : List α} {file file' : Registers α}
    (h : ∀ reg ∈ regs, file reg = file' reg) : readWord regs file = readWord regs file' := by
  induction regs with
  | nil => rfl
  | cons reg rest ih =>
      rw [List.forall_mem_cons] at h
      rw [readWord, readWord, h.1, ih h.2]

variable [DecidableEq α]

/-- The bytes of a word to a list of registers, one after the other. -/
def writeWord (regs : List α) (word : UInt32) (file : Registers α) : Registers α :=
  match regs with
  | [] => file
  | reg :: rest =>
      let byte := (word >>> UInt32.ofNat (8 * rest.length)).toUInt8
      writeWord rest word (Function.update file reg byte)

/-- The other registers keep what they have. -/
theorem writeWord_other {regs : List α} {reg : α} (hreg : reg ∉ regs) (word : UInt32)
    (file : Registers α) : writeWord regs word file reg = file reg := by
  induction regs generalizing file with
  | nil => rfl
  | cons head rest ih =>
      rw [List.mem_cons, not_or] at hreg
      rw [writeWord, ih hreg.2, Function.update_of_ne hreg.1]

/-- A word that goes to other registers is not seen. -/
theorem readWord_writeWord_of_disjoint {regs regs' : List α} (h : ∀ reg ∈ regs, reg ∉ regs')
    (word : UInt32) (file : Registers α) :
    readWord regs (writeWord regs' word file) = readWord regs file := by
  refine readWord_congr ?_
  intro reg hreg
  exact writeWord_other (h reg hreg) word file

/-- The byte of a word that goes to the first of its registers. -/
theorem toNat_byte (word : UInt32) {n : Nat} (hn : n < 4) :
    ((word >>> UInt32.ofNat (8 * n)).toUInt8).toNat = word.toNat / 256 ^ n % 256 := by
  have hshift : 8 * n % 2 ^ 32 % 32 = 8 * n := by omega
  have hpow : (2 : Nat) ^ (8 * n) = 256 ^ n := by rw [Nat.pow_mul]
  rw [UInt32.toNat_toUInt8, UInt32.toNat_shiftRight, UInt32.toNat_ofNat', hshift,
    Nat.shiftRight_eq_div_pow, hpow]

/-- The registers hold the part of the word that fits into them. -/
theorem readWord_writeWord {regs : List α} (hnodup : regs.Nodup) (hlen : regs.length ≤ 4)
    (word : UInt32) (file : Registers α) :
    readWord regs (writeWord regs word file) = word.toNat % 256 ^ regs.length := by
  induction regs generalizing file with
  | nil => simp [readWord, Nat.mod_one]
  | cons reg rest ih =>
      rw [List.nodup_cons] at hnodup
      rw [List.length_cons] at hlen
      -- the first register is not written again
      have hbyte : writeWord (reg :: rest) word file reg =
          (word >>> UInt32.ofNat (8 * rest.length)).toUInt8 := by
        rw [writeWord, writeWord_other hnodup.1, Function.update_self]
      have hrest : readWord rest (writeWord (reg :: rest) word file) =
          word.toNat % 256 ^ rest.length :=
        ih hnodup.2 (by omega) _
      rw [readWord, hbyte, hrest, toNat_byte word hlen, List.length_cons, pow_succ, Nat.mod_mul,
        Nat.mul_comm, Nat.add_comm]

end Registers
end Lib
end AbsPlatform
