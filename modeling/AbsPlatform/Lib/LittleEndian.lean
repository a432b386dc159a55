import Mathlib.Data.Nat.ModEq
import Mathlib.Tactic.Ring

/-!
# LittleEndian — fixed-width numbers as byte strings

`leBytes k n` is the `k`-byte little-endian image of a natural number and `leValue` reads a byte
string back.  The two are inverse to each other on `k`-byte strings and on numbers below
`256 ^ k`; the machine-word versions at the end are the ones a wire format uses.
-/

namespace AbsPlatform
namespace Lib

/-- The `k` low bytes of `n`, least significant byte first. -/
def leBytes : Nat → Nat → List UInt8
  | 0, _ => []
  | k + 1, n => UInt8.ofNat n :: leBytes k (n / 256)

/-- The number a little-endian byte string stands for. -/
def leValue : List UInt8 → Nat
  | [] => 0
  | b :: bs => b.toNat + 256 * leValue bs

@[simp] theorem length_leBytes (k n : Nat) : (leBytes k n).length = k := by
  induction k generalizing n with
  | zero => rfl
  | succ k ih => simp [leBytes, ih]

theorem leValue_lt (bs : List UInt8) : leValue bs < 256 ^ bs.length := by
  induction bs with
  | nil => simp [leValue]
  | cons b bs ih =>
      have hb : b.toNat < 256 := b.toNat_lt
      have hpow : 256 ^ (b :: bs).length = 256 * 256 ^ bs.length := by
        rw [List.length_cons, pow_succ, Nat.mul_comm]
      rw [hpow]
      simp only [leValue]
      omega

theorem leValue_leBytes (k n : Nat) : leValue (leBytes k n) = n % 256 ^ k := by
  induction k generalizing n with
  | zero => simp [leBytes, leValue, Nat.mod_one]
  | succ k ih =>
      have hlow : (UInt8.ofNat n).toNat = n % 256 := by simp
      calc
        leValue (leBytes (k + 1) n)
            = n % 256 + 256 * (n / 256 % 256 ^ k) := by
              simp only [leBytes, leValue, ih, hlow]
        _ = n % (256 * 256 ^ k) := (Nat.mod_mul).symm
        _ = n % 256 ^ (k + 1) := by rw [pow_succ, Nat.mul_comm]

theorem leBytes_leValue (bs : List UInt8) : leBytes bs.length (leValue bs) = bs := by
  induction bs with
  | nil => rfl
  | cons b bs ih =>
      have hb : b.toNat < 256 := b.toNat_lt
      -- division by 256 drops the low byte, and the rest is the low byte
      have hquot : (b.toNat + 256 * leValue bs) / 256 = leValue bs := by omega
      have hlow : UInt8.ofNat (b.toNat + 256 * leValue bs) = b := by
        apply UInt8.toNat_inj.1
        simp only [UInt8.toNat_ofNat']
        omega
      simp only [List.length_cons, leBytes, leValue, hquot, hlow, ih]

/-! ## Machine words -/

/-- The four bytes of a 32-bit word. -/
def bytes32 (w : UInt32) : List UInt8 := leBytes 4 w.toNat

/-- The two bytes of a 16-bit word. -/
def bytes16 (w : UInt16) : List UInt8 := leBytes 2 w.toNat

/-- The 32-bit word four bytes stand for. -/
def word32 (bs : List UInt8) : UInt32 := UInt32.ofNat (leValue bs)

/-- The 16-bit word two bytes stand for. -/
def word16 (bs : List UInt8) : UInt16 := UInt16.ofNat (leValue bs)

@[simp] theorem length_bytes32 (w : UInt32) : (bytes32 w).length = 4 := length_leBytes 4 _

@[simp] theorem length_bytes16 (w : UInt16) : (bytes16 w).length = 2 := length_leBytes 2 _

@[simp] theorem word32_bytes32 (w : UInt32) : word32 (bytes32 w) = w := by
  simp [word32, bytes32, leValue_leBytes]

@[simp] theorem word16_bytes16 (w : UInt16) : word16 (bytes16 w) = w := by
  simp [word16, bytes16, leValue_leBytes]

theorem bytes32_word32 {bs : List UInt8} (h : bs.length = 4) : bytes32 (word32 bs) = bs := by
  have hlt : leValue bs < 2 ^ 32 := by
    have := leValue_lt bs
    rw [h] at this
    simpa using this
  have hword : (word32 bs).toNat = leValue bs := by
    simp only [word32, UInt32.toNat_ofNat']
    exact Nat.mod_eq_of_lt hlt
  rw [bytes32, hword, ← h, leBytes_leValue]

theorem bytes16_word16 {bs : List UInt8} (h : bs.length = 2) : bytes16 (word16 bs) = bs := by
  have hlt : leValue bs < 2 ^ 16 := by
    have := leValue_lt bs
    rw [h] at this
    simpa using this
  have hword : (word16 bs).toNat = leValue bs := by
    simp only [word16, UInt16.toNat_ofNat']
    exact Nat.mod_eq_of_lt hlt
  rw [bytes16, hword, ← h, leBytes_leValue]

end Lib
end AbsPlatform
