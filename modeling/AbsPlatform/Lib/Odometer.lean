import Mathlib.Algebra.BigOperators.Group.List.Basic
import Mathlib.Logic.Function.Iterate

/-!
# Odometer — counting with digits of different sizes

An odometer has a list of bounds and a list of digits, the least significant one in front; digit
`d` under bound `b` takes the `b + 1` values up to `b`.  `tick` adds one and carries.  The value of
the digits turns a tick into adding one modulo the number of positions, so an odometer that starts
from zero shows every position once before it shows zero again.
-/

namespace AbsPlatform
namespace Lib
namespace Odometer

/-- Every digit is within its bound. -/
def Valid (bounds digits : List Nat) : Prop := List.Forall₂ (fun d b => d ≤ b) digits bounds

/-- The number of positions. -/
def size (bounds : List Nat) : Nat := (bounds.map (· + 1)).prod

def value : List Nat → List Nat → Nat
  | b :: bs, d :: ds => d + (b + 1) * value bs ds
  | _, _ => 0

/-- The position with a given value. -/
def digits : List Nat → Nat → List Nat
  | [], _ => []
  | b :: bs, n => n % (b + 1) :: digits bs (n / (b + 1))

def tick : List Nat → List Nat → List Nat
  | b :: bs, d :: ds => if b < d + 1 then 0 :: tick bs ds else (d + 1) :: ds
  | _, ds => ds

variable {bounds ds ds' : List Nat} {n : Nat}

@[simp] theorem size_nil : size [] = 1 := rfl

@[simp] theorem size_cons (b : Nat) (bs : List Nat) : size (b :: bs) = (b + 1) * size bs := by
  simp [size]

theorem size_pos (bounds : List Nat) : 0 < size bounds := by
  induction bounds with
  | nil => exact Nat.one_pos
  | cons b bs ih =>
      rw [size_cons]
      exact Nat.mul_pos (Nat.succ_pos b) ih

theorem size_reverse (bounds : List Nat) : size bounds.reverse = size bounds := by
  simp [size, List.prod_reverse]

/-! ## Values -/

theorem value_lt_size (h : Valid bounds ds) : value bounds ds < size bounds := by
  induction h with
  | nil => exact Nat.one_pos
  | @cons d b ds bs hd _ ih =>
      rw [size_cons, value]
      calc
        d + (b + 1) * value bs ds < (b + 1) * (value bs ds + 1) := by
          rw [Nat.mul_succ]
          omega
        _ ≤ (b + 1) * size bs := Nat.mul_le_mul_left _ ih

/-- A position is determined by its value. -/
theorem digits_value (h : Valid bounds ds) : digits bounds (value bounds ds) = ds := by
  induction h with
  | nil => rfl
  | @cons d b ds bs hd _ ih =>
      have hd' : d < b + 1 := Nat.lt_succ_of_le hd
      rw [value, digits, Nat.add_mul_mod_self_left, Nat.mod_eq_of_lt hd',
        Nat.add_mul_div_left _ _ (Nat.succ_pos b), Nat.div_eq_of_lt hd', Nat.zero_add, ih]

theorem value_injective (h : Valid bounds ds) (h' : Valid bounds ds')
    (heq : value bounds ds = value bounds ds') : ds = ds' := by
  rw [← digits_value h, heq, digits_value h']

/-! ## Ticks -/

theorem valid_tick (h : Valid bounds ds) : Valid bounds (tick bounds ds) := by
  induction h with
  | nil => exact .nil
  | @cons d b ds bs hd hds ih =>
      rw [tick]
      split_ifs with hcarry
      · exact .cons (Nat.zero_le b) ih
      · exact .cons (Nat.not_lt.1 hcarry) hds

theorem value_tick (h : Valid bounds ds) :
    value bounds (tick bounds ds) = (value bounds ds + 1) % size bounds := by
  induction h with
  | nil => rfl
  | @cons d b ds bs hd hds ih =>
      rw [tick]
      split_ifs with hcarry
      · -- the digit is at its bound, and the rest moves on
        have hd' : d = b := Nat.le_antisymm hd (Nat.lt_succ_iff.1 hcarry)
        have hsum : d + (b + 1) * value bs ds + 1 = (b + 1) * (value bs ds + 1) := by
          rw [Nat.mul_succ]
          omega
        rw [value, value, ih, Nat.zero_add, hsum, size_cons, Nat.mul_mod_mul_left]
      · -- no carry: the sum is still below the number of positions
        have hnext : Valid (b :: bs) ((d + 1) :: ds) := .cons (Nat.not_lt.1 hcarry) hds
        have hlt := value_lt_size hnext
        rw [value] at hlt
        rw [value, value, Nat.mod_eq_of_lt (by omega)]
        omega

/-! ## From zero -/

/-- Where an odometer starts. -/
def zero (bounds : List Nat) : List Nat := List.replicate bounds.length 0

theorem valid_zero (bounds : List Nat) : Valid bounds (zero bounds) := by
  induction bounds with
  | nil => exact .nil
  | cons b bs ih => exact .cons (Nat.zero_le b) ih

theorem value_zero (bounds : List Nat) : value bounds (zero bounds) = 0 := by
  induction bounds with
  | nil => rfl
  | cons b bs ih =>
      rw [show zero (b :: bs) = 0 :: zero bs from rfl, value, ih, Nat.mul_zero]

theorem valid_iterate (bounds : List Nat) (k : Nat) :
    Valid bounds ((tick bounds)^[k] (zero bounds)) := by
  induction k with
  | zero => exact valid_zero bounds
  | succ k ih =>
      rw [Function.iterate_succ_apply']
      exact valid_tick ih

theorem value_iterate (bounds : List Nat) (k : Nat) :
    value bounds ((tick bounds)^[k] (zero bounds)) = k % size bounds := by
  induction k with
  | zero => exact (value_zero bounds).trans (Nat.zero_mod _).symm
  | succ k ih =>
      rw [Function.iterate_succ_apply', value_tick (valid_iterate bounds k), ih, Nat.mod_add_mod]

/-- The position shown after `k` ticks. -/
theorem iterate_eq_iff (h : Valid bounds ds) {k : Nat} :
    (tick bounds)^[k] (zero bounds) = ds ↔ k % size bounds = value bounds ds := by
  constructor
  · rintro rfl
    exact (value_iterate bounds k).symm
  · intro hk
    exact value_injective (valid_iterate bounds k) h ((value_iterate bounds k).trans hk)

end Odometer
end Lib
end AbsPlatform
