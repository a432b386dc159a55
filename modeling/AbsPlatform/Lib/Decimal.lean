import Mathlib.Data.Nat.Digits.Lemmas

/-!
# Decimal — numbers as decimal text

`decimal n` is the text of a number, most significant digit first and without leading zeros, and
`decimalValue` reads digits back.
-/

namespace AbsPlatform
namespace Lib

def decimal (n : Nat) : List UInt8 :=
  if n = 0 then [48] else (Nat.digits 10 n).reverse.map fun d => UInt8.ofNat (48 + d)

/-- The number a list of digits stands for. -/
def decimalValue (ds : List UInt8) : Nat := ds.foldl (fun n c => n * 10 + (c.toNat - 48)) 0

theorem decimalValue_snoc (ds : List UInt8) (c : UInt8) :
    decimalValue (ds ++ [c]) = decimalValue ds * 10 + (c.toNat - 48) := by
  simp [decimalValue]

theorem toNat_digit {d : Nat} (h : d < 10) : (UInt8.ofNat (48 + d)).toNat = 48 + d := by
  simp only [UInt8.toNat_ofNat']
  omega

/-- Every character is a digit. -/
theorem mem_decimal {n : Nat} {c : UInt8} (h : c ∈ decimal n) : 48 ≤ c ∧ c ≤ 57 := by
  unfold decimal at h
  split_ifs at h
  · rw [List.mem_singleton.1 h]
    exact ⟨by decide, by decide⟩
  · rcases List.mem_map.1 h with ⟨d, hd, rfl⟩
    have hlt : d < 10 := Nat.digits_lt_base (by decide) (List.mem_reverse.1 hd)
    rw [UInt8.le_iff_toNat_le, UInt8.le_iff_toNat_le, toNat_digit hlt]
    exact ⟨by simp, by simp; omega⟩

theorem decimalValue_decimal (n : Nat) : decimalValue (decimal n) = n := by
  unfold decimal decimalValue
  split_ifs with h
  · subst h
    rfl
  · rw [List.foldl_map, List.foldl_reverse]
    have hfold : ∀ l : List Nat, (∀ d ∈ l, d < 10) →
        l.foldr (fun d n => n * 10 + ((UInt8.ofNat (48 + d)).toNat - 48)) 0 =
          Nat.ofDigits 10 l := by
      intro l hl
      induction l with
      | nil => rfl
      | cons d l ih =>
          rw [List.foldr_cons, ih fun e he => hl e (by simp [he]), toNat_digit (hl d (by simp)),
            Nat.ofDigits_cons]
          omega
    rw [hfold _ fun d hd => Nat.digits_lt_base (by decide) hd, Nat.ofDigits_digits]

/-- The text of a number other than zero does not begin with a zero. -/
theorem decimal_eq_cons {n : Nat} (h : n ≠ 0) : ∃ c ds, decimal n = c :: ds ∧ 49 ≤ c := by
  have hlast := Nat.getLast_digit_ne_zero 10 h
  rcases List.eq_nil_or_concat (Nat.digits 10 n) with hnil | ⟨l, d, hl⟩
  · exact absurd hnil (Nat.digits_ne_nil_iff_ne_zero.2 h)
  · have hd : d ≠ 0 := by simpa [hl] using hlast
    have hlt : d < 10 := Nat.digits_lt_base (b := 10) (m := n) (by decide) (by simp [hl])
    refine ⟨UInt8.ofNat (48 + d), l.reverse.map fun d => UInt8.ofNat (48 + d), ?_, ?_⟩
    · simp [decimal, h, hl]
    · rw [UInt8.le_iff_toNat_le, toNat_digit hlt]
      simp
      omega

theorem length_decimal_le {n k : Nat} (hk : 0 < k) (h : n < 10 ^ k) : (decimal n).length ≤ k := by
  unfold decimal
  split_ifs with h0
  · exact hk
  · simpa using (Nat.digits_length_le_iff (by decide) n).2 h

end Lib
end AbsPlatform
