import AbsPlatform.Json.Grammar

/-!
# Numbers — skip and parse_number on the texts of the grammar

Each part of `parse_number` takes the text of its rule and stops at the next character, if this is
one that the part does not take as well.
-/

namespace AbsPlatform
namespace Json

open Lib Lib.Scanner

variable {D : Type} {A : Doubles D}

/-! ## White space -/

theorem skip_stop {c : UInt8} (hc : c = 0 ∨ 32 < c) (s : List UInt8) :
    skip (c :: s) = .done () (c :: s) := by
  have hstop : ¬ (c ≠ 0 ∧ c ≤ 32) := by
    rintro ⟨hne, hle⟩
    rcases hc with rfl | hlt
    · exact hne rfl
    · exact absurd hle (UInt8.not_le.2 hlt)
  rw [skip, if_neg hstop]

theorem skip_space {g : List UInt8} (hg : Space g) {c : UInt8} (hc : c = 0 ∨ 32 < c)
    (s : List UInt8) : skip (g ++ c :: s) = .done () (c :: s) := by
  induction g with
  | nil => exact skip_stop hc s
  | cons b g ih =>
      have hb : b ≠ 0 ∧ b ≤ 32 := hg b (by simp)
      rw [List.cons_append, skip, if_pos hb]
      exact ih fun x hx => hg x (by simp [hx])

/-- Where `skip` stops it would stop again. -/
theorem skip_skip {s u : List UInt8} (h : skip s = .done () u) : skip u = .done () u := by
  induction s with
  | nil => simp [skip] at h
  | cons c s ih =>
      rw [skip] at h
      split_ifs at h with hc
      · exact ih h
      · cases h
        rw [skip, if_neg hc]

/-! ## Numbers -/

/-- The text begins with a character of this kind. -/
def Leads (P : UInt8 → Prop) (s : List UInt8) : Prop := ∃ c r, s = c :: r ∧ P c

theorem Leads.imp {P Q : UInt8 → Prop} {s : List UInt8} (h : Leads P s) (hPQ : ∀ c, P c → Q c) :
    Leads Q s := by
  rcases h with ⟨c, r, hs, hc⟩
  exact ⟨c, r, hs, hPQ c hc⟩

/-- The character ends the digits of a number, and it does not begin a fraction. -/
def EndsInteger (c : UInt8) : Prop := isDigit c = false
def EndsFraction (c : UInt8) : Prop := EndsInteger c ∧ c ≠ dot

/-- The character ends a number. -/
def Stops (c : UInt8) : Prop := EndsFraction c ∧ c ≠ 101 ∧ c ≠ 69

instance (c : UInt8) : Decidable (Stops c) :=
  inferInstanceAs (Decidable ((isDigit c = false ∧ c ≠ dot) ∧ c ≠ 101 ∧ c ≠ 69))

theorem isDigit_iff {c : UInt8} : isDigit c = true ↔ 48 ≤ c ∧ c ≤ 57 := by
  simp [isDigit]

theorem digits_append {α : Type} (add : α → UInt8 → α) (n : α) {ds : List UInt8} (hds : Digits ds)
    {s : List UInt8} (hs : Leads EndsInteger s) :
    digits add n (ds ++ s) = .done (ds.foldl add n) s := by
  rcases hs with ⟨c, r, rfl, hc⟩
  induction ds generalizing n with
  | nil =>
      have hc : isDigit c = false := hc
      simp [digits, hc]
  | cons d ds ih =>
      have hd : isDigit d = true := hds d (by simp)
      rw [List.cons_append, digits, if_pos hd, List.foldl_cons]
      exact ih _ fun x hx => hds x (by simp [hx])

theorem numberSign_text {st : List UInt8} {sign : Int} (h : SignText st sign) {s : List UInt8}
    (hs : Leads (· ≠ minus) s) : numberSign (st ++ s) = .done sign s := by
  rcases hs with ⟨c, r, rfl, hc⟩
  cases h with
  | none => simp_all [numberSign]
  | minus => simp [numberSign]

theorem integerPart_text {it integer : List UInt8} (h : IntegerText it integer) {s : List UInt8}
    (hs : Leads EndsInteger s) :
    ∃ u, leadingZero (it ++ s) = .done () u ∧
      integerPart A u = .done (A.ofDigits integer) s := by
  cases h with
  | zero =>
      rcases hs with ⟨c, r, rfl, hc⟩
      have hzero : leadingZero ([48] ++ c :: r) = .done () (c :: r) := by
        simp [leadingZero, advance]
      have hno : ¬ (49 ≤ c ∧ c ≤ 57) := by
        rintro ⟨hlow, hhigh⟩
        have hdigit : isDigit c = true := isDigit_iff.2 ⟨UInt8.le_trans (by decide) hlow, hhigh⟩
        rw [hc] at hdigit
        cases hdigit
      exact ⟨_, hzero, by simp [integerPart, hno, Doubles.ofDigits]⟩
  | @digits d ds hlow hhigh hds =>
      have hd : d ≠ 48 := by
        rintro rfl
        exact absurd hlow (by decide)
      have hzero : leadingZero (d :: ds ++ s) = .done () (d :: ds ++ s) := by simp [leadingZero, hd]
      have hall : Digits (d :: ds) := by
        intro x hx
        rcases List.mem_cons.1 hx with rfl | hx
        · exact isDigit_iff.2 ⟨UInt8.le_trans (by decide) hlow, hhigh⟩
        · exact hds x hx
      refine ⟨_, hzero, ?_⟩
      rw [List.cons_append, integerPart, bind_peek_cons, if_pos ⟨hlow, hhigh⟩]
      exact digits_append _ _ hall hs

theorem foldl_fraction (n : D) (k : Int) (ds : List UInt8) :
    ds.foldl (fun (n, scale) c => (addDigit A n c, scale - 1)) (n, k) =
      (ds.foldl (addDigit A) n, k - ds.length) := by
  induction ds generalizing n k with
  | nil => simp
  | cons d ds ih =>
      rw [List.foldl_cons, ih, List.foldl_cons, List.length_cons]
      congr 1
      omega

theorem fraction_text (n : D) {ft ds : List UInt8} (h : FractionText ft ds) {s : List UInt8}
    (hs : Leads EndsFraction s) :
    fraction A n (ft ++ s) = .done (ds.foldl (addDigit A) n, -(ds.length : Int)) s := by
  cases h with
  | none =>
      rcases hs with ⟨c, r, rfl, _, hc⟩
      have hc : c ≠ 46 := hc
      simp [fraction, hc]
  | @digits d ds hds =>
      have hd : isDigit d = true := hds d (by simp)
      have hloop := digits_append (fun (n, scale) c => (addDigit A n c, scale - 1)) (n, (0 : Int))
        hds (hs.imp fun _ hc => hc.1)
      rw [foldl_fraction, Int.zero_sub] at hloop
      simp only [List.cons_append, fraction, bind_peek_cons, if_true]
      have hnext : (peekAt 1 : Scanner UInt8 UInt8) (dot :: d :: (ds ++ s)) =
          .done d (dot :: d :: (ds ++ s)) := rfl
      rw [bind_done hnext, if_pos hd, bind_advance_one]
      exact hloop

theorem le_foldl_decimal (n : Nat) (ds : List UInt8) :
    n ≤ ds.foldl (fun n c => n * 10 + (c.toNat - 48)) n := by
  induction ds generalizing n with
  | nil => exact Nat.le_refl n
  | cons d ds ih =>
      have hle := ih (n * 10 + (d.toNat - 48))
      rw [List.foldl_cons]
      omega

/-- `subscale` does not overflow. -/
theorem foldl_subscale (n : Nat) {ds : List UInt8} (hds : Digits ds)
    (hlt : ds.foldl (fun n c => n * 10 + (c.toNat - 48)) n < 2147483648) :
    ds.foldl (fun subscale c => toCInt (subscale * 10 + (c.toNat - 48))) (n : Int) =
      (ds.foldl (fun n c => n * 10 + (c.toNat - 48)) n : Nat) := by
  induction ds generalizing n with
  | nil => rfl
  | cons d ds ih =>
      have hle := le_foldl_decimal (n * 10 + (d.toNat - 48)) ds
      rw [List.foldl_cons] at hlt ⊢
      rw [List.foldl_cons]
      have hd : 48 ≤ d.toNat := (isDigit_iff.1 (hds d (by simp))).1
      have hnext : toCInt ((n : Int) * 10 + (d.toNat - 48)) = (n * 10 + (d.toNat - 48) : Nat) := by
        rw [toCInt_of_lt (by omega) (by omega)]
        omega
      rw [hnext]
      exact ih _ (fun x hx => hds x (by simp [hx])) hlt

theorem exponentDigits_text {ds : List UInt8} (hds : Digits ds) (hlt : decimalValue ds < 2147483648)
    {s : List UInt8} (hs : Leads EndsInteger s) :
    exponentDigits (ds ++ s) = .done (decimalValue ds : Int) s := by
  have hloop := digits_append (fun subscale c => toCInt (subscale * 10 + (c.toNat - 48))) (0 : Int)
    hds hs
  rw [show (0 : Int) = ((0 : Nat) : Int) from rfl, foldl_subscale 0 hds hlt] at hloop
  exact hloop

theorem exponent_text {et : List UInt8} {e : Int} (h : ExponentText et e) {s : List UInt8}
    (hs : Leads Stops s) : exponent (et ++ s) = .done e s := by
  have hend : Leads EndsInteger s := hs.imp fun _ hc => hc.1.1
  cases h with
  | none =>
      rcases hs with ⟨c, r, rfl, _, hc⟩
      simp [exponent, hc]
  | @unsigned c ds hc hne hds hlt =>
      have hdigits := exponentDigits_text hds hlt hend
      cases ds with
      | nil => exact absurd rfl hne
      | cons d ds =>
          have hd := isDigit_iff.1 (hds d (by simp))
          have hplus : d ≠ plus := by
            rintro rfl
            exact absurd hd.1 (by decide)
          have hminus : d ≠ minus := by
            rintro rfl
            exact absurd hd.1 (by decide)
          simp only [List.cons_append, exponent, bind_peek_cons, if_pos hc, bind_advance_one,
            if_neg hplus, if_neg hminus]
          exact hdigits
  | @positive c ds hc hne hds hlt =>
      simp only [List.cons_append, exponent, bind_peek_cons, if_pos hc, bind_advance_one, if_true]
      exact exponentDigits_text hds hlt hend
  | @negative c ds hc hne hds hlt =>
      have hsign : minus ≠ plus := by decide
      simp only [List.cons_append, exponent, bind_peek_cons, if_pos hc, bind_advance_one,
        if_neg hsign, if_true]
      rw [bind_done (exponentDigits_text hds hlt hend)]
      rfl

theorem ExponentText.leads {et : List UInt8} {e : Int} (h : ExponentText et e) {s : List UInt8}
    (hs : Leads Stops s) : Leads EndsFraction (et ++ s) := by
  have hletter : ∀ c : UInt8, c = 101 ∨ c = 69 → EndsFraction c := by
    rintro c (rfl | rfl) <;> exact ⟨rfl, by decide⟩
  cases h with
  | none => exact hs.imp fun _ hc => hc.1
  | unsigned hc _ _ _ => exact ⟨_, _, rfl, hletter _ hc⟩
  | positive hc _ _ _ => exact ⟨_, _, rfl, hletter _ hc⟩
  | negative hc _ _ _ => exact ⟨_, _, rfl, hletter _ hc⟩

theorem FractionText.leads {ft ds : List UInt8} (h : FractionText ft ds) {s : List UInt8}
    (hs : Leads EndsFraction s) : Leads EndsInteger (ft ++ s) := by
  cases h with
  | none => exact hs.imp fun _ hc => hc.1
  | digits _ => exact ⟨dot, _, rfl, rfl⟩

theorem IntegerText.leads {it integer : List UInt8} (h : IntegerText it integer) (s : List UInt8) :
    Leads (fun c => isDigit c = true) (it ++ s) := by
  cases h with
  | zero => exact ⟨48, s, rfl, rfl⟩
  | digits hlow hhigh _ =>
      exact ⟨_, _, rfl, isDigit_iff.2 ⟨UInt8.le_trans (by decide) hlow, hhigh⟩⟩

theorem ne_minus_of_isDigit {c : UInt8} (h : isDigit c = true) : c ≠ minus := by
  rintro rfl
  cases h

theorem parseNumber_text {t : List UInt8} {n : D} (h : NumberText A t n) {s : List UInt8}
    (hs : Leads Stops s) : parseNumber A (t ++ s) = .done (numberItem A n) s := by
  cases h with
  | @numeral st it ft et integer ds sign e hst hit hft het =>
      have hinteger : Leads EndsInteger (ft ++ (et ++ s)) := hft.leads (het.leads hs)
      have hsign : Leads (· ≠ minus) (it ++ (ft ++ (et ++ s))) :=
        (hit.leads _).imp fun _ hc => ne_minus_of_isDigit hc
      have hvalue : ds.foldl (addDigit A) (A.ofDigits integer) = A.ofDigits (integer ++ ds) := by
        simp [Doubles.ofDigits]
      rcases integerPart_text (A := A) hit hinteger with ⟨u, hzero, hpart⟩
      simp only [List.append_assoc, parseNumber]
      rw [bind_done (numberSign_text hst hsign), bind_done hzero, bind_done hpart,
        bind_done (fraction_text _ hft (het.leads hs)), bind_done (exponent_text het hs), hvalue,
        Int.add_comm]
      rfl

end Json
end AbsPlatform
