import Mathlib.Data.Rat.Floor
import Mathlib.Tactic.Linarith
import Mathlib.Tactic.NormNum
import AbsPlatform.Lib.RegisterFile

/-!
# Radio — the frequency words of the transceiver

`configure_FREQ`, `configure_IFFREQ`, `configure_FSKDEV` and `configure_TXRATE` of `comms.cpp`.
Arithmetic is exact: a `double` is a rational number, and an `int` any integer, as in a compiler
whose `int` holds the constants of the header.  The board's has 16 bits; `RadioTiming` calls these
functions with such numbers.  The transceiver is its register file.

The programming formula of the transceiver is a scaled division with rounding.  The code divides
before it scales, and its rounding term is the integer quotient `1 / 2`, so what it writes is the
whole number of crystal frequencies in the argument and nothing below.
-/

namespace AbsPlatform
namespace Comms

open Lib

/-! ## comms.h -/

def fxtal : Int := 16300000

def fif : Int := 1000000

def h : ℚ := 1 / 2

def bitrateDefault : Int := 100000

def fcarrier : Int := 433000000

abbrev Register := UInt8

def freqRegs : List Register := [0x20, 0x21, 0x22, 0x23]

def fskdevRegs : List Register := [0x25, 0x26, 0x27]

def iffreqRegs : List Register := [0x28, 0x29]

def txrateRegs : List Register := [0x31, 0x32, 0x33]

/-! ## The words -/

/-- A `double` as an integer: the fraction is cut off. -/
def truncate (q : ℚ) : Int := q.num.tdiv q.den

/-- `((x / FXTAL) * pow(2, k)) + 1 / 2`, as the `uint32_t` it is stored in.  Both quotients are
quotients of integers. -/
def scaledWord (x : Int) (k : Nat) : UInt32 :=
  UInt32.ofInt (truncate ((x.tdiv fxtal : Int) * 2 ^ k + ((1 : Int).tdiv 2 : Int)))

def configureFREQ (fcarrier : Int) (file : Registers Register) : Registers Register :=
  Registers.writeWord freqRegs (scaledWord fcarrier 24) file

def configureIFFREQ (file : Registers Register) : Registers Register :=
  Registers.writeWord iffreqRegs (scaledWord fif 17) file

/-- `(H / 2) * bitrate`, cut to an `int`. -/
def fdev (bitrate : Int) : Int := truncate (h / 2 * bitrate)

def configureFSKDEV (bitrate : Int) (file : Registers Register) : Registers Register :=
  Registers.writeWord fskdevRegs (scaledWord (fdev bitrate) 24) file

def configureTXRATE (bitrate : Int) (file : Registers Register) : Registers Register :=
  Registers.writeWord txrateRegs (scaledWord bitrate 24) file

theorem truncate_intCast (n : Int) : truncate n = n := by
  simp [truncate]

theorem truncate_of_nonneg {q : ℚ} (hq : 0 ≤ q) : truncate q = ⌊q⌋ := by
  rw [truncate, Int.tdiv_eq_ediv_of_nonneg (Rat.num_nonneg.2 hq), Rat.floor_def']

/-- The word without the rational numbers: the number of whole crystal frequencies, scaled. -/
theorem scaledWord_eq (x : Int) (k : Nat) :
    scaledWord x k = UInt32.ofInt (x.tdiv fxtal * 2 ^ k) := by
  have hexact : ((x.tdiv fxtal : Int) : ℚ) * 2 ^ k + ((1 : Int).tdiv 2 : Int) =
      ((x.tdiv fxtal * 2 ^ k : Int) : ℚ) := by
    have hhalf : (1 : Int).tdiv 2 = 0 := by decide
    rw [hhalf]
    push_cast
    ring
  rw [scaledWord, hexact, truncate_intCast]

theorem fdev_eq {bitrate : Int} (hb : 0 ≤ bitrate) : fdev bitrate = bitrate / 4 := by
  have hquot : h / 2 * bitrate = (bitrate : ℚ) / (4 : Nat) := by
    rw [h]
    push_cast
    ring
  have hnonneg : (0 : ℚ) ≤ (bitrate : ℚ) / (4 : Nat) := by positivity
  rw [fdev, hquot, truncate_of_nonneg hnonneg, Rat.floor_intCast_div_natCast]
  rfl

/-! ## The programming formula -/

/-- `floor(x * 2^k / FXTAL + 1/2)` in a register of `w` bits. -/
def formula (x : Int) (k w : Nat) : Int := ⌊(x : ℚ) * 2 ^ k / fxtal + 1 / 2⌋ % 2 ^ w

theorem formula_eq (x : Int) (k w : Nat) :
    formula x k w = (2 * (x * 2 ^ k) + fxtal) / (2 * fxtal) % 2 ^ w := by
  have hquot : (x : ℚ) * 2 ^ k / fxtal + 1 / 2 =
      ((2 * (x * 2 ^ k) + fxtal : Int) : ℚ) / ((32600000 : Nat) : ℚ) := by
    simp only [fxtal]
    push_cast
    ring
  rw [formula, hquot, Rat.floor_intCast_div_natCast]
  rfl

/-- The four words are the ones of the formula. -/
structure FollowsFormula (f b : Int) (file : Registers Register) : Prop where
  freq : Registers.readWord freqRegs (configureFREQ f file) = formula f 24 32
  txrate : Registers.readWord txrateRegs (configureTXRATE b file) = formula b 24 24
  fskdev : Registers.readWord fskdevRegs (configureFSKDEV b file) = formula (b / 4) 24 24
  iffreq : Registers.readWord iffreqRegs (configureIFFREQ file) = formula fif 17 16

/-- Registers that are written with a word hold the low part of the scaled number. -/
theorem readWord_scaledWord {regs : List Register} (hnodup : regs.Nodup) (hlen : regs.length ≤ 4)
    (x : Int) (k : Nat) (file : Registers Register) :
    (Registers.readWord regs (Registers.writeWord regs (scaledWord x k) file) : Int) =
      x.tdiv fxtal * 2 ^ k % 256 ^ regs.length := by
  have hword (y : Int) : ((UInt32.ofInt y).toNat : Int) = y % 2 ^ 32 := by
    simp only [UInt32.ofInt, UInt32.toNat_ofNat']
    omega
  have hdvd : (256 : Int) ^ regs.length ∣ 2 ^ 32 := pow_dvd_pow 256 hlen
  rw [Registers.readWord_writeWord hnodup hlen, scaledWord_eq]
  push_cast
  rw [hword, Int.emod_emod_of_dvd _ hdvd]

/-- The carrier frequency comes out right exactly when it is a multiple of the crystal's. -/
theorem freq_iff {f : Int} (hpos : 0 < f) (file : Registers Register) :
    Registers.readWord freqRegs (configureFREQ f file) = formula f 24 32 ↔ fxtal ∣ f := by
  rw [configureFREQ, readWord_scaledWord (by decide) (by decide),
    Int.tdiv_eq_ediv_of_nonneg hpos.le, formula_eq, Int.dvd_iff_emod_eq_zero]
  -- what the division loses is below one crystal frequency, and above half a unit unless it is zero
  simp only [freqRegs, List.length_cons, List.length_nil, fxtal]
  omega

/-- The rate is never right: the word is zero, and the formula asks for more. -/
theorem txrate_ne {b : Int} (hpos : 0 < b) (hlt : b < fxtal) (file : Registers Register) :
    Registers.readWord txrateRegs (configureTXRATE b file) ≠ formula b 24 24 := by
  rw [configureTXRATE, readWord_scaledWord (by decide) (by decide),
    Int.tdiv_eq_zero_of_lt hpos.le hlt, Int.zero_mul, Int.zero_emod, formula_eq]
  simp only [fxtal] at hlt ⊢
  omega

/-- The deviation is right for the bitrates that have none. -/
theorem fskdev_iff {b : Int} (hpos : 0 < b) (hlt : b < fxtal) (file : Registers Register) :
    Registers.readWord fskdevRegs (configureFSKDEV b file) = formula (b / 4) 24 24 ↔ b < 4 := by
  have hquarter : b / 4 < fxtal := by omega
  rw [configureFSKDEV, fdev_eq hpos.le, readWord_scaledWord (by decide) (by decide),
    Int.tdiv_eq_zero_of_lt (by omega) hquarter, Int.zero_mul, Int.zero_emod, formula_eq]
  simp only [fxtal] at hlt ⊢
  omega

/-- The intermediate frequency is a constant, and its word is zero. -/
theorem iffreq_ne (file : Registers Register) :
    Registers.readWord iffreqRegs (configureIFFREQ file) ≠ formula fif 17 16 := by
  rw [configureIFFREQ, readWord_scaledWord (by decide) (by decide), formula_eq]
  decide

/-- No carrier frequency and no bitrate get the four words of the formula: the rate and the
intermediate frequency never have theirs. -/
theorem not_followsFormula (f b : Int) (hf : 0 < f) (hb : 0 < b) (hb' : b < fxtal)
    (file : Registers Register) :
    ¬ FollowsFormula f b file ∧
      (Registers.readWord freqRegs (configureFREQ f file) = formula f 24 32 ↔ fxtal ∣ f) ∧
      Registers.readWord txrateRegs (configureTXRATE b file) ≠ formula b 24 24 ∧
      (Registers.readWord fskdevRegs (configureFSKDEV b file) = formula (b / 4) 24 24 ↔ b < 4) ∧
      Registers.readWord iffreqRegs (configureIFFREQ file) ≠ formula fif 17 16 := by
  refine ⟨?_, freq_iff hf file, txrate_ne hb hb' file, fskdev_iff hb hb' file,
    iffreq_ne file⟩
  intro hfollows
  exact iffreq_ne file hfollows.iffreq

/-- The defaults of the header. -/
theorem not_followsFormula_defaults :
    ¬ FollowsFormula fcarrier bitrateDefault (fun _ => 0) ∧
      Registers.readWord freqRegs (configureFREQ fcarrier fun _ => 0) ≠ formula fcarrier 24 32 := by
  rcases not_followsFormula fcarrier bitrateDefault (by decide) (by decide) (by decide)
    (fun _ => 0) with ⟨hall, hfreq, _⟩
  exact ⟨hall, fun h => absurd (hfreq.1 h) (by decide)⟩

/-- The word for the default carrier frequency of 433 MHz is the one for 26 crystal frequencies. -/
theorem fcarrier_word_short :
    Registers.readWord freqRegs (configureFREQ fcarrier fun _ => 0) = 26 * 2 ^ 24 ∧
      formula fcarrier 24 32 = 445676965 ∧
      Registers.readWord iffreqRegs (configureIFFREQ fun _ => 0) = 0 ∧
      formula fif 17 16 = 8041 := by
  have hfreq : (Registers.readWord freqRegs (configureFREQ fcarrier fun _ => 0) : Int) =
      26 * 2 ^ 24 := by
    rw [configureFREQ, readWord_scaledWord (by decide) (by decide)]
    decide
  have hiffreq : (Registers.readWord iffreqRegs (configureIFFREQ fun _ => 0) : Int) = 0 := by
    rw [configureIFFREQ, readWord_scaledWord (by decide) (by decide)]
    decide
  refine ⟨by exact_mod_cast hfreq, ?_, by exact_mod_cast hiffreq, ?_⟩
  · rw [formula_eq]
    decide
  · rw [formula_eq]
    decide

end Comms
end AbsPlatform
