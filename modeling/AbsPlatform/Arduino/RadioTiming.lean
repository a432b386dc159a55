import Mathlib.Tactic.SplitIfs
import AbsPlatform.Arduino.Assets
import AbsPlatform.Arduino.Radio

/-!
# RadioTiming — the parameters that `change_x` recomputes

The globals of `comms.cpp`, `compute_FSKMUL`, `configure_DATARATE`, `configure_TMGGAIN`,
`Comms::change_x` and `Comms::configure`.  An `int` has the 16 bits of the board, so a product of
two of them wraps, and so does the default bitrate; the constants of the header that need more bits
are `long`.  A `double` is a rational number, and one that does not fit into an integer is reduced
modulo its range.  A division by zero is `none`.

The word for `CICDEC` is a parameter, any function of the bitrate; `cicdecWord` is the one of the
code.  `Inputs` are the numbers that a recomputation starts from, besides the old `fskmul`: one
branch of `compute_FSKMUL` leaves that in place.
-/

namespace AbsPlatform
namespace Comms

open Lib
open Arduino (CInt cint uint8)

/-! ## comms.h -/

/-- The modulations, and a number that is none of them: for that `getModulationReg` returns what was
in its variable. -/
inductive ModulationType
  | ask
  | psk
  | oqpsk
  | msk
  | fsk
  | gfsk
  | other (left : UInt8)
  deriving DecidableEq, Repr

/-- The modulation of a number, where `left` is in the variable of `getModulationReg`. -/
def ModulationType.ofInt (left : UInt8) (value : CInt) : ModulationType :=
  ([ask, psk, oqpsk, msk, fsk, gfsk][value.toNat]?).getD (other left)

def ModulationType.known : ModulationType → Bool
  | other _ => false
  | ask | psk | oqpsk | msk | fsk | gfsk => true

/-- `MOD_DEFAULT`. -/
def modDefault : ModulationType := .fsk

def tmgcorrfracDefault : UInt8 := 32

/-- `BITRATE_DEFAULT` in an `int`. -/
def bitrateInt : CInt := BitVec.ofInt 16 bitrateDefault

def modulationReg : Register := 0x10

def pllloopReg : Register := 0x2C

def cicdecRegs : List Register := [0x3E, 0x3F]

def datarateRegs : List Register := [0x40, 0x41]

def tmggainRegs : List Register := [0x42, 0x43]

/-! ## comms.cpp -/

/-- The globals, and the transceiver.  A `modulationValue` of `0xFF` is `none`. -/
structure Radio where
  frequency : CInt
  bandsel : UInt8
  bitrate : CInt
  modulationValue : Option ModulationType
  tmgcorrfrac : UInt8
  cicdec : UInt8
  fskmul : UInt32
  datarate : UInt32
  registers : Registers Register

/-- The initial values of the globals. -/
def Radio.start (file : Registers Register) : Radio where
  frequency := 0
  bandsel := 1
  bitrate := bitrateInt
  modulationValue := none
  tmgcorrfrac := tmgcorrfracDefault
  cicdec := 0
  fskmul := 0
  datarate := 0
  registers := file

def getModulationReg : ModulationType → UInt8
  | .ask => 0x00
  | .psk => 0x04
  | .oqpsk => 0x06
  | .msk => 0x07
  | .fsk => 0x0B
  | .gfsk => 0x0F
  | .other left => left

/-- An `int` where the other operand is a `uint32_t`. -/
def ulong (x : CInt) : UInt32 := UInt32.ofBitVec (x.signExtend 32)

/-- A `uint32_t` in a parameter of type `int`. -/
def intOf (x : UInt32) : CInt := x.toBitVec.setWidth 16

/-- A quotient of unsigned integers. -/
def divide (a b : UInt32) : Option UInt32 := if b = 0 then none else some (a / b)

/-- `FXTAL` where an operand is unsigned. -/
def fxtalWord : UInt32 := 16300000

/-- `compute_FSKMUL`; `fskmul` is the value of the global before the call. -/
def computeFSKMUL (bitrate : CInt) (tmgcorrfrac : UInt8) (modulation : ModulationType)
    (cicdec fskmul : UInt32) : Option UInt32 :=
  if getModulationReg modulation < 8 then
    some 1
  else do
    let quotient ← divide fxtalWord (ulong (4 * bitrate) * cicdec)
    -- an `unsigned int` has 16 bits as well
    let comprovacion := quotient.toUInt16
    if comprovacion ≤ tmgcorrfrac.toUInt16 then do
      let inverse ← divide 1 tmgcorrfrac.toUInt32
      divide 1 (ulong (4 * bitrate) * (cicdec / fxtalWord) + inverse)
    else
      some fskmul

/-- `pow(2, 10) * (FXTAL / (cicdec * fskmul * bitrate)) + 1 / 2`, with the product of an `int`. -/
def datarateWord (bitrate cicdec fskmul : CInt) : Option UInt32 :=
  let product := cicdec * fskmul * bitrate
  if product = 0 then none
  else some (UInt32.ofInt (2 ^ 10 * fxtal.tdiv product.toInt + (1 : Int).tdiv 2))

/-- `fskmul * (datarate / tmgcorrfrac) + 1 / 2`. -/
def tmggainWord (fskmul datarate : UInt32) (tmgcorrfrac : CInt) : Option UInt32 :=
  (divide datarate (ulong tmgcorrfrac)).map fun q => fskmul * q + 1 / 2

def configurePLLLOOP (band : CInt) (file : Registers Register) : Registers Register :=
  Function.update file pllloopReg (uint8 (band <<< 5 ||| 0x0F))

/-- `configure_CICDEC`'s word: `(1.5 * FXTAL) / (8 * 1.2 * (1 + H) * bitrate)`. -/
def cicdecWord (bitrate : CInt) : UInt32 :=
  UInt32.ofInt (truncate (3 / 2 * fxtal / (8 * (6 / 5) * (1 + h) * bitrate.toInt)))

/-- The three lines that `configure` and the changes of bitrate, modulation and timing recovery
share. -/
def recompute (bitrate tmgcorrfrac : CInt) (modulation : ModulationType) (cicdec : UInt8)
    (s : Radio) : Option Radio := do
  let fskmul ← computeFSKMUL bitrate (uint8 tmgcorrfrac) modulation cicdec.toUInt32 s.fskmul
  let datarate ← datarateWord bitrate (cint cicdec) (intOf fskmul)
  let tmggain ← tmggainWord fskmul datarate tmgcorrfrac
  some { s with
    fskmul := fskmul
    datarate := datarate
    registers := Registers.writeWord tmggainRegs tmggain
      (Registers.writeWord datarateRegs datarate s.registers) }

/-- A call of `change_x`: the parameter and the value. -/
inductive Change
  | frequency (value : CInt)
  | bitrate (value : CInt)
  | modulationType (value : ModulationType)
  | tmrecov (value : CInt)

/-- The change that two numbers stand for; any other parameter changes nothing. -/
def Change.ofInt? (left : UInt8) (parameter value : CInt) : Option Change :=
  [frequency value, bitrate value, modulationType (.ofInt left value),
    tmrecov value][parameter.toNat]?

/-- `change_x`; the gains of the receiver, which use none of the three values, are left out. -/
def changeX (cic : CInt → UInt32) (s : Radio) : Change → Option Radio
  | .frequency value =>
      if value = 0 ∨ value = 1 then
        let frequency : CInt :=
          BitVec.ofInt 16 (((1 - value) * 915 + value * 433).toInt * 10 ^ 6)
        some { s with
          frequency := frequency
          bandsel := uint8 value
          registers := configurePLLLOOP value (configureFREQ frequency.toInt s.registers) }
      else
        some s
  | .bitrate value => do
      let file := configureTXRATE value.toInt (configureFSKDEV value.toInt s.registers)
      let cicdec := (cic value).toUInt8
      let s' ← recompute value (cint s.tmgcorrfrac) (s.modulationValue.getD modDefault) cicdec
        { s with cicdec := cicdec, registers := Registers.writeWord cicdecRegs (cic value) file }
      some { s' with bitrate := value }
  | .modulationType value => do
      let file := Function.update s.registers modulationReg (getModulationReg value)
      let s' ← recompute s.bitrate (cint s.tmgcorrfrac) value s.cicdec { s with registers := file }
      some { s' with modulationValue := some value }
  | .tmrecov value => do
      let s' ← recompute s.bitrate value (s.modulationValue.getD modDefault) s.cicdec s
      some { s' with tmgcorrfrac := uint8 value }

/-- `configure`, as far as it concerns these parameters.  It works with the defaults and leaves the
globals with the settings as they are. -/
def configure (cic : CInt → UInt32) (s : Radio) : Option Radio :=
  let file := configureFREQ (BitVec.ofInt 16 fcarrier).toInt (configurePLLLOOP 1 s.registers)
  let file := configureTXRATE bitrateInt.toInt (configureFSKDEV bitrateInt.toInt
    (configureIFFREQ file))
  let file := Registers.writeWord cicdecRegs (cic bitrateInt) file
  let cicdec := (cic bitrateInt).toUInt8
  recompute bitrateInt (cint tmgcorrfracDefault) modDefault cicdec
    { s with
      cicdec := cicdec
      registers := Function.update file modulationReg (getModulationReg modDefault) }

/-! ## Settings -/

/-- What a sequence of changes is about. -/
structure Settings where
  bitrate : CInt
  modulation : ModulationType
  tmgcorrfrac : UInt8
  deriving DecidableEq

def Settings.change (set : Settings) : Change → Settings
  | .frequency _ => set
  | .bitrate value => { set with bitrate := value }
  | .modulationType value => { set with modulation := value }
  | .tmrecov value => { set with tmgcorrfrac := uint8 value }

/-- The settings that `configure` works with. -/
def defaults : Settings where
  bitrate := bitrateInt
  modulation := modDefault
  tmgcorrfrac := tmgcorrfracDefault

def Radio.settings (s : Radio) : Settings where
  bitrate := s.bitrate
  modulation := s.modulationValue.getD modDefault
  tmgcorrfrac := s.tmgcorrfrac

/-- The numbers that a recomputation uses. -/
structure Inputs extends Settings where
  cicdec : UInt8
  deriving DecidableEq

/-- The settings with the `cicdec` of their bitrate. -/
def Settings.inputs (cic : CInt → UInt32) (set : Settings) : Inputs :=
  { set with cicdec := (cic set.bitrate).toUInt8 }

/-- The inputs of the recomputation in a change; only a new bitrate brings a new `cicdec`. -/
def Radio.inputs (cic : CInt → UInt32) (s : Radio) (a : Change) : Inputs :=
  { s.settings.change a with
    cicdec := match a with
      | .bitrate value => (cic value).toUInt8
      | .frequency _ | .modulationType _ | .tmrecov _ => s.cicdec }

namespace Inputs

/-- FSK and GFSK: the modulations for which `fskmul` is not simply one. -/
def deviates (x : Inputs) : Bool := ¬ getModulationReg x.modulation < 8

/-- What `compute_FSKMUL` divides the frequency of the crystal by. -/
def divisor (x : Inputs) : UInt32 := ulong (4 * x.bitrate) * x.cicdec.toUInt32

/-- `comprovacion`, for a divisor other than zero. -/
def limit (x : Inputs) : Nat := (fxtalWord / x.divisor).toUInt16.toNat

/-- The branch of `compute_FSKMUL` that leaves `fskmul` as it is. -/
def keeps (x : Inputs) : Bool := x.deviates && decide (x.tmgcorrfrac.toNat < x.limit)

/-- The value `compute_FSKMUL` returns when it returns one. -/
def nextFskmul (x : Inputs) (fskmul : UInt32) : UInt32 := if x.keeps = true then fskmul else 1

/-- The quotients of `compute_FSKMUL` exist: the one in the branch for large timing recoveries only
for the value one. -/
def Divisible (x : Inputs) : Prop :=
  x.deviates = true → x.divisor ≠ 0 ∧ (x.limit ≤ x.tmgcorrfrac.toNat → x.tmgcorrfrac = 1)

/-- The `int` product that `configure_DATARATE` divides by. -/
def product (x : Inputs) (fskmul : UInt32) : CInt := cint x.cicdec * intOf fskmul * x.bitrate

/-- Neither `compute_FSKMUL` nor `configure_DATARATE` divides by zero. -/
def Computes (x : Inputs) (fskmul : UInt32) : Prop :=
  x.Divisible ∧ x.product (x.nextFskmul fskmul) ≠ 0

end Inputs

/-! ## Where a recomputation divides by zero -/

theorem divide_of_ne_zero (a : UInt32) {b : UInt32} (hb : b ≠ 0) : divide a b = some (a / b) :=
  if_neg hb

theorem uint8_cint (n : UInt8) : uint8 (cint n) = n := by
  apply UInt8.toBitVec_inj.1
  simp [uint8, cint]

theorem cint_eq_zero_iff {n : UInt8} : cint n = 0 ↔ n = 0 := by
  constructor
  · intro hzero
    rw [← uint8_cint n, hzero]
    rfl
  · rintro rfl
    rfl

theorem ulong_eq_zero_iff {x : CInt} : ulong x = 0 ↔ x = 0 := by
  constructor
  · intro hzero
    have hbits : x.signExtend 32 = 0 := UInt32.toBitVec_inj.2 hzero
    apply BitVec.eq_of_toInt_eq
    rw [← BitVec.toInt_signExtend_of_le (v := 32) (by decide), hbits]
    rfl
  · rintro rfl
    rfl

section

variable {x : Inputs} {fskmul : UInt32}

/-- The quotient in the branch for large timing recoveries: `cicdec / FXTAL` is zero, and so is the
inverse of every value above one. -/
theorem divide_inverse (b : UInt32) (c tmgcorrfrac : UInt8) :
    (do
      let inverse ← divide 1 tmgcorrfrac.toUInt32
      divide 1 (b * (c.toUInt32 / fxtalWord) + inverse)) =
        if tmgcorrfrac = 1 then some 1 else none := by
  have hzero : c.toUInt32 / fxtalWord = 0 := by
    apply UInt32.toNat_inj.1
    have hc : c.toNat < 256 := c.toNat_lt
    rw [UInt32.toNat_div, UInt8.toNat_toUInt32]
    exact Nat.div_eq_of_lt (Nat.lt_trans hc (by decide))
  rw [hzero, UInt32.mul_zero]
  by_cases hone : tmgcorrfrac = 1
  · subst hone
    rfl
  · rw [if_neg hone]
    by_cases hne : tmgcorrfrac.toUInt32 = 0
    · rw [hne]
      rfl
    · have hinverse : (1 : UInt32) / tmgcorrfrac.toUInt32 = 0 := by
        have hone' : tmgcorrfrac.toNat ≠ 1 := fun h => hone (UInt8.toNat_inj.1 h)
        have hpos : tmgcorrfrac.toNat ≠ 0 := fun h => hne (UInt32.toNat_inj.1 h)
        apply UInt32.toNat_inj.1
        rw [UInt32.toNat_div, UInt8.toNat_toUInt32]
        exact Nat.div_eq_of_lt (show 1 < tmgcorrfrac.toNat by omega)
      rw [divide_of_ne_zero 1 hne, hinverse]
      rfl

/-- `compute_FSKMUL` by cases on its inputs. -/
theorem computeFSKMUL_eq :
    computeFSKMUL x.bitrate x.tmgcorrfrac x.modulation x.cicdec.toUInt32 fskmul =
      if x.deviates = false then some 1
      else if x.divisor = 0 then none
      else if x.tmgcorrfrac.toNat < x.limit then some fskmul
      else if x.tmgcorrfrac = 1 then some 1
      else none := by
  by_cases hdev : getModulationReg x.modulation < 8
  · have hfalse : x.deviates = false := by simpa [Inputs.deviates] using hdev
    rw [computeFSKMUL, if_pos hdev, if_pos hfalse]
  · have htrue : x.deviates ≠ false := by simpa [Inputs.deviates] using hdev
    rw [computeFSKMUL, if_neg hdev, if_neg htrue]
    by_cases hc : x.divisor = 0
    · have hnone : divide fxtalWord (ulong (4 * x.bitrate) * x.cicdec.toUInt32) = none := if_pos hc
      rw [if_pos hc, hnone]
      rfl
    · have hle : (fxtalWord / x.divisor).toUInt16 ≤ x.tmgcorrfrac.toUInt16 ↔
          ¬ x.tmgcorrfrac.toNat < x.limit := by
        rw [UInt16.le_iff_toNat_le, UInt8.toNat_toUInt16, Inputs.limit, Nat.not_lt]
      have hdivide : divide fxtalWord (ulong (4 * x.bitrate) * x.cicdec.toUInt32) =
          some (fxtalWord / x.divisor) :=
        divide_of_ne_zero _ hc
      rw [if_neg hc, hdivide, Option.bind_eq_bind, Option.bind_some]
      by_cases hlt : x.tmgcorrfrac.toNat < x.limit
      · rw [if_pos hlt, if_neg (fun h => hle.1 h hlt)]
      · rw [if_neg hlt, if_pos (hle.2 hlt)]
        exact divide_inverse _ _ _

theorem computeFSKMUL_eq_some_iff {f : UInt32} :
    computeFSKMUL x.bitrate x.tmgcorrfrac x.modulation x.cicdec.toUInt32 fskmul = some f ↔
      x.Divisible ∧ x.nextFskmul fskmul = f := by
  rw [computeFSKMUL_eq]
  cases hdev : x.deviates with
  | false => simp [Inputs.Divisible, Inputs.nextFskmul, Inputs.keeps, hdev]
  | true =>
      by_cases hc : x.divisor = 0
      · simp [Inputs.Divisible, hdev, hc]
      · by_cases hlt : x.tmgcorrfrac.toNat < x.limit
        · simp [Inputs.Divisible, Inputs.nextFskmul, Inputs.keeps, hdev, hc, hlt]
        · by_cases hone : x.tmgcorrfrac = 1
          · have hkeeps : x.keeps = false := by simp [Inputs.keeps, hlt]
            rw [if_neg (by decide), if_neg hc, if_neg hlt, if_pos hone]
            simp [Inputs.Divisible, Inputs.nextFskmul, hkeeps, hc, hone]
          · simp [Inputs.Divisible, hdev, hc, hlt, hone, Nat.not_lt.1 hlt]

theorem exists_datarateWord_iff :
    (∃ d, datarateWord x.bitrate (cint x.cicdec) (intOf fskmul) = some d) ↔
      x.product fskmul ≠ 0 := by
  constructor
  · rintro ⟨d, hd⟩ hzero
    have hnone : datarateWord x.bitrate (cint x.cicdec) (intOf fskmul) = none := if_pos hzero
    rw [hnone] at hd
    cases hd
  · intro hne
    exact ⟨_, if_neg hne⟩

/-- All three functions return exactly when nothing that they divide by is zero. -/
theorem exists_words_iff {tmgcorrfrac : CInt} :
    (∃ f d g, computeFSKMUL x.bitrate x.tmgcorrfrac x.modulation x.cicdec.toUInt32 fskmul = some f ∧
      datarateWord x.bitrate (cint x.cicdec) (intOf f) = some d ∧
      tmggainWord f d tmgcorrfrac = some g) ↔ x.Computes fskmul ∧ tmgcorrfrac ≠ 0 := by
  constructor
  · rintro ⟨f, d, g, hf, hd, hg⟩
    rcases computeFSKMUL_eq_some_iff.1 hf with ⟨hdiv, rfl⟩
    refine ⟨⟨hdiv, exists_datarateWord_iff.1 ⟨d, hd⟩⟩, ?_⟩
    rintro rfl
    cases hg
  · rintro ⟨⟨hdiv, hproduct⟩, htmg⟩
    rcases exists_datarateWord_iff.2 hproduct with ⟨d, hd⟩
    have hne : ulong tmgcorrfrac ≠ 0 := fun h => htmg (ulong_eq_zero_iff.1 h)
    have hg : tmggainWord (x.nextFskmul fskmul) d tmgcorrfrac =
        some (x.nextFskmul fskmul * (d / ulong tmgcorrfrac) + 1 / 2) := by
      rw [tmggainWord, divide_of_ne_zero _ hne, Option.map_some]
    exact ⟨_, d, _, computeFSKMUL_eq_some_iff.2 ⟨hdiv, rfl⟩, hd, hg⟩

end

theorem recompute_iff {bitrate tmgcorrfrac : CInt} {modulation : ModulationType} {cicdec : UInt8}
    {s s' : Radio} :
    recompute bitrate tmgcorrfrac modulation cicdec s = some s' ↔
      ∃ f d g,
        computeFSKMUL bitrate (uint8 tmgcorrfrac) modulation cicdec.toUInt32 s.fskmul = some f ∧
        datarateWord bitrate (cint cicdec) (intOf f) = some d ∧
        tmggainWord f d tmgcorrfrac = some g ∧
        s' = { s with
          fskmul := f
          datarate := d
          registers := Registers.writeWord tmggainRegs g
            (Registers.writeWord datarateRegs d s.registers) } := by
  simp only [recompute, Option.bind_eq_bind, Option.bind_eq_some_iff, Option.some.injEq,
    eq_comm (b := s'), exists_and_left]

theorem exists_recompute_iff {bitrate tmgcorrfrac : CInt} {modulation : ModulationType}
    {cicdec : UInt8} {s : Radio} :
    (∃ s', recompute bitrate tmgcorrfrac modulation cicdec s = some s') ↔
      Inputs.Computes ⟨⟨bitrate, modulation, uint8 tmgcorrfrac⟩, cicdec⟩ s.fskmul ∧
        tmgcorrfrac ≠ 0 := by
  rw [← exists_words_iff]
  constructor
  · rintro ⟨s', h⟩
    rcases recompute_iff.1 h with ⟨f, d, g, hf, hd, hg, _⟩
    exact ⟨f, d, g, hf, hd, hg⟩
  · rintro ⟨f, d, g, hf, hd, hg⟩
    exact ⟨_, recompute_iff.2 ⟨f, d, g, hf, hd, hg, rfl⟩⟩

/-- A recomputation with a timing recovery that is stored in a byte. -/
theorem exists_recompute_cint_iff {x : Inputs} {s : Radio} :
    (∃ s', recompute x.bitrate (cint x.tmgcorrfrac) x.modulation x.cicdec s = some s') ↔
      x.Computes s.fskmul ∧ x.tmgcorrfrac ≠ 0 := by
  rw [exists_recompute_iff, uint8_cint, Ne, cint_eq_zero_iff]

/-! ## The changes that return -/

/-- Nothing that a change divides by is zero. -/
def Radio.Returns (cic : CInt → UInt32) (s : Radio) : Change → Prop
  | .frequency _ => True
  | .bitrate value => (s.inputs cic (.bitrate value)).Computes s.fskmul ∧ s.tmgcorrfrac ≠ 0
  | .modulationType value =>
      (s.inputs cic (.modulationType value)).Computes s.fskmul ∧ s.tmgcorrfrac ≠ 0
  | .tmrecov value => (s.inputs cic (.tmrecov value)).Computes s.fskmul ∧ value ≠ 0

theorem exists_bind_some_iff {r : Option Radio} (store : Radio → Radio) :
    (∃ s', (r.bind fun s => some (store s)) = some s') ↔ ∃ s', r = some s' := by
  cases r <;> simp

theorem exists_changeX_iff {cic : CInt → UInt32} {s : Radio} {a : Change} :
    (∃ s', changeX cic s a = some s') ↔ s.Returns cic a := by
  cases a with
  | frequency value =>
      rw [changeX]
      split_ifs
      · exact iff_of_true ⟨_, rfl⟩ trivial
      · exact iff_of_true ⟨_, rfl⟩ trivial
  | bitrate value =>
      exact (exists_bind_some_iff _).trans
        (exists_recompute_cint_iff (x := s.inputs cic (.bitrate value)))
  | modulationType value =>
      exact (exists_bind_some_iff _).trans
        (exists_recompute_cint_iff (x := s.inputs cic (.modulationType value)))
  | tmrecov value => exact (exists_bind_some_iff _).trans exists_recompute_iff

theorem exists_configure_iff {cic : CInt → UInt32} {s : Radio} :
    (∃ s', configure cic s = some s') ↔ (defaults.inputs cic).Computes s.fskmul := by
  refine (exists_recompute_cint_iff (x := defaults.inputs cic)).trans (and_iff_left ?_)
  exact (by decide : tmgcorrfracDefault ≠ 0)

/-- While `fskmul` has its initial value, `configure` divides by zero whatever `CICDEC` is: the
default timing recovery is not one, and where `fskmul` is kept the next function divides by it. -/
theorem configure_eq_none (cic : CInt → UInt32) {s : Radio} (hs : s.fskmul = 0) :
    configure cic s = none := by
  by_contra hne
  rcases exists_configure_iff.1 (Option.ne_none_iff_exists'.1 hne) with ⟨hdiv, hproduct⟩
  have hkeeps : (defaults.inputs cic).keeps = true := by
    have hlt : (defaults.inputs cic).tmgcorrfrac.toNat < (defaults.inputs cic).limit := by
      by_contra hle
      have hone : tmgcorrfracDefault = 1 := (hdiv rfl).2 (Nat.not_lt.1 hle)
      exact absurd hone (by decide)
    exact Bool.and_eq_true_iff.2 ⟨rfl, decide_eq_true hlt⟩
  rw [Inputs.nextFskmul, if_pos hkeeps, hs] at hproduct
  refine hproduct ?_
  simp [Inputs.product, intOf]

end Comms
end AbsPlatform
