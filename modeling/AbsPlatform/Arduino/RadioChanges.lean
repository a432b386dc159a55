import Mathlib.Data.List.Induction
import AbsPlatform.Lib.Runs
import AbsPlatform.Arduino.RadioTiming

/-!
# RadioChanges — sequences of changes of the radio

Each change of the bitrate, the modulation or the timing recovery computes `fskmul` and the words of
`DATARATE` and `TMGGAIN` again.  `wordsOf` is what the code makes of its inputs and of the old
`fskmul`, and two runs are compared through it: they end with the same values exactly when they
treat `fskmul` alike.
-/

namespace AbsPlatform
namespace Comms

open Lib
open Arduino (CInt cint uint8)

/-- The three values: `fskmul`, and the words in the registers. -/
def Radio.words (s : Radio) : UInt32 × Nat × Nat :=
  (s.fskmul, Registers.readWord datarateRegs s.registers,
    Registers.readWord tmggainRegs s.registers)

/-- What the code makes of its inputs, when `fskmul` is as given before. -/
def wordsOf (x : Inputs) (fskmul : UInt32) : Option (UInt32 × Nat × Nat) := do
  let fskmul' ← computeFSKMUL x.bitrate x.tmgcorrfrac x.modulation x.cicdec.toUInt32 fskmul
  let datarate ← datarateWord x.bitrate (cint x.cicdec) (intOf fskmul')
  let tmggain ← tmggainWord fskmul' datarate (cint x.tmgcorrfrac)
  some (fskmul', datarate.toNat % 2 ^ 16, tmggain.toNat % 2 ^ 16)

/-! ## Settings in range -/

/-- The settings of the defaults and of the changes that are in range. -/
structure Settings.Valid (set : Settings) : Prop where
  bitrate : set.bitrate = bitrateInt ∨ 1 ≤ set.bitrate.toInt ∧ set.bitrate.toInt ≤ 127
  tmgcorrfrac_ne_zero : set.tmgcorrfrac ≠ 0

theorem toNat_of_inRange {value : CInt} (h : 1 ≤ value.toInt ∧ value.toInt ≤ 127) :
    1 ≤ value.toNat ∧ value.toNat ≤ 127 := by
  rw [BitVec.toInt_eq_toNat_cond] at h
  have hlt := value.isLt
  split_ifs at h <;> omega

section

variable {x : Inputs} {fskmul : UInt32} {w : UInt32 × Nat × Nat}

/-- Where the values exist, `fskmul` is the old one or one. -/
theorem wordsOf_eq_some (h : wordsOf x fskmul = some w) :
    x.Divisible ∧ x.nextFskmul fskmul = w.1 ∧ x.product w.1 ≠ 0 := by
  simp only [wordsOf, Option.bind_eq_bind, Option.bind_eq_some_iff] at h
  rcases h with ⟨f, hf, d, hd, g, _, hw⟩
  cases hw
  rcases computeFSKMUL_eq_some_iff.1 hf with ⟨hdiv, hnext⟩
  exact ⟨hdiv, hnext, exists_datarateWord_iff.1 ⟨d, hd⟩⟩

theorem nextFskmul_idem : x.nextFskmul (x.nextFskmul fskmul) = x.nextFskmul fskmul := by
  unfold Inputs.nextFskmul
  split_ifs <;> rfl

/-- Computing the values once more from the `fskmul` they have changes nothing. -/
theorem wordsOf_again (h : wordsOf x fskmul = some w) : wordsOf x w.1 = some w := by
  rcases wordsOf_eq_some h with ⟨hdiv, hnext, _⟩
  have hcompute (f : UInt32) :
      computeFSKMUL x.bitrate x.tmgcorrfrac x.modulation x.cicdec.toUInt32 f =
        some (x.nextFskmul f) :=
    computeFSKMUL_eq_some_iff.2 ⟨hdiv, rfl⟩
  rw [← h, ← hnext, wordsOf, wordsOf, hcompute, hcompute, nextFskmul_idem]

/-- A product with `cicdec` is zero when that is. -/
theorem cicdec_ne_zero_of_product (h : x.product fskmul ≠ 0) : x.cicdec ≠ 0 := by
  intro hzero
  refine h ?_
  rw [Inputs.product, hzero]
  simp [cint]

/-- For `fskmul = 1` and settings in range the product does not wrap to zero. -/
theorem product_one_ne_zero (hset : x.Valid) (hc : x.cicdec ≠ 0) : x.product 1 ≠ 0 := by
  have hclt : x.cicdec.toNat < 256 := x.cicdec.toNat_lt
  have hcpos : x.cicdec.toNat ≠ 0 := fun h => hc (UInt8.toNat_inj.1 h)
  have hmul : (x.product 1).toNat = x.cicdec.toNat * x.bitrate.toNat % 65536 := by
    simp [Inputs.product, intOf, cint, BitVec.toNat_mul]
  intro hzero
  rw [hzero, show (0 : CInt).toNat = 0 from rfl] at hmul
  rcases hset.bitrate with hdefault | hrange
  · -- 34464 is 32 times an odd number, and the other factor has eight bits
    rw [hdefault, show bitrateInt.toNat = 34464 from rfl] at hmul
    omega
  · rcases toNat_of_inRange hrange with ⟨hpos, hle⟩
    have hprod : x.cicdec.toNat * x.bitrate.toNat ≤ 255 * 127 :=
      Nat.mul_le_mul (by omega) hle
    rw [Nat.mod_eq_of_lt (by omega)] at hmul
    exact Nat.mul_ne_zero hcpos (by omega) hmul.symm

end

/-! ## One change -/

def Change.recomputes : Change → Bool
  | .frequency _ => false
  | .bitrate _ | .modulationType _ | .tmrecov _ => true

/-- Bitrates and timing recoveries are between 1 and 127, a modulation is one of the six. -/
def Change.InRange : Change → Prop
  | .bitrate value | .tmrecov value => 1 ≤ value.toInt ∧ value.toInt ≤ 127
  | .modulationType value => value.known = true
  | .frequency _ => True

/-- The settings are valid, and `cicdec` is the one of the bitrate. -/
structure Radio.Tuned (cic : CInt → UInt32) (s : Radio) : Prop where
  valid : s.settings.Valid
  cicdec_eq : s.cicdec = (cic s.bitrate).toUInt8

/-- The recomputation leaves the settings alone and puts their words into the registers. -/
theorem recompute_spec {x : Inputs} {s s' : Radio}
    (h : recompute x.bitrate (cint x.tmgcorrfrac) x.modulation x.cicdec s = some s') :
    wordsOf x s.fskmul = some s'.words ∧ s'.bitrate = s.bitrate ∧
      s'.modulationValue = s.modulationValue ∧ s'.tmgcorrfrac = s.tmgcorrfrac ∧
      s'.cicdec = s.cicdec := by
  rcases recompute_iff.1 h with ⟨f, d, g, hf, hd, hg, rfl⟩
  rw [uint8_cint] at hf
  refine ⟨?_, rfl, rfl, rfl, rfl⟩
  -- the second word goes to other registers than the first
  have hdatarate (file : Registers Register) : Registers.readWord datarateRegs
      (Registers.writeWord tmggainRegs g (Registers.writeWord datarateRegs d file)) =
        d.toNat % 2 ^ 16 := by
    rw [Registers.readWord_writeWord_of_disjoint (by simp [datarateRegs, tmggainRegs]),
      Registers.readWord_writeWord (by decide) (by decide)]
    rfl
  have htmggain (file : Registers Register) : Registers.readWord tmggainRegs
      (Registers.writeWord tmggainRegs g file) = g.toNat % 2 ^ 16 := by
    rw [Registers.readWord_writeWord (by decide) (by decide)]
    rfl
  simp only [wordsOf, hf, hd, hg, Option.bind_eq_bind, Option.bind_some, Radio.words, hdatarate,
    htmggain]

/-- A change that recomputed ends with these settings and with their words. -/
structure Recomputed (cic : CInt → UInt32) (set : Settings) (fskmul : UInt32) (s' : Radio) :
    Prop where
  settings_eq : s'.settings = set
  cicdec_eq : s'.cicdec = (set.inputs cic).cicdec
  words_eq : wordsOf (set.inputs cic) fskmul = some s'.words

/-- A recomputation, after which one of the settings is stored. -/
theorem recomputed_of_recompute {cic : CInt → UInt32} {set : Settings} {s' : Radio} (u : Radio)
    (store : Radio → Radio)
    (hcall : ((recompute set.bitrate (cint set.tmgcorrfrac) set.modulation (set.inputs cic).cicdec
      u).bind fun v => some (store v)) = some s')
    (hwords : ∀ v, (store v).words = v.words)
    (hstore : ∀ v, v.bitrate = u.bitrate → v.modulationValue = u.modulationValue →
      v.tmgcorrfrac = u.tmgcorrfrac → v.cicdec = u.cicdec →
        (store v).settings = set ∧ (store v).cicdec = (set.inputs cic).cicdec) :
    Recomputed cic set u.fskmul s' := by
  rcases Option.bind_eq_some_iff.1 hcall with ⟨v, hv, hs'⟩
  cases hs'
  rcases recompute_spec (x := set.inputs cic) hv with ⟨hw, hb, hm, ht, hc⟩
  rcases hstore v hb hm ht hc with ⟨hset, hcicdec⟩
  exact ⟨hset, hcicdec, by rw [hwords]; exact hw⟩

section

variable {cic : CInt → UInt32} {s s' : Radio} {a : Change}

/-- In a state where `cicdec` belongs to the bitrate, a change works with the settings after it. -/
theorem Radio.Tuned.inputs_eq (hs : s.Tuned cic) :
    s.inputs cic a = (s.settings.change a).inputs cic := by
  cases a with
  | frequency value => exact congrArg (Inputs.mk _) hs.cicdec_eq
  | bitrate value => rfl
  | modulationType value => exact congrArg (Inputs.mk _) hs.cicdec_eq
  | tmrecov value => exact congrArg (Inputs.mk _) hs.cicdec_eq

/-- In range, the `uint8_t` that is stored is the `int` that is used. -/
theorem cint_uint8_of_inRange {value : CInt} (h : 1 ≤ value.toInt ∧ value.toInt ≤ 127) :
    cint (uint8 value) = value := by
  have hle := (toNat_of_inRange h).2
  apply BitVec.eq_of_toNat_eq
  simp only [cint, uint8, BitVec.toNat_setWidth]
  omega

/-- Every change but that of the frequency recomputes the words for the settings after it. -/
theorem recomputed_changeX (hs : s.Tuned cic) (ha : a.InRange) (hrec : a.recomputes = true)
    (h : changeX cic s a = some s') : Recomputed cic (s.settings.change a) s.fskmul s' := by
  cases a with
  | frequency value => cases hrec
  | bitrate value =>
      let file := configureTXRATE value.toInt (configureFSKDEV value.toInt s.registers)
      refine recomputed_of_recompute
        { s with
          cicdec := (cic value).toUInt8
          registers := Registers.writeWord cicdecRegs (cic value) file }
        (fun s' => { s' with bitrate := value }) h (fun _ => rfl) ?_
      intro s' hb hm ht hc
      exact ⟨by simp [Radio.settings, Settings.change, hm, ht], hc⟩
  | modulationType value =>
      have hcicdec : s.cicdec = ((s.settings.change (.modulationType value)).inputs cic).cicdec :=
        hs.cicdec_eq
      refine recomputed_of_recompute
        { s with registers := Function.update s.registers modulationReg (getModulationReg value) }
        (fun s' => { s' with modulationValue := some value }) ?_ (fun _ => rfl) ?_
      · rw [← hcicdec]
        exact h
      · intro s' hb hm ht hc
        exact ⟨by simp [Radio.settings, Settings.change, hb, ht], hc.trans hcicdec⟩
  | tmrecov value =>
      have hcicdec : s.cicdec = ((s.settings.change (.tmrecov value)).inputs cic).cicdec :=
        hs.cicdec_eq
      have hvalue : cint (s.settings.change (.tmrecov value)).tmgcorrfrac = value :=
        cint_uint8_of_inRange ha
      refine recomputed_of_recompute s (fun s' => { s' with tmgcorrfrac := uint8 value }) ?_
        (fun _ => rfl) ?_
      · rw [← hcicdec, hvalue]
        exact h
      · intro s' hb hm ht hc
        exact ⟨by simp [Radio.settings, Settings.change, hb, hm], hc.trans hcicdec⟩

/-- A change in range returns when its quotients exist. -/
theorem exists_changeX_of_computes (hs : s.Tuned cic) (ha : a.InRange)
    (hx : ((s.settings.change a).inputs cic).Computes s.fskmul) :
    ∃ s', changeX cic s a = some s' := by
  rw [← hs.inputs_eq] at hx
  have htmg : s.tmgcorrfrac ≠ 0 := hs.valid.tmgcorrfrac_ne_zero
  refine exists_changeX_iff.2 ?_
  cases a with
  | frequency value => trivial
  | bitrate value => exact ⟨hx, htmg⟩
  | modulationType value => exact ⟨hx, htmg⟩
  | tmrecov value =>
      refine ⟨hx, ?_⟩
      rintro rfl
      exact absurd ha.1 (by decide)

end

theorem Settings.Valid.change {set : Settings} (hset : set.Valid) {a : Change} (ha : a.InRange) :
    (set.change a).Valid := by
  rcases hset with ⟨hbitrate, htmg⟩
  cases a with
  | frequency value => exact ⟨hbitrate, htmg⟩
  | bitrate value => exact ⟨.inr ha, htmg⟩
  | modulationType value => exact ⟨hbitrate, htmg⟩
  | tmrecov value =>
      refine ⟨hbitrate, fun hzero => ?_⟩
      have hvalue := cint_uint8_of_inRange ha
      rw [show uint8 value = 0 from hzero] at hvalue
      rw [← hvalue] at ha
      exact absurd ha.1 (by decide)

/-- A change of the frequency touches none of this. -/
theorem changeX_frequency (cic : CInt → UInt32) (s : Radio) (value : CInt) :
    ∃ s', changeX cic s (.frequency value) = some s' ∧ s'.settings = s.settings ∧
      s'.cicdec = s.cicdec ∧ s'.words = s.words := by
  rw [changeX]
  split_ifs
  · refine ⟨_, rfl, rfl, rfl, ?_⟩
    have hother {regs : List Register} (hfreq : ∀ reg ∈ regs, reg ∉ freqRegs)
        (hloop : pllloopReg ∉ regs) (file : Registers Register) (x : Int) (band : CInt) :
        Registers.readWord regs (configurePLLLOOP band (configureFREQ x file)) =
          Registers.readWord regs file := by
      refine Registers.readWord_congr ?_
      intro reg hreg
      have hne : reg ≠ pllloopReg := fun h => hloop (h ▸ hreg)
      rw [configurePLLLOOP, Function.update_of_ne hne, configureFREQ,
        Registers.writeWord_other (hfreq reg hreg)]
    simp only [Radio.words]
    rw [hother (by simp [datarateRegs, freqRegs]) (by decide),
      hother (by simp [tmggainRegs, freqRegs]) (by decide)]
  · exact ⟨s, rfl, rfl, rfl, rfl⟩

/-! ## Sequences of changes -/

def Settings.after (set : Settings) (changes : List Change) : Settings :=
  changes.foldl Settings.change set

theorem Settings.after_snoc (set : Settings) (changes : List Change) (a : Change) :
    set.after (changes ++ [a]) = (set.after changes).change a := by
  simp [Settings.after]

theorem Settings.Valid.after {set : Settings} (hset : set.Valid) {changes : List Change}
    (hrange : ∀ a ∈ changes, a.InRange) : (set.after changes).Valid := by
  induction changes generalizing set with
  | nil => exact hset
  | cons a changes ih =>
      rw [List.forall_mem_cons] at hrange
      exact ih (hset.change hrange.1) hrange.2

/-- At every recomputation of the sequence `fskmul` is left as it is. -/
def KeepsThroughout (cic : CInt → UInt32) (set : Settings) (changes : List Change) : Prop :=
  ∀ pre a post, changes = pre ++ a :: post → a.recomputes = true →
    ((set.after (pre ++ [a])).inputs cic).keeps = true

/-- A recomputation for these settings divides by no zero: the quotients of `compute_FSKMUL` exist,
and while `fskmul` is `kept` the product with it is not zero. -/
structure Settings.Sound (cic : CInt → UInt32) (set : Settings) (kept : Prop) (fskmul : UInt32) :
    Prop where
  cicdec_ne_zero : (set.inputs cic).cicdec ≠ 0
  divisible : (set.inputs cic).Divisible
  product_ne_zero : kept → (set.inputs cic).product fskmul ≠ 0

/-- No recomputation of the sequence divides by zero; `fskmul` is the one from before it. -/
def Sound (cic : CInt → UInt32) (set : Settings) (fskmul : UInt32) (changes : List Change) : Prop :=
  ∀ pre a post, changes = pre ++ a :: post → a.recomputes = true →
    (set.after (pre ++ [a])).Sound cic (KeepsThroughout cic set (pre ++ [a])) fskmul

theorem keepsThroughout_snoc_iff {cic : CInt → UInt32} {set : Settings} {changes : List Change}
    {a : Change} :
    KeepsThroughout cic set (changes ++ [a]) ↔ KeepsThroughout cic set changes ∧
      (a.recomputes = true → ((set.after (changes ++ [a])).inputs cic).keeps = true) :=
  forall_split_snoc (P := fun pre (b : Change) => b.recomputes = true →
    ((set.after (pre ++ [b])).inputs cic).keeps = true)

theorem sound_snoc_iff {cic : CInt → UInt32} {set : Settings} {fskmul : UInt32}
    {changes : List Change} {a : Change} :
    Sound cic set fskmul (changes ++ [a]) ↔ Sound cic set fskmul changes ∧
      (a.recomputes = true →
        (set.after (changes ++ [a])).Sound cic (KeepsThroughout cic set (changes ++ [a])) fskmul) :=
  forall_split_snoc (P := fun pre (b : Change) => b.recomputes = true →
    (set.after (pre ++ [b])).Sound cic (KeepsThroughout cic set (pre ++ [b])) fskmul)

/-- Where a sequence of changes from `s` leads. -/
structure Follows (cic : CInt → UInt32) (s : Radio) (changes : List Change) (s' : Radio) :
    Prop where
  settings_eq : s'.settings = s.settings.after changes
  cicdec_eq : s'.cicdec = (s'.settings.inputs cic).cicdec
  kept : KeepsThroughout cic s.settings changes → s'.fskmul = s.fskmul
  set_one : ¬ KeepsThroughout cic s.settings changes → s'.fskmul = 1
  words_idle : changes.any Change.recomputes = false → s'.words = s.words
  words_eq : changes.any Change.recomputes = true →
    wordsOf (s'.settings.inputs cic) s'.fskmul = some s'.words

section Sequence

variable {cic : CInt → UInt32} {s s' u : Radio} {changes : List Change} {a : Change}

theorem Change.exists_of_not_recomputes (h : a.recomputes = false) :
    ∃ value, a = .frequency value := by
  cases a with
  | frequency value => exact ⟨value, rfl⟩
  | bitrate value => cases h
  | modulationType value => cases h
  | tmrecov value => cases h

theorem inRange_snoc (hrange : ∀ b ∈ changes ++ [a], b.InRange) :
    (∀ b ∈ changes, b.InRange) ∧ a.InRange := by
  simpa [or_imp, forall_and] using hrange

theorem Follows.tuned (h : Follows cic s changes u) (hs : s.Tuned cic)
    (hrange : ∀ b ∈ changes, b.InRange) : u.Tuned cic := by
  refine ⟨?_, h.cicdec_eq⟩
  rw [h.settings_eq]
  exact hs.valid.after hrange

theorem Follows.change_eq (h : Follows cic s changes u) (a : Change) :
    u.settings.change a = s.settings.after (changes ++ [a]) := by
  rw [Settings.after_snoc, h.settings_eq]

theorem Follows.init (hs : s.Tuned cic) : Follows cic s [] s := by
  have hkeeps : KeepsThroughout cic s.settings [] := by
    intro pre a post hsplit
    simp at hsplit
  exact ⟨rfl, hs.cicdec_eq, fun _ => rfl, fun h => absurd hkeeps h, fun _ => rfl,
    fun h => by cases h⟩

theorem Follows.frequency (h : Follows cic s changes u) {value : CInt}
    (hstep : changeX cic u (.frequency value) = some s') :
    Follows cic s (changes ++ [.frequency value]) s' := by
  rcases changeX_frequency cic u value with ⟨v, hv, hset, hcicdec, hwords⟩
  have hvs : v = s' := Option.some.inj (hv.symm.trans hstep)
  subst hvs
  have hfskmul : v.fskmul = u.fskmul := congrArg Prod.fst hwords
  have hkeeps : KeepsThroughout cic s.settings (changes ++ [.frequency value]) ↔
      KeepsThroughout cic s.settings changes := by
    simp [keepsThroughout_snoc_iff, Change.recomputes]
  refine ⟨hset.trans (h.change_eq (.frequency value)), ?_, ?_, ?_, ?_, ?_⟩
  · rw [hcicdec, hset, h.cicdec_eq]
  · intro hk
    rw [hfskmul, h.kept (hkeeps.1 hk)]
  · intro hk
    rw [hfskmul, h.set_one (fun hk' => hk (hkeeps.2 hk'))]
  · intro hidle
    rw [hwords, h.words_idle (by simpa [Change.recomputes] using hidle)]
  · intro hrec
    rw [hwords, hset, hfskmul, h.words_eq (by simpa [Change.recomputes] using hrec)]

theorem Follows.recomputation (h : Follows cic s changes u) (hu : u.Tuned cic) (ha : a.InRange)
    (hrec : a.recomputes = true) (hstep : changeX cic u a = some s') :
    Follows cic s (changes ++ [a]) s' := by
  rcases recomputed_changeX hu ha hrec hstep with ⟨hset, hcicdec, hwords⟩
  rw [← hset] at hwords hcicdec
  have hnext : (s'.settings.inputs cic).nextFskmul u.fskmul = s'.fskmul :=
    (wordsOf_eq_some hwords).2.1
  have hkeeps : KeepsThroughout cic s.settings (changes ++ [a]) ↔
      KeepsThroughout cic s.settings changes ∧ (s'.settings.inputs cic).keeps = true := by
    rw [keepsThroughout_snoc_iff, ← h.change_eq a, ← hset]
    simp [hrec]
  refine ⟨hset.trans (h.change_eq a), hcicdec, ?_, ?_, ?_, ?_⟩
  · intro hk
    rw [← hnext, Inputs.nextFskmul, if_pos (hkeeps.1 hk).2, h.kept (hkeeps.1 hk).1]
  · intro hk
    rw [← hnext, Inputs.nextFskmul]
    split_ifs with hkeeps'
    · exact h.set_one (fun hk' => hk (hkeeps.2 ⟨hk', hkeeps'⟩))
    · rfl
  · intro hidle
    simp [hrec] at hidle
  · intro _
    exact wordsOf_again hwords

/-- One more change. -/
theorem Follows.step (h : Follows cic s changes u) (hu : u.Tuned cic) (ha : a.InRange)
    (hstep : changeX cic u a = some s') : Follows cic s (changes ++ [a]) s' := by
  cases hrec : a.recomputes with
  | false =>
      rcases Change.exists_of_not_recomputes hrec with ⟨value, rfl⟩
      exact h.frequency hstep
  | true => exact h.recomputation hu ha hrec hstep

/-- The settings and `fskmul` at the end of a run are those that the changes tell, and the words are
the ones for them. -/
theorem follows_run (hs : s.Tuned cic) (hrange : ∀ a ∈ changes, a.InRange)
    (hrun : changes.foldlM (changeX cic) s = some s') : Follows cic s changes s' := by
  induction changes using List.reverseRecOn generalizing s' with
  | nil =>
      cases hrun
      exact Follows.init hs
  | append_singleton changes a ih =>
      rcases inRange_snoc hrange with ⟨hbefore, ha⟩
      rcases run_snoc_iff.1 hrun with ⟨u, hu, hstep⟩
      have hfollows := ih hbefore hu
      exact hfollows.step (hfollows.tuned hs hbefore) ha hstep

/-- The changes that can be made after others: the settings after them are such that nothing is
divided by zero. -/
theorem Follows.exists_changeX_iff (h : Follows cic s changes u) (hs : s.Tuned cic)
    (hrange : ∀ b ∈ changes ++ [a], b.InRange) :
    (∃ s', changeX cic u a = some s') ↔
      (a.recomputes = true → (s.settings.after (changes ++ [a])).Sound cic
        (KeepsThroughout cic s.settings (changes ++ [a])) s.fskmul) := by
  rcases inRange_snoc hrange with ⟨hbefore, ha⟩
  have hu := h.tuned hs hbefore
  constructor
  · rintro ⟨s', hstep⟩ hrec
    -- the words at the end exist, so nothing that the change divided by was zero
    have hfollows := h.step hu ha hstep
    have hwords := hfollows.words_eq (by simp [hrec])
    rw [hfollows.settings_eq] at hwords
    rcases wordsOf_eq_some hwords with ⟨hdiv, _, hproduct⟩
    refine ⟨cicdec_ne_zero_of_product hproduct, hdiv, ?_⟩
    intro hkeeps
    rw [← hfollows.kept hkeeps]
    exact hproduct
  · intro hlast
    cases hrec : a.recomputes with
    | false =>
        rcases Change.exists_of_not_recomputes hrec with ⟨value, rfl⟩
        rcases changeX_frequency cic u value with ⟨s', hs', _⟩
        exact ⟨s', hs'⟩
    | true =>
        have hsound := hlast hrec
        have hone : ((s.settings.after (changes ++ [a])).inputs cic).product 1 ≠ 0 :=
          product_one_ne_zero (hs.valid.after hrange) hsound.cicdec_ne_zero
        refine exists_changeX_of_computes hu ha ?_
        rw [h.change_eq a]
        refine ⟨hsound.divisible, ?_⟩
        rw [Inputs.nextFskmul]
        split_ifs with hk
        · by_cases hkeeps : KeepsThroughout cic s.settings changes
          · rw [h.kept hkeeps]
            exact hsound.product_ne_zero (keepsThroughout_snoc_iff.2 ⟨hkeeps, fun _ => hk⟩)
          · rw [h.set_one hkeeps]
            exact hone
        · exact hone

/-- A sequence of changes goes through without a division by zero exactly when it is sound. -/
theorem exists_run_iff (hs : s.Tuned cic) (hrange : ∀ a ∈ changes, a.InRange) :
    (∃ s', changes.foldlM (changeX cic) s = some s') ↔
      Sound cic s.settings s.fskmul changes := by
  induction changes using List.reverseRecOn with
  | nil =>
      refine iff_of_true ⟨s, rfl⟩ ?_
      intro pre a post hsplit
      simp at hsplit
  | append_singleton changes a ih =>
      have hbefore := (inRange_snoc hrange).1
      rw [sound_snoc_iff, ← ih hbefore]
      constructor
      · rintro ⟨s', hrun⟩
        rcases run_snoc_iff.1 hrun with ⟨u, hu, hstep⟩
        have hfollows := follows_run hs hbefore hu
        exact ⟨⟨u, hu⟩, (hfollows.exists_changeX_iff hs hrange).1 ⟨s', hstep⟩⟩
      · rintro ⟨⟨u, hu⟩, hlast⟩
        have hfollows := follows_run hs hbefore hu
        rcases (hfollows.exists_changeX_iff hs hrange).2 hlast with ⟨s', hs'⟩
        exact ⟨s', run_snoc_iff.2 ⟨u, hu, hs'⟩⟩

end Sequence

/-! ## Two sequences -/

/-- The registers hold what the code makes of the settings and of `fskmul`. -/
def Radio.Consistent (cic : CInt → UInt32) (s : Radio) : Prop :=
  wordsOf (s.settings.inputs cic) s.fskmul = some s.words

theorem keepsThroughout_of_idle {cic : CInt → UInt32} {set : Settings} {changes : List Change}
    (h : changes.any Change.recomputes = false) : KeepsThroughout cic set changes := by
  intro pre a post hsplit hrec
  rw [hsplit] at h
  simp [hrec] at h

theorem Settings.after_of_idle {set : Settings} {changes : List Change}
    (h : changes.any Change.recomputes = false) : set.after changes = set := by
  induction changes with
  | nil => rfl
  | cons a changes ih =>
      rw [List.any_cons, Bool.or_eq_false_iff] at h
      cases a with
      | frequency value => exact ih h.2
      | bitrate value => cases h.1
      | modulationType value => cases h.1
      | tmrecov value => cases h.1

section Pair

variable {cic : CInt → UInt32} {s s₁ s₂ : Radio} {h₁ h₂ : List Change}

/-- Two sequences leave the same `fskmul` when both set it, when neither does, or when it was one
before. -/
theorem Follows.fskmul_eq_iff (hf₁ : Follows cic s h₁ s₁) (hf₂ : Follows cic s h₂ s₂) :
    s₁.fskmul = s₂.fskmul ↔
      s.fskmul = 1 ∨ (KeepsThroughout cic s.settings h₁ ↔ KeepsThroughout cic s.settings h₂) := by
  by_cases hk₁ : KeepsThroughout cic s.settings h₁
  · by_cases hk₂ : KeepsThroughout cic s.settings h₂
    · simp [hf₁.kept hk₁, hf₂.kept hk₂, hk₁, hk₂]
    · simp [hf₁.kept hk₁, hf₂.set_one hk₂, hk₁, hk₂]
  · by_cases hk₂ : KeepsThroughout cic s.settings h₂
    · simp [hf₁.set_one hk₁, hf₂.kept hk₂, hk₁, hk₂, eq_comm]
    · simp [hf₁.set_one hk₁, hf₂.set_one hk₂, hk₁, hk₂]

/-- The words after a sequence that recomputes and after one that does not, with the same
settings. -/
theorem Follows.words_eq_idle_iff (hf₁ : Follows cic s h₁ s₁) (hf₂ : Follows cic s h₂ s₂)
    (hsame : s.settings.after h₁ = s.settings.after h₂)
    (hrec : h₁.any Change.recomputes = true) (hidle : h₂.any Change.recomputes = false) :
    s₁.words = s₂.words ↔ s₁.fskmul = s₂.fskmul ∧ s.Consistent cic := by
  have hset : s₁.settings = s.settings := by
    rw [hf₁.settings_eq, hsame, Settings.after_of_idle hidle]
  have hwords := hf₁.words_eq hrec
  have hfskmul : s₂.fskmul = s.fskmul := hf₂.kept (keepsThroughout_of_idle hidle)
  rw [hf₂.words_idle hidle, hfskmul, Radio.Consistent, ← hset]
  constructor
  · intro h
    have hf : s₁.fskmul = s.fskmul := congrArg Prod.fst h
    rw [← h, ← hf]
    exact ⟨rfl, hwords⟩
  · rintro ⟨hf, hconsistent⟩
    rw [← hf] at hconsistent
    exact Option.some.inj (hwords.symm.trans hconsistent)

theorem Follows.words_eq_iff (hf₁ : Follows cic s h₁ s₁) (hf₂ : Follows cic s h₂ s₂)
    (hsame : s.settings.after h₁ = s.settings.after h₂) :
    s₁.words = s₂.words ↔ s₁.fskmul = s₂.fskmul ∧
      (s.Consistent cic ∨ h₁.any Change.recomputes = h₂.any Change.recomputes) := by
  cases hr₁ : h₁.any Change.recomputes with
  | false =>
      cases hr₂ : h₂.any Change.recomputes with
      | false =>
          have hw : s₁.words = s₂.words := by rw [hf₁.words_idle hr₁, hf₂.words_idle hr₂]
          exact iff_of_true hw ⟨congrArg Prod.fst hw, Or.inr rfl⟩
      | true =>
          rw [eq_comm, hf₂.words_eq_idle_iff hf₁ hsame.symm hr₂ hr₁, eq_comm]
          simp
  | true =>
      cases hr₂ : h₂.any Change.recomputes with
      | false =>
          rw [hf₁.words_eq_idle_iff hf₂ hsame hr₁ hr₂]
          simp
      | true =>
          have hw₁ := hf₁.words_eq hr₁
          have hw₂ := hf₂.words_eq hr₂
          have hset : s₁.settings = s₂.settings := by
            rw [hf₁.settings_eq, hf₂.settings_eq, hsame]
          constructor
          · intro h
            exact ⟨congrArg Prod.fst h, Or.inr rfl⟩
          · rintro ⟨hf, _⟩
            rw [← hset, ← hf, hw₁] at hw₂
            exact Option.some.inj hw₂

end Pair

/-- Two sequences of changes in range that end with the same settings: neither divides by zero and
the values agree exactly when both are sound, when both or neither of them set `fskmul` (unless it
was one before), and, where only one of them computes anything, when the values were consistent
before. -/
theorem changes_agree_iff (cic : CInt → UInt32) (s : Radio) (hs : s.Tuned cic)
    (h₁ h₂ : List Change) (hrange₁ : ∀ a ∈ h₁, a.InRange) (hrange₂ : ∀ a ∈ h₂, a.InRange)
    (hsame : s.settings.after h₁ = s.settings.after h₂) :
    (∃ s₁ s₂, h₁.foldlM (changeX cic) s = some s₁ ∧ h₂.foldlM (changeX cic) s = some s₂ ∧
        s₁.words = s₂.words) ↔
      Sound cic s.settings s.fskmul h₁ ∧ Sound cic s.settings s.fskmul h₂ ∧
        (s.fskmul = 1 ∨
          (KeepsThroughout cic s.settings h₁ ↔ KeepsThroughout cic s.settings h₂)) ∧
        (s.Consistent cic ∨ h₁.any Change.recomputes = h₂.any Change.recomputes) := by
  constructor
  · rintro ⟨s₁, s₂, hrun₁, hrun₂, hwords⟩
    have hf₁ := follows_run hs hrange₁ hrun₁
    have hf₂ := follows_run hs hrange₂ hrun₂
    rcases (hf₁.words_eq_iff hf₂ hsame).1 hwords with ⟨hfskmul, hconsistent⟩
    exact ⟨(exists_run_iff hs hrange₁).1 ⟨s₁, hrun₁⟩, (exists_run_iff hs hrange₂).1 ⟨s₂, hrun₂⟩,
      (hf₁.fskmul_eq_iff hf₂).1 hfskmul, hconsistent⟩
  · rintro ⟨hsound₁, hsound₂, hkeeps, hconsistent⟩
    rcases (exists_run_iff hs hrange₁).2 hsound₁ with ⟨s₁, hrun₁⟩
    rcases (exists_run_iff hs hrange₂).2 hsound₂ with ⟨s₂, hrun₂⟩
    have hf₁ := follows_run hs hrange₁ hrun₁
    have hf₂ := follows_run hs hrange₂ hrun₂
    exact ⟨s₁, s₂, hrun₁, hrun₂,
      (hf₁.words_eq_iff hf₂ hsame).2 ⟨(hf₁.fskmul_eq_iff hf₂).2 hkeeps, hconsistent⟩⟩

/-! ## After `configure` -/

/-- The globals after the first `configure`, with what its undefined quotients left in `fskmul`,
`datarate` and the registers. -/
def afterConfigure (cic : CInt → UInt32) (fskmul datarate : UInt32) (file : Registers Register) :
    Radio :=
  { Radio.start file with
    cicdec := (cic bitrateInt).toUInt8
    fskmul := fskmul
    datarate := datarate }

theorem tuned_afterConfigure (cic : CInt → UInt32) (fskmul datarate : UInt32)
    (file : Registers Register) : (afterConfigure cic fskmul datarate file).Tuned cic :=
  ⟨⟨.inl rfl, (by decide : tmgcorrfracDefault ≠ 0)⟩, rfl⟩

/-- A radio whose quotients left this number. -/
def leftover (fskmul : UInt32) : Radio := afterConfigure cicdecWord fskmul 0 fun _ => 0

theorem agree_of_words {r₁ r₂ : Option Radio} {w : UInt32 × Nat × Nat}
    (h₁ : r₁.map Radio.words = some w) (h₂ : r₂.map Radio.words = some w) :
    ∃ s₁ s₂, r₁ = some s₁ ∧ r₂ = some s₂ ∧ s₁.words = s₂.words := by
  rcases Option.map_eq_some_iff.1 h₁ with ⟨s₁, hs₁, hw₁⟩
  rcases Option.map_eq_some_iff.1 h₂ with ⟨s₂, hs₂, hw₂⟩
  exact ⟨s₁, s₂, hs₁, hs₂, hw₁.trans hw₂.symm⟩

/-- A bitrate of three and PSK, directly and by way of a bitrate of five. -/
theorem changes_agree_iff_psk :
    Sound cicdecWord (leftover 3).settings 3 [.bitrate 3, .modulationType .psk] ∧
      Sound cicdecWord (leftover 3).settings 3 [.bitrate 5, .modulationType .psk, .bitrate 3] := by
  have hiff := changes_agree_iff cicdecWord (leftover 3) (tuned_afterConfigure _ _ _ _)
    [.bitrate 3, .modulationType .psk] [.bitrate 5, .modulationType .psk, .bitrate 3]
    (by simp [Change.InRange, ModulationType.known])
    (by simp [Change.InRange, ModulationType.known]) (by decide)
  have hagree := hiff.1 (agree_of_words (w := (1, 28672, 33664)) (by decide +kernel)
    (by decide +kernel))
  exact ⟨hagree.1, hagree.2.1⟩

/-- `configure` divides by zero.  If its quotient left zero, a change of the bitrate does so again.
If it left three, a bitrate of three keeps that, and one with another modulation chosen and the
default one taken back leaves one: the settings are the same, and the values are not. -/
theorem changes_disagree :
    (configure cicdecWord (.start fun _ => 0)).isNone = true ∧
      ([.bitrate 3].foldlM (changeX cicdecWord) (leftover 0)).isNone = true ∧
      (leftover 3).settings.after [.bitrate 3] =
        (leftover 3).settings.after [.bitrate 3, .modulationType .psk, .modulationType .fsk] ∧
      ([.bitrate 3].foldlM (changeX cicdecWord) (leftover 3)).map Radio.words =
        some (3, 30720, 33600) ∧
      ([.bitrate 3, .modulationType .psk, .modulationType .fsk].foldlM (changeX cicdecWord)
        (leftover 3)).map Radio.words = some (1, 28672, 33664) := by
  have hconfigure : configure cicdecWord (.start fun _ => 0) = none := configure_eq_none _ rfl
  rw [hconfigure]
  decide +kernel

end Comms
end AbsPlatform
