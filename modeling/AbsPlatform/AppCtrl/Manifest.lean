import Mathlib.Logic.Relation
import Mathlib.Tactic.Ring
import AbsPlatform.Include
import AbsPlatform.Lib.CheckedReads

/-!
# Manifest — decoding a compiled manifest

`LEW`, `compXmlString` and `decompressXML` of `app_ctrl_assets.c`.  The offsets are `int`s, taken
from the file and added up with wraparound.  A read of `xml` is a checked read: the indexes are kept
up to the first one outside of the buffer.

`WellFormed` is a description of the files with which the decoder stays inside, in terms of the
words and strings of the file: a string is looked up before its index and its offset are checked,
and the check of its characters lets one byte behind the buffer through.
-/

namespace AbsPlatform
namespace AppCtrl

open Lib

/-- The extracted file.  Its length is an `int`. -/
structure Manifest where
  bytes : List UInt8
  short : bytes.length < 2147483648

namespace Manifest

variable (xml : Manifest)

def cb : Int := xml.bytes.length

def Inside (i : Int) : Prop := 0 ≤ i ∧ i < xml.cb

def byte? (i : Int) : Option UInt8 := if 0 ≤ i then xml.bytes[i.toNat]? else none

theorem isSome_byte?_iff (i : Int) : (xml.byte? i).isSome = true ↔ xml.Inside i := by
  unfold byte? Inside cb
  split_ifs with hi
  · simp only [isSome_getElem?, hi, true_and]
    omega
  · simp [hi]

abbrev Reading (α : Type) := Checked xml.Inside α

/-- `xml[i]`. -/
def charAt (i : Int) : xml.Reading UInt8 := Checked.read xml.byte? xml.isSome_byte?_iff i

/-! ## app_ctrl_assets.c -/

def lew (off : Int) : xml.Reading Int :=
  if xml.cb > toCInt (off + 3) then do
    let b3 ← xml.charAt (toCInt (off + 3))
    let b2 ← xml.charAt (toCInt (off + 2))
    let b1 ← xml.charAt (toCInt (off + 1))
    let b0 ← xml.charAt off
    pure (toCInt (leValue [b0, b1, b2, b3]))
  else
    pure 0

/-- The loop of `compXmlString`, from character `i` on.  The characters stand two bytes apart. -/
def stringChars (strOff : Int) : (left i : Nat) → xml.Reading (List UInt8)
  | 0, _ => pure []
  | left + 1, i =>
      if xml.cb < toCInt (strOff + 2 + i * 2) then
        pure []
      else do
        let c ← xml.charAt (toCInt (strOff + 2 + i * 2))
        let chars ← stringChars strOff left (i + 1)
        pure (c :: chars)

/-- `compXmlString` from the length of the string on. -/
def stringAt (strOff strInd : Int) : xml.Reading CString := do
  let high ← xml.charAt (toCInt (strOff + 1))
  let low ← xml.charAt strOff
  if strInd < 0 ∨ xml.cb < toCInt (strOff + 2) then
    pure (CString.ofBuffer [])
  else do
    let chars ← xml.stringChars strOff (high.toNat * 256 + low.toNat) 0
    pure (CString.ofBuffer chars)

def compXmlString (sitOff stOff strInd : Int) : xml.Reading CString := do
  let entry ← xml.lew (toCInt (sitOff + strInd * 4))
  xml.stringAt (toCInt (stOff + entry)) strInd

def startTag : Int := 0x00100102

def endTag : Int := 0x00100103

def sitOff : Int := 0x24

/-- `" name=\\"value\\""`. -/
def attributeText (name value : CString) : List UInt8 :=
  [32] ++ name.bytes ++ [61, 34] ++ value.bytes ++ [34]

/-- `"0x00000000"`. -/
def noValue : CString := CString.ofBuffer [48, 120, 48, 48, 48, 48, 48, 48, 48, 48]

/-- `attrValue`: the string, or the text for an attribute without one. -/
def attributeValue (stOff attrValueSi : Int) : xml.Reading CString :=
  if attrValueSi ≠ -1 then xml.compXmlString sitOff stOff attrValueSi else pure noValue

/-- One turn of the loop over the attributes of a tag: the text that is appended. -/
def readAttribute (stOff off : Int) : xml.Reading (List UInt8) := do
  let _attrNameNsSi ← xml.lew off
  let attrNameSi ← xml.lew (toCInt (off + 1 * 4))
  let attrValueSi ← xml.lew (toCInt (off + 2 * 4))
  let _attrFlags ← xml.lew (toCInt (off + 3 * 4))
  let _attrResId ← xml.lew (toCInt (off + 4 * 4))
  let attrName ← xml.compXmlString sitOff stOff attrNameSi
  let attrValue ← xml.attributeValue stOff attrValueSi
  pure (attributeText attrName attrValue)

/-- The loop over the attributes of a tag: the offset behind them, and their text. -/
def attributes (stOff : Int) : (left : Nat) → (off : Int) → (concat : List UInt8) →
    xml.Reading (Int × List UInt8)
  | 0, off, concat => pure (off, concat)
  | left + 1, off, concat => do
      let text ← xml.readAttribute stOff off
      attributes stOff left (toCInt (off + 5 * 4)) (concat ++ text)

/-- One turn of the loop over the tags: the offset behind the tag and the text so far, or `none` to
leave the loop. -/
def readTag (stOff off : Int) (result : List UInt8) :
    xml.Reading (Option (Int × List UInt8)) := do
  let tag0 ← xml.lew off
  let _lineNo ← xml.lew (toCInt (off + 2 * 4))
  let nameSi ← xml.lew (toCInt (off + 5 * 4))
  let _nameNsSi ← xml.lew (toCInt (off + 4 * 4))
  if tag0 = startTag then do
    let _tag6 ← xml.lew (toCInt (off + 6 * 4))
    let numbAttrs ← xml.lew (toCInt (off + 7 * 4))
    let name ← xml.compXmlString sitOff stOff nameSi
    let (off, concat) ← xml.attributes stOff numbAttrs.toNat (toCInt (off + 9 * 4)) []
    pure (some (off, result ++ [60] ++ name.bytes ++ concat ++ [62, 10]))
  else if tag0 = endTag then do
    let name ← xml.compXmlString sitOff stOff nameSi
    pure (some (toCInt (off + 6 * 4), result ++ [60, 47] ++ name.bytes ++ [62, 10]))
  else
    -- the end of the document, or a code that is not recognised
    pure none

/-- The loop over the tags, for at most as many of them as `fuel` says. -/
def readTags (stOff : Int) : (fuel : Nat) → (off : Int) → (result : List UInt8) →
    xml.Reading (List UInt8)
  | 0, _, result => pure result
  | fuel + 1, off, result =>
      if off < xml.cb then do
        let next ← xml.readTag stOff off result
        match next with
        | some (off', result') => readTags stOff fuel off' result'
        | none => pure result
      else
        pure result

/-- The search for the first start tag; each turn moves on by four bytes. -/
def findStart : (fuel : Nat) → (i : Int) → xml.Reading (Option Int)
  | 0, _ => pure none
  | fuel + 1, i =>
      if i < xml.cb - 4 then do
        let tag ← xml.lew i
        if tag = startTag then pure (some i) else findStart fuel (toCInt (i + 4))
      else
        pure none

/-- `decompressXML`.  The text it appends to is what was in the block that `malloc` returned. -/
def decompressXML (block : CString) : xml.Reading (List UInt8) := do
  let numbStrings ← xml.lew (4 * 4)
  let stOff := toCInt (sitOff + numbStrings * 4)
  let xmlTagOff ← xml.lew (3 * 4)
  let found ← xml.findStart xml.bytes.length xmlTagOff
  xml.readTags stOff (xml.bytes.length + 1) (found.getD xmlTagOff) block.bytes

/-! ## Words and strings of the file -/

def byteAt (i : Int) : UInt8 := (xml.byte? i).getD 0

/-- An offset at which a word can be asked for without an overflow. -/
def InReach (o : Int) : Prop := 0 ≤ o ∧ o + 3 < 2147483648

/-- The word at an offset; there are zeros behind the end of the file. -/
def wordAt (o : Int) : Int :=
  if o + 3 < xml.cb then
    toCInt (leValue [xml.byteAt o, xml.byteAt (o + 1), xml.byteAt (o + 2), xml.byteAt (o + 3)])
  else
    0

/-- `stOff`, where the strings begin. -/
def stringTable : Int := toCInt (sitOff + xml.wordAt 16 * 4)

/-- Where a string begins: its length, and then its characters. -/
def stringOff (ind : Int) : Int :=
  toCInt (xml.stringTable + xml.wordAt (toCInt (sitOff + ind * 4)))

/-- The number of characters of the string at an offset. -/
def stringLength (strOff : Int) : Nat :=
  (xml.byteAt (strOff + 1)).toNat * 256 + (xml.byteAt strOff).toNat

/-- The characters of the string at an offset do not meet the end of the file: they end before it,
or they pass it over because it is at an odd distance. -/
def CharsInside (strOff : Int) : Prop :=
  strOff + 2 * xml.stringLength strOff < xml.cb ∨
    ((xml.cb - strOff) % 2 = 1 ∧ xml.cb ≠ 2147483647)

/-- The string with an index can be looked up: its entry is in reach, its length is inside, and so
are its characters, which are left alone for a negative index. -/
structure StringInside (ind : Int) : Prop where
  entry : InReach (toCInt (sitOff + ind * 4))
  nonneg : 0 ≤ xml.stringOff ind
  length_inside : xml.stringOff ind + 1 < xml.cb
  chars : 0 ≤ ind → xml.CharsInside (xml.stringOff ind)

/-- An attribute of a tag, which is five words: no offset overflows, and its strings can be looked
up. -/
structure AttributeInside (o : Int) : Prop where
  nonneg : 0 ≤ o
  reach : o + 19 < 2147483648
  name : xml.StringInside (xml.wordAt (o + 4))
  value : xml.wordAt (o + 8) ≠ -1 → xml.StringInside (xml.wordAt (o + 8))

/-- `numbAttrs`. -/
def attributeCount (off : Int) : Nat := (xml.wordAt (off + 28)).toNat

/-- A tag: no offset overflows, and the strings of its name and of its attributes can be looked
up. -/
structure TagInside (off : Int) : Prop where
  nonneg : 0 ≤ off
  reach : off + 23 < 2147483648
  start_reach : xml.wordAt off = startTag → off + 31 < 2147483648
  name : xml.wordAt off = startTag ∨ xml.wordAt off = endTag →
    xml.StringInside (xml.wordAt (off + 20))
  attributes : xml.wordAt off = startTag → ∀ k < xml.attributeCount off,
    xml.AttributeInside (off + 36 + 20 * k)

/-- Where the loop goes on after the tag at an offset, if it does. -/
def nextTag (off : Int) : Option Int :=
  if xml.wordAt off = startTag then some (toCInt (off + 36 + 20 * xml.attributeCount off))
  else if xml.wordAt off = endTag then some (toCInt (off + 24))
  else none

/-- The loop goes from one tag to another. -/
def Succ (off off' : Int) : Prop := off < xml.cb ∧ xml.nextTag off = some off'

/-- There is a start tag at an offset, and the search comes as far as that. -/
def isStart (i : Int) : Bool := i < xml.cb - 4 ∧ xml.wordAt i = startTag

/-- `xmlTagOff` after the search: the first start tag from the offset in the header on, in steps of
four bytes, or that offset if there is none. -/
def tagStart : Int :=
  (((List.range xml.bytes.length).map fun k : Nat => xml.wordAt 12 + 4 * (k : Int)).find?
    xml.isStart).getD (xml.wordAt 12)

/-- The offset in the header is not negative, and every tag that the loop comes to is inside. -/
structure WellFormed : Prop where
  header : 0 ≤ xml.wordAt 12
  tags : ∀ off, Relation.ReflTransGen xml.Succ xml.tagStart off → off < xml.cb → xml.TagInside off

/-! ## Reading -/

section

variable {xml}

theorem cb_lt : xml.cb < 2147483648 := by
  have h := xml.short
  unfold cb
  omega

theorem charAt_spec (i : Int) :
    Checked.Spec (xml.charAt i) (xml.Inside i) (fun b => b = xml.byteAt i) where
  isSome_iff := xml.isSome_byte?_iff i
  holds := by
    intro b hb
    have hb' : xml.byte? i = some b := hb
    simp [byteAt, hb']

theorem bytes_spec (i₀ i₁ i₂ i₃ : Int) :
    Checked.Spec
      (do
        let b3 ← xml.charAt i₃
        let b2 ← xml.charAt i₂
        let b1 ← xml.charAt i₁
        let b0 ← xml.charAt i₀
        pure (toCInt (leValue [b0, b1, b2, b3])))
      (xml.Inside i₃ ∧ xml.Inside i₂ ∧ xml.Inside i₁ ∧ xml.Inside i₀ ∧ True)
      (fun w => w = toCInt
        (leValue [xml.byteAt i₀, xml.byteAt i₁, xml.byteAt i₂, xml.byteAt i₃])) := by
  refine (charAt_spec i₃).bind fun _ b3 hb3 => ?_
  refine (charAt_spec i₂).bind fun _ b2 hb2 => ?_
  refine (charAt_spec i₁).bind fun _ b1 hb1 => ?_
  refine (charAt_spec i₀).bind fun _ b0 hb0 => ?_
  subst hb3 hb2 hb1 hb0
  exact Checked.Spec.ret _

/-- A word is read without harm exactly when its offset is in reach. -/
theorem lew_spec (hcb : 3 ≤ xml.cb) {o : Int} (hlow : -2147483648 ≤ o) (hhigh : o < 2147483648) :
    Checked.Spec (xml.lew o) (InReach o) (fun w => w = xml.wordAt o) := by
  unfold lew
  by_cases hreach : o + 3 < 2147483648
  · rw [toCInt_of_lt (by omega) hreach, toCInt_of_lt (x := o + 2) (by omega) (by omega),
      toCInt_of_lt (x := o + 1) (by omega) (by omega)]
    by_cases hin : o + 3 < xml.cb
    · rw [if_pos hin]
      refine (bytes_spec _ _ _ _).of_iff ?_ fun _ w hw => ?_
      · simp only [Inside, InReach, and_true]
        omega
      · rw [hw, wordAt, if_pos hin]
    · rw [if_neg hin]
      refine (Checked.Spec.ret 0).of_iff ?_ fun _ w hw => ?_
      · exact iff_of_true trivial ⟨by omega, hreach⟩
      · rw [hw, wordAt, if_neg hin]
  · -- the overflow passes the test against `cb`, and the index is negative
    have hneg := toCInt_neg (x := o + 3) (by omega) (by omega)
    rw [if_pos (show xml.cb > toCInt (o + 3) by omega)]
    have hout : ¬ xml.Inside (toCInt (o + 3)) := fun h => absurd h.1 (by omega)
    refine (bytes_spec _ _ _ _).of_iff ?_ fun hin => absurd hin.1 hout
    exact iff_of_false (fun h => hout h.1) fun h => hreach h.2

/-- The characters are read two bytes apart, and the loop ends at the first one behind the end.  One
that is exactly at the end is read. -/
theorem stringChars_spec {strOff : Int} (hoff : 0 ≤ strOff) (left i : Nat)
    (hi : strOff + 2 + i * 2 ≤ xml.cb + 1) :
    Checked.Spec (xml.stringChars strOff left i)
      (left = 0 ∨ strOff + 2 * (i + left) < xml.cb ∨
        ((xml.cb - strOff) % 2 = 1 ∧ xml.cb ≠ 2147483647)) (fun _ => True) := by
  induction left generalizing i with
  | zero =>
      rw [stringChars]
      exact (Checked.Spec.ret _).of_iff (by simp) fun _ _ _ => trivial
  | succ left ih =>
      have hcb : xml.cb < 2147483648 := cb_lt
      rw [stringChars]
      by_cases hbehind : strOff + 2 + i * 2 = xml.cb + 1
      · by_cases hmax : xml.cb = 2147483647
        · -- the sum overflows
          have hneg := toCInt_neg (x := strOff + 2 + i * 2) (by omega) (by omega)
          rw [if_neg (by omega)]
          have hout : ¬ xml.Inside (toCInt (strOff + 2 + i * 2)) := fun h => absurd h.1 (by omega)
          refine ((charAt_spec _).bind (P := False) (S := fun _ => True)
            fun hin => absurd hin hout).of_iff ?_ fun _ _ _ => trivial
          exact iff_of_false (fun h => h.2) (by omega)
        · rw [toCInt_of_lt (by omega) (by omega), if_pos (by omega)]
          exact (Checked.Spec.ret _).of_iff (iff_of_true trivial (by omega)) fun _ _ _ => trivial
      · rw [toCInt_of_lt (by omega) (by omega), if_neg (by omega)]
        refine ((charAt_spec _).bind (S := fun _ => True) fun hin c _ =>
          (ih (i + 1) (by have := hin.2; omega)).bind fun _ chars _ =>
            Checked.Spec.done trivial).of_iff ?_ fun _ _ h => h
        simp only [Inside, and_true]
        omega

theorem Inside.toCInt_succ {i : Int} (h : xml.Inside i) : toCInt (i + 1) = i + 1 := by
  have hmax : xml.cb < 2147483648 := cb_lt
  rcases h with ⟨hpos, hlt⟩
  exact toCInt_of_lt (by omega) (by omega)

theorem stringAt_spec (strOff ind : Int) :
    Checked.Spec (xml.stringAt strOff ind)
      (0 ≤ strOff ∧ strOff + 1 < xml.cb ∧ (0 ≤ ind → xml.CharsInside strOff)) (fun _ => True) := by
  have hmax : xml.cb < 2147483648 := cb_lt
  refine ((charAt_spec (toCInt (strOff + 1))).bind (P := xml.Inside strOff ∧
    (0 ≤ ind → xml.CharsInside strOff)) fun hhigh high hb => (charAt_spec strOff).bind
      fun hin low hb' => ?_).of_iff ?_ fun _ _ h => h
  · -- both bytes of the length are inside, so the second part of the test is false
    rw [hin.toCInt_succ] at hb hhigh
    have hpos := hin.1
    have hinside := hhigh.2
    have hbehind : toCInt (strOff + 2) = strOff + 2 := toCInt_of_lt (by omega) (by omega)
    have hlength : high.toNat * 256 + low.toNat = xml.stringLength strOff := by
      rw [hb, hb', stringLength]
    dsimp only
    rw [hlength, hbehind]
    have hfirst : strOff + 2 + (0 : Nat) * 2 ≤ xml.cb + 1 := by omega
    have hchars := stringChars_spec hpos (xml.stringLength strOff) 0 hfirst
    refine (Checked.Spec.ite (fun _ => Checked.Spec.done trivial)
      fun _ => hchars.bind fun _ _ _ => Checked.Spec.done trivial).of_iff ?_ fun _ _ h => h
    unfold CharsInside
    simp only [and_true, implies_true, true_and]
    omega
  · constructor
    · rintro ⟨hhigh, hin, hchars⟩
      rw [hin.toCInt_succ] at hhigh
      exact ⟨hin.1, hhigh.2, hchars⟩
    · rintro ⟨hnonneg, hlength, hchars⟩
      rw [toCInt_of_lt (by omega) (by omega)]
      exact ⟨⟨by omega, hlength⟩, ⟨hnonneg, by omega⟩, hchars⟩

/-- A string is read without harm exactly when it can be looked up. -/
theorem compXmlString_spec (hcb : 3 ≤ xml.cb) (ind : Int) :
    Checked.Spec (xml.compXmlString sitOff xml.stringTable ind) (xml.StringInside ind)
      (fun _ => True) := by
  have hentry := lew_spec hcb (toCInt_range (sitOff + ind * 4)).1 (toCInt_range _).2
  refine (hentry.bind (P := 0 ≤ xml.stringOff ind ∧ xml.stringOff ind + 1 < xml.cb ∧
    (0 ≤ ind → xml.CharsInside (xml.stringOff ind))) fun _ entry hw => ?_).of_iff ?_
      fun _ _ h => h
  · subst hw
    exact stringAt_spec _ ind
  · constructor
    · rintro ⟨hin, hnonneg, hlength, hchars⟩
      exact ⟨hin, hnonneg, hlength, hchars⟩
    · rintro ⟨hin, hnonneg, hlength, hchars⟩
      exact ⟨hin, hnonneg, hlength, hchars⟩

/-- Behind an overflow there is no attribute, and none without one. -/
theorem forall_attributeInside_toCInt {x : Int} (hlow : 0 ≤ x) (hhigh : x < 4294967296)
    (count : Nat) :
    (∀ k < count, xml.AttributeInside (toCInt x + 20 * k)) ↔
      ∀ k < count, xml.AttributeInside (x + 20 * k) := by
  by_cases hover : x < 2147483648
  · rw [toCInt_of_lt (by omega) hover]
  · have hneg := toCInt_neg (x := x) (by omega) hhigh
    cases count with
    | zero => simp
    | succ count =>
        refine iff_of_false (fun h => ?_) fun h => ?_
        · have hfirst := (h 0 (Nat.succ_pos _)).nonneg
          simp only [Int.natCast_zero] at hfirst
          omega
        · have hfirst := (h 0 (Nat.succ_pos _)).reach
          simp only [Int.natCast_zero] at hfirst
          omega

/-- A word behind an offset is read without harm when the sum does not overflow. -/
theorem lew_add_spec (hcb : 3 ≤ xml.cb) {off : Int} (n : Int) (hoff : 0 ≤ off)
    (hhigh : off < 2147483648) (hn : 0 ≤ n) (hn' : n < 2147483648) :
    Checked.Spec (xml.lew (toCInt (off + n))) (off + n + 3 < 2147483648)
      (fun w => w = xml.wordAt (off + n)) := by
  have hspec := lew_spec hcb (toCInt_range (off + n)).1 (toCInt_range (off + n)).2
  by_cases hover : off + n < 2147483648
  · rw [toCInt_of_lt (by omega) hover] at hspec ⊢
    refine hspec.of_iff ?_ fun _ _ h => h
    unfold InReach
    omega
  · have hneg := toCInt_neg (x := off + n) (by omega) (by omega)
    have hout : ¬ InReach (toCInt (off + n)) := fun h => absurd h.1 (by omega)
    exact hspec.of_iff (iff_of_false hout (by omega)) fun h => absurd h hout

theorem attributeValue_spec (hcb : 3 ≤ xml.cb) (ind : Int) :
    Checked.Spec (xml.attributeValue xml.stringTable ind) (ind ≠ -1 → xml.StringInside ind)
      (fun _ => True) := by
  refine (Checked.Spec.ite (fun _ => compXmlString_spec hcb ind) fun _ =>
    Checked.Spec.done trivial).of_iff ?_ fun _ _ h => h
  simp

theorem readAttribute_spec (hcb : 3 ≤ xml.cb) {off : Int} (hlow : -2147483648 ≤ off)
    (hhigh : off < 2147483648) :
    Checked.Spec (xml.readAttribute xml.stringTable off) (xml.AttributeInside off)
      (fun _ => True) := by
  refine Checked.Spec.of_iff (Q := InReach off ∧ off + 1 * 4 + 3 < 2147483648 ∧
    off + 2 * 4 + 3 < 2147483648 ∧ off + 3 * 4 + 3 < 2147483648 ∧ off + 4 * 4 + 3 < 2147483648 ∧
    xml.StringInside (xml.wordAt (off + 4)) ∧
    (xml.wordAt (off + 8) ≠ -1 → xml.StringInside (xml.wordAt (off + 8))) ∧ True)
    (R := fun _ => True) ?_ ?_ fun _ _ h => h
  · refine (lew_spec hcb hlow hhigh).bind fun hoff _ _ => ?_
    refine (lew_add_spec hcb (1 * 4) hoff.1 hhigh (by decide) (by decide)).bind
      fun _ name hname => ?_
    refine (lew_add_spec hcb (2 * 4) hoff.1 hhigh (by decide) (by decide)).bind
      fun _ value hvalue => ?_
    refine (lew_add_spec hcb (3 * 4) hoff.1 hhigh (by decide) (by decide)).bind fun _ _ _ => ?_
    refine (lew_add_spec hcb (4 * 4) hoff.1 hhigh (by decide) (by decide)).bind fun _ _ _ => ?_
    subst hname hvalue
    refine (compXmlString_spec hcb _).bind fun _ name _ => ?_
    refine (attributeValue_spec hcb _).bind fun _ value _ => ?_
    exact Checked.Spec.done trivial
  · constructor
    · rintro ⟨hoff, _, _, _, hreach, hname, hvalue, _⟩
      exact ⟨hoff.1, by omega, hname, hvalue⟩
    · rintro ⟨hoff, hreach, hname, hvalue⟩
      exact ⟨⟨hoff, by omega⟩, by omega, by omega, by omega, by omega, hname, hvalue, trivial⟩

theorem attributes_spec (hcb : 3 ≤ xml.cb) (left : Nat) {off : Int} (hlow : -2147483648 ≤ off)
    (hhigh : off < 2147483648) (concat : List UInt8) :
    Checked.Spec (xml.attributes xml.stringTable left off concat)
      (∀ k < left, xml.AttributeInside (off + 20 * k))
      (fun r => r.1 = toCInt (off + 20 * left)) := by
  induction left generalizing off concat with
  | zero =>
      rw [attributes]
      refine (Checked.Spec.ret _).of_iff (by simp) fun _ r hr => ?_
      rw [hr, Int.natCast_zero, Int.mul_zero, Int.add_zero, toCInt_of_lt hlow hhigh]
  | succ left ih =>
      rw [attributes]
      have hnext := toCInt_range (off + 5 * 4)
      refine ((readAttribute_spec hcb hlow hhigh).bind fun _ text _ =>
        ih hnext.1 hnext.2 (concat ++ text)).of_iff ?_ fun _ r hr => ?_
      · -- the attributes after the first one, counted from it
        have hshift : (∀ k < left, xml.AttributeInside (off + 5 * 4 + 20 * k)) ↔
            ∀ k < left, xml.AttributeInside (off + 20 * (k + 1 : Nat)) := by
          refine forall₂_congr fun k _ => ?_
          have hsum : off + 5 * 4 + 20 * k = off + 20 * (k + 1 : Nat) := by
            push_cast
            ring
          rw [hsum]
        constructor
        · rintro ⟨hfirst, hrest⟩
          have hpos := hfirst.nonneg
          rw [forall_attributeInside_toCInt (by omega) (by omega), hshift] at hrest
          intro k hk
          cases k with
          | zero => simpa using hfirst
          | succ k => exact hrest k (Nat.lt_of_succ_lt_succ hk)
        · intro hall
          have hfirst : xml.AttributeInside off := by simpa using hall 0 (Nat.succ_pos _)
          have hpos := hfirst.nonneg
          refine ⟨hfirst, ?_⟩
          rw [forall_attributeInside_toCInt (by omega) (by omega), hshift]
          intro k hk
          exact hall (k + 1) (Nat.succ_lt_succ hk)
      · rw [hr, toCInt_add]
        congr 1
        push_cast
        ring

/-- What `readTag` asks for, call by call. -/
def TagRead (xml : Manifest) (off : Int) : Prop :=
  InReach off ∧ off + 2 * 4 + 3 < 2147483648 ∧ off + 5 * 4 + 3 < 2147483648 ∧
    off + 4 * 4 + 3 < 2147483648 ∧
    ((xml.wordAt off = startTag → off + 6 * 4 + 3 < 2147483648 ∧ off + 7 * 4 + 3 < 2147483648 ∧
        xml.StringInside (xml.wordAt (off + 20)) ∧
        (∀ k < xml.attributeCount off, xml.AttributeInside (toCInt (off + 9 * 4) + 20 * k)) ∧
        True) ∧
      (¬ xml.wordAt off = startTag →
        (xml.wordAt off = endTag → xml.StringInside (xml.wordAt (off + 20)) ∧ True) ∧
        (¬ xml.wordAt off = endTag → True)))

theorem tagRead_iff {off : Int} (hhigh : off < 2147483648) :
    TagRead xml off ↔ xml.TagInside off := by
  constructor
  · rintro ⟨hoff, _, hreach, _, hstart, hend⟩
    have hpos := hoff.1
    refine ⟨hpos, by omega, fun h => ?_, ?_, fun h => ?_⟩
    · have := (hstart h).2.1
      omega
    · rintro (h | h)
      · exact (hstart h).2.2.1
      · have hne : ¬ xml.wordAt off = startTag := by
          rw [h]
          decide
        exact ((hend hne).1 h).1
    · exact (forall_attributeInside_toCInt (by omega) (by omega) _).1 (hstart h).2.2.2.1
  · rintro ⟨hpos, hreach, hstart, hname, hattributes⟩
    refine ⟨⟨hpos, by omega⟩, by omega, by omega, by omega, fun h => ?_, fun _ =>
      ⟨fun h => ⟨hname (Or.inr h), trivial⟩, fun _ => trivial⟩⟩
    have hreach' := hstart h
    exact ⟨by omega, by omega, hname (Or.inl h),
      (forall_attributeInside_toCInt (by omega) (by omega) _).2 (hattributes h), trivial⟩

/-- A tag is read without harm exactly when it is inside, and the loop goes on behind it. -/
theorem readTag_spec (hcb : 3 ≤ xml.cb) {off : Int} (hlow : -2147483648 ≤ off)
    (hhigh : off < 2147483648) (result : List UInt8) :
    Checked.Spec (xml.readTag xml.stringTable off result) (xml.TagInside off)
      (fun next => next.map Prod.fst = xml.nextTag off) := by
  refine Checked.Spec.of_iff (Q := TagRead xml off) ?_ (tagRead_iff hhigh) fun _ _ h => h
  refine (lew_spec hcb hlow hhigh).bind fun hoff tag htag => ?_
  refine (lew_add_spec hcb (2 * 4) hoff.1 hhigh (by decide) (by decide)).bind fun _ _ _ => ?_
  refine (lew_add_spec hcb (5 * 4) hoff.1 hhigh (by decide) (by decide)).bind
    fun _ name hname => ?_
  refine (lew_add_spec hcb (4 * 4) hoff.1 hhigh (by decide) (by decide)).bind fun _ _ _ => ?_
  subst htag hname
  refine Checked.Spec.ite (fun hstart => ?_) fun hstart => Checked.Spec.ite (fun hend => ?_)
    fun hend => ?_
  · refine (lew_add_spec hcb (6 * 4) hoff.1 hhigh (by decide) (by decide)).bind fun _ _ _ => ?_
    refine (lew_add_spec hcb (7 * 4) hoff.1 hhigh (by decide) (by decide)).bind
      fun _ count hcount => ?_
    subst hcount
    refine (compXmlString_spec hcb _).bind fun _ name _ => ?_
    refine (attributes_spec hcb _ (toCInt_range _).1 (toCInt_range _).2 []).bind
      fun _ r hr => ?_
    refine Checked.Spec.done ?_
    rw [nextTag, if_pos hstart, Option.map_some, hr, toCInt_add]
    rfl
  · refine (compXmlString_spec hcb _).bind fun _ name _ => ?_
    refine Checked.Spec.done ?_
    rw [nextTag, if_neg hstart, if_pos hend]
    rfl
  · refine Checked.Spec.done ?_
    rw [nextTag, if_neg hstart, if_neg hend]
    rfl

/-! ## The loop over the tags -/

theorem nextTag_range {off off' : Int} (h : xml.nextTag off = some off') :
    -2147483648 ≤ off' ∧ off' < 2147483648 := by
  unfold nextTag at h
  split_ifs at h
  · cases h
    exact toCInt_range _
  · cases h
    exact toCInt_range _

/-- The next tag is behind this one, unless the offset has overflown. -/
theorem TagInside.advances {off off' : Int} (htag : xml.TagInside off)
    (h : xml.nextTag off = some off') : off' < 0 ∨ off + 24 ≤ off' := by
  have hpos := htag.nonneg
  have hreach := htag.reach
  have hsum {x : Int} (hx : off + 24 ≤ x) (hx' : x < 4294967296) :
      toCInt x < 0 ∨ off + 24 ≤ toCInt x := by
    by_cases hover : x < 2147483648
    · rw [toCInt_of_lt (by omega) hover]
      exact Or.inr hx
    · exact Or.inl (toCInt_neg (by omega) hx')
  unfold nextTag at h
  split_ifs at h with hstart hend
  · cases h
    refine hsum (by omega) ?_
    cases hcount : xml.attributeCount off with
    | zero => omega
    | succ count =>
        -- the last attribute is in reach, and it is as long as the distance to the next tag
        have hlast := (htag.attributes hstart count (by omega)).reach
        push_cast
        omega
  · cases h
    exact hsum (Int.le_refl _) (by omega)

/-- One turn of the loop. -/
theorem value_readTags_succ (fuel : Nat) {off : Int} (hoff : off < xml.cb) (result : List UInt8) :
    (xml.readTags xml.stringTable (fuel + 1) off result).value =
      (xml.readTag xml.stringTable off result).value.bind fun next =>
        match next with
        | some (off', result') => (xml.readTags xml.stringTable fuel off' result').value
        | none => some result := by
  rw [readTags, if_pos hoff, Checked.value_bind]
  congr 1
  funext next
  cases next with
  | none => rfl
  | some r => rfl

/-- While every tag is inside, the loop reads nothing else. -/
theorem isSome_readTags (hcb : 3 ≤ xml.cb) (fuel : Nat) {off : Int} (hlow : -2147483648 ≤ off)
    (hhigh : off < 2147483648)
    (hall : ∀ off', Relation.ReflTransGen xml.Succ off off' → off' < xml.cb → xml.TagInside off')
    (result : List UInt8) :
    (xml.readTags xml.stringTable fuel off result).value.isSome = true := by
  induction fuel generalizing off result with
  | zero => rfl
  | succ fuel ih =>
      by_cases hoff : off < xml.cb
      · have hspec := readTag_spec hcb hlow hhigh result
        rcases Option.isSome_iff_exists.1 (hspec.isSome_iff.2 (hall off .refl hoff)) with
          ⟨next, hnext⟩
        have hsucc := hspec.holds next hnext
        rw [value_readTags_succ fuel hoff, hnext, Option.bind_some]
        cases next with
        | none => rfl
        | some r =>
            have hr : xml.nextTag off = some r.1 := hsucc.symm
            have hrange := nextTag_range hr
            refine ih hrange.1 hrange.2 ?_ r.2
            intro off' hreached
            exact hall off' (.head ⟨hoff, hr⟩ hreached)
      · rw [readTags, if_neg hoff]
        rfl

/-- There are turns left for every tag from an offset on. -/
def Fuelled (xml : Manifest) (fuel : Nat) (off : Int) : Prop :=
  1 ≤ fuel ∧ (0 ≤ off → xml.cb + 24 ≤ off + 24 * fuel)

theorem Fuelled.next {fuel : Nat} {off off' : Int} (hfuel : Fuelled xml (fuel + 1) off)
    (htag : xml.TagInside off) (hsucc : xml.Succ off off') : Fuelled xml fuel off' := by
  have hpos := htag.nonneg
  have hturns := hfuel.2 hpos
  have hlt := hsucc.1
  push_cast at hturns
  refine ⟨by omega, fun hpos' => ?_⟩
  rcases htag.advances hsucc.2 with hneg | hnext
  · omega
  · omega

/-- A loop with enough turns that reads nothing else has come to tags inside only. -/
theorem tagInside_of_isSome (hcb : 3 ≤ xml.cb) (fuel : Nat) {off : Int}
    (hlow : -2147483648 ≤ off) (hhigh : off < 2147483648) (hfuel : Fuelled xml fuel off)
    {result : List UInt8}
    (h : (xml.readTags xml.stringTable fuel off result).value.isSome = true) {off' : Int}
    (hreached : Relation.ReflTransGen xml.Succ off off') (hoff' : off' < xml.cb) :
    xml.TagInside off' := by
  induction fuel generalizing off result with
  | zero => exact absurd hfuel.1 (by decide)
  | succ fuel ih =>
      by_cases hoff : off < xml.cb
      · rw [value_readTags_succ fuel hoff] at h
        have hspec := readTag_spec hcb hlow hhigh result
        cases hnext : (xml.readTag xml.stringTable off result).value with
        | none => simp [hnext] at h
        | some next =>
            have htag : xml.TagInside off := hspec.isSome_iff.1 (by simp [hnext])
            have hsucc := hspec.holds next hnext
            rcases Relation.ReflTransGen.cases_head hreached with rfl | ⟨mid, hmid, hrest⟩
            · exact htag
            · rw [hnext, Option.bind_some] at h
              have hmid' : next.map Prod.fst = some mid := hsucc.trans hmid.2
              rcases Option.map_eq_some_iff.1 hmid' with ⟨r, rfl, rfl⟩
              have hrange := nextTag_range hmid.2
              exact ih hrange.1 hrange.2 (hfuel.next htag hmid) h hrest
      · rcases Relation.ReflTransGen.cases_head hreached with rfl | ⟨mid, hmid, _⟩
        · exact absurd hoff' hoff
        · exact absurd hmid.1 hoff

/-- The turns are never used up: with more of them the loop does the same. -/
theorem readTags_fuel (hcb : 3 ≤ xml.cb) (fuel extra : Nat) {off : Int}
    (hlow : -2147483648 ≤ off) (hhigh : off < 2147483648) (hfuel : Fuelled xml fuel off)
    (result : List UInt8) :
    (xml.readTags xml.stringTable (fuel + extra) off result).value =
      (xml.readTags xml.stringTable fuel off result).value := by
  induction fuel generalizing off result with
  | zero => exact absurd hfuel.1 (by decide)
  | succ fuel ih =>
      rw [Nat.add_right_comm]
      by_cases hoff : off < xml.cb
      · rw [value_readTags_succ _ hoff, value_readTags_succ _ hoff]
        have hspec := readTag_spec hcb hlow hhigh result
        cases hnext : (xml.readTag xml.stringTable off result).value with
        | none => rfl
        | some next =>
            have htag : xml.TagInside off := hspec.isSome_iff.1 (by simp [hnext])
            cases next with
            | none => rfl
            | some r =>
                have hr : xml.nextTag off = some r.1 := (hspec.holds _ hnext).symm
                have hrange := nextTag_range hr
                exact ih hrange.1 hrange.2 (hfuel.next htag ⟨hoff, hr⟩) r.2
      · rw [readTags, readTags, if_neg hoff, if_neg hoff]

/-! ## The whole file -/

/-- The offsets of the search, the first one apart. -/
theorem map_range_succ (fuel : Nat) (i : Int) :
    ((List.range (fuel + 1)).map fun k : Nat => i + 4 * (k : Int)) =
      i :: (List.range fuel).map fun k : Nat => i + 4 + 4 * (k : Int) := by
  rw [List.range_succ_eq_map, List.map_cons, List.map_map]
  congr 1
  · simp
  · refine List.map_congr_left fun k _ => ?_
    simp only [Function.comp_apply, Nat.succ_eq_add_one]
    push_cast
    ring

theorem findStart_spec (hcb : 3 ≤ xml.cb) (fuel : Nat) {i : Int} (hlow : 0 ≤ i)
    (hhigh : i < 2147483648) :
    Checked.Spec (xml.findStart fuel i) True
      (fun found => found =
        ((List.range fuel).map fun k : Nat => i + 4 * (k : Int)).find? xml.isStart) := by
  have hmax : xml.cb < 2147483648 := cb_lt
  induction fuel generalizing i with
  | zero => exact Checked.Spec.ret none
  | succ fuel ih =>
      rw [findStart]
      by_cases hi : i < xml.cb - 4
      · rw [if_pos hi, map_range_succ, toCInt_of_lt (by omega) (by omega)]
        refine Checked.Spec.of_iff (Q := InReach i ∧ (xml.wordAt i = startTag → True) ∧
          (¬ xml.wordAt i = startTag → True)) ?_ ?_ fun _ _ h => h
        · refine (lew_spec hcb (by omega) hhigh).bind fun _ tag htag => ?_
          subst htag
          refine Checked.Spec.ite (fun hstart => ?_) fun hstart => ?_
          · have hhere : xml.isStart i = true := decide_eq_true ⟨hi, hstart⟩
            rw [List.find?_cons_of_pos hhere]
            exact Checked.Spec.ret (some i)
          · have hhere : ¬ xml.isStart i = true := by simp [isStart, hstart]
            rw [List.find?_cons_of_neg hhere]
            exact ih (by omega) (by omega)
        · exact iff_of_true ⟨⟨hlow, by omega⟩, fun _ => trivial, fun _ => trivial⟩ trivial
      · rw [if_neg hi]
        refine Checked.Spec.done ?_
        -- all the offsets are too far
        rw [eq_comm, List.find?_eq_none]
        intro x hx
        rcases List.mem_map.1 hx with ⟨k, _, rfl⟩
        simp only [isStart, decide_eq_true_eq, not_and]
        omega

/-- A negative offset in the header is outside. -/
theorem findStart_of_neg (hcb : 3 ≤ xml.cb) {fuel : Nat} (hfuel : 1 ≤ fuel) {i : Int}
    (hlow : -2147483648 ≤ i) (hneg : i < 0) (hi : i < xml.cb - 4) :
    (xml.findStart fuel i).value = none := by
  cases fuel with
  | zero => exact absurd hfuel (by decide)
  | succ fuel =>
      have hnone : (xml.lew i).value = none := by
        have hspec := lew_spec hcb hlow (by omega)
        have hout : ¬ InReach i := fun h => absurd h.1 (by omega)
        simpa [hout] using hspec.isSome_iff
      rw [findStart, if_pos hi, Checked.value_bind, hnone]
      rfl

theorem tagStart_range (h : 0 ≤ xml.wordAt 12) :
    0 ≤ xml.tagStart ∧ xml.tagStart < 2147483648 := by
  have hmax : xml.cb < 2147483648 := cb_lt
  unfold tagStart
  cases hfind : ((List.range xml.bytes.length).map
      fun k : Nat => xml.wordAt 12 + 4 * (k : Int)).find? xml.isStart with
  | none =>
      refine ⟨h, ?_⟩
      rw [Option.getD_none, wordAt]
      split_ifs
      · exact (toCInt_range _).2
      · decide
  | some i =>
      have hstart := List.find?_some hfind
      rcases List.mem_map.1 (List.mem_of_find?_eq_some hfind) with ⟨k, _, rfl⟩
      simp only [isStart, decide_eq_true_eq] at hstart
      rw [Option.getD_some]
      omega

theorem wordAt_range (o : Int) : -2147483648 ≤ xml.wordAt o ∧ xml.wordAt o < 2147483648 := by
  unfold wordAt
  split_ifs
  · exact toCInt_range _
  · decide

/-- The search for the first start tag fails for a negative offset only. -/
theorem search_spec (hcb : 3 ≤ xml.cb) :
    Checked.Spec (xml.findStart xml.bytes.length (xml.wordAt 12)) (0 ≤ xml.wordAt 12)
      (fun found => found.getD (xml.wordAt 12) = xml.tagStart) := by
  have hrange : -2147483648 ≤ xml.wordAt 12 ∧ xml.wordAt 12 < 2147483648 := wordAt_range 12
  by_cases hpos : 0 ≤ xml.wordAt 12
  · refine (findStart_spec hcb _ hpos hrange.2).of_iff (iff_of_true trivial hpos) ?_
    intro _ found hfound
    rw [hfound, tagStart]
  · -- a word other than zero is inside
    have hlong : 12 + 3 < xml.cb := by
      by_contra hshort
      rw [wordAt, if_neg hshort] at hpos
      exact hpos (Int.le_refl 0)
    have hfuel : 1 ≤ xml.bytes.length := by
      unfold cb at hlong
      omega
    have hnone := findStart_of_neg hcb hfuel hrange.1 (by omega) (by omega)
    refine ⟨iff_of_false (by simp [hnone]) hpos, ?_⟩
    intro found hfound
    rw [hnone] at hfound
    cases hfound

theorem loop_spec (hcb : 3 ≤ xml.cb) (hpos : 0 ≤ xml.wordAt 12) (result : List UInt8) :
    Checked.Spec (xml.readTags xml.stringTable (xml.bytes.length + 1) xml.tagStart result)
      (∀ off, Relation.ReflTransGen xml.Succ xml.tagStart off → off < xml.cb → xml.TagInside off)
      (fun _ => True) := by
  have hrange := tagStart_range hpos
  have hlow : -2147483648 ≤ xml.tagStart := by omega
  have hfuel : Fuelled xml (xml.bytes.length + 1) xml.tagStart := by
    refine ⟨by omega, fun _ => ?_⟩
    unfold cb
    push_cast
    omega
  refine ⟨⟨fun h off => ?_, fun h => ?_⟩, fun _ _ => trivial⟩
  · exact tagInside_of_isSome hcb _ hlow hrange.2 hfuel h
  · exact isSome_readTags hcb _ hlow hrange.2 h result

theorem decompressXML_spec (hcb : 3 ≤ xml.cb) (block : CString) :
    Checked.Spec (xml.decompressXML block) xml.WellFormed (fun _ => True) := by
  refine Checked.Spec.of_iff (Q := InReach (4 * 4) ∧ InReach (3 * 4) ∧ 0 ≤ xml.wordAt 12 ∧
    ∀ off, Relation.ReflTransGen xml.Succ xml.tagStart off → off < xml.cb → xml.TagInside off)
    (R := fun _ => True) ?_ ?_ fun _ _ h => h
  · refine (lew_spec hcb (by decide) (by decide)).bind fun _ numbStrings hstrings => ?_
    refine (lew_spec hcb (by decide) (by decide)).bind fun _ xmlTagOff hoff => ?_
    subst hstrings hoff
    refine (search_spec hcb).bind fun hpos found hfound => ?_
    have hstart : found.getD (xml.wordAt (3 * 4)) = xml.tagStart := hfound
    rw [hstart]
    exact loop_spec hcb hpos block.bytes
  · constructor
    · rintro ⟨_, _, hpos, htags⟩
      exact ⟨hpos, htags⟩
    · rintro ⟨hpos, htags⟩
      exact ⟨⟨by decide, by decide⟩, ⟨by decide, by decide⟩, hpos, htags⟩

/-! Files too short for a word. -/

theorem lew_of_short (hcb : xml.cb < 3) {o : Int} (hpos : 0 ≤ o) (hlt : o + 3 < 2147483648) :
    xml.lew o = pure 0 := by
  rw [lew, toCInt_of_lt (by omega) hlt, if_neg (by omega)]

theorem wordAt_of_short (hcb : xml.cb < 3) {o : Int} (hpos : 0 ≤ o) : xml.wordAt o = 0 := by
  rw [wordAt, if_neg (by omega)]

/-- The tag at the beginning is no tag. -/
theorem readTag_of_short (hcb : xml.cb < 3) (stOff : Int) (result : List UInt8) :
    (xml.readTag stOff 0 result).value = some none := by
  have hword {n : Int} (hpos : 0 ≤ n) (hlt : n + 3 < 2147483648) :
      xml.lew (toCInt (0 + n)) = pure 0 := by
    rw [Int.zero_add, toCInt_of_lt (by omega) (by omega)]
    exact lew_of_short hcb hpos hlt
  rw [readTag, lew_of_short hcb (Int.le_refl 0) (by decide), hword (by decide) (by decide),
    hword (by decide) (by decide), hword (by decide) (by decide)]
  rfl

theorem isSome_of_short (hcb : xml.cb < 3) (block : CString) :
    (xml.decompressXML block).value.isSome = true := by
  have hfind (fuel : Nat) : (xml.findStart fuel 0).value = some none := by
    cases fuel with
    | zero => rfl
    | succ fuel =>
        rw [findStart, if_neg (by omega)]
        rfl
  have htags (stOff : Int) (fuel : Nat) :
      (xml.readTags stOff (fuel + 1) 0 block.bytes).value.isSome = true := by
    rw [readTags]
    split_ifs
    · rw [Checked.value_bind, readTag_of_short hcb]
      rfl
    · rfl
  rw [decompressXML, lew_of_short hcb (by decide) (by decide),
    lew_of_short hcb (by decide) (by decide)]
  simp only [Checked.value_bind, Checked.value_pure, Option.bind_some, hfind, Option.getD_none]
  exact htags _ _

theorem wellFormed_of_short (hcb : xml.cb < 3) : xml.WellFormed := by
  have hzero : xml.wordAt 0 = 0 := wordAt_of_short hcb (Int.le_refl 0)
  have hheader : xml.wordAt 12 = 0 := wordAt_of_short hcb (by decide)
  have hnext : xml.nextTag 0 = none := by
    rw [nextTag, hzero]
    rfl
  have hstart : xml.tagStart = 0 := by
    have hnone : ((List.range xml.bytes.length).map
        fun k : Nat => (0 : Int) + 4 * (k : Int)).find? xml.isStart = none := by
      rw [List.find?_eq_none]
      intro x hx
      rcases List.mem_map.1 hx with ⟨k, _, rfl⟩
      simp only [isStart, decide_eq_true_eq, not_and]
      omega
    rw [tagStart, hheader, hnone]
    rfl
  refine ⟨hheader.ge, ?_⟩
  intro off hreached _
  rw [hstart] at hreached
  -- nothing follows on the first offset, so it is the only one
  rcases Relation.ReflTransGen.cases_head hreached with rfl | ⟨mid, hmid, _⟩
  · have hno {tag : Int} (htag : tag ≠ 0) : xml.wordAt 0 ≠ tag := by
      rw [hzero]
      exact htag.symm
    have hnoStart : xml.wordAt 0 ≠ startTag := hno (by decide)
    have hnoEnd : xml.wordAt 0 ≠ endTag := hno (by decide)
    exact ⟨Int.le_refl 0, by decide, fun h => absurd h hnoStart,
      fun h => h.elim (fun h => absurd h hnoStart) fun h => absurd h hnoEnd,
      fun h => absurd h hnoStart⟩
  · have := hmid.2
    rw [hnext] at this
    cases this

end

/-- The decoder reads only the manifest exactly when the manifest is well formed. -/
theorem decompressXML_inside_iff (xml : Manifest) (block : CString) :
    (∀ i ∈ (xml.decompressXML block).indices, 0 ≤ i ∧ i < xml.cb) ↔ xml.WellFormed := by
  by_cases hcb : 3 ≤ xml.cb
  · exact (decompressXML_spec hcb block).forall_inside_iff
  · have hshort : xml.cb < 3 := Int.not_le.1 hcb
    exact iff_of_true ((xml.decompressXML block).value_iff.1 (isSome_of_short hshort block))
      (wellFormed_of_short hshort)

/-! ## Three files -/

/-- A header with an offset of `-1`, and nothing else. -/
def negativeBytes : List UInt8 := List.replicate 12 0 ++ [255, 255, 255, 255]

theorem negativeBytes_short : negativeBytes.length < 2147483648 := by decide

def negativeHeader : Manifest := ⟨negativeBytes, negativeBytes_short⟩

/-- One end tag and one string, from the header to the number of its characters. -/
def truncatedBytes : List UInt8 :=
  List.replicate 12 0 ++ [40, 0, 0, 0] ++ [1, 0, 0, 0] ++ List.replicate 16 0 ++ [24, 0, 0, 0] ++
    [3, 1, 16, 0] ++ List.replicate 20 0 ++ [1, 0]

theorem truncatedBytes_short : truncatedBytes.length < 2147483648 := by decide

def truncatedString : Manifest := ⟨truncatedBytes, truncatedBytes_short⟩

/-- The decoder reads in front of the first file, and the byte behind the second. -/
theorem decompressXML_outside :
    -1 ∈ (negativeHeader.decompressXML (CString.ofBuffer [])).indices ∧
      66 ∈ (truncatedString.decompressXML (CString.ofBuffer [])).indices ∧
      truncatedString.cb = 66 := by
  decide +kernel

def completeBytes : List UInt8 := truncatedBytes ++ [97, 0]

theorem completeBytes_short : completeBytes.length < 2147483648 := by decide

def completeFile : Manifest := ⟨completeBytes, completeBytes_short⟩

-- with its character the second file is decoded, to the text of an end tag
example : (completeFile.decompressXML (CString.ofBuffer [])).value = some [60, 47, 97, 62, 10] := by
  decide +kernel

end Manifest
end AppCtrl
end AbsPlatform
