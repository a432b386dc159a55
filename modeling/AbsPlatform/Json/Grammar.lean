import AbsPlatform.Json.Parse
import AbsPlatform.Lib.Decimal

/-!
# Grammar — what the texts of JSON mean

A value, and the texts that spell it.  Between the tokens there may be gaps; which texts are gaps is
a parameter, so that the same grammar serves for texts with white space, for texts with comments and
for texts without either.  A character of a string that is escaped by its code stands for its UTF-8
encoding.
-/

namespace AbsPlatform
namespace Json

open Lib

inductive Value (D : Type)
  | null
  | bool (b : Bool)
  | number (n : D)
  | string (s : CString)
  | array (elements : List (Value D))
  | object (members : List (CString × Value D))

variable {D : Type}

mutual

/-- The item for a value. -/
def Value.item (A : Doubles D) : Value D → Item D
  | .null => nullItem A
  | .bool b => boolItem A b
  | .number n => numberItem A n
  | .string s => stringItem A s
  | .array elements => arrayItem A (elementItems A elements)
  | .object members => objectItem A (memberItems A members)

def elementItems (A : Doubles D) : List (Value D) → List (Item D)
  | [] => []
  | v :: vs => v.item A :: elementItems A vs

def memberItems (A : Doubles D) : List (CString × Value D) → List (Item D)
  | [] => []
  | (name, v) :: ms => (v.item A).named name :: memberItems A ms

end

/-! ## Numbers -/

def Digits (ds : List UInt8) : Prop := ∀ c ∈ ds, isDigit c = true

/-- The digits in front of the point, without the zero that stands for none: a text, and those that
count. -/
inductive IntegerText : List UInt8 → List UInt8 → Prop
  | zero : IntegerText [48] []
  | digits {c : UInt8} {ds : List UInt8} (hlow : 49 ≤ c) (hhigh : c ≤ 57) (hds : Digits ds) :
      IntegerText (c :: ds) (c :: ds)

inductive FractionText : List UInt8 → List UInt8 → Prop
  | none : FractionText [] []
  | digits {c : UInt8} {ds : List UInt8} (hds : Digits (c :: ds)) :
      FractionText (dot :: c :: ds) (c :: ds)

/-- An exponent is below the limit of an `int`. -/
inductive ExponentText : List UInt8 → Int → Prop
  | none : ExponentText [] 0
  | unsigned {e : UInt8} {ds : List UInt8} (he : e = 101 ∨ e = 69) (hne : ds ≠ []) (hds : Digits ds)
      (hlt : decimalValue ds < 2147483648) : ExponentText (e :: ds) (decimalValue ds)
  | positive {e : UInt8} {ds : List UInt8} (he : e = 101 ∨ e = 69) (hne : ds ≠ []) (hds : Digits ds)
      (hlt : decimalValue ds < 2147483648) : ExponentText (e :: plus :: ds) (decimalValue ds)
  | negative {e : UInt8} {ds : List UInt8} (he : e = 101 ∨ e = 69) (hne : ds ≠ []) (hds : Digits ds)
      (hlt : decimalValue ds < 2147483648) : ExponentText (e :: minus :: ds) (-(decimalValue ds))

/-- The number with these digits. -/
def Doubles.ofDigits (A : Doubles D) (ds : List UInt8) : D := ds.foldl (addDigit A) (A.ofInt 0)

/-- The number with a sign, digits in front of and behind the point, and an exponent. -/
def Doubles.numeral (A : Doubles D) (sign : Int) (integer fraction : List UInt8) (e : Int) : D :=
  A.mul (A.mul (A.ofInt sign) (A.ofDigits (integer ++ fraction))) (A.pow10 (e - fraction.length))

inductive SignText : List UInt8 → Int → Prop
  | none : SignText [] 1
  | minus : SignText [minus] (-1)

inductive NumberText (A : Doubles D) : List UInt8 → D → Prop
  | numeral {st it ft et integer fraction : List UInt8} {sign e : Int} (hs : SignText st sign)
      (hi : IntegerText it integer) (hf : FractionText ft fraction) (he : ExponentText et e) :
      NumberText A (st ++ it ++ ft ++ et) (A.numeral sign integer fraction e)

/-! ## Strings -/

/-- Four digits of base 16. -/
inductive Hex4 : List UInt8 → Nat → Prop
  | digits {a b c d : UInt8} {x y z w : Nat} (ha : hexDigit? a = some x) (hb : hexDigit? b = some y)
      (hc : hexDigit? c = some z) (hd : hexDigit? d = some w) :
      Hex4 [a, b, c, d] (((x * 16 + y) * 16 + z) * 16 + w)

/-- What may stand behind a backslash, other than `u`. -/
def escapes : List (UInt8 × UInt8) :=
  [(quote, quote), (backslash, backslash), (slash, slash)] ++ controlEscapes

/-- The text between the quotes, and the bytes it stands for. -/
inductive BodyText : List UInt8 → List UInt8 → Prop
  | nil : BodyText [] []
  | raw {c : UInt8} {t s : List UInt8} (hquote : c ≠ quote) (hback : c ≠ backslash) (hnul : c ≠ 0)
      (h : BodyText t s) : BodyText (c :: t) (c :: s)
  | escape {e c : UInt8} {t s : List UInt8} (he : (e, c) ∈ escapes) (h : BodyText t s) :
      BodyText (backslash :: e :: t) (c :: s)
  | unicode {ch : Char} {ds t s : List UInt8} (hne : ch.val ≠ 0) (hlow : ch.val.toNat < 0x10000)
      (hds : Hex4 ds ch.val.toNat) (h : BodyText t s) :
      BodyText (backslash :: 117 :: (ds ++ t)) (String.utf8EncodeChar ch ++ s)
  /-- a pair of surrogates -/
  | pair {ch : Char} {w : Nat} {ds es t s : List UInt8} (hhigh : ch.val.toNat = 0x10000 + w)
      (hds : Hex4 ds (0xD800 + w / 0x400)) (hes : Hex4 es (0xDC00 + w % 0x400))
      (h : BodyText t s) :
      BodyText (backslash :: 117 :: (ds ++ backslash :: 117 :: (es ++ t)))
        (String.utf8EncodeChar ch ++ s)

inductive StringText : List UInt8 → CString → Prop
  | quoted {t : List UInt8} {s : CString} (h : BodyText t s.bytes) :
      StringText (quote :: (t ++ [quote])) s

/-! ## Values -/

/-- What a text may spell: a value, the elements of an array or the members of an object. -/
inductive Phrase (D : Type)
  | value (v : Value D)
  | elements (vs : List (Value D))
  | members (ms : List (CString × Value D))

inductive Spells (A : Doubles D) (Gap : List UInt8 → Prop) : Phrase D → List UInt8 → Prop
  | null : Spells A Gap (.value .null) nullText
  | bool (b : Bool) : Spells A Gap (.value (.bool b)) (if b then trueText else falseText)
  | number {n : D} {t : List UInt8} (h : NumberText A t n) : Spells A Gap (.value (.number n)) t
  | string {s : CString} {t : List UInt8} (h : StringText t s) :
      Spells A Gap (.value (.string s)) t
  | emptyArray {g : List UInt8} (hg : Gap g) :
      Spells A Gap (.value (.array [])) (openBracket :: (g ++ [closeBracket]))
  | array {vs : List (Value D)} {t : List UInt8} (h : Spells A Gap (.elements vs) t) :
      Spells A Gap (.value (.array vs)) (openBracket :: (t ++ [closeBracket]))
  | emptyObject {g : List UInt8} (hg : Gap g) :
      Spells A Gap (.value (.object [])) (openBrace :: (g ++ [closeBrace]))
  | object {ms : List (CString × Value D)} {t : List UInt8} (h : Spells A Gap (.members ms) t) :
      Spells A Gap (.value (.object ms)) (openBrace :: (t ++ [closeBrace]))
  | lastElement {v : Value D} {g t g' : List UInt8} (hg : Gap g) (h : Spells A Gap (.value v) t)
      (hg' : Gap g') : Spells A Gap (.elements [v]) (g ++ (t ++ g'))
  | element {v : Value D} {vs : List (Value D)} {g t g' us : List UInt8} (hg : Gap g)
      (h : Spells A Gap (.value v) t) (hg' : Gap g') (hus : Spells A Gap (.elements vs) us) :
      Spells A Gap (.elements (v :: vs)) (g ++ (t ++ (g' ++ comma :: us)))
  | lastMember {name : CString} {v : Value D} {g k g' h t h' : List UInt8} (hg : Gap g)
      (hk : StringText k name) (hg' : Gap g') (hh : Gap h) (ht : Spells A Gap (.value v) t)
      (hh' : Gap h') :
      Spells A Gap (.members [(name, v)]) (g ++ (k ++ (g' ++ colon :: (h ++ (t ++ h')))))
  | member {name : CString} {v : Value D} {ms : List (CString × Value D)}
      {g k g' h t h' us : List UInt8} (hg : Gap g) (hk : StringText k name) (hg' : Gap g')
      (hh : Gap h) (ht : Spells A Gap (.value v) t) (hh' : Gap h')
      (hus : Spells A Gap (.members ms) us) :
      Spells A Gap (.members ((name, v) :: ms))
        (g ++ (k ++ (g' ++ colon :: (h ++ (t ++ (h' ++ comma :: us))))))

/-- What `skip` passes over. -/
def Space (g : List UInt8) : Prop := ∀ c ∈ g, c ≠ 0 ∧ c ≤ 32

variable {A : Doubles D} {Gap Gap' : List UInt8 → Prop} {ph : Phrase D} {t : List UInt8}

theorem Spells.mono (hgap : ∀ g, Gap g → Gap' g) (h : Spells A Gap ph t) : Spells A Gap' ph t := by
  induction h with
  | null => exact .null
  | bool b => exact .bool b
  | number h => exact .number h
  | string h => exact .string h
  | emptyArray hg => exact .emptyArray (hgap _ hg)
  | array _ ih => exact .array ih
  | emptyObject hg => exact .emptyObject (hgap _ hg)
  | object _ ih => exact .object ih
  | lastElement hg _ hg' ih => exact .lastElement (hgap _ hg) ih (hgap _ hg')
  | element hg _ hg' _ ih ihs => exact .element (hgap _ hg) ih (hgap _ hg') ihs
  | lastMember hg hk hg' hh _ hh' ih =>
      exact .lastMember (hgap _ hg) hk (hgap _ hg') (hgap _ hh) ih (hgap _ hh')
  | member hg hk hg' hh _ hh' _ ih ihs =>
      exact .member (hgap _ hg) hk (hgap _ hg') (hgap _ hh) ih (hgap _ hh') ihs

/-! ## Integers -/

/-- Sums and products of integers are exact while they have no more than 53 bits. -/
structure Doubles.Exact (A : Doubles D) : Prop where
  add : ∀ a b : Int, a.natAbs ≤ 2 ^ 53 → b.natAbs ≤ 2 ^ 53 → (a + b).natAbs ≤ 2 ^ 53 →
    A.add (A.ofInt a) (A.ofInt b) = A.ofInt (a + b)
  mul : ∀ a b : Int, a.natAbs ≤ 2 ^ 53 → b.natAbs ≤ 2 ^ 53 → (a * b).natAbs ≤ 2 ^ 53 →
    A.mul (A.ofInt a) (A.ofInt b) = A.ofInt (a * b)
  pow10_zero : A.pow10 0 = A.ofInt 1
  toInt : ∀ n : Int, toCInt n = n → A.toInt (A.ofInt n) = n

/-- The integers as doubles: what is below one is cut off. -/
def integers : Doubles Int where
  ofInt := id
  add := (· + ·)
  mul := (· * ·)
  pow10 e := if e < 0 then 0 else 10 ^ e.toNat
  toInt := id

theorem integers_exact : integers.Exact where
  add _ _ _ _ _ := rfl
  mul _ _ _ _ _ := rfl
  pow10_zero := rfl
  toInt _ _ := rfl

end Json
end AbsPlatform
