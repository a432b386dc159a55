import AbsPlatform.Include
import AbsPlatform.Lib.Scanner

/-!
# Parse — the parser of cJSON

`MCS/cJSON.c` turns the text of a configuration into a tree of items.  The text is a block of
memory: the parser stops at its terminator if it looks at every byte in turn, and a read behind the
end of the block is a fault.  The parser reports where it stopped through `ep`, which is the place
of a failure here.

Numbers are doubles; what they are is left open (`Doubles`).  Memory is never short.
-/

namespace AbsPlatform
namespace Json

open Lib Lib.Scanner

/-! ## Items -/

/-- The arithmetic of a `double`. -/
structure Doubles (D : Type) where
  /-- conversion from an integer -/
  ofInt : Int → D
  add : D → D → D
  mul : D → D → D
  /-- `pow(10.0, e)` -/
  pow10 : Int → D
  /-- `(int)` -/
  toInt : D → Int

/-- `cJSON_False` and so on. -/
inductive ItemType
  | false
  | true
  | null
  | number
  | string
  | array
  | object
  deriving DecidableEq

/-- A `cJSON` structure; `child` are the items from the first child on. -/
inductive Item (D : Type)
  | node (type : ItemType) (string valuestring : Option CString) (valueint : Int)
      (valuedouble : D) (child : List (Item D))

variable {D : Type}

/-- `child->string = child->valuestring`, on an item that has been parsed. -/
def Item.named (name : CString) : Item D → Item D
  | .node type _ valuestring valueint valuedouble child =>
      .node type (some name) valuestring valueint valuedouble child

section

variable (A : Doubles D)

/-! What is left in a new item, which is all zero, for each kind of value. -/

def nullItem : Item D := .node .null none none 0 (A.ofInt 0) []

def boolItem (b : Bool) : Item D :=
  .node (if b then .true else .false) none none (if b then 1 else 0) (A.ofInt 0) []

def numberItem (n : D) : Item D := .node .number none none (A.toInt n) n []

def stringItem (s : CString) : Item D := .node .string none (some s) 0 (A.ofInt 0) []

def arrayItem (elements : List (Item D)) : Item D := .node .array none none 0 (A.ofInt 0) elements

def objectItem (members : List (Item D)) : Item D := .node .object none none 0 (A.ofInt 0) members

end

/-! ## Characters -/

@[simp] def quote : UInt8 := 34
@[simp] def plus : UInt8 := 43
@[simp] def comma : UInt8 := 44
@[simp] def minus : UInt8 := 45
@[simp] def dot : UInt8 := 46
@[simp] def slash : UInt8 := 47
@[simp] def colon : UInt8 := 58
@[simp] def openBracket : UInt8 := 91
@[simp] def backslash : UInt8 := 92
@[simp] def closeBracket : UInt8 := 93
@[simp] def openBrace : UInt8 := 123
@[simp] def closeBrace : UInt8 := 125

def isDigit (c : UInt8) : Bool := 48 ≤ c && c ≤ 57

/-- `"null"`, `"false"` and `"true"`. -/
def nullText : List UInt8 := [110, 117, 108, 108]
def falseText : List UInt8 := [102, 97, 108, 115, 101]
def trueText : List UInt8 := [116, 114, 117, 101]

/-- `skip`. -/
def skip : Scanner UInt8 Unit
  | [] => .fault
  | c :: s => if c ≠ 0 ∧ c ≤ 32 then skip s else .done () (c :: s)

/-- `!strncmp(value, word, strlen(word))`, for a word without NUL: reading ends at the first
difference. -/
def startsWith : List UInt8 → List UInt8 → Option Bool
  | [], _ => some true
  | _ :: _, [] => none
  | w :: word, c :: s => if c = w then startsWith word s else some false

/-! ## parse_number -/

/-- A loop over digits. -/
def digits {α : Type} (add : α → UInt8 → α) : α → Scanner UInt8 α
  | _, [] => .fault
  | n, c :: s => if isDigit c then digits add (add n c) s else .done n (c :: s)

/-- `n = n * 10.0 + (*num++ - '0')`. -/
def addDigit (A : Doubles D) (n : D) (c : UInt8) : D :=
  A.add (A.mul n (A.ofInt 10)) (A.ofInt (c.toNat - 48))

def numberSign : Scanner UInt8 Int := do
  if (← peek) = minus then
    advance 1
    return -1
  else
    return 1

def leadingZero : Scanner UInt8 Unit := do
  if (← peek) = 48 then advance 1 else return ()

def integerPart (A : Doubles D) : Scanner UInt8 D := do
  let c ← peek
  if 49 ≤ c ∧ c ≤ 57 then digits (addDigit A) (A.ofInt 0) else return A.ofInt 0

/-- The number with the digits behind the point, and `scale`. -/
def fraction (A : Doubles D) (n : D) : Scanner UInt8 (D × Int) := do
  if (← peek) = dot then
    if isDigit (← peekAt 1) then
      advance 1
      digits (fun (n, scale) c => (addDigit A n c, scale - 1)) (n, 0)
    else
      return (n, 0)
  else
    return (n, 0)

/-- `subscale`, an `int`. -/
def exponentDigits : Scanner UInt8 Int :=
  digits (fun subscale c => toCInt (subscale * 10 + (c.toNat - 48))) 0

/-- `subscale * signsubscale`. -/
def exponent : Scanner UInt8 Int := do
  let c ← peek
  if c = 101 ∨ c = 69 then
    advance 1
    let c ← peek
    if c = plus then
      advance 1
      exponentDigits
    else if c = minus then
      advance 1
      return -(← exponentDigits)
    else
      exponentDigits
  else
    return 0

def parseNumber (A : Doubles D) : Scanner UInt8 (Item D) := do
  let sign ← numberSign
  leadingZero
  let n ← integerPart A
  let (n, scale) ← fraction A n
  let subscale ← exponent
  return numberItem A (A.mul (A.mul (A.ofInt sign) n) (A.pow10 (scale + subscale)))

/-! ## parse_string -/

def hexDigit? (c : UInt8) : Option Nat :=
  if 48 ≤ c ∧ c ≤ 57 then some (c.toNat - 48)
  else if 65 ≤ c ∧ c ≤ 70 then some (10 + c.toNat - 65)
  else if 97 ≤ c ∧ c ≤ 102 then some (10 + c.toNat - 97)
  else none

/-- `k` more digits of `parse_hex4`, which returns 0 at the first other character. -/
def parseHexDigits : Nat → Nat → List UInt8 → Option Nat
  | 0, h, _ => some h
  | _ + 1, _, [] => none
  | k + 1, h, c :: s =>
      match hexDigit? c with
      | none => some 0
      | some d => parseHexDigits k (h <<< 4 + d) s

def parseHex4 (s : List UInt8) : Option Nat := parseHexDigits 4 0 s

/-- `(uc | 0x80) & 0xBF`. -/
def tailByte (uc : Nat) : UInt8 := ((uc ||| 0x80) &&& 0xBF).toUInt8

/-- The bytes the `switch (len)` writes, the last one first in the source. -/
def utf8Bytes (uc : Nat) : List UInt8 :=
  if uc < 0x80 then [uc.toUInt8]
  else if uc < 0x800 then [((uc >>> 6) ||| 0xC0).toUInt8, tailByte uc]
  else if uc < 0x10000 then [((uc >>> 12) ||| 0xE0).toUInt8, tailByte (uc >>> 6), tailByte uc]
  else
    [((uc >>> 18) ||| 0xF0).toUInt8, tailByte (uc >>> 12), tailByte (uc >>> 6), tailByte uc]

/-- The case `'u'`, with the text behind the `u`: what is written, and how far the pointer moves
from the `u` to the end of the turn. -/
def unescapeUnicode (s : List UInt8) : Option (List UInt8 × Nat) := do
  let uc ← parseHex4 s
  if (0xDC00 ≤ uc ∧ uc ≤ 0xDFFF) ∨ uc = 0 then
    return ([], 5)
  else if 0xD800 ≤ uc ∧ uc ≤ 0xDBFF then
    -- `ptr[2]` is read only behind a backslash
    if (← s[4]?) ≠ backslash then
      return ([], 5)
    else if (← s[5]?) ≠ 117 then
      return ([], 5)
    else
      let uc2 ← parseHex4 (s.drop 6)
      if uc2 < 0xDC00 ∨ 0xDFFF < uc2 then
        return ([], 11)
      else
        return (utf8Bytes (0x10000 + (((uc &&& 0x3FF) <<< 10) ||| (uc2 &&& 0x3FF))), 11)
  else
    return (utf8Bytes uc, 5)

/-- The characters `b`, `f`, `n`, `r` and `t` behind a backslash, and what they stand for. -/
def controlEscapes : List (UInt8 × UInt8) := [(98, 8), (102, 12), (110, 10), (114, 13), (116, 9)]

/-- The `switch (*ptr)` behind a backslash. -/
def unescape : List UInt8 → Option (List UInt8 × Nat)
  | [] => none
  | c :: s =>
      match controlEscapes.lookup c with
      | some b => some ([b], 1)
      | none => if c = 117 then unescapeUnicode s else some ([c], 1)

/-- The first loop: the number of characters, an escaped one as one. -/
def stringLength : List UInt8 → Option Nat
  | [] => none
  | c :: s =>
      if c = quote ∨ c = 0 then some 0
      else if c = backslash then
        match s with
        | [] => none
        | _ :: s => (stringLength s).map (· + 1)
      else (stringLength s).map (· + 1)

/-- The second loop, into a block of `cap` bytes of which `out` are written; `n` is how far the
pointer still has to move after an escape. -/
def copyString (cap : Nat) : Nat → List UInt8 → Scanner UInt8 (List UInt8)
  | _, _, [] => .fault
  | n + 1, out, _ :: s => copyString cap n out s
  | 0, out, c :: s =>
      if c = quote ∨ c = 0 then .done out (c :: s)
      else if c = backslash then
        match unescape s with
        | none => .fault
        | some (bytes, n) =>
            if out.length + bytes.length ≤ cap then copyString cap n (out ++ bytes) s else .fault
      else if out.length < cap then copyString cap 0 (out ++ [c]) s
      else .fault

/-- `*ptr2 = 0` and `if (*ptr == '\"') ptr++`. -/
def closeString (len : Nat) (out : List UInt8) : Scanner UInt8 CString := do
  if out.length < len + 1 then
    if (← peek) = quote then
      advance 1
      return CString.ofBuffer out
    else
      return CString.ofBuffer out
  else
    outside

def parseString : Scanner UInt8 CString := do
  if (← peek) = quote then
    advance 1
    let len ← look stringLength
    let out ← copyString (len + 1) 0 []
    closeString len out
  else
    failHere

/-! ## parse_value -/

/-- `parse_array`, with what parses the elements. -/
def parseArray (elements : Scanner UInt8 (List (Item D))) : Scanner UInt8 (List (Item D)) := do
  advance 1
  skip
  if (← peek) = closeBracket then
    advance 1
    return []
  else
    elements

/-- `parse_object`, with what parses the members. -/
def parseObject (members : Scanner UInt8 (List (Item D))) : Scanner UInt8 (List (Item D)) := do
  advance 1
  skip
  if (← peek) = closeBrace then
    advance 1
    return []
  else
    members

/-- Behind an element or a member: another one, the end of the list, or a failure. -/
def parseNext (close : UInt8) (item : Item D) (more : Scanner UInt8 (List (Item D))) :
    Scanner UInt8 (List (Item D)) := do
  let c ← peek
  if c = comma then
    advance 1
    return item :: (← more)
  else if c = close then
    advance 1
    return [item]
  else
    failHere

mutual

/-- `parse_value`.  The first argument bounds the depth of the calls and the number of elements. -/
def parseValue (A : Doubles D) : Nat → Scanner UInt8 (Item D)
  | 0 => outside
  | fuel + 1 => do
      if ← look (startsWith nullText) then
        advance 4
        return nullItem A
      else if ← look (startsWith falseText) then
        advance 5
        return boolItem A false
      else if ← look (startsWith trueText) then
        advance 4
        return boolItem A true
      else
        let c ← peek
        if c = quote then return stringItem A (← parseString)
        else if c = minus ∨ isDigit c then parseNumber A
        else if c = openBracket then return arrayItem A (← parseArray (parseElements A fuel))
        else if c = openBrace then return objectItem A (← parseObject (parseMembers A fuel))
        else failHere

/-- The elements of an array, from one on. -/
def parseElements (A : Doubles D) : Nat → Scanner UInt8 (List (Item D))
  | 0 => outside
  | fuel + 1 => do
      skip
      let item ← parseValue A fuel
      skip
      parseNext closeBracket item (parseElements A fuel)

/-- The members of an object, from one on. -/
def parseMembers (A : Doubles D) : Nat → Scanner UInt8 (List (Item D))
  | 0 => outside
  | fuel + 1 => do
      skip
      let name ← parseString
      skip
      if (← peek) = colon then
        advance 1
        skip
        let item ← parseValue A fuel
        skip
        parseNext closeBrace (item.named name) (parseMembers A fuel)
      else
        failHere

end

/-- Every call and every element takes at least one character, so this is enough. -/
def parseFuel (s : List UInt8) : Nat := 2 * s.length + 1

/-- `cJSON_Parse`: the item and the place behind its text. -/
def cJSONParse (A : Doubles D) : Scanner UInt8 (Item D) := do
  skip
  fun s => parseValue A (parseFuel s) s

/-- `cJSON_ParseWithOpts` that requires the terminator behind the item. -/
def cJSONParseTerminated (A : Doubles D) : Scanner UInt8 (Item D) := do
  let item ← cJSONParse A
  skip
  if (← peek) = 0 then return item else failHere

end Json
end AbsPlatform
