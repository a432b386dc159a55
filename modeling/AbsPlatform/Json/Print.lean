import AbsPlatform.Json.Parse
import AbsPlatform.Lib.Emitter
import AbsPlatform.Lib.Decimal

/-!
# Print — the printer of cJSON

`cJSON_Print` puts the text of a tree together from the texts of its parts.  At each step the length
of the text is computed first, a block of that size is allocated, and the text is written into it;
a write behind the end of the block has no result here.  `fmt` asks for white space, and `depth`
counts the objects and arrays around an item.  Memory is never short, and no text is longer than an
`int`.
-/

namespace AbsPlatform
namespace Json

open Lib Lib.Emitter

/-- What the printer needs of a `double`: its tests, and the conversions of `sprintf`. -/
structure Rendering (D : Type) extends Doubles D where
  /-- `fabs(((double)valueint)-d)<=DBL_EPSILON && d<=INT_MAX && d>=INT_MIN` -/
  isInt : Int → D → Bool
  /-- `fabs(floor(d)-d)<=DBL_EPSILON && fabs(d)<1.0e60` -/
  isWhole : D → Bool
  /-- `fabs(d)<1.0e-6 || fabs(d)>1.0e9` -/
  isExtreme : D → Bool
  /-- `%.0f` -/
  whole : D → CString
  /-- `%e` -/
  scientific : D → CString
  /-- `%f` -/
  fixed : D → CString

variable {D : Type}

/-- Write with `e` into a block of `cap` bytes, then the terminator. -/
def printInto (cap : Nat) (e : Emitter UInt8) : Option CString :=
  ((e >=> put cap [0]) []).map CString.ofBuffer

/-! ## print_number -/

/-- `%d`. -/
def intText (n : Int) : List UInt8 :=
  if n < 0 then minus :: decimal n.natAbs else decimal n.natAbs

def printNumber (R : Rendering D) (valueint : Int) (d : D) : Option CString :=
  if R.isInt valueint d then printInto 21 (put 21 (intText valueint))
  else if R.isWhole d then printInto 64 (put 64 (R.whole d).bytes)
  else if R.isExtreme d then printInto 64 (put 64 (R.scientific d).bytes)
  else printInto 64 (put 64 (R.fixed d).bytes)

/-! ## print_string_ptr -/

/-- The first loop: the characters of one token. -/
def tokenLength (c : UInt8) : Nat :=
  if c ∈ [quote, backslash, 8, 12, 10, 13, 9] then 2 else if c < 32 then 6 else 1

def hexChar (n : Nat) : UInt8 := UInt8.ofNat (if n < 10 then 48 + n else 87 + n)

/-- `"u%04x"`. -/
def unicodeText (c : UInt8) : List UInt8 :=
  [117, 48, 48, hexChar (c.toNat / 16), hexChar (c.toNat % 16)]

/-- The cases of the `switch`, and what is written for them behind the backslash. -/
def printedEscapes : List (UInt8 × UInt8) :=
  [(backslash, backslash), (quote, quote), (8, 98), (12, 102), (10, 110), (13, 114), (9, 116)]

/-- One turn of the second loop. -/
def printToken (cap : Nat) (c : UInt8) : Emitter UInt8 :=
  if 31 < c ∧ c ≠ quote ∧ c ≠ backslash then put cap [c]
  else
    put cap [backslash] >=>
      match printedEscapes.lookup c with
      | some e => put cap [e]
      | none => copy cap (unicodeText c)

def printStringPtr : Option CString → Option CString
  | none => some (CString.ofBuffer [])
  | some str =>
      let cap := (str.bytes.map tokenLength).sum + 3
      printInto cap (put cap [quote] >=> each (printToken cap) str.bytes >=> put cap [quote])

/-! ## print_array -/

/-- What is written only if `fmt`. -/
def ifFmt (fmt : Bool) (text : List UInt8) : List UInt8 := if fmt then text else []

/-- The texts of the elements, from one on. -/
def composeElements (cap : Nat) (fmt : Bool) : List CString → Emitter UInt8
  | [] => some
  | [entry] => copy cap entry.bytes
  | entry :: entries =>
      copy cap entry.bytes >=> put cap (comma :: ifFmt fmt [32]) >=> mark cap >=>
        composeElements cap fmt entries

def printArray (fmt : Bool) (entries : List CString) : Option CString :=
  if entries = [] then (copy 3 [openBracket, closeBracket] []).map CString.ofBuffer
  else
    let cap := 5 + (entries.map fun ret => ret.strlen + 2 + if fmt then 1 else 0).sum
    printInto cap
      (put cap [openBracket] >=> mark cap >=> composeElements cap fmt entries >=>
        put cap [closeBracket])

/-! ## print_object -/

def tabs (n : Nat) : List UInt8 := List.replicate n 9

/-- A name, and the text of the value; `last` leaves out the comma. -/
def composeMember (cap : Nat) (fmt : Bool) (depth : Nat) (last : Bool) (m : CString × CString) :
    Emitter UInt8 :=
  put cap (ifFmt fmt (tabs depth)) >=> copy cap m.1.bytes >=> put cap (colon :: ifFmt fmt [9]) >=>
    copy cap m.2.bytes >=> put cap ((if last then [] else [comma]) ++ ifFmt fmt [10]) >=> mark cap

def composeMembers (cap : Nat) (fmt : Bool) (depth : Nat) : List (CString × CString) → Emitter UInt8
  | [] => some
  | [m] => composeMember cap fmt depth true m
  | m :: ms => composeMember cap fmt depth false m >=> composeMembers cap fmt depth ms

/-- With the names and entries printed one level deeper. -/
def printObject (fmt : Bool) (depth : Nat) (members : List (CString × CString)) : Option CString :=
  if members = [] then
    let cap := if fmt then depth + 4 else 3
    printInto cap (put cap (openBrace :: ifFmt fmt (10 :: tabs (depth - 1)) ++ [closeBrace]))
  else
    let cap := 7 + (if fmt then depth + 1 else 0) +
      (members.map fun (str, ret) =>
        ret.strlen + str.strlen + 2 + if fmt then 2 + (depth + 1) else 0).sum
    printInto cap
      (put cap (openBrace :: ifFmt fmt [10]) >=> mark cap >=>
        composeMembers cap fmt (depth + 1) members >=>
        put cap (ifFmt fmt (tabs depth) ++ [closeBrace]))

/-! ## print_value -/

def Item.string : Item D → Option CString
  | .node _ string _ _ _ _ => string

mutual

def printValue (R : Rendering D) (fmt : Bool) : Item D → Nat → Option CString
  | .node .null _ _ _ _ _, _ => some (CString.ofBuffer nullText)
  | .node .false _ _ _ _ _, _ => some (CString.ofBuffer falseText)
  | .node .true _ _ _ _ _, _ => some (CString.ofBuffer trueText)
  | .node .number _ _ valueint valuedouble _, _ => printNumber R valueint valuedouble
  | .node .string _ valuestring _ _ _, _ => printStringPtr valuestring
  | .node .array _ _ _ _ child, depth => do printArray fmt (← printElements R fmt child (depth + 1))
  | .node .object _ _ _ _ child, depth => do
      printObject fmt depth (← printMembers R fmt child (depth + 1))

/-- `entries`. -/
def printElements (R : Rendering D) (fmt : Bool) : List (Item D) → Nat → Option (List CString)
  | [], _ => some []
  | item :: items, depth => do
      let ret ← printValue R fmt item depth
      return ret :: (← printElements R fmt items depth)

/-- `names` and `entries`. -/
def printMembers (R : Rendering D) (fmt : Bool) :
    List (Item D) → Nat → Option (List (CString × CString))
  | [], _ => some []
  | item :: items, depth => do
      let str ← printStringPtr item.string
      let ret ← printValue R fmt item depth
      return (str, ret) :: (← printMembers R fmt items depth)

end

/-- `cJSON_Print` and `cJSON_PrintUnformatted`. -/
def cJSONPrint (R : Rendering D) (fmt : Bool) (item : Item D) : Option CString :=
  printValue R fmt item 0

end Json
end AbsPlatform
