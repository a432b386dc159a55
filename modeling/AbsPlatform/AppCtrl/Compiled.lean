import AbsPlatform.AppCtrl.Manifest
import AbsPlatform.Lib.LittleEndian
import AbsPlatform.Lib.Placed

/-!
# Compiled — the compiled form of a document, and what the decoder makes of it

A compiled document is a header, a table of strings and a row of tags that name strings by their
index.  `CompiledXml` has the words of such a file with the names they have in the format, the ones
that the decoder passes over included; its `document` is what the indexes stand for.

`decompressXML` gives the text of the document, behind what was in the block before
(`decompressXML_compiled`).  The number of strings, their length up to 65535 characters, the number
of tags and attributes and what stands between the strings and the tags are arbitrary.
-/

namespace AbsPlatform
namespace AppCtrl

open Lib

/-! ## Documents -/

inductive Tag
  /-- a name, and attributes with or without a string for their value -/
  | start (name : CString) (attributes : List (CString × Option CString))
  | finish (name : CString)
  deriving DecidableEq

namespace Tag

def attributesText (attributes : List (CString × Option CString)) : List UInt8 :=
  attributes.flatMap fun a => Manifest.attributeText a.1 (a.2.getD Manifest.noValue)

def text : Tag → List UInt8
  | start name attributes => [60] ++ name.bytes ++ attributesText attributes ++ [62, 10]
  | finish name => [60, 47] ++ name.bytes ++ [62, 10]

end Tag

def documentText (doc : List Tag) : List UInt8 := doc.flatMap Tag.text

/-! ## Files -/

/-- The characters of a string: for each one the byte that is kept and the one that is not. -/
abbrev WideString := List (UInt8 × UInt8)

def WideString.narrow (s : WideString) : CString := CString.ofBuffer (s.map Prod.fst)

def WideString.bytes (s : WideString) : List UInt8 :=
  leBytes 2 s.length ++ s.flatMap (fun c => [c.1, c.2]) ++ [0, 0]

theorem WideString.bytes_ne_nil (s : WideString) : s.bytes ≠ [] := by
  simp [WideString.bytes, leBytes]

structure AttributeCode where
  ns : UInt32
  name : Nat
  value : Option Nat
  typedValue : UInt32
  data : UInt32

def startWord : UInt32 := 0x00100102

def endWord : UInt32 := 0x00100103

/-- The word for a string that is not there. -/
def noString : UInt32 := 0xFFFFFFFF

def indexWord (i : Nat) : UInt32 := UInt32.ofNat i

def AttributeCode.words (a : AttributeCode) : List UInt32 :=
  [a.ns, indexWord a.name, a.value.elim noString indexWord, a.typedValue, a.data]

/-- The words in front of the namespace of a tag. -/
structure TagHead where
  size : UInt32
  lineNumber : UInt32
  comment : UInt32

inductive TagCode
  | start (head : TagHead) (ns : UInt32) (name : Nat) (attributeStart classIndex : UInt32)
      (attributes : List AttributeCode)
  | finish (head : TagHead) (ns : UInt32) (name : Nat)

namespace TagCode

/-- The words of a tag, its attributes apart. -/
def ownWords : TagCode → List UInt32
  | start head ns name attributeStart classIndex attributes =>
      [startWord, head.size, head.lineNumber, head.comment, ns, indexWord name, attributeStart,
        indexWord attributes.length, classIndex]
  | finish head ns name =>
      [endWord, head.size, head.lineNumber, head.comment, ns, indexWord name]

def attributes : TagCode → List AttributeCode
  | start _ _ _ _ _ attributes => attributes
  | finish _ _ _ => []

def bytes (tag : TagCode) : List UInt8 :=
  tag.ownWords.flatMap bytes32 ++ tag.attributes.flatMap fun a => a.words.flatMap bytes32

theorem bytes_ne_nil (tag : TagCode) : tag.bytes ≠ [] := by
  cases tag <;> simp [bytes, ownWords, bytes32, leBytes]

def isStart : TagCode → Bool
  | start _ _ _ _ _ _ => true
  | finish _ _ _ => false

/-- The indexes of the strings of a tag. -/
def indexes : TagCode → List Nat
  | start _ _ name _ _ attributes => name :: attributes.flatMap fun a => a.name :: a.value.toList
  | finish _ _ name => [name]

end TagCode

structure CompiledXml where
  magic : UInt32
  fileSize : UInt32
  chunkType : UInt32
  /-- where the search for the first tag begins -/
  chunkSize : Nat
  styleCount : UInt32
  flags : UInt32
  stringsStart : UInt32
  stylesStart : UInt32
  strings : List WideString
  /-- what stands between the strings and the tags -/
  gap : List UInt8
  tags : List TagCode
  /-- what stands behind the tags -/
  rest : List UInt8

namespace CompiledXml

variable (c : CompiledXml)

def header : List UInt32 :=
  [c.magic, c.fileSize, c.chunkType, indexWord c.chunkSize, indexWord c.strings.length,
    c.styleCount, c.flags, c.stringsStart, c.stylesStart]

/-- Where string `i` begins, counted from the first one. -/
def entry (i : Nat) : Nat := ((c.strings.take i).flatMap WideString.bytes).length

def entries : List UInt32 := (List.range c.strings.length).map fun i => indexWord (c.entry i)

/-- Everything in front of the tags. -/
def front : List UInt8 :=
  c.header.flatMap bytes32 ++ c.entries.flatMap bytes32 ++ c.strings.flatMap WideString.bytes ++
    c.gap

def bytes : List UInt8 := c.front ++ c.tags.flatMap TagCode.bytes ++ c.rest

/-- The first tag is a start tag, the search comes to it from `chunkSize` in steps of one word, what
is behind the last tag is none, and the indexes are those of strings. -/
structure Valid : Prop where
  short : c.bytes.length + 24 ≤ 2147483648
  lengths : ∀ s ∈ c.strings, s.length < 65536
  first : c.tags.head?.any TagCode.isStart = true
  search : ∃ k, c.chunkSize + 4 * k = c.front.length ∧
    ∀ j < k, ¬ Placed c.bytes (c.chunkSize + 4 * j) (bytes32 startWord)
  rest : ¬ bytes32 startWord <+: c.rest ∧ ¬ bytes32 endWord <+: c.rest
  indexes : ∀ tag ∈ c.tags, ∀ i ∈ tag.indexes, i < c.strings.length

variable {c}

theorem Valid.length_lt (h : c.Valid) : c.bytes.length < 2147483648 := by
  have := h.short
  omega

/-- The file. -/
def Valid.file (h : c.Valid) : Manifest := ⟨c.bytes, h.length_lt⟩

variable (c)

def string (i : Nat) : CString := WideString.narrow (c.strings.getD i [])

def attributeOf (a : AttributeCode) : CString × Option CString :=
  (c.string a.name, a.value.map c.string)

/-- The tag that the indexes stand for. -/
def tagOf : TagCode → Tag
  | .start _ _ name _ _ attributes => .start (c.string name) (attributes.map c.attributeOf)
  | .finish _ _ name => .finish (c.string name)

def document : List Tag := c.tags.map c.tagOf

end CompiledXml

/-! ## Reading what is placed -/

namespace Manifest

section

variable (xml : Manifest)

/-- A byte of what is placed, at its distance from the first one. -/
theorem value_charAt {o k : Nat} {bs : List UInt8} {b : UInt8} (h : Placed xml.bytes o bs)
    (hk : bs[k]? = some b) {i : Int} (hi : i = o + k) : (xml.charAt i).value = some b := by
  rcases List.getElem?_eq_some_iff.1 hk with ⟨hlt, _⟩
  have hval : (xml.charAt i).value = xml.byte? i := rfl
  have hnat : i.toNat = o + k := by omega
  rw [hval, byte?, if_pos (by omega), hnat, h.getElem? hlt, hk]

/-- Offsets inside the file do not overflow. -/
theorem toCInt_inside {i : Int} (hpos : 0 ≤ i) (hi : i ≤ xml.cb) : toCInt i = i := by
  have hcb : xml.cb < 2147483648 := cb_lt
  exact toCInt_of_lt (by omega) (by omega)

theorem placed_le_cb {o : Nat} {bs : List UInt8} (h : Placed xml.bytes o bs) (hne : bs ≠ []) :
    (o : Int) + bs.length ≤ xml.cb := by
  have := h.add_length_le hne
  unfold cb
  omega

theorem bytes32_ne_nil (w : UInt32) : bytes32 w ≠ [] := by simp [bytes32, leBytes]

theorem value_lew {o : Nat} {w : UInt32} (h : Placed xml.bytes o (bytes32 w)) :
    (xml.lew o).value = some (toCInt w.toNat) := by
  have hle := xml.placed_le_cb h (bytes32_ne_nil w)
  rw [length_bytes32] at hle
  -- the four bytes of the word, one after the other
  obtain ⟨b0, b1, b2, b3, hbytes⟩ : ∃ b0 b1 b2 b3, bytes32 w = [b0, b1, b2, b3] :=
    ⟨_, _, _, _, rfl⟩
  have hvalue : leValue [b0, b1, b2, b3] = w.toNat := by
    rw [← hbytes, bytes32, leValue_leBytes]
    exact Nat.mod_eq_of_lt w.toNat_lt
  rw [hbytes] at h
  have h0 := xml.value_charAt h (k := 0) rfl (Int.add_zero o).symm
  have h1 := xml.value_charAt h (k := 1) (i := o + 1) rfl rfl
  have h2 := xml.value_charAt h (k := 2) (i := o + 2) rfl rfl
  have h3 := xml.value_charAt h (k := 3) (i := o + 3) rfl rfl
  rw [lew, xml.toCInt_inside (i := o + 3) (by omega) (by omega), if_pos (by omega),
    xml.toCInt_inside (i := o + 2) (by omega) (by omega),
    xml.toCInt_inside (i := o + 1) (by omega) (by omega)]
  simp only [Checked.value_bind, h0, h1, h2, h3, Option.bind_some, hvalue, Checked.value_pure]

/-- A word of a row, at its distance from the first one. -/
theorem value_word {o k : Nat} {ws : List UInt32} {w : UInt32}
    (h : Placed xml.bytes o (ws.flatMap bytes32)) (hk : ws[k]? = some w) {i : Int}
    (hi : i = o + 4 * k) : (xml.lew (toCInt i)).value = some (toCInt w.toNat) := by
  have hword := h.flatMap_of_length length_bytes32 hk
  have hle := xml.placed_le_cb hword (bytes32_ne_nil w)
  rw [length_bytes32] at hle
  have hi' : toCInt i = ((o + 4 * k : Nat) : Int) := by
    rw [xml.toCInt_inside (by omega) (by omega), hi]
    simp
  rw [hi']
  exact xml.value_lew hword

theorem toCInt_inj {a b : Nat} (ha : a < 4294967296) (hb : b < 4294967296)
    (h : toCInt a = toCInt b) : a = b := by
  simp only [toCInt, Int.bmod_def] at h
  split_ifs at h <;> omega

/-- A word that is read and is not zero is in the file. -/
theorem placed_of_wordAt {o : Nat} {w : UInt32} (hw : toCInt w.toNat ≠ 0)
    (h : xml.wordAt o = toCInt w.toNat) : Placed xml.bytes o (bytes32 w) := by
  unfold wordAt at h
  split_ifs at h with hin
  · have hlt :=
      leValue_lt [xml.byteAt o, xml.byteAt (o + 1), xml.byteAt (o + 2), xml.byteAt (o + 3)]
    have hvalue := toCInt_inj (by simpa using hlt) w.toNat_lt h
    have hbytes : bytes32 w =
        [xml.byteAt o, xml.byteAt (o + 1), xml.byteAt (o + 2), xml.byteAt (o + 3)] := by
      rw [bytes32, ← hvalue]
      exact leBytes_leValue [_, _, _, _]
    have hbyte (k : Nat) (hk : k < 4) : xml.bytes[o + k]? = some (xml.byteAt (o + k)) := by
      have hlt : o + k < xml.bytes.length := by
        unfold cb at hin
        omega
      have hpos : (0 : Int) ≤ (o : Int) + k := by omega
      have hnat : ((o : Int) + k).toNat = o + k := by omega
      rw [byteAt, byte?, if_pos hpos, hnat, List.getElem?_eq_getElem hlt, Option.getD_some]
    rw [hbytes]
    refine .of_getElem? fun i hi => ?_
    have hi : i = 0 ∨ i = 1 ∨ i = 2 ∨ i = 3 := by
      simp only [List.length_cons, List.length_nil] at hi
      omega
    rcases hi with rfl | rfl | rfl | rfl
    · simpa using hbyte 0 (by decide)
    · exact hbyte 1 (by decide)
    · exact hbyte 2 (by decide)
    · exact hbyte 3 (by decide)
  · exact absurd h.symm hw

theorem toCInt_indexWord {i : Nat} (h : i < 2147483648) : toCInt (indexWord i).toNat = i := by
  have hnat : (indexWord i).toNat = i := by
    rw [indexWord, UInt32.toNat_ofNat']
    exact Nat.mod_eq_of_lt (by omega)
  rw [hnat, toCInt_of_lt (by omega) (by omega)]

/-- The loop over the characters of a string. -/
theorem value_stringChars {strOff i : Nat} {s : WideString}
    (h : Placed xml.bytes (strOff + 2 + 2 * i) (s.flatMap fun c => [c.1, c.2])) :
    (xml.stringChars strOff s.length i).value = some (s.map Prod.fst) := by
  induction s generalizing i with
  | nil => rfl
  | cons c s ih =>
      rw [List.flatMap_cons] at h
      have hle := xml.placed_le_cb h.left (by simp)
      have hhead := xml.value_charAt h.left (k := 0) rfl (Int.add_zero _).symm
      have hrest := ih (i := i + 1) h.right
      have hoff : toCInt (strOff + 2 + i * 2) = ((strOff + 2 + 2 * i : Nat) : Int) := by
        rw [xml.toCInt_inside (by omega) (by push_cast at hle; omega)]
        push_cast
        omega
      rw [List.length_cons, stringChars, hoff, if_neg (by push_cast at hle ⊢; omega)]
      simp only [Checked.value_bind, hhead, hrest, Option.bind_some, Checked.value_pure,
        List.map_cons]

theorem value_stringAt {o : Nat} {s : WideString} (h : Placed xml.bytes o s.bytes)
    (hlength : s.length < 65536) {ind : Int} (hind : 0 ≤ ind) :
    (xml.stringAt o ind).value = some s.narrow := by
  have hbytes : s.bytes = [UInt8.ofNat s.length] ++ [UInt8.ofNat (s.length / 256)] ++
      ((s.flatMap fun c => [c.1, c.2]) ++ [0, 0]) := by
    simp [WideString.bytes, leBytes]
  rw [hbytes] at h
  have hle := xml.placed_le_cb h.left (by simp)
  have hlow := xml.value_charAt h.left (k := 0) rfl (Int.add_zero o).symm
  have hhigh := xml.value_charAt h.left (k := 1) (i := o + 1) rfl rfl
  have hchars := xml.value_stringChars (i := 0) h.right.left
  have hsize : (UInt8.ofNat (s.length / 256)).toNat * 256 + (UInt8.ofNat s.length).toNat =
      s.length := by
    simp only [UInt8.toNat_ofNat']
    omega
  simp only [List.length_append, List.length_singleton, Nat.cast_add, Nat.cast_one] at hle
  rw [stringAt, xml.toCInt_inside (i := o + 1) (by omega) (by omega),
    xml.toCInt_inside (i := o + 2) (by omega) (by omega)]
  have hin : ¬ (ind < 0 ∨ xml.cb < (o : Int) + 2) := by omega
  simp only [Checked.value_bind, hhigh, hlow, Option.bind_some, if_neg hin, hsize, hchars,
    Checked.value_pure, WideString.narrow]

end

end Manifest

namespace CompiledXml

open Manifest

variable {c : CompiledXml}

/-! ## The parts of the file -/

theorem length_words (ws : List UInt32) : (ws.flatMap bytes32).length = 4 * ws.length := by
  simp [List.length_flatMap, Nat.mul_comm]

theorem placed_header : Placed c.bytes 0 (c.header.flatMap bytes32) := by
  have h := Placed.middle [] (c.header.flatMap bytes32)
    (c.entries.flatMap bytes32 ++ c.strings.flatMap WideString.bytes ++ c.gap ++
      c.tags.flatMap TagCode.bytes ++ c.rest)
  simpa [bytes, front, List.append_assoc] using h

theorem placed_entries : Placed c.bytes 36 (c.entries.flatMap bytes32) := by
  have h := Placed.middle (c.header.flatMap bytes32) (c.entries.flatMap bytes32)
    (c.strings.flatMap WideString.bytes ++ c.gap ++ c.tags.flatMap TagCode.bytes ++ c.rest)
  have hlen : (c.header.flatMap bytes32).length = 36 := length_words c.header
  rw [hlen] at h
  simpa [bytes, front, List.append_assoc] using h

/-- `stOff`, where the strings begin. -/
def stOff (c : CompiledXml) : Nat := 36 + 4 * c.strings.length

theorem placed_strings : Placed c.bytes c.stOff (c.strings.flatMap WideString.bytes) := by
  have h := Placed.middle (c.header.flatMap bytes32 ++ c.entries.flatMap bytes32)
    (c.strings.flatMap WideString.bytes) (c.gap ++ c.tags.flatMap TagCode.bytes ++ c.rest)
  have hlen : (c.header.flatMap bytes32 ++ c.entries.flatMap bytes32).length = c.stOff := by
    rw [List.length_append, length_words, length_words]
    simp [stOff, header, entries]
  rw [hlen] at h
  simpa [bytes, front, List.append_assoc] using h

theorem placed_tags : Placed c.bytes c.front.length (c.tags.flatMap TagCode.bytes) :=
  Placed.middle c.front (c.tags.flatMap TagCode.bytes) c.rest

theorem placed_string {i : Nat} {s : WideString} (hi : c.strings[i]? = some s) :
    Placed c.bytes (c.stOff + c.entry i) s.bytes :=
  placed_strings.flatMap hi

/-! ## Strings -/

theorem value_compXmlString (h : c.Valid) {i : Nat} (hi : i < c.strings.length) :
    (h.file.compXmlString sitOff c.stOff i).value = some (c.string i) := by
  have hget : c.strings[i]? = some c.strings[i] := List.getElem?_eq_getElem hi
  generalize hs : c.strings[i] = s at hget
  have hplaced : Placed h.file.bytes (c.stOff + c.entry i) s.bytes := placed_string hget
  have hle := h.file.placed_le_cb hplaced s.bytes_ne_nil
  have hcb : h.file.cb < 2147483648 := cb_lt
  -- the entry of the table
  have hword : c.entries[i]? = some (indexWord (c.entry i)) := by
    simp [entries, hi]
  have hentry := h.file.value_word placed_entries hword
    (i := sitOff + (i : Int) * 4) (by simp [sitOff]; omega)
  rw [toCInt_indexWord (by omega)] at hentry
  have hoff : toCInt (c.stOff + (c.entry i : Int)) = ((c.stOff + c.entry i : Nat) : Int) := by
    rw [h.file.toCInt_inside (by omega) (by omega)]
    simp
  have hstring : c.string i = s.narrow := by
    simp [string, List.getD_eq_getElem?_getD, hget]
  have hlookup := h.file.value_stringAt hplaced (h.lengths s (List.mem_of_getElem? hget))
    (Int.natCast_nonneg i)
  rw [compXmlString, Checked.value_bind, hentry, Option.bind_some, hoff, hstring]
  exact hlookup

/-! ## Tags -/

/-- An index that is in range is read as it is. -/
theorem Valid.toCInt_index (h : c.Valid) {i : Nat} (hi : i < c.strings.length) :
    toCInt (indexWord i).toNat = i := by
  refine toCInt_indexWord ?_
  have hlen : c.entries.length ≤ c.bytes.length := by
    have hle := List.IsPrefix.length_le (placed_entries (c := c))
    rw [length_words, List.length_drop] at hle
    omega
  have hshort := h.length_lt
  have hentries : c.entries.length = c.strings.length := by simp [entries]
  omega

theorem value_attributeValue (h : c.Valid) {value : Option Nat}
    (hvalue : ∀ i ∈ value, i < c.strings.length) :
    (h.file.attributeValue c.stOff (toCInt (value.elim noString indexWord).toNat)).value =
      some ((value.map c.string).getD noValue) := by
  cases value with
  | none => rfl
  | some i =>
      have hi : i < c.strings.length := hvalue i rfl
      rw [Option.elim_some, h.toCInt_index hi, attributeValue, if_pos (by omega)]
      exact value_compXmlString h hi

def AttributeValid (c : CompiledXml) (a : AttributeCode) : Prop :=
  ∀ i ∈ a.name :: a.value.toList, i < c.strings.length

theorem value_readAttribute (h : c.Valid) {o : Nat} {a : AttributeCode} (ha : c.AttributeValid a)
    (hplaced : Placed c.bytes o (a.words.flatMap bytes32)) :
    (h.file.readAttribute c.stOff o).value =
      some (attributeText (c.attributeOf a).1 ((c.attributeOf a).2.getD noValue)) := by
  have hname : a.name < c.strings.length := ha a.name (by simp)
  have hindex : ∀ i ∈ a.value, i < c.strings.length := fun i hi =>
    ha i (List.mem_cons_of_mem _ (Option.mem_toList.2 hi))
  have hvalue := value_attributeValue h hindex
  have hword (k : Nat) (w : UInt32) (hk : a.words[k]? = some w) {i : Int} (hi : i = o + 4 * k) :=
    h.file.value_word hplaced hk hi
  have hfirst : (h.file.lew o).value = some (toCInt a.ns.toNat) := by
    have hzero : Placed c.bytes (o + 4 * 0) (bytes32 a.ns) :=
      hplaced.flatMap_of_length length_bytes32 rfl
    rw [Nat.mul_zero, Nat.add_zero] at hzero
    exact h.file.value_lew hzero
  have hstring := value_compXmlString h hname
  rw [readAttribute, Checked.value_bind, hfirst, Option.bind_some, Checked.value_bind,
    hword 1 (indexWord a.name) rfl (by omega), Option.bind_some, Checked.value_bind,
    hword 2 (a.value.elim noString indexWord) rfl (by omega), Option.bind_some, Checked.value_bind,
    hword 3 a.typedValue rfl (by omega), Option.bind_some, Checked.value_bind,
    hword 4 a.data rfl (by omega), Option.bind_some, Checked.value_bind, h.toCInt_index hname,
    hstring, Option.bind_some, Checked.value_bind, hvalue]
  rfl

theorem value_attributes (h : c.Valid) {o : Nat} {as : List AttributeCode}
    (has : ∀ a ∈ as, c.AttributeValid a) (concat : List UInt8)
    (hplaced : Placed c.bytes o (as.flatMap fun a => a.words.flatMap bytes32)) :
    (h.file.attributes c.stOff as.length o concat).value =
      some (((o + 20 * as.length : Nat) : Int),
        concat ++ Tag.attributesText (as.map c.attributeOf)) := by
  induction as generalizing o concat with
  | nil => simp [attributes, Tag.attributesText]
  | cons a as ih =>
      rw [List.flatMap_cons] at hplaced
      have hlen : (a.words.flatMap bytes32).length = 20 := length_words a.words
      have hne : a.words.flatMap bytes32 ≠ [] := by simp [AttributeCode.words, bytes32, leBytes]
      have hle := h.file.placed_le_cb hplaced.left hne
      have hattr := value_readAttribute h (has a (by simp)) hplaced.left
      have hnext : toCInt ((o : Int) + 5 * 4) = ((o + 20 : Nat) : Int) := by
        rw [h.file.toCInt_inside (by omega) (by omega)]
        simp
      have hright := hplaced.right
      rw [hlen] at hright hle
      have hrest := ih (fun b hb => has b (by simp [hb]))
        (concat ++ attributeText (c.attributeOf a).1 ((c.attributeOf a).2.getD noValue)) hright
      rw [List.length_cons, attributes, Checked.value_bind, hattr, Option.bind_some, hnext, hrest]
      simp only [Tag.attributesText, List.map_cons, List.flatMap_cons, List.append_assoc,
        Option.some.injEq, Prod.mk.injEq, and_true]
      omega

theorem startWord_eq : toCInt startWord.toNat = Manifest.startTag := by decide

theorem endWord_eq : toCInt endWord.toNat = Manifest.endTag := by decide

/-- The length of a tag. -/
def TagCode.size (tag : TagCode) : Nat := 4 * tag.ownWords.length + 20 * tag.attributes.length

theorem length_tagBytes (tag : TagCode) : tag.bytes.length = TagCode.size tag := by
  have hattr : ∀ a : AttributeCode, (a.words.flatMap bytes32).length = 20 := fun a =>
    length_words a.words
  simp [TagCode.bytes, TagCode.size, List.length_flatMap, hattr, Nat.mul_comm]

/-- One turn of the loop, on a tag of the file. -/
theorem value_readTag (h : c.Valid) {o : Nat} {tag : TagCode} (htag : tag ∈ c.tags)
    (hplaced : Placed c.bytes o tag.bytes) (result : List UInt8) :
    (h.file.readTag c.stOff o result).value =
      some (some (((o + TagCode.size tag : Nat) : Int), result ++ (c.tagOf tag).text)) := by
  have hindexes := h.indexes tag htag
  have hle := h.file.placed_le_cb hplaced tag.bytes_ne_nil
  rw [length_tagBytes] at hle
  have hcb : h.file.cb = c.bytes.length := rfl
  have hword (k : Nat) (w : UInt32) (hk : tag.ownWords[k]? = some w) {i : Int}
      (hi : i = o + 4 * k) := h.file.value_word hplaced.left hk hi
  have hfirst (w : UInt32) (hw : tag.ownWords[0]? = some w) :
      (h.file.lew o).value = some (toCInt w.toNat) := by
    have hzero := hplaced.left.flatMap_of_length length_bytes32 hw
    rw [Nat.mul_zero, Nat.add_zero] at hzero
    exact h.file.value_lew hzero
  cases tag with
  | start head ns name attributeStart classIndex as =>
      have hname : name < c.strings.length := hindexes name (by simp [TagCode.indexes])
      have hsize : TagCode.size (.start head ns name attributeStart classIndex as) =
          36 + 20 * as.length := rfl
      rw [hsize] at hle ⊢
      have hstring := value_compXmlString h hname
      have hright := hplaced.right
      have hlen :
          (TagCode.ownWords (.start head ns name attributeStart classIndex as)).length = 9 := rfl
      rw [length_words, hlen] at hright
      have has : ∀ a ∈ as, c.AttributeValid a := by
        intro a ha i hi
        refine hindexes i ?_
        simp only [TagCode.indexes, List.mem_cons, List.mem_flatMap]
        exact .inr ⟨a, ha, List.mem_cons.1 hi⟩
      have hattrs := value_attributes h has [] hright
      have hcount : (toCInt (indexWord as.length).toNat).toNat = as.length := by
        rw [toCInt_indexWord (by have : h.file.cb < 2147483648 := cb_lt; omega), Int.toNat_natCast]
      have hnext : toCInt ((o : Int) + 9 * 4) = ((o + 4 * 9 : Nat) : Int) := by
        rw [h.file.toCInt_inside (by omega) (by omega)]
        simp
      rw [readTag, Checked.value_bind, hfirst startWord rfl, Option.bind_some, Checked.value_bind,
        hword 2 head.lineNumber rfl (by omega), Option.bind_some, Checked.value_bind,
        hword 5 (indexWord name) rfl (by omega), Option.bind_some, Checked.value_bind,
        hword 4 ns rfl (by omega), Option.bind_some, if_pos startWord_eq, Checked.value_bind,
        hword 6 attributeStart rfl (by omega), Option.bind_some, Checked.value_bind,
        hword 7 (indexWord as.length) rfl (by omega), Option.bind_some, Checked.value_bind,
        h.toCInt_index hname, hstring, Option.bind_some, Checked.value_bind, hcount, hnext, hattrs,
        Option.bind_some]
      simp only [Checked.value_pure, tagOf, Tag.text, List.nil_append, List.append_assoc]
      rw [Nat.add_assoc]
  | finish head ns name =>
      have hname : name < c.strings.length := hindexes name (by simp [TagCode.indexes])
      have hsize : TagCode.size (.finish head ns name) = 24 := rfl
      rw [hsize] at hle ⊢
      have hstring := value_compXmlString h hname
      have hnot : ¬ toCInt endWord.toNat = Manifest.startTag := by decide
      have hnext : toCInt ((o : Int) + 6 * 4) = ((o + 24 : Nat) : Int) := by
        rw [h.file.toCInt_inside (by omega) (by omega)]
        simp
      rw [readTag, Checked.value_bind, hfirst endWord rfl, Option.bind_some, Checked.value_bind,
        hword 2 head.lineNumber rfl (by omega), Option.bind_some, Checked.value_bind,
        hword 5 (indexWord name) rfl (by omega), Option.bind_some, Checked.value_bind,
        hword 4 ns rfl (by omega), Option.bind_some, if_neg hnot, if_pos endWord_eq,
        Checked.value_bind, h.toCInt_index hname, hstring, Option.bind_some, hnext]
      simp only [Checked.value_pure, tagOf, Tag.text, List.append_assoc]

/-! ## The whole file -/

theorem Valid.nine_words_le (h : c.Valid) : 36 ≤ h.file.cb := by
  have hle := h.file.placed_le_cb placed_header (by simp [header, bytes32, leBytes])
  rw [length_words] at hle
  exact hle.trans' (by simp [header])

theorem value_numbStrings (h : c.Valid) :
    (h.file.lew (4 * 4)).value = some (c.strings.length : Int) := by
  have hcount : Placed c.bytes (0 + 4 * 4) (bytes32 (indexWord c.strings.length)) :=
    placed_header.flatMap_of_length length_bytes32 rfl
  have hword := h.file.value_lew hcount
  have hstrings : c.strings.length < 2147483648 := by
    have hle := List.IsPrefix.length_le (placed_entries (c := c))
    have hshort := h.length_lt
    have hentries : c.entries.length = c.strings.length := by simp [entries]
    rw [length_words, List.length_drop] at hle
    omega
  rwa [toCInt_indexWord hstrings] at hword

theorem Valid.stOff_lt (h : c.Valid) : c.stOff < 2147483648 := by
  have hle := List.IsPrefix.length_le (placed_entries (c := c))
  have hshort := h.length_lt
  have hhead := h.nine_words_le
  have hcb : h.file.cb = c.bytes.length := rfl
  have hentries : c.entries.length = c.strings.length := by simp [entries]
  rw [length_words, List.length_drop] at hle
  unfold stOff
  omega

theorem toCInt_stOff (h : c.Valid) :
    toCInt (sitOff + (c.strings.length : Int) * 4) = c.stOff := by
  have hlt := h.stOff_lt
  unfold stOff at hlt ⊢
  rw [toCInt_of_lt (by simp [sitOff]; omega) (by simp [sitOff]; omega), sitOff]
  push_cast
  omega

theorem stringTable_file (h : c.Valid) : h.file.stringTable = c.stOff := by
  have hcb := h.nine_words_le
  have hword := (@lew_spec h.file (by omega) 16 (by decide) (by decide)).holds _
    (value_numbStrings h)
  rw [stringTable, ← hword, toCInt_stOff h]

/-- Behind the last tag the loop comes to its end. -/
theorem value_readTags_rest (h : c.Valid) {o : Nat} (ho : c.bytes.drop o = c.rest) (fuel : Nat)
    (result : List UInt8) :
    (h.file.readTags c.stOff (fuel + 1) o result).value = some result := by
  have hcb := h.nine_words_le
  have hlen : h.file.cb = c.bytes.length := rfl
  have hshort := h.short
  by_cases hin : (o : Int) < h.file.cb
  · have hnot {w : UInt32} (hw : toCInt w.toNat ≠ 0) (hrest : ¬ bytes32 w <+: c.rest) :
        h.file.wordAt o ≠ toCInt w.toNat := by
      intro hword
      have hplaced : Placed c.bytes o (bytes32 w) := h.file.placed_of_wordAt hw hword
      rw [Placed, ho] at hplaced
      exact hrest hplaced
    have hstart : h.file.wordAt o ≠ Manifest.startTag :=
      startWord_eq ▸ hnot (by decide) h.rest.1
    have hfinish : h.file.wordAt o ≠ Manifest.endTag := endWord_eq ▸ hnot (by decide) h.rest.2
    have htag : h.file.TagInside o :=
      ⟨by omega, by omega, fun hs => absurd hs hstart,
        fun hs => hs.elim (fun hs => absurd hs hstart) fun hs => absurd hs hfinish,
        fun hs => absurd hs hstart⟩
    have hspec := @readTag_spec h.file (by omega) o (by omega) (by omega) result
    rcases Option.isSome_iff_exists.1 (hspec.isSome_iff.2 htag) with ⟨next, hnext⟩
    have hnone : next = none := by
      have hmap := hspec.holds next hnext
      rw [nextTag, if_neg hstart, if_neg hfinish, Option.map_eq_none_iff] at hmap
      exact hmap
    rw [stringTable_file h] at hnext
    rw [readTags, if_pos hin, Checked.value_bind, hnext, Option.bind_some, hnone]
    rfl
  · rw [readTags, if_neg hin]
    rfl

/-- The loop over the tags, from one of them on. -/
theorem value_readTags (h : c.Valid) {o : Nat} {tags : List TagCode} (htags : tags ⊆ c.tags)
    (ho : c.bytes.drop o = tags.flatMap TagCode.bytes ++ c.rest)
    {fuel : Nat} (hfuel : tags.length < fuel) (result : List UInt8) :
    (h.file.readTags c.stOff fuel o result).value =
      some (result ++ documentText (tags.map c.tagOf)) := by
  induction tags generalizing o fuel result with
  | nil =>
      obtain ⟨fuel, rfl⟩ := Nat.exists_eq_succ_of_ne_zero (by omega : fuel ≠ 0)
      rw [value_readTags_rest h ho]
      simp [documentText]
  | cons tag tags ih =>
      obtain ⟨fuel, rfl⟩ := Nat.exists_eq_succ_of_ne_zero (by omega : fuel ≠ 0)
      rw [List.flatMap_cons, List.append_assoc] at ho
      have hplaced : Placed c.bytes o tag.bytes := ⟨_, ho.symm⟩
      have hle := hplaced.add_length_le tag.bytes_ne_nil
      have hpos := List.length_pos_iff.2 tag.bytes_ne_nil
      have hin : (o : Int) < h.file.cb := by
        have hlen : h.file.cb = c.bytes.length := rfl
        omega
      have hread := value_readTag h (htags List.mem_cons_self) hplaced result
      have hdrop : c.bytes.drop (o + TagCode.size tag) = tags.flatMap TagCode.bytes ++ c.rest := by
        rw [← List.drop_drop, ho, ← length_tagBytes, List.drop_left]
      have hrest := ih (List.cons_subset.1 htags).2 hdrop
        (Nat.lt_of_succ_lt_succ hfuel) (result ++ (c.tagOf tag).text)
      rw [Nat.succ_eq_add_one, readTags, if_pos hin, Checked.value_bind, hread, Option.bind_some]
      simp only [hrest, documentText, List.map_cons, List.flatMap_cons, List.append_assoc]

/-- The search for the first tag. -/
theorem value_findStart (h : c.Valid) {o k fuel : Nat} (ho : o + 4 * k = c.front.length)
    (hno : ∀ j < k, ¬ Placed c.bytes (o + 4 * j) (bytes32 startWord)) (hfuel : k < fuel) :
    (h.file.findStart fuel o).value = some (some (c.front.length : Int)) := by
  have hcb := h.nine_words_le
  have hlen : h.file.cb = c.bytes.length := rfl
  have hmax : h.file.cb < 2147483648 := cb_lt
  -- the first tag is a start tag, and there is room for it
  obtain ⟨tag, tags, htags, hstart⟩ : ∃ tag tags, c.tags = tag :: tags ∧ tag.isStart = true := by
    have hfirst := h.first
    cases htags : c.tags with
    | nil => simp [htags] at hfirst
    | cons tag tags => exact ⟨tag, tags, rfl, by simpa [htags] using hfirst⟩
  have htag : Placed c.bytes c.front.length tag.bytes := by
    have hplaced := placed_tags (c := c)
    rw [htags, List.flatMap_cons] at hplaced
    exact hplaced.left
  have hroom : c.front.length + 36 ≤ c.bytes.length := by
    have hle := htag.add_length_le tag.bytes_ne_nil
    rw [length_tagBytes] at hle
    cases tag with
    | start head ns name attributeStart classIndex as =>
        have hsize : TagCode.size (.start head ns name attributeStart classIndex as) =
            36 + 20 * as.length := rfl
        omega
    | finish head ns name => cases hstart
  have hfound : (h.file.lew c.front.length).value = some Manifest.startTag := by
    have hword : Placed c.bytes (c.front.length + 4 * 0) (bytes32 startWord) := by
      cases tag with
      | start head ns name attributeStart classIndex as =>
          exact htag.left.flatMap_of_length length_bytes32 rfl
      | finish head ns name => cases hstart
    rw [← startWord_eq]
    exact h.file.value_lew hword
  induction k generalizing o fuel with
  | zero =>
      obtain ⟨fuel, rfl⟩ := Nat.exists_eq_succ_of_ne_zero (by omega : fuel ≠ 0)
      have ho' : o = c.front.length := by omega
      rw [ho', Nat.succ_eq_add_one, findStart, if_pos (by omega), Checked.value_bind, hfound,
        Option.bind_some, if_pos rfl]
      rfl
  | succ k ih =>
      obtain ⟨fuel, rfl⟩ := Nat.exists_eq_succ_of_ne_zero (by omega : fuel ≠ 0)
      have hspec := @lew_spec h.file (by omega) o (by omega) (by omega)
      rcases Option.isSome_iff_exists.1 (hspec.isSome_iff.2 ⟨by omega, by omega⟩) with ⟨w, hw⟩
      have hne : w ≠ Manifest.startTag := by
        intro heq
        have hword : h.file.wordAt o = toCInt startWord.toNat := by
          rw [← hspec.holds w hw, heq, startWord_eq]
        exact hno 0 (Nat.succ_pos k) (h.file.placed_of_wordAt (by decide) hword)
      have hnext : toCInt ((o : Int) + 4) = ((o + 4 : Nat) : Int) := by
        rw [h.file.toCInt_inside (by omega) (by omega)]
        simp
      have hfuel' : k < fuel := by omega
      have hrest := ih (o := o + 4) (by omega) (fun j hj hplaced => by
        refine hno (j + 1) (Nat.succ_lt_succ hj) ?_
        rwa [Nat.mul_succ, Nat.add_comm (4 * j), ← Nat.add_assoc]) hfuel'
      rw [Nat.succ_eq_add_one, findStart, if_pos (by omega), Checked.value_bind, hw,
        Option.bind_some, if_neg hne, hnext, hrest]

theorem value_decompressXML (h : c.Valid) (block : CString) :
    (h.file.decompressXML block).value = some (block.bytes ++ documentText c.document) := by
  rcases h.search with ⟨k, hk, hno⟩
  have hlen :
      c.bytes.length = c.front.length + (c.tags.flatMap TagCode.bytes ++ c.rest).length := by
    rw [bytes, List.append_assoc, List.length_append]
  have hshort := h.length_lt
  -- the two words of the header
  have hchunk : (h.file.lew (3 * 4)).value = some (c.chunkSize : Int) := by
    have hsize : Placed c.bytes (0 + 4 * 3) (bytes32 (indexWord c.chunkSize)) :=
      placed_header.flatMap_of_length length_bytes32 rfl
    have hword := h.file.value_lew hsize
    rwa [toCInt_indexWord (by omega)] at hword
  have hturns : k < c.bytes.length := by
    have hroom := h.nine_words_le
    have hcb : h.file.cb = c.bytes.length := rfl
    omega
  have hsearch := value_findStart h hk hno hturns
  have hfuel : c.tags.length < c.bytes.length + 1 := by
    have hsum := length_le_flatMap TagCode.bytes_ne_nil c.tags
    rw [List.length_append] at hlen
    omega
  have hdrop : c.bytes.drop c.front.length = c.tags.flatMap TagCode.bytes ++ c.rest := by
    rw [bytes, List.append_assoc, List.drop_left]
  have hloop := value_readTags h (List.Subset.refl c.tags) hdrop hfuel block.bytes
  rw [decompressXML, Checked.value_bind, value_numbStrings h, Option.bind_some, Checked.value_bind,
    hchunk, Option.bind_some, Checked.value_bind, toCInt_stOff h]
  rw [show h.file.bytes.length = c.bytes.length from rfl, hsearch, Option.bind_some,
    Option.getD_some, hloop, document]

/-- The decoder reads the file only, and gives the text of the document behind what was in the
block. -/
theorem decompressXML_compiled (c : CompiledXml) (h : c.Valid) (block : CString) :
    (∀ i ∈ (h.file.decompressXML block).indices, 0 ≤ i ∧ i < h.file.cb) ∧
      (h.file.decompressXML block).value = some (block.bytes ++ documentText c.document) := by
  have hvalue := value_decompressXML h block
  exact ⟨(h.file.decompressXML block).value_iff.1 (by simp [hvalue]), hvalue⟩

/-- `<permission label="gps">`, `</permission>` and, behind them, the code for the end. -/
def gpsXml : CompiledXml where
  magic := 0x00080003
  fileSize := 0
  chunkType := 0x001C0001
  chunkSize := 88
  styleCount := 0
  flags := 0
  stringsStart := 0
  stylesStart := 0
  strings := [[(112, 0), (101, 0), (114, 0), (109, 0), (105, 0), (115, 0), (115, 0), (105, 0),
    (111, 0), (110, 0)], [(108, 0), (97, 0), (98, 0), (101, 0), (108, 0)],
    [(103, 0), (112, 0), (115, 0)]]
  gap := [0x80, 0x01, 0x08, 0x00]
  tags := [.start ⟨56, 1, noString⟩ noString 0 0x00140014 0 [⟨noString, 1, some 2, 0x03000008, 2⟩],
    .finish ⟨24, 1, noString⟩ noString 0]
  rest := bytes32 0x00100101

theorem gpsXml_valid : gpsXml.Valid where
  short := by decide +kernel
  lengths := by decide +kernel
  first := by decide
  search := ⟨3, by decide +kernel, by decide +kernel⟩
  rest := by decide +kernel
  indexes := by decide +kernel

/-- The text `<permission label="gps">` and `</permission>`, each on a line. -/
theorem decompressXML_gpsXml :
    (gpsXml_valid.file.decompressXML (CString.ofBuffer [])).value =
      some ([60, 112, 101, 114, 109, 105, 115, 115, 105, 111, 110, 32, 108, 97, 98, 101, 108, 61,
        34, 103, 112, 115, 34, 62, 10] ++
        [60, 47, 112, 101, 114, 109, 105, 115, 115, 105, 111, 110, 62, 10]) :=
  (decompressXML_compiled gpsXml gpsXml_valid (CString.ofBuffer [])).2

end CompiledXml
end AppCtrl
end AbsPlatform
