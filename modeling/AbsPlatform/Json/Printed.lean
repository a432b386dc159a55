import AbsPlatform.Json.Complete
import AbsPlatform.Json.Print
import AbsPlatform.Lib.Separated

/-!
# Printed — the printer stays in its blocks, and its texts parse back

The length that `print_string_ptr`, `print_array` and `print_object` compute is enough for what they
write, for every tree and both formats (`cJSONPrint_isSome`).  What is printed for a value whose
numbers are integers is a text of that value, so that parsing it gives the same items again
(`cJSONParse_cJSONPrint`).
-/

namespace AbsPlatform
namespace Json

open Lib Lib.Scanner Lib.Emitter

/-- A text has been printed. -/
def Prints (o : Option CString) (t : List UInt8) : Prop := ∃ text, o = some text ∧ text.bytes = t

theorem prints_printInto {cap : Nat} {e : Emitter UInt8} {t : List UInt8} (he : Writes cap e t)
    (hlen : t.length < cap) (hnul : ∀ b ∈ t, b ≠ 0) : Prints (printInto cap e) t := by
  refine ⟨⟨t, hnul⟩, ?_, rfl⟩
  rw [printInto, he.terminated hlen, Option.map_some]
  congr 1
  apply CString.ext_bytes
  exact takeWhile_append_cons fun hmem => hnul 0 hmem rfl

/-! ## Strings -/

def tokenText (c : UInt8) : List UInt8 :=
  if 31 < c ∧ c ≠ quote ∧ c ≠ backslash then [c]
  else
    backslash ::
      match printedEscapes.lookup c with
      | some e => [e]
      | none => unicodeText c

theorem writes_printToken (cap : Nat) (c : UInt8) :
    Writes cap (printToken cap c) (tokenText c) := by
  refine writes_ite (fun _ => writes_put _ _) fun _ => ?_
  refine (writes_put cap [backslash]).andThen ?_
  cases printedEscapes.lookup c with
  | some e => exact writes_put _ _
  | none => exact writes_copy _ _

/-- A statement about every byte can be checked. -/
theorem forall_byte {P : UInt8 → Prop} (h : ∀ n < 256, P (UInt8.ofNat n)) (c : UInt8) : P c := by
  have hc := h c.toNat c.toNat_lt
  rwa [UInt8.ofNat_toNat] at hc

theorem length_tokenText (c : UInt8) : (tokenText c).length = tokenLength c :=
  forall_byte (P := fun c => (tokenText c).length = tokenLength c) (by decide +kernel) c

theorem tokenText_ne_zero {c : UInt8} (hc : c ≠ 0) : ∀ b ∈ tokenText c, b ≠ 0 := by
  have hno : 0 ∉ tokenText c :=
    forall_byte (P := fun c => c ≠ 0 → 0 ∉ tokenText c) (by decide +kernel) c hc
  rintro b hb rfl
  exact hno hb

def stringText (s : CString) : List UInt8 := quote :: (s.bytes.flatMap tokenText ++ [quote])

theorem length_flatMap_tokenText (s : List UInt8) :
    (s.flatMap tokenText).length = (s.map tokenLength).sum := by
  rw [List.length_flatMap]
  exact congrArg List.sum (List.map_congr_left fun c _ => length_tokenText c)

theorem prints_printStringPtr (s : CString) : Prints (printStringPtr (some s)) (stringText s) := by
  have hloop := writes_each (l := s.bytes)
    fun c _ => writes_printToken ((s.bytes.map tokenLength).sum + 3) c
  have hquoted := (writes_put _ [quote]).andThen (hloop.andThen (writes_put _ [quote]))
  refine prints_printInto hquoted ?_ ?_
  · simp only [stringText, List.length_cons, List.length_append, length_flatMap_tokenText,
      List.length_nil]
    omega
  · intro b hb
    simp only [stringText, List.mem_cons, List.mem_append, List.mem_flatMap, List.not_mem_nil,
      or_false] at hb
    rcases hb with rfl | ⟨c, hc, hb⟩ | rfl
    · decide
    · exact tokenText_ne_zero (s.noNul c hc) b hb
    · decide

/-! ## Arrays -/

def elementsText (fmt : Bool) : List CString → List UInt8
  | [] => []
  | [entry] => entry.bytes
  | entry :: entries =>
      entry.bytes ++ ((comma :: ifFmt fmt [32]) ++ ([] ++ elementsText fmt entries))

theorem writes_composeElements (cap : Nat) (fmt : Bool) (entries : List CString) :
    Writes cap (composeElements cap fmt entries) (elementsText fmt entries) := by
  fun_induction composeElements cap fmt entries with
  | case1 => exact writes_nil
  | case2 entry => exact writes_copy _ _
  | case3 entry entries hne ih =>
      rw [elementsText]
      · exact (writes_copy _ _).andThen ((writes_put _ _).andThen (writes_mark.andThen ih))
      · exact hne

theorem length_ifFmt (fmt : Bool) (text : List UInt8) :
    (ifFmt fmt text).length = if fmt then text.length else 0 := by
  cases fmt <;> rfl

theorem length_elementsText_le (fmt : Bool) (entries : List CString) :
    (elementsText fmt entries).length ≤
      (entries.map fun ret => ret.strlen + 2 + if fmt then 1 else 0).sum := by
  fun_induction elementsText fmt entries with
  | case1 => simp
  | case2 entry => simp [CString.strlen]; omega
  | case3 entry entries hne ih =>
      simp only [List.length_append, List.length_cons, length_ifFmt, List.length_nil, List.map_cons,
        List.sum_cons, CString.strlen] at ih ⊢
      split <;> simp_all <;> omega

theorem ifFmt_ne_zero {fmt : Bool} {text : List UInt8} (h : ∀ b ∈ text, b ≠ 0) :
    ∀ b ∈ ifFmt fmt text, b ≠ 0 := by
  cases fmt
  · simp [ifFmt]
  · exact h

theorem elementsText_ne_zero (fmt : Bool) (entries : List CString) :
    ∀ b ∈ elementsText fmt entries, b ≠ 0 := by
  fun_induction elementsText fmt entries with
  | case1 => simp
  | case2 entry => exact entry.noNul
  | case3 entry entries hne ih =>
      intro b hb
      simp only [List.mem_append, List.mem_cons, List.not_mem_nil, false_or] at hb
      rcases hb with hb | (rfl | hb) | hb
      · exact entry.noNul b hb
      · decide
      · exact ifFmt_ne_zero (by simp) b hb
      · exact ih b hb

theorem prints_printArray (fmt : Bool) (entries : List CString) :
    Prints (printArray fmt entries)
      (openBracket :: (elementsText fmt entries ++ [closeBracket])) := by
  unfold printArray
  by_cases h : entries = []
  · subst h
    exact ⟨_, rfl, rfl⟩
  · rw [if_neg h]
    have hlen := length_elementsText_le fmt entries
    refine prints_printInto ((writes_put _ [openBracket]).andThen (writes_mark.andThen
      ((writes_composeElements _ fmt entries).andThen (writes_put _ [closeBracket])))) ?_ ?_
    · simp only [List.length_cons, List.length_append, List.length_nil]
      omega
    · intro b hb
      simp only [List.mem_cons, List.mem_append, List.not_mem_nil, or_false] at hb
      rcases hb with rfl | hb | rfl
      · decide
      · exact elementsText_ne_zero fmt entries b hb
      · decide

/-! ## Objects -/

def memberText (fmt : Bool) (depth : Nat) (last : Bool) (m : CString × CString) : List UInt8 :=
  ifFmt fmt (tabs depth) ++ (m.1.bytes ++ ((colon :: ifFmt fmt [9]) ++ (m.2.bytes ++
    (((if last then [] else [comma]) ++ ifFmt fmt [10]) ++ []))))

def membersText (fmt : Bool) (depth : Nat) : List (CString × CString) → List UInt8
  | [] => []
  | [m] => memberText fmt depth true m
  | m :: ms => memberText fmt depth false m ++ membersText fmt depth ms

theorem writes_composeMember (cap : Nat) (fmt : Bool) (depth : Nat) (last : Bool)
    (m : CString × CString) :
    Writes cap (composeMember cap fmt depth last m) (memberText fmt depth last m) :=
  (writes_put _ _).andThen ((writes_copy _ _).andThen ((writes_put _ _).andThen
    ((writes_copy _ _).andThen ((writes_put _ _).andThen writes_mark))))

theorem writes_composeMembers (cap : Nat) (fmt : Bool) (depth : Nat)
    (members : List (CString × CString)) :
    Writes cap (composeMembers cap fmt depth members) (membersText fmt depth members) := by
  fun_induction composeMembers cap fmt depth members with
  | case1 => exact writes_nil
  | case2 m => exact writes_composeMember cap fmt depth true m
  | case3 m ms hne ih =>
      rw [membersText]
      · exact (writes_composeMember cap fmt depth false m).andThen ih
      · exact hne

theorem length_memberText_le (fmt : Bool) (depth : Nat) (last : Bool) (m : CString × CString) :
    (memberText fmt depth last m).length ≤
      m.2.strlen + m.1.strlen + 2 + if fmt then 2 + depth else 0 := by
  cases fmt <;> cases last <;> simp [memberText, ifFmt, tabs, CString.strlen] <;> omega

theorem length_membersText_le (fmt : Bool) (depth : Nat) (members : List (CString × CString)) :
    (membersText fmt depth members).length ≤
      (members.map fun (str, ret) =>
        ret.strlen + str.strlen + 2 + if fmt then 2 + depth else 0).sum := by
  fun_induction membersText fmt depth members with
  | case1 => simp
  | case2 m => simpa using length_memberText_le fmt depth true m
  | case3 m ms hne ih =>
      have hhead := length_memberText_le fmt depth false m
      simp only [List.length_append, List.map_cons, List.sum_cons]
      exact Nat.add_le_add hhead ih

theorem tabs_ne_zero (n : Nat) : ∀ b ∈ tabs n, b ≠ 0 := by
  intro b hb
  rw [List.eq_of_mem_replicate hb]
  decide

theorem memberText_ne_zero (fmt : Bool) (depth : Nat) (last : Bool) (m : CString × CString) :
    ∀ b ∈ memberText fmt depth last m, b ≠ 0 := by
  intro b hb
  simp only [memberText, List.mem_append, List.mem_cons, List.not_mem_nil, or_false] at hb
  rcases hb with hb | hb | (rfl | hb) | hb | hb | hb
  · exact ifFmt_ne_zero (tabs_ne_zero depth) b hb
  · exact m.1.noNul b hb
  · decide
  · exact ifFmt_ne_zero (by simp) b hb
  · exact m.2.noNul b hb
  · cases last
    · rw [List.mem_singleton.1 hb]
      decide
    · cases hb
  · exact ifFmt_ne_zero (by simp) b hb

theorem membersText_ne_zero (fmt : Bool) (depth : Nat) (members : List (CString × CString)) :
    ∀ b ∈ membersText fmt depth members, b ≠ 0 := by
  fun_induction membersText fmt depth members with
  | case1 => simp
  | case2 m => exact memberText_ne_zero fmt depth true m
  | case3 m ms hne ih =>
      intro b hb
      rcases List.mem_append.1 hb with hb | hb
      · exact memberText_ne_zero fmt depth false m b hb
      · exact ih b hb

/-- The text of an object without members. -/
def emptyObjectText (fmt : Bool) (depth : Nat) : List UInt8 :=
  openBrace :: ifFmt fmt (10 :: tabs (depth - 1)) ++ [closeBrace]

def objectText (fmt : Bool) (depth : Nat) (members : List (CString × CString)) : List UInt8 :=
  (openBrace :: ifFmt fmt [10]) ++ ([] ++ (membersText fmt (depth + 1) members ++
    (ifFmt fmt (tabs depth) ++ [closeBrace])))

theorem prints_printObject_nil (fmt : Bool) (depth : Nat) :
    Prints (printObject fmt depth []) (emptyObjectText fmt depth) := by
  refine prints_printInto (writes_put _ _) ?_ ?_
  · cases fmt <;> simp [emptyObjectText, ifFmt, tabs]
  · intro b hb
    simp only [emptyObjectText, List.cons_append, List.mem_cons, List.mem_append,
      List.not_mem_nil, or_false] at hb
    rcases hb with rfl | hb | rfl
    · decide
    · refine ifFmt_ne_zero ?_ b hb
      intro c hc
      rcases List.mem_cons.1 hc with rfl | hc
      · decide
      · exact tabs_ne_zero _ c hc
    · decide

theorem prints_printObject (fmt : Bool) (depth : Nat) {members : List (CString × CString)}
    (h : members ≠ []) : Prints (printObject fmt depth members) (objectText fmt depth members) := by
  unfold printObject
  rw [if_neg h]
  have hlen := length_membersText_le fmt (depth + 1) members
  refine prints_printInto ((writes_put _ _).andThen (writes_mark.andThen
    ((writes_composeMembers _ fmt (depth + 1) members).andThen (writes_put _ _)))) ?_ ?_
  · cases fmt <;> simp [objectText, ifFmt, tabs] at hlen ⊢ <;> omega
  · intro b hb
    simp only [objectText, List.mem_append, List.mem_cons, List.not_mem_nil, false_or,
      or_false] at hb
    rcases hb with (rfl | hb) | hb | hb | rfl
    · decide
    · exact ifFmt_ne_zero (by simp) b hb
    · exact membersText_ne_zero fmt (depth + 1) members b hb
    · exact ifFmt_ne_zero (tabs_ne_zero depth) b hb
    · decide

/-! ## Numbers -/

theorem digits_decimal (n : Nat) : Digits (decimal n) := by
  intro c hc
  exact isDigit_iff.2 (mem_decimal hc)

theorem integerText_decimal (n : Nat) :
    IntegerText (decimal n) (if n = 0 then [] else decimal n) := by
  by_cases h : n = 0
  · subst h
    exact .zero
  · rw [if_neg h]
    rcases decimal_eq_cons h with ⟨c, ds, hcons, hlow⟩
    have hdigits := digits_decimal n
    rw [hcons] at hdigits ⊢
    exact .digits hlow (isDigit_iff.1 (hdigits c (by simp))).2
      fun d hd => hdigits d (List.mem_cons_of_mem _ hd)

theorem length_intText_le {n : Int} (h : toCInt n = n) : (intText n).length ≤ 11 := by
  have hrange := toCInt_eq_iff.1 h
  have hdigits := length_decimal_le (n := n.natAbs) (k := 10) (by decide) (by omega)
  unfold intText
  split_ifs
  · exact Nat.succ_le_succ hdigits
  · omega

theorem isDigit_ne_zero {c : UInt8} (h : isDigit c = true) : c ≠ 0 := by
  rintro rfl
  cases h

theorem intText_ne_zero (n : Int) : ∀ b ∈ intText n, b ≠ 0 := by
  have hdigits : ∀ b ∈ decimal n.natAbs, b ≠ 0 := fun b hb =>
    isDigit_ne_zero (digits_decimal _ b hb)
  unfold intText
  split_ifs
  · intro b hb
    rcases List.mem_cons.1 hb with rfl | hb
    · decide
    · exact hdigits b hb
  · exact hdigits

variable {D : Type}

/-- The conversions of `sprintf` fit into the block behind the tests that are made before them. -/
structure Rendering.Bounded (R : Rendering D) : Prop where
  whole : ∀ d, R.isWhole d = true → (R.whole d).strlen < 64
  scientific : ∀ d, (R.scientific d).strlen < 64
  fixed : ∀ d, R.isExtreme d = false → (R.fixed d).strlen < 64

theorem prints_printNumber_int {R : Rendering D} {n : Int} {d : D} (hint : R.isInt n d = true)
    (hn : toCInt n = n) : Prints (printNumber R n d) (intText n) := by
  rw [printNumber, if_pos hint]
  have hlen := length_intText_le hn
  exact prints_printInto (writes_put _ _) (by omega) (intText_ne_zero n)

theorem printNumber_isSome {R : Rendering D} (hR : R.Bounded) {n : Int} (hn : toCInt n = n)
    (d : D) : (printNumber R n d).isSome = true := by
  have hprint : ∀ text : CString, text.strlen < 64 →
      (printInto 64 (put 64 text.bytes)).isSome = true := by
    intro text htext
    rcases prints_printInto (writes_put _ _) htext text.noNul with ⟨out, hout, -⟩
    rw [hout, Option.isSome_some]
  by_cases hint : R.isInt n d = true
  · rcases prints_printNumber_int hint hn with ⟨out, hout, -⟩
    rw [hout, Option.isSome_some]
  · rw [printNumber, if_neg hint]
    split_ifs with hwhole hextreme
    · exact hprint _ (hR.whole d hwhole)
    · exact hprint _ (hR.scientific d)
    · exact hprint _ (hR.fixed d (by simpa using hextreme))

/-! ## Trees -/

mutual

/-- `valueint` is an `int`, here and in the items below. -/
def Item.Typed : Item D → Prop
  | .node _ _ _ valueint _ child => toCInt valueint = valueint ∧ childrenTyped child

def childrenTyped : List (Item D) → Prop
  | [] => True
  | item :: items => item.Typed ∧ childrenTyped items

end

theorem printStringPtr_isSome (s : Option CString) : (printStringPtr s).isSome = true := by
  cases s with
  | none => rfl
  | some s =>
      rcases prints_printStringPtr s with ⟨text, htext, -⟩
      rw [htext, Option.isSome_some]

theorem printObject_isSome (fmt : Bool) (depth : Nat) (members : List (CString × CString)) :
    (printObject fmt depth members).isSome = true := by
  by_cases h : members = []
  · rcases prints_printObject_nil fmt depth with ⟨text, htext, -⟩
    rw [h, htext, Option.isSome_some]
  · rcases prints_printObject fmt depth h with ⟨text, htext, -⟩
    rw [htext, Option.isSome_some]

mutual

theorem Item.print_isSome {R : Rendering D} (hR : R.Bounded) (fmt : Bool) (item : Item D)
    (h : item.Typed) (depth : Nat) :
    (printValue R fmt item depth).isSome = true := by
  match item, h with
  | .node .null _ _ _ _ _, _ => rfl
  | .node .false _ _ _ _ _, _ => rfl
  | .node .true _ _ _ _ _, _ => rfl
  | .node .number _ _ _ d _, h => exact printNumber_isSome hR h.1 d
  | .node .string _ valuestring _ _ _, _ => exact printStringPtr_isSome valuestring
  | .node .array _ _ _ _ child, h =>
      rcases Option.isSome_iff_exists.1 (elements_print_isSome hR fmt child h.2 (depth + 1)) with
        ⟨entries, hentries⟩
      rcases prints_printArray fmt entries with ⟨text, htext, -⟩
      simp [printValue, hentries, htext]
  | .node .object _ _ _ _ child, h =>
      rcases Option.isSome_iff_exists.1 (members_print_isSome hR fmt child h.2 (depth + 1)) with
        ⟨members, hmembers⟩
      simp [printValue, hmembers, printObject_isSome]

theorem elements_print_isSome {R : Rendering D} (hR : R.Bounded) (fmt : Bool)
    (items : List (Item D)) (h : childrenTyped items) (depth : Nat) :
    (printElements R fmt items depth).isSome = true := by
  match items, h with
  | [], _ => rfl
  | item :: items, h =>
      rcases Option.isSome_iff_exists.1 (Item.print_isSome hR fmt item h.1 depth) with ⟨ret, hret⟩
      have hitems := elements_print_isSome hR fmt items h.2 depth
      rcases Option.isSome_iff_exists.1 hitems with ⟨rs, hrs⟩
      simp [printElements, hret, hrs]

theorem members_print_isSome {R : Rendering D} (hR : R.Bounded) (fmt : Bool)
    (items : List (Item D)) (h : childrenTyped items) (depth : Nat) :
    (printMembers R fmt items depth).isSome = true := by
  match items, h with
  | [], _ => rfl
  | item :: items, h =>
      rcases Option.isSome_iff_exists.1 (printStringPtr_isSome item.string) with ⟨str, hstr⟩
      rcases Option.isSome_iff_exists.1 (Item.print_isSome hR fmt item h.1 depth) with ⟨ret, hret⟩
      rcases Option.isSome_iff_exists.1 (members_print_isSome hR fmt items h.2 depth) with ⟨rs, hrs⟩
      simp [printMembers, hstr, hret, hrs]

end

/-! ## The texts that are printed -/

theorem lookup_printedEscapes (c : UInt8) : ∀ e ∈ printedEscapes.lookup c, (e, c) ∈ escapes := by
  have hall : (printedEscapes.lookup c).all (fun e => (e, c) ∈ escapes) = true :=
    forall_byte (P := fun c => (printedEscapes.lookup c).all (fun e => (e, c) ∈ escapes) = true)
      (by decide +kernel) c
  intro e he
  simpa [Option.mem_def.1 he] using hall

theorem lt_of_lookup_none {c : UInt8} (hplain : ¬ (31 < c ∧ c ≠ quote ∧ c ≠ backslash))
    (h : printedEscapes.lookup c = none) : c.toNat < 32 := by
  by_contra hlow
  have hlt : 31 < c := by
    show (31 : Nat) < c.toNat
    omega
  refine hplain ⟨hlt, ?_, ?_⟩
  · rintro rfl
    cases h
  · rintro rfl
    cases h

theorem hexDigit?_hexChar {n : Nat} (h : n < 16) : hexDigit? (hexChar n) = some n := by
  revert n
  decide

theorem hex4_unicodeText {c : UInt8} (h : c.toNat < 32) :
    Hex4 [48, 48, hexChar (c.toNat / 16), hexChar (c.toNat % 16)] c.toNat := by
  have hdigits : Hex4 [48, 48, hexChar (c.toNat / 16), hexChar (c.toNat % 16)]
      (((0 * 16 + 0) * 16 + c.toNat / 16) * 16 + c.toNat % 16) :=
    .digits rfl rfl (hexDigit?_hexChar (by omega)) (hexDigit?_hexChar (by omega))
  have hsum : ((0 * 16 + 0) * 16 + c.toNat / 16) * 16 + c.toNat % 16 = c.toNat := by omega
  rwa [hsum] at hdigits

theorem toNat_charOfByte (c : UInt8) : (Char.ofNat c.toNat).val.toNat = c.toNat :=
  forall_byte (P := fun c => (Char.ofNat c.toNat).val.toNat = c.toNat) (by decide +kernel) c

/-- What is printed for a character is read as that character. -/
theorem bodyText_token {c : UInt8} (hc : c ≠ 0) {t s : List UInt8} (h : BodyText t s) :
    BodyText (tokenText c ++ t) (c :: s) := by
  unfold tokenText
  by_cases hplain : 31 < c ∧ c ≠ quote ∧ c ≠ backslash
  · rw [if_pos hplain]
    exact .raw hplain.2.1 hplain.2.2 hc h
  · rw [if_neg hplain]
    cases hlookup : printedEscapes.lookup c with
    | some e => exact .escape (lookup_printedEscapes c e hlookup) h
    | none =>
        have hlow := lt_of_lookup_none hplain hlookup
        have hchar := toNat_charOfByte c
        have hbytes : String.utf8EncodeChar (Char.ofNat c.toNat) = [c] := by
          rw [← utf8Bytes_char, hchar, utf8Bytes, if_pos (by omega)]
          simp
        have hzero : (Char.ofNat c.toNat).val ≠ 0 := by
          intro hzero
          rw [hzero] at hchar
          exact hc (UInt8.toNat_inj.1 hchar.symm)
        have hhex := hex4_unicodeText hlow
        rw [← hchar] at hhex
        have htext := BodyText.unicode hzero (by omega) hhex h
        rw [hbytes, hchar] at htext
        exact htext

theorem stringText_text (s : CString) : StringText (stringText s) s := by
  refine .quoted ?_
  have hbody : ∀ l : List UInt8, (∀ c ∈ l, c ≠ 0) → BodyText (l.flatMap tokenText) l := by
    intro l hl
    induction l with
    | nil => exact .nil
    | cons c l ih => exact bodyText_token (hl c (by simp)) (ih fun d hd => hl d (by simp [hd]))
  exact hbody s.bytes s.noNul

section

variable {A : Doubles D}

/-- Digits are added up without rounding. -/
theorem Doubles.Exact.ofDigits (hA : A.Exact) {ds : List UInt8} (hds : Digits ds)
    (h : decimalValue ds ≤ 2 ^ 53) : A.ofDigits ds = A.ofInt (decimalValue ds) := by
  induction ds using List.reverseRecOn with
  | nil => rfl
  | append_singleton ds c ih =>
      have hdigit := isDigit_iff.1 (hds c (by simp))
      have hlow : 48 ≤ c.toNat := hdigit.1
      have hhigh : c.toNat ≤ 57 := hdigit.2
      rw [decimalValue_snoc] at h
      have hfirst : A.ofDigits ds = A.ofInt (decimalValue ds) :=
        ih (fun d hd => hds d (by simp [hd])) (by omega)
      have hstep : A.ofDigits (ds ++ [c]) = addDigit A (A.ofDigits ds) c := by
        simp [Doubles.ofDigits]
      rw [hstep, hfirst, addDigit, hA.mul _ _ (by omega) (by omega) (by omega),
        hA.add _ _ (by omega) (by omega) (by omega), decimalValue_snoc]
      congr 1
      omega

theorem numberText_intText (hA : A.Exact) {n : Int} (h : n.natAbs ≤ 2 ^ 53) :
    NumberText A (intText n) (A.ofInt n) := by
  have hdigits : A.ofDigits (if n.natAbs = 0 then [] else decimal n.natAbs) =
      A.ofInt n.natAbs := by
    split_ifs with hzero
    · rw [hzero]
      rfl
    · have hdecimal := decimalValue_decimal n.natAbs
      rw [hA.ofDigits (digits_decimal _) (by omega), hdecimal]
  have hnumeral : ∀ sign : Int, sign.natAbs = 1 → sign * n.natAbs = n →
      A.numeral sign (if n.natAbs = 0 then [] else decimal n.natAbs) [] 0 = A.ofInt n := by
    intro sign hsign hprod
    rw [Doubles.numeral, List.append_nil, hdigits, hA.mul _ _ (by omega) (by omega) (by omega),
      hprod]
    show A.mul (A.ofInt n) (A.pow10 0) = A.ofInt n
    rw [hA.pow10_zero, hA.mul _ _ h (by omega) (by omega), mul_one]
  unfold intText
  split_ifs with hneg
  · have htext := NumberText.numeral (A := A) .minus (integerText_decimal n.natAbs) .none .none
    rw [hnumeral (-1) rfl (by omega)] at htext
    simpa using htext
  · have htext := NumberText.numeral (A := A) .none (integerText_decimal n.natAbs) .none .none
    rw [hnumeral 1 rfl (by omega)] at htext
    simpa using htext

/-- What has been printed for values, elements and members. -/
def Printed (A : Doubles D) (v : Value D) (t : CString) : Prop :=
  Spells A Space (.value v) t.bytes

def PrintedMember (A : Doubles D) (m : CString × Value D) (t : CString × CString) : Prop :=
  StringText t.1.bytes m.1 ∧ Printed A m.2 t.2

theorem space_nil : Space [] := by
  intro c hc
  cases hc

theorem space_ifFmt (fmt : Bool) {g : List UInt8} (hg : Space g) : Space (ifFmt fmt g) := by
  cases fmt
  · exact space_nil
  · exact hg

theorem space_append {g h : List UInt8} (hg : Space g) (hh : Space h) : Space (g ++ h) := by
  intro c hc
  rcases List.mem_append.1 hc with hc | hc
  · exact hg c hc
  · exact hh c hc

theorem space_tabs (n : Nat) : Space (tabs n) := by
  intro c hc
  rw [List.eq_of_mem_replicate hc]
  decide

theorem space_newline : Space [10] := by
  intro c hc
  rw [List.mem_singleton.1 hc]
  decide

theorem space_tab : Space [9] := space_tabs 1

theorem space_blank : Space [32] := by
  intro c hc
  rw [List.mem_singleton.1 hc]
  decide

theorem spells_elementsText (fmt : Bool) {vs : List (Value D)} {texts : List CString}
    (h : List.Forall₂ (Printed A) vs texts) (hne : vs ≠ []) {g : List UInt8} (hg : Space g) :
    Spells A Space (.elements vs) (g ++ elementsText fmt texts) := by
  induction h generalizing g with
  | nil => exact absurd rfl hne
  | @cons v t vs texts hv hvs ih =>
      cases hvs with
      | nil =>
          have hlast := Spells.lastElement hg hv space_nil
          rwa [List.append_nil] at hlast
      | cons hw hws =>
          have hrest := ih (by simp) (space_ifFmt fmt space_blank)
          have hmore := Spells.element hg hv space_nil hrest
          simpa [elementsText] using hmore

theorem spells_membersText (fmt : Bool) (depth : Nat) {ms : List (CString × Value D)}
    {texts : List (CString × CString)} (h : List.Forall₂ (PrintedMember A) ms texts)
    (hne : ms ≠ []) {g g' : List UInt8} (hg : Space g) (hg' : Space g') :
    Spells A Space (.members ms) (g ++ (membersText fmt depth texts ++ g')) := by
  have htabs : Space (ifFmt fmt (tabs depth)) := space_ifFmt fmt (space_tabs depth)
  have hnewline : Space (ifFmt fmt [10]) := space_ifFmt fmt space_newline
  induction h generalizing g with
  | nil => exact absurd rfl hne
  | @cons m t ms texts hm hms ih =>
      cases hms with
      | nil =>
          have hlast := Spells.lastMember (space_append hg htabs) hm.1 space_nil
            (space_ifFmt fmt space_tab) hm.2 (space_append hnewline hg')
          simpa [membersText, memberText] using hlast
      | cons hn hns =>
          have hrest := ih (by simp) hnewline
          have hmore := Spells.member (space_append hg htabs) hm.1 space_nil
            (space_ifFmt fmt space_tab) hm.2 space_nil hrest
          simpa [membersText, memberText] using hmore

mutual

/-- Every number of the value has the property. -/
def Value.Numbers (P : D → Prop) : Value D → Prop
  | .number n => P n
  | .array vs => elementNumbers P vs
  | .object ms => memberNumbers P ms
  | _ => True

def elementNumbers (P : D → Prop) : List (Value D) → Prop
  | [] => True
  | v :: vs => v.Numbers P ∧ elementNumbers P vs

def memberNumbers (P : D → Prop) : List (CString × Value D) → Prop
  | [] => True
  | m :: ms => m.2.Numbers P ∧ memberNumbers P ms

end

/-- A number is the conversion of an `int`. -/
def Doubles.IsInt (A : Doubles D) (d : D) : Prop := ∃ n : Int, toCInt n = n ∧ d = A.ofInt n

end

/-- `double` holds an `int` exactly, and the printer sees it. -/
structure Rendering.Exact (R : Rendering D) : Prop extends R.toDoubles.Exact where
  isInt : ∀ n : Int, toCInt n = n → R.isInt n (R.ofInt n) = true

theorem printValue_named (R : Rendering D) (fmt : Bool) (name : CString) (item : Item D)
    (depth : Nat) : printValue R fmt (item.named name) depth = printValue R fmt item depth := by
  rcases item with ⟨type, _, _, _, _, _⟩
  cases type <;> rfl

theorem string_named (name : CString) (item : Item D) : (item.named name).string = some name := by
  cases item
  rfl

theorem printed_number {R : Rendering D} (hR : R.Exact) {d : D} (h : R.toDoubles.IsInt d) :
    ∃ t, printNumber R (R.toInt d) d = some t ∧ Printed R.toDoubles (.number d) t := by
  rcases h with ⟨n, hn, rfl⟩
  have hrange := toCInt_eq_iff.1 hn
  rw [hR.toInt n hn]
  rcases prints_printNumber_int (hR.isInt n hn) hn with ⟨t, ht, hbytes⟩
  refine ⟨t, ht, ?_⟩
  rw [Printed, hbytes]
  exact .number (numberText_intText hR.toExact (by omega))

theorem printed_array (fmt : Bool) {A : Doubles D} {vs : List (Value D)} {texts : List CString}
    (h : List.Forall₂ (Printed A) vs texts) :
    ∃ t, printArray fmt texts = some t ∧ Printed A (.array vs) t := by
  rcases prints_printArray fmt texts with ⟨t, ht, hbytes⟩
  refine ⟨t, ht, ?_⟩
  rw [Printed, hbytes]
  by_cases hne : vs = []
  · subst hne
    cases h
    exact .emptyArray space_nil
  · exact .array (spells_elementsText fmt h hne space_nil)

theorem printed_object (fmt : Bool) (depth : Nat) {A : Doubles D} {ms : List (CString × Value D)}
    {texts : List (CString × CString)} (h : List.Forall₂ (PrintedMember A) ms texts) :
    ∃ t, printObject fmt depth texts = some t ∧ Printed A (.object ms) t := by
  by_cases hne : ms = []
  · subst hne
    cases h
    rcases prints_printObject_nil fmt depth with ⟨t, ht, hbytes⟩
    refine ⟨t, ht, ?_⟩
    rw [Printed, hbytes]
    exact .emptyObject (space_ifFmt fmt (space_append space_newline (space_tabs _)))
  · have htexts : texts ≠ [] := by
      rintro rfl
      cases h
      exact hne rfl
    rcases prints_printObject fmt depth htexts with ⟨t, ht, hbytes⟩
    refine ⟨t, ht, ?_⟩
    rw [Printed, hbytes]
    have hmembers := Spells.object (spells_membersText fmt (depth + 1) h hne
      (space_ifFmt fmt space_newline) (space_ifFmt fmt (space_tabs depth)))
    simpa [objectText] using hmembers

mutual

theorem Value.printed {R : Rendering D} (hR : R.Exact) (fmt : Bool) (v : Value D)
    (h : v.Numbers R.toDoubles.IsInt) (depth : Nat) :
    ∃ t, printValue R fmt (v.item R.toDoubles) depth = some t ∧ Printed R.toDoubles v t := by
  match v, h with
  | .null, _ => exact ⟨_, rfl, .null⟩
  | .bool true, _ => exact ⟨_, rfl, .bool true⟩
  | .bool false, _ => exact ⟨_, rfl, .bool false⟩
  | .number d, h => exact printed_number hR h
  | .string s, _ =>
      rcases prints_printStringPtr s with ⟨t, ht, hbytes⟩
      refine ⟨t, ht, .string ?_⟩
      rw [hbytes]
      exact stringText_text s
  | .array vs, h =>
      rcases elements_printed hR fmt vs h (depth + 1) with ⟨texts, htexts, hprinted⟩
      rcases printed_array fmt hprinted with ⟨t, ht, hspells⟩
      refine ⟨t, ?_, hspells⟩
      simp [Value.item, arrayItem, printValue, htexts, ht]
  | .object ms, h =>
      rcases members_printed hR fmt ms h (depth + 1) with ⟨texts, htexts, hprinted⟩
      rcases printed_object fmt depth hprinted with ⟨t, ht, hspells⟩
      refine ⟨t, ?_, hspells⟩
      simp [Value.item, objectItem, printValue, htexts, ht]

theorem elements_printed {R : Rendering D} (hR : R.Exact) (fmt : Bool) (vs : List (Value D))
    (h : elementNumbers R.toDoubles.IsInt vs) (depth : Nat) :
    ∃ texts, printElements R fmt (elementItems R.toDoubles vs) depth = some texts ∧
      List.Forall₂ (Printed R.toDoubles) vs texts := by
  match vs, h with
  | [], _ => exact ⟨[], rfl, .nil⟩
  | v :: vs, h =>
      rcases v.printed hR fmt h.1 depth with ⟨t, ht, hv⟩
      rcases elements_printed hR fmt vs h.2 depth with ⟨texts, htexts, hvs⟩
      refine ⟨t :: texts, ?_, .cons hv hvs⟩
      simp [elementItems, printElements, ht, htexts]

theorem members_printed {R : Rendering D} (hR : R.Exact) (fmt : Bool)
    (ms : List (CString × Value D)) (h : memberNumbers R.toDoubles.IsInt ms) (depth : Nat) :
    ∃ texts, printMembers R fmt (memberItems R.toDoubles ms) depth = some texts ∧
      List.Forall₂ (PrintedMember R.toDoubles) ms texts := by
  match ms, h with
  | [], _ => exact ⟨[], rfl, .nil⟩
  | (name, v) :: ms, h =>
      rcases prints_printStringPtr name with ⟨k, hk, hbytes⟩
      rcases v.printed hR fmt h.1 depth with ⟨t, ht, hv⟩
      rcases members_printed hR fmt ms h.2 depth with ⟨texts, htexts, hms⟩
      refine ⟨(k, t) :: texts, ?_, .cons ⟨?_, hv⟩ hms⟩
      · simp [memberItems, printMembers, string_named, printValue_named, hk, ht, htexts]
      · rw [hbytes]
        exact stringText_text name

end

/-! ## cJSON_Print -/

/-- A rendering of the integers. -/
def integerRendering : Rendering Int where
  toDoubles := integers
  isInt n d := n = d
  isWhole d := d.natAbs < 10 ^ 60
  isExtreme d := 10 ^ 9 < d.natAbs
  whole d := CString.ofBuffer ((intText d).take 63)
  scientific d := CString.ofBuffer ((intText d).take 63)
  fixed d := CString.ofBuffer ((intText d).take 63)

theorem integerRendering_exact : integerRendering.Exact where
  toExact := integers_exact
  isInt _ _ := by simp [integerRendering, integers]

theorem strlen_take_lt (t : List UInt8) : (CString.ofBuffer (t.take 63)).strlen < 64 := by
  have hlen := CString.strlen_ofBuffer_le (t.take 63)
  have htake := List.length_take_le 63 t
  omega

theorem integerRendering_bounded : integerRendering.Bounded where
  whole d _ := strlen_take_lt (intText d)
  scientific d := strlen_take_lt (intText d)
  fixed d _ := strlen_take_lt (intText d)

/-- The printer never writes behind the end of a block. -/
theorem cJSONPrint_isSome {R : Rendering D} (hR : R.Bounded) (fmt : Bool) {item : Item D}
    (h : item.Typed) : (cJSONPrint R fmt item).isSome = true :=
  item.print_isSome hR fmt h 0

/-- `[-7]`, with a string that has never been set. -/
theorem cJSONPrint_isSome_seven :
    (cJSONPrint integerRendering true
      (.node .array none none 0 0 [.node .number none none (-7) (-7) [],
        .node .string none none 0 0 []])).isSome = true :=
  cJSONPrint_isSome integerRendering_bounded true ⟨rfl, ⟨rfl, trivial⟩, ⟨rfl, trivial⟩, trivial⟩

/-- Printing a value and parsing the text gives the items of the value. -/
theorem cJSONParse_cJSONPrint {R : Rendering D} (hR : R.Exact) (fmt : Bool) {v : Value D}
    (h : v.Numbers R.toDoubles.IsInt) :
    ∃ text, cJSONPrint R fmt (v.item R.toDoubles) = some text ∧
      cJSONParseTerminated R.toDoubles (text.bytes ++ [0]) = .done (v.item R.toDoubles) [0] := by
  rcases v.printed hR fmt h 0 with ⟨text, htext, hspells⟩
  exact ⟨text, htext, cJSONParseTerminated_nul hspells []⟩

/-- A line break in a name, and a negative number. -/
theorem cJSONParse_cJSONPrint_seven :
    ∃ text, cJSONPrint integerRendering true
        ((Value.object
          [(CString.ofBuffer [10], .array [.number (-7 : Int), .null])]).item integers) =
            some text ∧
      cJSONParseTerminated integers (text.bytes ++ [0]) =
        .done ((Value.object [(CString.ofBuffer [10], .array [.number (-7 : Int), .null])]).item
          integers) [0] :=
  cJSONParse_cJSONPrint integerRendering_exact true ⟨⟨⟨-7, rfl, rfl⟩, trivial, trivial⟩, trivial⟩

end Json
end AbsPlatform
