import AbsPlatform.Json.Numbers
import AbsPlatform.Json.Strings

/-!
# Complete — every JSON text is parsed to its value

A text that spells a value is parsed to the item of the value, and the pointer stops behind it,
whatever follows in the block (`cJSONParse_spells`).  Only behind a number there has to be a
character that ends it.  With `require_null_terminated` the text is accepted exactly if the
terminator is next (`cJSONParseTerminated_spells`).  The proof follows the grammar; each scanner of
the parser has one lemma that says what it does with the texts of its rule.
-/

namespace AbsPlatform
namespace Json

open Lib Lib.Scanner

variable {D : Type} {A : Doubles D}

/-! ## The first character -/

/-- A character that `skip` stops at and that does not close an array or an object. -/
def Begins (c : UInt8) : Prop := 32 < c ∧ c ≠ closeBracket ∧ c ≠ closeBrace

instance (c : UInt8) : Decidable (Begins c) := inferInstanceAs (Decidable (_ ∧ _ ∧ _))

theorem begins_of_isDigit {c : UInt8} (h : isDigit c = true) : Begins c := by
  have hlow := (isDigit_iff.1 h).1
  have hhigh := (isDigit_iff.1 h).2
  refine ⟨UInt8.lt_of_lt_of_le (by decide) hlow, ?_, ?_⟩
  · rintro rfl
    exact absurd hhigh (by decide)
  · rintro rfl
    exact absurd hhigh (by decide)

theorem NumberText.leads {t : List UInt8} {n : D} (h : NumberText A t n) :
    Leads (fun c => c = minus ∨ isDigit c = true) t := by
  cases h with
  | numeral hs hi hf he =>
      cases hs with
      | none =>
          simp only [List.nil_append, List.append_assoc]
          exact (hi.leads _).imp fun _ hc => Or.inr hc
      | minus => exact ⟨minus, _, rfl, Or.inl rfl⟩

theorem StringText.leads {t : List UInt8} {s : CString} (h : StringText t s) :
    Leads (· = quote) t := by
  cases h
  exact ⟨_, _, rfl, rfl⟩

theorem Spells.leads {Gap : List UInt8 → Prop} {v : Value D} {t : List UInt8}
    (h : Spells A Gap (.value v) t) : Leads Begins t := by
  cases h with
  | null => exact ⟨_, _, rfl, by decide⟩
  | bool b => cases b <;> exact ⟨_, _, rfl, by decide⟩
  | number h =>
      refine h.leads.imp ?_
      rintro c (rfl | hc)
      · decide
      · exact begins_of_isDigit hc
  | string h =>
      refine h.leads.imp ?_
      rintro c rfl
      decide
  | emptyArray _ => exact ⟨_, _, rfl, by decide⟩
  | array _ => exact ⟨_, _, rfl, by decide⟩
  | emptyObject _ => exact ⟨_, _, rfl, by decide⟩
  | object _ => exact ⟨_, _, rfl, by decide⟩

/-! ## parse_value -/

theorem startsWith_ne {w c : UInt8} (h : c ≠ w) (word s : List UInt8) :
    startsWith (w :: word) (c :: s) = some false := by
  simp [startsWith, h]

/-- Only the three words begin with `n`, `f` or `t`. -/
theorem parseValue_other (fuel : Nat) {c : UInt8} (hn : c ≠ 110) (hf : c ≠ 102) (ht : c ≠ 116)
    (s : List UInt8) :
    parseValue A (fuel + 1) (c :: s) =
      (if c = quote then return stringItem A (← parseString)
        else if c = minus ∨ isDigit c then parseNumber A
        else if c = openBracket then return arrayItem A (← parseArray (parseElements A fuel))
        else if c = openBrace then return objectItem A (← parseObject (parseMembers A fuel))
        else failHere : Scanner UInt8 (Item D)) (c :: s) := by
  have hnull : look (startsWith nullText) (c :: s) = .done false (c :: s) :=
    look_some (startsWith_ne hn _ s)
  have hfalse : look (startsWith falseText) (c :: s) = .done false (c :: s) :=
    look_some (startsWith_ne hf _ s)
  have htrue : look (startsWith trueText) (c :: s) = .done false (c :: s) :=
    look_some (startsWith_ne ht _ s)
  rw [parseValue, bind_done hnull, if_neg Bool.false_ne_true, bind_done hfalse,
    if_neg Bool.false_ne_true, bind_done htrue, if_neg Bool.false_ne_true, bind_peek_cons]

theorem parseValue_null (fuel : Nat) (s : List UInt8) :
    parseValue A (fuel + 1) (nullText ++ s) = .done (nullItem A) s := by
  have hlook : look (startsWith nullText) (nullText ++ s) = .done true (nullText ++ s) := rfl
  rw [parseValue, bind_done hlook, if_pos rfl]
  exact bind_done (advance_append nullText rfl s)

theorem parseValue_false (fuel : Nat) (s : List UInt8) :
    parseValue A (fuel + 1) (falseText ++ s) = .done (boolItem A false) s := by
  have hnull : look (startsWith nullText) (falseText ++ s) = .done false (falseText ++ s) := rfl
  have hlook : look (startsWith falseText) (falseText ++ s) = .done true (falseText ++ s) := rfl
  rw [parseValue, bind_done hnull, if_neg Bool.false_ne_true, bind_done hlook, if_pos rfl]
  exact bind_done (advance_append falseText rfl s)

theorem parseValue_true (fuel : Nat) (s : List UInt8) :
    parseValue A (fuel + 1) (trueText ++ s) = .done (boolItem A true) s := by
  have hnull : look (startsWith nullText) (trueText ++ s) = .done false (trueText ++ s) := rfl
  have hfalse : look (startsWith falseText) (trueText ++ s) = .done false (trueText ++ s) := rfl
  have hlook : look (startsWith trueText) (trueText ++ s) = .done true (trueText ++ s) := rfl
  rw [parseValue, bind_done hnull, if_neg Bool.false_ne_true, bind_done hfalse,
    if_neg Bool.false_ne_true, bind_done hlook, if_pos rfl]
  exact bind_done (advance_append trueText rfl s)

theorem parseValue_number (fuel : Nat) {t : List UInt8} {n : D} (h : NumberText A t n)
    {s : List UInt8} (hs : Leads Stops s) :
    parseValue A (fuel + 1) (t ++ s) = .done (numberItem A n) s := by
  rcases h.leads with ⟨c, r, ht, hc⟩
  have hfirst : c ≠ quote ∧ c ≠ 110 ∧ c ≠ 102 ∧ c ≠ 116 := by
    rcases hc with rfl | hc
    · decide
    · have hhigh := (isDigit_iff.1 hc).2
      have hlow := (isDigit_iff.1 hc).1
      refine ⟨?_, ?_, ?_, ?_⟩ <;> rintro rfl <;> revert hlow hhigh <;> decide
  have hnumber := parseNumber_text h hs
  rw [ht, List.cons_append] at hnumber ⊢
  rw [parseValue_other fuel hfirst.2.1 hfirst.2.2.1 hfirst.2.2.2, if_neg hfirst.1, if_pos hc]
  exact hnumber

theorem parseValue_string (fuel : Nat) {t : List UInt8} {s : CString} (h : StringText t s)
    (rest : List UInt8) : parseValue A (fuel + 1) (t ++ rest) = .done (stringItem A s) rest := by
  rcases h.leads with ⟨c, r, ht, rfl⟩
  have hstring := parseString_text h rest
  rw [ht, List.cons_append] at hstring ⊢
  rw [parseValue_other fuel (by decide) (by decide) (by decide), if_pos rfl, bind_done hstring]
  rfl

theorem parseValue_array (fuel : Nat) {t rest : List UInt8} {items : List (Item D)}
    (h : parseArray (parseElements A fuel) (openBracket :: t) = .done items rest) :
    parseValue A (fuel + 1) (openBracket :: t) = .done (arrayItem A items) rest := by
  rw [parseValue_other fuel (by decide) (by decide) (by decide), if_neg (by decide),
    if_neg (by decide), if_pos rfl, bind_done h]
  rfl

theorem parseValue_object (fuel : Nat) {t rest : List UInt8} {items : List (Item D)}
    (h : parseObject (parseMembers A fuel) (openBrace :: t) = .done items rest) :
    parseValue A (fuel + 1) (openBrace :: t) = .done (objectItem A items) rest := by
  rw [parseValue_other fuel (by decide) (by decide) (by decide), if_neg (by decide),
    if_neg (by decide), if_neg (by decide), if_pos rfl, bind_done h]
  rfl

/-! ## parse_array and parse_object -/

theorem bind_skip {γ : Type} {f : Unit → Scanner UInt8 γ} {s u : List UInt8}
    (h : skip s = .done () u) : (skip >>= f) s = (skip >>= f) u := by
  rw [bind_done h, bind_done (skip_skip h)]

theorem parseElements_skip (fuel : Nat) {s u : List UInt8} (h : skip s = .done () u) :
    parseElements A fuel s = parseElements A fuel u := by
  cases fuel with
  | zero => rfl
  | succ fuel =>
      rw [parseElements]
      exact bind_skip h

theorem parseMembers_skip (fuel : Nat) {s u : List UInt8} (h : skip s = .done () u) :
    parseMembers A fuel s = parseMembers A fuel u := by
  cases fuel with
  | zero => rfl
  | succ fuel =>
      rw [parseMembers]
      exact bind_skip h

theorem parseArray_empty (elements : Scanner UInt8 (List (Item D))) {g : List UInt8} (hg : Space g)
    (rest : List UInt8) :
    parseArray elements (openBracket :: (g ++ closeBracket :: rest)) = .done [] rest := by
  rw [parseArray, bind_advance_one, bind_done (skip_space hg (Or.inr (by decide)) rest),
    bind_peek_cons, if_pos rfl, bind_advance_one]
  rfl

theorem parseObject_empty (members : Scanner UInt8 (List (Item D))) {g : List UInt8} (hg : Space g)
    (rest : List UInt8) :
    parseObject members (openBrace :: (g ++ closeBrace :: rest)) = .done [] rest := by
  rw [parseObject, bind_advance_one, bind_done (skip_space hg (Or.inr (by decide)) rest),
    bind_peek_cons, if_pos rfl, bind_advance_one]
  rfl

theorem parseArray_elements (fuel : Nat) {s u : List UInt8} {c : UInt8}
    (h : skip s = .done () (c :: u)) (hc : c ≠ closeBracket) :
    parseArray (parseElements A fuel) (openBracket :: s) = parseElements A fuel s := by
  rw [parseArray, bind_advance_one, bind_done h, bind_peek_cons, if_neg hc,
    parseElements_skip fuel h]

theorem parseObject_members (fuel : Nat) {s u : List UInt8} {c : UInt8}
    (h : skip s = .done () (c :: u)) (hc : c ≠ closeBrace) :
    parseObject (parseMembers A fuel) (openBrace :: s) = parseMembers A fuel s := by
  rw [parseObject, bind_advance_one, bind_done h, bind_peek_cons, if_neg hc,
    parseMembers_skip fuel h]

theorem parseNext_comma {close : UInt8} (item : Item D) {items : List (Item D)}
    {more : Scanner UInt8 (List (Item D))} {s rest : List UInt8} (h : more s = .done items rest) :
    parseNext close item more (comma :: s) = .done (item :: items) rest := by
  rw [parseNext, bind_peek_cons, if_pos rfl, bind_advance_one, bind_done h]
  rfl

theorem parseNext_close {close : UInt8} (hclose : close ≠ comma) (item : Item D)
    (more : Scanner UInt8 (List (Item D))) (s : List UInt8) :
    parseNext close item more (close :: s) = .done [item] s := by
  rw [parseNext, bind_peek_cons, if_neg hclose, if_pos rfl, bind_advance_one]
  rfl

/-! ## Phrases -/

/-- What has to follow a value: the end of a number has to be seen. -/
def Value.Follow : Value D → List UInt8 → Prop
  | .number _, s => Leads Stops s
  | _, _ => True

theorem stops_of_le {c : UInt8} (h : c ≤ 32) : Stops c := by
  have hlow : ¬ 48 ≤ c := fun hc => absurd (UInt8.le_trans hc h) (by decide)
  refine ⟨⟨?_, ?_⟩, ?_, ?_⟩
  · simp [EndsInteger, isDigit, hlow]
  all_goals
    rintro rfl
    revert h
    decide

/-- A gap and one of the characters behind an element end a number. -/
theorem leads_stops {g : List UInt8} (hg : Space g) {c : UInt8} (hc : Stops c) (s : List UInt8) :
    Leads Stops (g ++ c :: s) := by
  cases g with
  | nil => exact ⟨c, s, rfl, hc⟩
  | cons b g => exact ⟨b, _, rfl, stops_of_le (hg b (by simp)).2⟩

theorem Value.follow_of_leads (v : Value D) {s : List UInt8} (h : Leads Stops s) : v.Follow s := by
  cases v <;> first | exact h | trivial

/-- What the parser makes of a phrase; the fuel is twice the length of the text. -/
def Parses (A : Doubles D) : Phrase D → List UInt8 → Prop
  | .value v, t => ∀ fuel rest, 2 * t.length ≤ fuel → v.Follow rest →
      parseValue A (fuel + 1) (t ++ rest) = .done (v.item A) rest
  | .elements vs, t => ∀ fuel rest, 2 * t.length + 1 ≤ fuel →
      parseElements A (fuel + 1) (t ++ closeBracket :: rest) = .done (elementItems A vs) rest
  | .members ms, t => ∀ fuel rest, 2 * t.length + 1 ≤ fuel →
      parseMembers A (fuel + 1) (t ++ closeBrace :: rest) = .done (memberItems A ms) rest

/-- An element and the gaps around it. -/
theorem parseElements_value {fuel : Nat} {v : Value D} {g t g' s : List UInt8} {c : UInt8}
    (hg : Space g) (ht : Leads Begins t) (hparse : Parses A (.value v) t) (hg' : Space g')
    (hc : Stops c) (hstop : 32 < c) (hfuel : 2 * t.length + 1 ≤ fuel) :
    parseElements A (fuel + 1) (g ++ (t ++ (g' ++ c :: s))) =
      parseNext closeBracket (v.item A) (parseElements A fuel) (c :: s) := by
  rcases ht with ⟨b, r, rfl, hb, _⟩
  rcases Nat.exists_eq_add_of_le' (Nat.le_trans (Nat.le_add_left 1 _) hfuel) with ⟨fuel, rfl⟩
  have hvalue := hparse fuel (g' ++ c :: s) (by omega) (v.follow_of_leads (leads_stops hg' hc s))
  rw [List.cons_append] at hvalue
  rw [parseElements, List.cons_append, bind_done (skip_space hg (Or.inr hb) _), bind_done hvalue,
    bind_done (skip_space hg' (Or.inr hstop) s)]

theorem parseMembers_value {fuel : Nat} {name : CString} {v : Value D}
    {g k g' h t h' s : List UInt8} {c : UInt8} (hg : Space g) (hk : StringText k name)
    (hg' : Space g') (hh : Space h) (ht : Leads Begins t) (hparse : Parses A (.value v) t)
    (hh' : Space h') (hc : Stops c) (hstop : 32 < c) (hfuel : 2 * t.length + 1 ≤ fuel) :
    parseMembers A (fuel + 1) (g ++ (k ++ (g' ++ colon :: (h ++ (t ++ (h' ++ c :: s)))))) =
      parseNext closeBrace ((v.item A).named name) (parseMembers A fuel) (c :: s) := by
  rcases ht with ⟨b, r, rfl, hb, _⟩
  rcases hk.leads with ⟨q, kr, hkr, rfl⟩
  rcases Nat.exists_eq_add_of_le' (Nat.le_trans (Nat.le_add_left 1 _) hfuel) with ⟨fuel, rfl⟩
  have hname := parseString_text hk (g' ++ colon :: (h ++ (b :: r ++ (h' ++ c :: s))))
  have hvalue := hparse fuel (h' ++ c :: s) (by omega) (v.follow_of_leads (leads_stops hh' hc s))
  rw [hkr, List.cons_append] at hname ⊢
  rw [List.cons_append] at hvalue
  rw [parseMembers, bind_done (skip_space hg (Or.inr (by decide)) _), bind_done hname,
    bind_done (skip_space hg' (Or.inr (by decide)) _), bind_peek_cons, if_pos rfl, bind_advance_one,
    List.cons_append, bind_done (skip_space hh (Or.inr hb) _), bind_done hvalue,
    bind_done (skip_space hh' (Or.inr hstop) s)]

theorem Spells.skip_elements {vs : List (Value D)} {t : List UInt8}
    (h : Spells A Space (.elements vs) t) (s : List UInt8) :
    ∃ c u, skip (t ++ s) = .done () (c :: u) ∧ Begins c := by
  cases h with
  | lastElement hg ht hg' =>
      rcases ht.leads with ⟨c, r, rfl, hc⟩
      simp only [List.append_assoc, List.cons_append]
      exact ⟨c, _, skip_space hg (Or.inr hc.1) _, hc⟩
  | element hg ht hg' _ =>
      rcases ht.leads with ⟨c, r, rfl, hc⟩
      simp only [List.append_assoc, List.cons_append]
      exact ⟨c, _, skip_space hg (Or.inr hc.1) _, hc⟩

theorem Spells.skip_members {ms : List (CString × Value D)} {t : List UInt8}
    (h : Spells A Space (.members ms) t) (s : List UInt8) :
    ∃ u, skip (t ++ s) = .done () (quote :: u) := by
  cases h with
  | lastMember hg hk hg' hh ht hh' =>
      rcases hk.leads with ⟨c, r, rfl, rfl⟩
      simp only [List.append_assoc, List.cons_append]
      exact ⟨_, skip_space hg (Or.inr (by decide)) _⟩
  | member hg hk hg' hh ht hh' _ =>
      rcases hk.leads with ⟨c, r, rfl, rfl⟩
      simp only [List.append_assoc, List.cons_append]
      exact ⟨_, skip_space hg (Or.inr (by decide)) _⟩

theorem Spells.parses {ph : Phrase D} {t : List UInt8} (h : Spells A Space ph t) :
    Parses A ph t := by
  induction h with
  | null =>
      intro fuel rest _ _
      exact parseValue_null fuel rest
  | bool b =>
      intro fuel rest _ _
      cases b
      · exact parseValue_false fuel rest
      · exact parseValue_true fuel rest
  | number h =>
      intro fuel rest _ hfollow
      exact parseValue_number fuel h hfollow
  | string h =>
      intro fuel rest _ _
      exact parseValue_string fuel h rest
  | emptyArray hg =>
      intro fuel rest _ _
      have harray := parseArray_empty (parseElements A fuel) hg rest
      simpa [Value.item, elementItems] using parseValue_array fuel harray
  | @array vs t h ih =>
      intro fuel rest hfuel _
      rcases h.skip_elements (closeBracket :: rest) with ⟨c, u, hskip, hc⟩
      simp only [List.length_cons, List.length_append, List.length_nil] at hfuel
      rcases Nat.exists_eq_add_of_le' (show 1 ≤ fuel by omega) with ⟨fuel, rfl⟩
      have hlist := (parseArray_elements (A := A) (fuel + 1) hskip hc.2.1).trans
        (ih fuel rest (by omega))
      simpa [Value.item] using parseValue_array (fuel + 1) hlist
  | emptyObject hg =>
      intro fuel rest _ _
      have hobject := parseObject_empty (parseMembers A fuel) hg rest
      simpa [Value.item, memberItems] using parseValue_object fuel hobject
  | @object ms t h ih =>
      intro fuel rest hfuel _
      rcases h.skip_members (closeBrace :: rest) with ⟨u, hskip⟩
      simp only [List.length_cons, List.length_append, List.length_nil] at hfuel
      rcases Nat.exists_eq_add_of_le' (show 1 ≤ fuel by omega) with ⟨fuel, rfl⟩
      have hlist := (parseObject_members (A := A) (fuel + 1) hskip (by decide)).trans
        (ih fuel rest (by omega))
      simpa [Value.item] using parseValue_object (fuel + 1) hlist
  | @lastElement v g t g' hg h hg' ih =>
      intro fuel rest hfuel
      simp only [List.length_append] at hfuel
      simp only [List.append_assoc]
      rw [parseElements_value hg h.leads ih hg' (by decide) (by decide) (by omega),
        parseNext_close (by decide)]
      rfl
  | @element v vs g t g' us hg h hg' _ ih ihs =>
      intro fuel rest hfuel
      simp only [List.length_append, List.length_cons] at hfuel
      simp only [List.append_assoc, List.cons_append]
      rw [parseElements_value hg h.leads ih hg' (by decide) (by decide) (by omega)]
      rcases Nat.exists_eq_add_of_le' (show 1 ≤ fuel by omega) with ⟨fuel, rfl⟩
      exact parseNext_comma _ (ihs fuel rest (by omega))
  | @lastMember name v g k g' h t h' hg hk hg' hh ht hh' ih =>
      intro fuel rest hfuel
      simp only [List.length_append, List.length_cons] at hfuel
      simp only [List.append_assoc, List.cons_append]
      rw [parseMembers_value hg hk hg' hh ht.leads ih hh' (by decide) (by decide) (by omega),
        parseNext_close (by decide)]
      rfl
  | @member name v ms g k g' h t h' us hg hk hg' hh ht hh' _ ih ihs =>
      intro fuel rest hfuel
      simp only [List.length_append, List.length_cons] at hfuel
      simp only [List.append_assoc, List.cons_append]
      rw [parseMembers_value hg hk hg' hh ht.leads ih hh' (by decide) (by decide) (by omega)]
      rcases Nat.exists_eq_add_of_le' (show 1 ≤ fuel by omega) with ⟨fuel, rfl⟩
      exact parseNext_comma _ (ihs fuel rest (by omega))

/-! ## cJSON_Parse -/

/-- Every text of a value is parsed to its item. -/
theorem cJSONParse_spells {g t rest : List UInt8} {v : Value D} (hg : Space g)
    (h : Spells A Space (.value v) t) (hfollow : v.Follow rest) :
    cJSONParse A (g ++ (t ++ rest)) = .done (v.item A) rest := by
  rcases h.leads with ⟨c, r, hcr, hc⟩
  have hskip : skip (g ++ (t ++ rest)) = .done () (t ++ rest) := by
    rw [hcr, List.cons_append]
    exact skip_space hg (Or.inr hc.1) _
  refine (bind_done hskip).trans ?_
  exact h.parses (2 * (t ++ rest).length) rest (by simp only [List.length_append]; omega) hfollow

/-- The terminator ends every text. -/
theorem cJSONParseTerminated_nul {t : List UInt8} {v : Value D} (h : Spells A Space (.value v) t)
    (after : List UInt8) :
    cJSONParseTerminated A (t ++ 0 :: after) = .done (v.item A) (0 :: after) := by
  have hstop : Leads Stops (0 :: after) := ⟨0, after, rfl, stops_of_le (by decide)⟩
  have hnil : Space [] := by simp [Space]
  have hparse := cJSONParse_spells hnil h (v.follow_of_leads hstop)
  rw [List.nil_append] at hparse
  rw [cJSONParseTerminated, bind_done hparse]
  rfl

/-- A value with white space around it is accepted if the terminator follows, and otherwise `ep` is
left at the first character behind it. -/
theorem cJSONParseTerminated_spells {g t g' rest : List UInt8} {c : UInt8} {v : Value D}
    (hg : Space g) (h : Spells A Space (.value v) t) (hg' : Space g') (hc : c = 0 ∨ 32 < c)
    (hfollow : v.Follow (g' ++ c :: rest)) :
    cJSONParseTerminated A (g ++ (t ++ (g' ++ c :: rest))) =
      if c = 0 then .done (v.item A) (c :: rest) else .fail (c :: rest) := by
  rw [cJSONParseTerminated, bind_done (cJSONParse_spells hg h hfollow),
    bind_done (skip_space hg' hc rest), bind_peek_cons]
  split_ifs
  · rfl
  · rfl

theorem spells_seven {Gap : List UInt8 → Prop} (hnil : Gap []) :
    Spells integers Gap (.value (.array [.number 7])) [91, 55, 93] := by
  have hdigits : IntegerText [55] [55] := .digits (by decide) (by decide) (by simp [Digits])
  have hnumber : NumberText integers [55] 7 := .numeral .none hdigits .none .none
  exact .array (.lastElement hnil (.number hnumber) hnil)

/-- `[7]`, in a line of its own. -/
theorem cJSONParseTerminated_spells_seven :
    cJSONParseTerminated integers ([32] ++ ([91, 55, 93] ++ ([10] ++ [0]))) =
      .done ((Value.array [.number (7 : Int)]).item integers) [0] :=
  cJSONParseTerminated_spells (by simp [Space]) (spells_seven (by simp [Space])) (by simp [Space])
    (Or.inl rfl) trivial

end Json
end AbsPlatform
