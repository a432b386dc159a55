import AbsPlatform.Json.Complete

/-!
# Safety — the parser stays inside of a text with complete escapes

`parse_string` steps over the character behind a backslash, and over four characters behind `\u`,
without a look at them.  On a terminated text in which no string breaks off there, whatever else is
wrong with it, the parser never reads behind the terminator, never writes behind the end of a string
it has allocated, and reports failures at a place inside of the text (`cJSONParse_ends`).

Behind `\u` and less than four digits it does both: the second loop of `parse_string` runs over the
quote or the terminator at which the first loop has stopped (`cJSONParse_broken_escape`).
-/

namespace AbsPlatform
namespace Json

open Lib Lib.Scanner

/-! ## Texts with complete escapes -/

/-- A terminated text, from a place outside (`false`) or inside (`true`) of a string on. -/
inductive Safe : Bool → List UInt8 → Prop
  | nul (inside : Bool) (s : List UInt8) : Safe inside (0 :: s)
  | token {c : UInt8} {s : List UInt8} (hquote : c ≠ quote) (hnul : c ≠ 0) (h : Safe false s) :
      Safe false (c :: s)
  | opening {s : List UInt8} (h : Safe true s) : Safe false (quote :: s)
  | closing {s : List UInt8} (h : Safe false s) : Safe true (quote :: s)
  | raw {c : UInt8} {s : List UInt8} (hc : c ≠ quote ∧ c ≠ backslash ∧ c ≠ 0) (h : Safe true s) :
      Safe true (c :: s)
  | escape {c : UInt8} {s : List UInt8} (hu : c ≠ 117) (hnul : c ≠ 0) (h : Safe true s) :
      Safe true (backslash :: c :: s)
  | unicode {ds s : List UInt8} {n : Nat} (hds : Hex4 ds n) (h : Safe true s) :
      Safe true (backslash :: 117 :: (ds ++ s))

theorem Safe.exists_cons {inside : Bool} {s : List UInt8} (h : Safe inside s) :
    ∃ c r, s = c :: r := by
  cases h <;> exact ⟨_, _, rfl⟩

theorem Safe.tail {c : UInt8} {s : List UInt8} (h : Safe false (c :: s)) (hquote : c ≠ quote)
    (hnul : c ≠ 0) : Safe false s := by
  cases h with
  | nul => exact absurd rfl hnul
  | token _ _ h => exact h
  | opening _ => exact absurd rfl hquote

theorem Safe.string {s : List UInt8} (h : Safe false (quote :: s)) : Safe true s := by
  cases h with
  | token hquote _ _ => exact absurd rfl hquote
  | opening h => exact h

/-- Behind a backslash inside of a string. -/
theorem Safe.escaped {c : UInt8} {s : List UInt8} (h : Safe true (backslash :: c :: s)) :
    (c ≠ 117 ∧ c ≠ 0 ∧ Safe true s) ∨
      (c = 117 ∧ ∃ ds t n, s = ds ++ t ∧ Hex4 ds n ∧ Safe true t) := by
  cases h with
  | raw hc _ => exact absurd rfl hc.2.1
  | escape hu hnul h => exact Or.inl ⟨hu, hnul, h⟩
  | unicode hds h => exact Or.inr ⟨rfl, _, _, _, rfl, hds, h⟩

theorem Safe.escaped_cons {s : List UInt8} (h : Safe true (backslash :: s)) :
    ∃ c t, s = c :: t := by
  cases h with
  | raw hc _ => exact absurd rfl hc.2.1
  | escape _ _ _ => exact ⟨_, _, rfl⟩
  | unicode _ _ => exact ⟨_, _, rfl⟩

/-! ## Strings -/

theorem Hex4.lt {ds : List UInt8} {n : Nat} (h : Hex4 ds n) : n < 0x10000 := by
  cases h with
  | digits ha hb hc hd =>
      have := hexDigit?_lt ha
      have := hexDigit?_lt hb
      have := hexDigit?_lt hc
      have := hexDigit?_lt hd
      omega

/-- An escaped code, alone or together with the next one. -/
theorem unescapeUnicode_safe {ds s : List UInt8} {n : Nat} (hds : Hex4 ds n) (h : Safe true s) :
    (∃ bytes, unescapeUnicode (ds ++ s) = some (bytes, 5) ∧ bytes.length ≤ 3) ∨
      ∃ es t m bytes, s = backslash :: 117 :: (es ++ t) ∧ Hex4 es m ∧ Safe true t ∧
        unescapeUnicode (ds ++ s) = some (bytes, 11) ∧ bytes.length ≤ 4 := by
  have hlen := hds.length
  have hread : ∀ k, (ds ++ s)[4 + k]? = s[k]? := by
    intro k
    rw [List.getElem?_append_right (by omega), hlen]
    congr 1
    omega
  have hdrop : (ds ++ s).drop 6 = s.drop 2 := by
    rw [List.drop_append, List.drop_of_length_le (by omega), hlen]
    rfl
  simp only [unescapeUnicode, parseHex4_text hds, Option.bind_eq_bind, Option.bind_some, hread 0,
    hread 1, hdrop]
  by_cases hlow : (0xDC00 ≤ n ∧ n ≤ 0xDFFF) ∨ n = 0
  · rw [if_pos hlow]
    exact Or.inl ⟨[], rfl, Nat.zero_le 3⟩
  rw [if_neg hlow]
  by_cases hhigh : 0xD800 ≤ n ∧ n ≤ 0xDBFF
  · rw [if_pos hhigh]
    rcases h.exists_cons with ⟨c, r, rfl⟩
    by_cases hback : c = backslash
    · subst hback
      rcases h.escaped_cons with ⟨d, t, rfl⟩
      rcases h.escaped with ⟨hd, _, _⟩ | ⟨rfl, es, t, m, rfl, hes, ht⟩
      · refine Or.inl ⟨[], ?_, Nat.zero_le 3⟩
        simp [hd]
      · refine Or.inr ⟨es, t, m, ?_⟩
        have hsecond := parseHex4_text hes t
        by_cases hrange : m < 0xDC00 ∨ 0xDFFF < m
        · refine ⟨[], rfl, hes, ht, ?_, Nat.zero_le 4⟩
          simp [hsecond, hrange]
        · refine ⟨utf8Bytes (0x10000 + (((n &&& 0x3FF) <<< 10) ||| (m &&& 0x3FF))), rfl, hes, ht,
            ?_, length_utf8Bytes_le _⟩
          simp only [List.getElem?_cons_zero, Option.bind_some, ne_eq, not_true_eq_false, if_false,
            List.getElem?_cons_succ, List.drop_succ_cons, List.drop_zero, hsecond, if_neg hrange]
          rfl
    · exact Or.inl ⟨[], if_pos hback, Nat.zero_le 3⟩
  · rw [if_neg hhigh]
    exact Or.inl ⟨utf8Bytes n, rfl, length_utf8Bytes_le_three hds.lt⟩

theorem unescape_other {c : UInt8} (hu : c ≠ 117) (s : List UInt8) :
    ∃ b, unescape (c :: s) = some ([b], 1) := by
  cases hlookup : controlEscapes.lookup c with
  | some b => exact ⟨b, by simp only [unescape, hlookup]⟩
  | none => exact ⟨c, by simp only [unescape, hlookup, if_neg hu]⟩

/-- Where a string ends: at its closing quote, or at the terminator of the text. -/
def StringEnd (s : List UInt8) : Prop := ∃ c r, s = c :: r ∧ (c = 0 ∨ (c = quote ∧ Safe false r))

/-- The first loop counts `len` characters, and the second loop writes no more than these. -/
def Copies (s : List UInt8) (len : Nat) : Prop :=
  stringLength s = some len ∧ ∃ rest, StringEnd rest ∧ rest <:+ s ∧
    ∀ cap out, out.length + len ≤ cap →
      ∃ out', copyString cap 0 out s = .done out' rest ∧ out'.length ≤ out.length + len

theorem copies_end {c : UInt8} {s : List UInt8} (hc : c = 0 ∨ (c = quote ∧ Safe false s)) :
    Copies (c :: s) 0 := by
  have hstop : c = quote ∨ c = 0 := by
    rcases hc with hc | hc
    · exact Or.inr hc
    · exact Or.inl hc.1
  refine ⟨?_, c :: s, ⟨c, s, rfl, hc⟩, List.suffix_refl _, ?_⟩
  · cases s <;> simp only [stringLength, if_pos hstop]
  · intro cap out _
    exact ⟨out, by simp only [copyString, if_pos hstop], Nat.le_add_right _ _⟩

theorem Copies.raw {c : UInt8} {s : List UInt8} {len : Nat} (h : Copies s len)
    (hc : c ≠ quote ∧ c ≠ backslash ∧ c ≠ 0) : Copies (c :: s) (len + 1) := by
  rcases h with ⟨hlen, rest, hend, hsuffix, hcopy⟩
  refine ⟨?_, rest, hend, hsuffix.trans (List.suffix_cons c s), ?_⟩
  · rw [stringLength_char hc, hlen]
    rfl
  · intro cap out hcap
    rcases hcopy cap (out ++ [c]) (by simp; omega) with ⟨out', hout, hle⟩
    refine ⟨out', ?_, ?_⟩
    · rw [copyString_plain hc (by omega), hout]
    · rw [List.length_append, List.length_singleton] at hle
      omega

/-- An escape that is counted as `n` characters and has no more bytes. -/
theorem Copies.unescape {word s bytes : List UInt8} {len n : Nat} (h : Copies s len)
    (hun : unescape (word ++ s) = some (bytes, word.length)) (hbytes : bytes.length ≤ n)
    (hcount : stringLength (backslash :: (word ++ s)) = (stringLength s).map (· + n)) :
    Copies (backslash :: (word ++ s)) (len + n) := by
  rcases h with ⟨hlen, rest, hend, hsuffix, hcopy⟩
  refine ⟨?_, rest, hend, ?_, ?_⟩
  · rw [hcount, hlen]
    rfl
  · exact hsuffix.trans ((List.suffix_append word s).trans (List.suffix_cons _ _))
  · intro cap out hcap
    rcases hcopy cap (out ++ bytes) (by simp; omega) with ⟨out', hout, hle⟩
    refine ⟨out', ?_, ?_⟩
    · rw [copyString_unescape hun (by omega), copyString_over, hout]
    · rw [List.length_append] at hle
      omega

theorem Safe.copies {s : List UInt8} (h : Safe true s) : ∃ len, Copies s len := by
  -- an escaped pair takes two escapes at once, so the induction is on the length
  induction hn : s.length using Nat.strong_induction_on generalizing s with
  | _ n ih =>
  subst hn
  cases h with
  | nul => exact ⟨0, copies_end (Or.inl rfl)⟩
  | closing h => exact ⟨0, copies_end (Or.inr ⟨rfl, h⟩)⟩
  | raw hc h =>
      rcases ih _ (by simp) h rfl with ⟨len, hlen⟩
      exact ⟨len + 1, hlen.raw hc⟩
  | @escape c s hu hnul h =>
      rcases ih _ (by simp only [List.length_cons]; omega) h rfl with ⟨len, hlen⟩
      rcases unescape_other hu s with ⟨b, hb⟩
      have hword : Json.unescape ([c] ++ s) = some ([b], [c].length) := hb
      exact ⟨len + 1, hlen.unescape hword (Nat.le_refl 1) (stringLength_escape c s)⟩
  | @unicode ds s n hds h =>
      have hfour := hds.length
      rcases unescapeUnicode_safe hds h with ⟨bytes, hun, hbytes⟩ |
        ⟨es, t, m, bytes, rfl, hes, ht, hun, hbytes⟩
      · rcases ih _ (by simp; omega) h rfl with ⟨len, hlen⟩
        have hword : Json.unescape ((117 :: ds) ++ s) = some (bytes, (117 :: ds).length) := by
          rw [List.length_cons, hfour]
          exact hun
        exact ⟨len + 5, hlen.unescape hword (by omega) (stringLength_unicode hds s)⟩
      · have hfour' := hes.length
        rcases ih _ (by simp; omega) ht rfl with ⟨len, hlen⟩
        have hword : Json.unescape ((117 :: (ds ++ backslash :: 117 :: es)) ++ t) =
            some (bytes, (117 :: (ds ++ backslash :: 117 :: es)).length) := by
          simp only [List.length_cons, List.length_append, hfour, hfour', List.cons_append,
            List.append_assoc]
          exact hun
        have hcount : stringLength (backslash :: ((117 :: (ds ++ backslash :: 117 :: es)) ++ t)) =
            (stringLength t).map (· + 10) := by
          simp only [List.cons_append, List.append_assoc]
          rw [stringLength_unicode hds, stringLength_unicode hes, Option.map_map]
          rfl
        have hall := hlen.unescape hword (by omega) hcount
        simp only [List.cons_append, List.append_assoc] at hall
        exact ⟨len + 10, hall⟩

/-! ## Scanners -/

/-- A place in the text, outside of its strings. -/
def Within (orig s : List UInt8) : Prop := Safe false s ∧ s <:+ orig

/-- Started at a place in the text, a scanner ends at one, and it does not go back. -/
def Stays {α : Type} (orig : List UInt8) (p : Scanner UInt8 α) (s : List UInt8) : Prop :=
  (p s).Ends (Within orig) fun _ rest => Within orig rest ∧ rest.length ≤ s.length

section

variable {α γ : Type} {orig : List UInt8} {s : List UInt8} {c : UInt8}

theorem Within.tail (h : Within orig (c :: s)) (hquote : c ≠ quote) (hnul : c ≠ 0) :
    Within orig s :=
  ⟨h.1.tail hquote hnul, (List.suffix_cons c s).trans h.2⟩

theorem stays_pure (h : Within orig s) (a : α) : Stays orig (pure a : Scanner UInt8 α) s :=
  ⟨h, Nat.le_refl _⟩

theorem stays_failHere (h : Within orig s) : Stays orig (failHere : Scanner UInt8 α) s := h

theorem Stays.bind {p : Scanner UInt8 α} {f : α → Scanner UInt8 γ} (hp : Stays orig p s)
    (hf : ∀ a rest, Within orig rest → rest.length ≤ s.length → Stays orig (f a) rest) :
    Stays orig (p >>= f) s := by
  refine Outcome.Ends.bind hp fun a rest h => ?_
  exact (hf a rest h.1 h.2).imp fun b rest' h' => ⟨h'.1, Nat.le_trans h'.2 h.2⟩

/-- `*p`, which is a character of the text. -/
theorem stays_peek {f : UInt8 → Scanner UInt8 γ} (h : Within orig s)
    (hf : ∀ c r, s = c :: r → Stays orig (f c) s) : Stays orig (peek >>= f) s := by
  rcases h.1.exists_cons with ⟨c, r, rfl⟩
  exact hf c r rfl

/-- The pointer moves over a character that is neither a quote nor the terminator. -/
theorem stays_advance {f : Unit → Scanner UInt8 γ} (h : Within orig (c :: s)) (hquote : c ≠ quote)
    (hnul : c ≠ 0) (hf : Within orig s → Stays orig (f ()) s) :
    Stays orig (advance 1 >>= f) (c :: s) := by
  unfold Stays
  rw [bind_advance_one]
  have hrest : Stays orig (f ()) s := hf (h.tail hquote hnul)
  exact hrest.imp fun b rest h' => ⟨h'.1, Nat.le_trans h'.2 (Nat.le_succ _)⟩

theorem stays_ite {p : Prop} [Decidable p] {f g : Scanner UInt8 α} (hf : p → Stays orig f s)
    (hg : ¬ p → Stays orig g s) : Stays orig (if p then f else g) s := by
  split
  · exact hf ‹_›
  · exact hg ‹_›

theorem stays_skip (h : Within orig s) : Stays orig skip s := by
  induction s with
  | nil => cases h.1
  | cons c s ih =>
      by_cases hc : c ≠ 0 ∧ c ≤ 32
      · have hquote : c ≠ quote := by
          rintro rfl
          exact absurd hc.2 (by decide)
        have hrest := ih (h.tail hquote hc.1)
        unfold Stays at hrest ⊢
        rw [skip, if_pos hc]
        exact hrest.imp fun _ rest h' => ⟨h'.1, Nat.le_trans h'.2 (Nat.le_succ _)⟩
      · unfold Stays
        rw [skip, if_neg hc]
        exact ⟨h, Nat.le_refl _⟩

theorem isDigit_token (h : isDigit c = true) : c ≠ quote ∧ c ≠ 0 := by
  constructor <;> rintro rfl <;> cases h

theorem stays_digits (add : α → UInt8 → α) (n : α) (h : Within orig s) :
    Stays orig (digits add n) s := by
  induction s generalizing n with
  | nil => cases h.1
  | cons c s ih =>
      unfold Stays
      by_cases hc : isDigit c = true
      · have htoken := isDigit_token hc
        have hrest := ih (add n c) (h.tail htoken.1 htoken.2)
        rw [digits, if_pos hc]
        exact hrest.imp fun _ rest h' => ⟨h'.1, Nat.le_trans h'.2 (Nat.le_succ _)⟩
      · rw [digits, if_neg hc]
        exact ⟨h, Nat.le_refl _⟩

theorem stays_numberSign (h : Within orig s) : Stays orig numberSign s := by
  refine stays_peek h fun c r hs => stays_ite (fun hc => ?_) fun _ => stays_pure h 1
  subst hs hc
  exact stays_advance h (by decide) (by decide) fun h' => stays_pure h' (-1)

theorem stays_leadingZero (h : Within orig s) : Stays orig leadingZero s := by
  refine stays_peek h fun c r hs => stays_ite (fun hc => ?_) fun _ => stays_pure h ()
  subst hs hc
  unfold Stays
  have hmove : (advance 1 : Scanner UInt8 Unit) (48 :: r) = .done () r :=
    advance_append [48] rfl r
  rw [hmove]
  exact ⟨h.tail (by decide) (by decide), Nat.le_succ _⟩

variable {D : Type} (A : Doubles D)

theorem stays_integerPart (h : Within orig s) : Stays orig (integerPart A) s :=
  stays_peek h fun _ _ _ => stays_ite (fun _ => stays_digits _ _ h) fun _ => stays_pure h _

/-- `p[1]`, behind a character that is neither a quote nor the terminator. -/
theorem stays_peekAt_one {f : UInt8 → Scanner UInt8 γ} (h : Within orig (c :: s))
    (hquote : c ≠ quote) (hnul : c ≠ 0) (hf : ∀ d, Stays orig (f d) (c :: s)) :
    Stays orig (peekAt 1 >>= f) (c :: s) := by
  rcases (h.tail hquote hnul).1.exists_cons with ⟨d, r, rfl⟩
  exact hf d

theorem stays_fraction (n : D) (h : Within orig s) : Stays orig (fraction A n) s := by
  refine stays_peek h fun c r hs => stays_ite (fun hc => ?_) fun _ => stays_pure h _
  subst hs hc
  refine stays_peekAt_one h (by decide) (by decide) fun d => ?_
  refine stays_ite (fun _ => ?_) fun _ => stays_pure h _
  exact stays_advance h (by decide) (by decide) fun h' => stays_digits _ _ h'

theorem stays_exponent (h : Within orig s) : Stays orig exponent s := by
  refine stays_peek h fun c r hs => stays_ite (fun hc => ?_) fun _ => stays_pure h 0
  subst hs
  have htoken : c ≠ quote ∧ c ≠ 0 := by
    rcases hc with rfl | rfl
    · decide
    · decide
  refine stays_advance h htoken.1 htoken.2 fun h' => stays_peek h' fun d t hr => ?_
  refine stays_ite (fun hd => ?_) fun _ => stays_ite (fun hd => ?_) fun _ => stays_digits _ _ h'
  · subst hr hd
    exact stays_advance h' (by decide) (by decide) fun h'' => stays_digits _ _ h''
  · subst hr hd
    refine stays_advance h' (by decide) (by decide) fun h'' => ?_
    exact (stays_digits _ _ h'').bind fun _ rest hrest _ => stays_pure hrest _

theorem stays_parseNumber (h : Within orig s) : Stays orig (parseNumber A) s := by
  refine (stays_numberSign h).bind fun _ _ h₁ _ => ?_
  refine (stays_leadingZero h₁).bind fun _ _ h₂ _ => ?_
  refine (stays_integerPart A h₂).bind fun _ _ h₃ _ => ?_
  refine (stays_fraction A _ h₃).bind fun _ _ h₄ _ => ?_
  exact (stays_exponent h₄).bind fun _ _ h₅ _ => stays_pure h₅ _

/-- A string, with its quotes. -/
theorem stays_parseString (h : Within orig s) : Stays orig parseString s := by
  refine stays_peek h fun c r hs => stays_ite (fun hc => ?_) fun _ => stays_failHere h
  subst hs hc
  rcases h.1.string.copies with ⟨len, hlen, rest, ⟨d, t, rfl, hend⟩, hsuffix, hcopy⟩
  rcases hcopy (len + 1) [] (by simp) with ⟨out, hout, hle⟩
  have hfits : out.length < len + 1 := by
    rw [List.length_nil] at hle
    omega
  have hlook : look stringLength r = .done len r := look_some hlen
  have hplace : d :: t <:+ orig := hsuffix.trans ((List.suffix_cons _ _).trans h.2)
  have hle' := hsuffix.length_le
  unfold Stays
  rw [bind_advance_one, bind_done hlook, bind_done hout, closeString, if_pos hfits, bind_peek_cons]
  rw [List.length_cons] at hle' ⊢
  by_cases hd : d = quote
  · rw [if_pos hd, bind_advance_one]
    have hsafe : Safe false t := by
      rcases hend with rfl | hend
      · cases hd
      · exact hend.2
    exact ⟨⟨hsafe, (List.suffix_cons d t).trans hplace⟩, by omega⟩
  · rw [if_neg hd]
    have hzero : d = 0 := hend.resolve_right fun hq => hd hq.1
    subst hzero
    exact ⟨⟨.nul false t, hplace⟩, by rw [List.length_cons]; omega⟩

/-! ## Words -/

theorem startsWith_safe {word : List UInt8} (hword : ∀ w ∈ word, w ≠ quote ∧ w ≠ 0)
    (h : Within orig s) :
    startsWith word s = some false ∨
      (startsWith word s = some true ∧ ∃ rest, s = word ++ rest ∧ Within orig rest) := by
  induction word generalizing s with
  | nil => exact Or.inr ⟨by simp [startsWith], s, rfl, h⟩
  | cons w word ih =>
      rcases h.1.exists_cons with ⟨c, r, rfl⟩
      by_cases hc : c = w
      · subst hc
        have hw := hword c (by simp)
        rw [startsWith, if_pos rfl]
        rcases ih (fun x hx => hword x (by simp [hx])) (h.tail hw.1 hw.2) with hno |
          ⟨hyes, rest, rfl, hrest⟩
        · exact Or.inl hno
        · exact Or.inr ⟨hyes, rest, rfl, hrest⟩
      · exact Or.inl (by rw [startsWith, if_neg hc])

/-- A word is recognised and passed, or the text is left to the next test. -/
theorem stays_word {word : List UInt8} {n : Nat} (hn : word.length = n)
    (hword : ∀ w ∈ word, w ≠ quote ∧ w ≠ 0) (a : α) {p : Scanner UInt8 α} (h : Within orig s)
    (hp : Stays orig p s) :
    Stays orig (do if ← look (startsWith word) then advance n; return a else p) s := by
  unfold Stays
  rcases startsWith_safe hword h with hno | ⟨hyes, rest, rfl, hrest⟩
  · rw [bind_done (look_some hno), if_neg Bool.false_ne_true]
    exact hp
  · rw [bind_done (look_some hyes), if_pos rfl, bind_done (advance_append word hn rest)]
    exact ⟨hrest, by rw [List.length_append]; omega⟩

/-! ## Arrays, objects and values -/

theorem stays_close {items : List (Item D)} (h : Within orig (c :: s)) (hquote : c ≠ quote)
    (hnul : c ≠ 0) :
    Stays orig (do advance 1; return items : Scanner UInt8 (List (Item D))) (c :: s) :=
  stays_advance h hquote hnul fun h' => stays_pure h' items

theorem stays_parseNext {close : UInt8} (hquote : close ≠ quote) (hnul : close ≠ 0) (item : Item D)
    {more : Scanner UInt8 (List (Item D))} (h : Within orig s)
    (hmore : ∀ r, Within orig r → r.length < s.length → Stays orig more r) :
    Stays orig (parseNext close item more) s := by
  refine stays_peek h fun c r hs => stays_ite (fun hc => ?_) fun _ => stays_ite (fun hc => ?_)
    fun _ => stays_failHere h
  · subst hs hc
    refine stays_advance h (by decide) (by decide) fun h' => ?_
    exact (hmore r h' (Nat.lt_succ_self _)).bind fun _ _ h'' _ => stays_pure h'' _
  · subst hs hc
    exact stays_close h hquote hnul

theorem stays_parseArray {elements : Scanner UInt8 (List (Item D))}
    (h : Within orig (openBracket :: s))
    (hmore : ∀ r, Within orig r → r.length ≤ s.length → Stays orig elements r) :
    Stays orig (parseArray elements) (openBracket :: s) := by
  refine stays_advance h (by decide) (by decide) fun h' => ?_
  refine (stays_skip h').bind fun _ r hr hle => stays_peek hr fun c t hs => ?_
  refine stays_ite (fun hc => ?_) fun _ => hmore r hr hle
  subst hs hc
  exact stays_close hr (by decide) (by decide)

theorem stays_parseObject {members : Scanner UInt8 (List (Item D))}
    (h : Within orig (openBrace :: s))
    (hmore : ∀ r, Within orig r → r.length ≤ s.length → Stays orig members r) :
    Stays orig (parseObject members) (openBrace :: s) := by
  refine stays_advance h (by decide) (by decide) fun h' => ?_
  refine (stays_skip h').bind fun _ r hr hle => stays_peek hr fun c t hs => ?_
  refine stays_ite (fun hc => ?_) fun _ => hmore r hr hle
  subst hs hc
  exact stays_close hr (by decide) (by decide)

/-- The bound on the calls is not reached. -/
structure Enough (A : Doubles D) (orig : List UInt8) (fuel : Nat) : Prop where
  value : ∀ s, Within orig s → 2 * s.length + 1 ≤ fuel → Stays orig (parseValue A fuel) s
  elements : ∀ s, Within orig s → 2 * s.length + 2 ≤ fuel → Stays orig (parseElements A fuel) s
  members : ∀ s, Within orig s → 2 * s.length + 2 ≤ fuel → Stays orig (parseMembers A fuel) s

theorem Enough.parseValue {fuel : Nat} (hfuel : Enough A orig fuel) (h : Within orig s)
    (hle : 2 * s.length + 1 ≤ fuel + 1) : Stays orig (Json.parseValue A (fuel + 1)) s := by
  have hnull : ∀ w ∈ nullText, w ≠ quote ∧ w ≠ 0 := by simp [nullText]
  have hfalse : ∀ w ∈ falseText, w ≠ quote ∧ w ≠ 0 := by simp [falseText]
  have htrue : ∀ w ∈ trueText, w ≠ quote ∧ w ≠ 0 := by simp [trueText]
  refine stays_word rfl hnull _ h (stays_word rfl hfalse _ h (stays_word rfl htrue _ h ?_))
  refine stays_peek h fun c r hs => ?_
  subst hs
  rw [List.length_cons] at hle
  refine stays_ite (fun _ => ?_) fun _ => stays_ite (fun _ => stays_parseNumber A h) fun _ =>
    stays_ite (fun hc => ?_) fun _ => stays_ite (fun hc => ?_) fun _ => stays_failHere h
  · exact (stays_parseString h).bind fun _ _ h' _ => stays_pure h' _
  · subst hc
    refine (stays_parseArray h fun t ht hlt => ?_).bind fun _ _ h' _ => stays_pure h' _
    exact hfuel.elements t ht (by omega)
  · subst hc
    refine (stays_parseObject h fun t ht hlt => ?_).bind fun _ _ h' _ => stays_pure h' _
    exact hfuel.members t ht (by omega)

theorem Enough.parseElements {fuel : Nat} (hfuel : Enough A orig fuel) (h : Within orig s)
    (hle : 2 * s.length + 2 ≤ fuel + 1) : Stays orig (Json.parseElements A (fuel + 1)) s := by
  refine (stays_skip h).bind fun _ r hr hler => ?_
  refine (hfuel.value r hr (by omega)).bind fun item t ht hlet => ?_
  refine (stays_skip ht).bind fun _ u hu hleu => ?_
  exact stays_parseNext (by decide) (by decide) item hu fun v hv hlt =>
    hfuel.elements v hv (by omega)

theorem Enough.parseMembers {fuel : Nat} (hfuel : Enough A orig fuel) (h : Within orig s)
    (hle : 2 * s.length + 2 ≤ fuel + 1) : Stays orig (Json.parseMembers A (fuel + 1)) s := by
  refine (stays_skip h).bind fun _ r hr hler => ?_
  refine (stays_parseString hr).bind fun name t ht hlet => ?_
  refine (stays_skip ht).bind fun _ u hu hleu => stays_peek hu fun c v hs => ?_
  refine stays_ite (fun hc => ?_) fun _ => stays_failHere hu
  subst hs hc
  refine stays_advance hu (by decide) (by decide) fun hv => ?_
  rw [List.length_cons] at hleu
  refine (stays_skip hv).bind fun _ w hw hlew => ?_
  refine (hfuel.value w hw (by omega)).bind fun item x hx hlex => ?_
  refine (stays_skip hx).bind fun _ y hy hley => ?_
  exact stays_parseNext (by decide) (by decide) _ hy fun z hz hlt =>
    hfuel.members z hz (by omega)

theorem enough (A : Doubles D) (orig : List UInt8) (fuel : Nat) : Enough A orig fuel := by
  induction fuel with
  | zero => exact ⟨fun _ _ h => by omega, fun _ _ h => by omega, fun _ _ h => by omega⟩
  | succ fuel ih =>
      exact ⟨fun _ h hle => ih.parseValue A h hle, fun _ h hle => ih.parseElements A h hle,
        fun _ h hle => ih.parseMembers A h hle⟩

/-- A text with complete escapes is parsed or rejected, at a place inside of it. -/
theorem cJSONParse_ends {text : List UInt8} (h : Safe false text) :
    (cJSONParse A text).Ends (fun place => Safe false place ∧ place <:+ text)
      fun _ rest => Safe false rest ∧ rest <:+ text := by
  have hwithin : Within text text := ⟨h, List.suffix_refl text⟩
  have hparse : Stays text (cJSONParse A) text :=
    (stays_skip hwithin).bind fun _ r hr _ => (enough A text _).value r hr (Nat.le_refl _)
  exact hparse.imp fun _ _ h' => h'.1

/-- `["\u0041` breaks off inside of its string. -/
theorem cJSONParse_ends_open :
    Safe false [91, 34, 92, 117, 48, 48, 52, 49, 0] ∧
      (cJSONParse integers [91, 34, 92, 117, 48, 48, 52, 49, 0]).Ends
        (fun place => Safe false place ∧ place <:+ [91, 34, 92, 117, 48, 48, 52, 49, 0])
        fun _ rest => Safe false rest ∧ rest <:+ [91, 34, 92, 117, 48, 48, 52, 49, 0] := by
  have hhex : Hex4 [48, 48, 52, 49] (((0 * 16 + 0) * 16 + 4) * 16 + 1) := .digits rfl rfl rfl rfl
  have hsafe : Safe false [91, 34, 92, 117, 48, 48, 52, 49, 0] :=
    .token (by decide) (by decide) (.opening (.unicode hhex (.nul true [])))
  exact ⟨hsafe, cJSONParse_ends integers hsafe⟩

end

/-! ## Incomplete escapes -/

theorem parseHexDigits_broken {ds : List UInt8} {c : UInt8} (hc : hexDigit? c = none) {k : Nat}
    (hk : ds.length < k) (h : Nat) (s : List UInt8) :
    parseHexDigits k h (ds ++ c :: s) = some 0 := by
  induction ds generalizing k h with
  | nil =>
      rcases Nat.exists_eq_add_of_lt hk with ⟨j, rfl⟩
      simp [parseHexDigits, hc]
  | cons d ds ih =>
      rcases k with _ | k
      · cases hk
      · rw [List.cons_append, parseHexDigits]
        cases hexDigit? d with
        | none => rfl
        | some n => exact ih (Nat.lt_of_succ_lt_succ hk) _

/-- The code is taken as 0, and the pointer moves on as if it had been there. -/
theorem unescape_broken {ds : List UInt8} {c : UInt8} (hc : hexDigit? c = none)
    (hds : ds.length < 4) (s : List UInt8) : unescape (117 :: (ds ++ c :: s)) = some ([], 5) := by
  rw [unescape_u, unescapeUnicode, parseHex4, parseHexDigits_broken hc hds]
  rfl

theorem copyString_overflow {cap : Nat} {r : List UInt8}
    (hr : ∀ c ∈ r, c ≠ quote ∧ c ≠ backslash ∧ c ≠ 0) (rest : List UInt8) {out : List UInt8}
    (hout : out.length ≤ cap) (hcap : cap < out.length + r.length) :
    copyString cap 0 out (r ++ rest) = .fault := by
  induction r generalizing out with
  | nil =>
      rw [List.length_nil] at hcap
      omega
  | cons c r ih =>
      rw [List.length_cons] at hcap
      have hc := hr c (by simp)
      by_cases hroom : out.length < cap
      · rw [List.cons_append, copyString_plain hc hroom]
        exact ih (fun d hd => hr d (by simp [hd])) (by simp; omega) (by simp; omega)
      · rw [List.cons_append]
        simp only [copyString, if_neg (not_or.2 ⟨hc.1, hc.2.2⟩), if_neg hc.2.1, if_neg hroom]

theorem parseString_fault {s : List UInt8} {len : Nat} (hlen : stringLength s = some len)
    (hcopy : copyString (len + 1) 0 [] s = .fault) : parseString (quote :: s) = .fault := by
  rw [parseString, bind_peek_cons, if_pos rfl, bind_advance_one, bind_done (look_some hlen),
    bind_fault hcopy]

theorem cJSONParse_fault {D : Type} (A : Doubles D) {s : List UInt8}
    (h : parseString (quote :: s) = .fault) : cJSONParse A (quote :: s) = .fault := by
  refine (bind_done (skip_stop (Or.inr (by decide)) s)).trans ?_
  show parseValue A (2 * s.length + 2 + 1) (quote :: s) = .fault
  rw [parseValue_other _ (by decide) (by decide) (by decide), if_pos rfl, bind_fault h]

theorem stringLength_le {s : List UInt8} {n : Nat} (h : stringLength s = some n) :
    n ≤ s.length := by
  fun_induction stringLength s generalizing n with
  | case1 => cases h
  | case2 =>
      cases h
      exact Nat.zero_le _
  | case3 => cases h
  | case4 _ _ _ ih =>
      rcases Option.map_eq_some_iff.1 h with ⟨m, hm, rfl⟩
      have := ih hm
      simp only [List.length_cons]
      omega
  | case5 c s _ _ ih =>
      rcases Option.map_eq_some_iff.1 h with ⟨m, hm, rfl⟩
      have := ih hm
      simp only [List.length_cons]
      omega

/-- A string that ends within the digits of `\u` is read behind the terminator of the text, or
behind its closing quote, and then written behind the end of its block. -/
theorem cJSONParse_broken_escape {D : Type} (A : Doubles D) {t s ds : List UInt8}
    (h : BodyText t s) (hds : ∀ c ∈ ds, c ≠ quote ∧ c ≠ backslash ∧ c ≠ 0) (hlen : ds.length < 4) :
    cJSONParse A (quote :: (t ++ backslash :: 117 :: (ds ++ [0]))) = .fault ∧
      ∀ skipped r rest, ds.length + skipped.length = 3 →
        (∀ c ∈ r, c ≠ quote ∧ c ≠ backslash ∧ c ≠ 0) → t.length + ds.length + 3 < r.length →
        cJSONParse A
          (quote :: (t ++ backslash :: 117 :: (ds ++ quote :: (skipped ++ (r ++ rest))))) =
            .fault := by
  rcases h.copies with ⟨k, hk, hcount, hcopy⟩
  have hkt : k ≤ t.length + 1 := by
    have hzero : stringLength (t ++ [0]) = some k := by
      rw [hcount]
      simp [stringLength]
    simpa using stringLength_le hzero
  -- the first loop stops behind the digits
  have hfirst : ∀ (c : UInt8) u, c = quote ∨ c = 0 →
      stringLength (t ++ backslash :: 117 :: (ds ++ c :: u)) = some (ds.length + 1 + k) := by
    intro c u hc
    have hstop : stringLength (c :: u) = some 0 := by
      cases u <;> simp only [stringLength, if_pos hc]
    rw [hcount, stringLength_escape, stringLength_plain hds, hstop]
    simp
  -- the second loop does not
  have hsecond : ∀ cap (c : UInt8) u, hexDigit? c = none → s.length ≤ cap →
      copyString cap 0 [] (t ++ backslash :: 117 :: (ds ++ c :: u)) =
        copyString cap 5 s (117 :: (ds ++ c :: u)) := by
    intro cap c u hc hcap
    rw [hcopy cap [] _ (by simpa using hcap), List.nil_append,
      copyString_unescape (unescape_broken hc hlen u) (by simpa using hcap), List.append_nil]
  constructor
  · refine cJSONParse_fault A (parseString_fault (hfirst 0 [] (Or.inr rfl)) ?_)
    rw [hsecond _ 0 [] rfl (by omega)]
    -- five characters from the `u` on are more than there are
    have hshort : ∀ (n : Nat) (w : List UInt8) cap, w.length ≤ n →
        copyString cap n s w = .fault := by
      intro n w cap hw
      induction w generalizing n with
      | nil => rfl
      | cons c w ih =>
          rcases n with _ | n
          · cases hw
          · exact ih n (Nat.le_of_succ_le_succ hw)
    exact hshort 5 _ _ (by simp; omega)
  · intro skipped r rest hskip hr hlong
    refine cJSONParse_fault A (parseString_fault (hfirst quote _ (Or.inl rfl)) ?_)
    rw [hsecond _ quote _ rfl (by omega)]
    have hover := copyString_over (ds.length + 1 + k + 1) s (117 :: (ds ++ quote :: skipped))
      (r ++ rest)
    have hfive : (117 :: (ds ++ quote :: skipped)).length = 5 := by
      simp only [List.length_cons, List.length_append]
      omega
    rw [hfive] at hover
    simp only [List.cons_append, List.append_assoc] at hover
    rw [hover]
    exact copyString_overflow hr rest (by omega) (by omega)

/-- `"a\u"`: one character is counted for `a` and one for the escape, and `BBBBB` comes too. -/
theorem cJSONParse_broken_escape_letters :
    cJSONParse integers [34, 97, 92, 117, 0] = .fault ∧
      cJSONParse integers [34, 97, 92, 117, 34, 65, 65, 65, 66, 66, 66, 66, 66, 0] = .fault := by
  have hbody : BodyText [97] [97] := .raw (by decide) (by decide) (by decide) .nil
  have hbroken := @cJSONParse_broken_escape Int integers [97] [97] [] hbody (by simp) (by decide)
  exact ⟨hbroken.1, hbroken.2 [65, 65, 65] [66, 66, 66, 66, 66] [0] rfl (by simp) (by decide)⟩

end Json
end AbsPlatform
