import AbsPlatform.Json.Complete
import AbsPlatform.Lib.Related

/-!
# Minify — taking white space and comments out of a text in place

`cJSON_Minify` reads through `json` and writes through `into`, both into the same block.  The write
never catches up with the read, so the result is the one of a copy (`minifyLoop_eq`).  For a text
with white space and comments between the tokens it is a text of the same value without either, and
parsing it gives the items of the value (`cJSONParse_cJSONMinify`).
-/

namespace AbsPlatform
namespace Json

open Lib Lib.Scanner

/-! ## cJSON_Minify -/

@[simp] def star : UInt8 := 42

/-- Which of the loops is running. -/
inductive MinifyMode
  | text
  | line
  | block
  | literal
  deriving DecidableEq

/-- The block of the text, and the two pointers. -/
structure Minifying where
  mem : List UInt8
  json : Nat
  into : Nat
  mode : MinifyMode

namespace Minifying

/-- `json += n`. -/
def pass (s : Minifying) (n : Nat) (mode : MinifyMode) : Minifying :=
  { s with json := s.json + n, mode := mode }

/-- `*into++ = *json++`. -/
def copy (s : Minifying) (mode : MinifyMode) : Option Minifying := do
  let c ← s.mem[s.json]?
  if s.into < s.mem.length then
    return ⟨s.mem.set s.into c, s.json + 1, s.into + 1, mode⟩
  else
    none

/-- What is done at the character `c`; a loop that ends is left without moving. -/
def turn (s : Minifying) (c : UInt8) : Option Minifying :=
  match s.mode with
  | .text =>
      if c ∈ [32, 9, 13, 10] then some (s.pass 1 .text)
      else if c = slash then do
        let d ← s.mem[s.json + 1]?
        if d = slash then return s.pass 0 .line
        else if d = star then return s.pass 0 .block
        else s.copy .text
      else if c = quote then s.copy .literal
      else s.copy .text
  | .line => if c = 0 ∨ c = 10 then some (s.pass 0 .text) else some (s.pass 1 .line)
  | .block =>
      if c = 0 then some (s.pass 2 .text)
      else if c = star then do
        let d ← s.mem[s.json + 1]?
        if d = slash then return s.pass 2 .text else return s.pass 1 .block
      else some (s.pass 1 .block)
  | .literal =>
      if c = quote ∨ c = 0 then s.copy .text
      else if c = backslash then do (← s.copy .literal).copy .literal
      else s.copy .literal

end Minifying

/-- The loop, and `*into = 0` behind it. -/
def minifyLoop : Nat → Minifying → Option (List UInt8)
  | 0, _ => none
  | fuel + 1, s => do
      let c ← s.mem[s.json]?
      if s.mode = .text ∧ c = 0 then
        if s.into < s.mem.length then return s.mem.set s.into 0 else none
      else
        minifyLoop fuel (← s.turn c)

/-- No character is looked at in more than two turns. -/
def cJSONMinify (mem : List UInt8) : Option (List UInt8) :=
  minifyLoop (2 * mem.length + 1) ⟨mem, 0, 0, .text⟩

/-! ## Into another block -/

/-- The same program with a block of its own for the result. -/
structure Copying where
  rest : List UInt8
  out : List UInt8
  mode : MinifyMode

namespace Copying

def pass (s : Copying) (n : Nat) (mode : MinifyMode) : Copying :=
  { s with rest := s.rest.drop n, mode := mode }

def copy (s : Copying) (mode : MinifyMode) : Option Copying :=
  match s.rest with
  | [] => none
  | c :: rest => some ⟨rest, s.out ++ [c], mode⟩

def turn (s : Copying) (c : UInt8) : Option Copying :=
  match s.mode with
  | .text =>
      if c ∈ [32, 9, 13, 10] then some (s.pass 1 .text)
      else if c = slash then do
        let d ← s.rest[1]?
        if d = slash then return s.pass 0 .line
        else if d = star then return s.pass 0 .block
        else s.copy .text
      else if c = quote then s.copy .literal
      else s.copy .text
  | .line => if c = 0 ∨ c = 10 then some (s.pass 0 .text) else some (s.pass 1 .line)
  | .block =>
      if c = 0 then some (s.pass 2 .text)
      else if c = star then do
        let d ← s.rest[1]?
        if d = slash then return s.pass 2 .text else return s.pass 1 .block
      else some (s.pass 1 .block)
  | .literal =>
      if c = quote ∨ c = 0 then s.copy .text
      else if c = backslash then do (← s.copy .literal).copy .literal
      else s.copy .literal

end Copying

def copyLoop : Nat → Copying → Option (List UInt8)
  | 0, _ => none
  | fuel + 1, s => do
      let c ← s.rest[0]?
      if s.mode = .text ∧ c = 0 then return s.out else copyLoop fuel (← s.turn c)

/-- What has been written stands in front of `into`, what has not been read behind `json`, and
nothing behind `into` has changed. -/
structure Follows (orig : List UInt8) (s : Minifying) (c : Copying) : Prop where
  length : s.mem.length = orig.length
  mode : s.mode = c.mode
  rest : s.mem.drop s.json = c.rest
  out : s.mem.take s.into = c.out
  into_le : s.into ≤ s.json
  behind : s.mem.drop s.into = orig.drop s.into

namespace Follows

variable {orig : List UInt8} {s : Minifying} {c : Copying}

theorem read (h : Follows orig s c) (n : Nat) : s.mem[s.json + n]? = c.rest[n]? := by
  rw [← h.rest, List.getElem?_drop]

theorem behind_succ (h : Follows orig s c) :
    s.mem.drop (s.into + 1) = orig.drop (s.into + 1) := by
  rw [← List.drop_drop, h.behind, List.drop_drop]

theorem pass (h : Follows orig s c) (n : Nat) (mode : MinifyMode) :
    Follows orig (s.pass n mode) (c.pass n mode) where
  length := h.length
  mode := rfl
  rest := by
    show s.mem.drop (s.json + n) = c.rest.drop n
    rw [← h.rest, List.drop_drop]
  out := h.out
  into_le := Nat.le_trans h.into_le (Nat.le_add_right _ n)
  behind := h.behind

theorem copy (h : Follows orig s c) (mode : MinifyMode) :
    Option.Rel (Follows orig) (s.copy mode) (c.copy mode) := by
  have hread := h.read 0
  rw [Nat.add_zero] at hread
  cases hrest : c.rest with
  | nil =>
      rw [hrest] at hread
      simp only [Minifying.copy, hread, Copying.copy, hrest]
      exact .none
  | cons b rest =>
      rw [hrest] at hread
      have hjson : s.json < s.mem.length := by
        by_contra hge
        rw [List.getElem?_eq_none (by omega)] at hread
        cases hread
      have hinto : s.into < s.mem.length := Nat.lt_of_le_of_lt h.into_le hjson
      have hcopy : s.copy mode = some ⟨s.mem.set s.into b, s.json + 1, s.into + 1, mode⟩ := by
        simp [Minifying.copy, hread, hinto]
      rw [hcopy, Copying.copy, hrest]
      exact .some {
        length := by simpa using h.length
        mode := rfl
        rest := by
          show (s.mem.set s.into b).drop (s.json + 1) = rest
          rw [List.drop_set_of_lt (by have := h.into_le; omega), ← List.drop_drop, h.rest, hrest]
          rfl
        out := by
          show (s.mem.set s.into b).take (s.into + 1) = c.out ++ [b]
          rw [List.take_add_one, List.take_set_of_le (Nat.le_refl _), h.out]
          simp [hinto]
        into_le := Nat.succ_le_succ h.into_le
        behind := by
          show (s.mem.set s.into b).drop (s.into + 1) = orig.drop (s.into + 1)
          rw [List.drop_set_of_lt (Nat.lt_succ_self _), h.behind_succ] }

theorem turn (h : Follows orig s c) (b : UInt8) :
    Option.Rel (Follows orig) (s.turn b) (c.turn b) := by
  unfold Minifying.turn Copying.turn
  rw [h.mode, h.read 1]
  have hpass : ∀ n mode, Option.Rel (Follows orig) (some (s.pass n mode)) (some (c.pass n mode)) :=
    fun n mode => .some (h.pass n mode)
  cases c.mode with
  | text =>
      refine rel_ite (hpass 1 .text) (rel_ite (rel_bind (rel_eq _) ?_)
        (rel_ite (h.copy .literal) (h.copy .text)))
      rintro d _ rfl
      exact rel_ite (hpass 0 .line) (rel_ite (hpass 0 .block) (h.copy .text))
  | line => exact rel_ite (hpass 0 .text) (hpass 1 .line)
  | block =>
      refine rel_ite (hpass 2 .text) (rel_ite (rel_bind (rel_eq _) ?_) (hpass 1 .block))
      rintro d _ rfl
      exact rel_ite (hpass 2 .text) (hpass 1 .block)
  | literal =>
      refine rel_ite (h.copy .text) (rel_ite ?_ (h.copy .literal))
      exact rel_bind (h.copy .literal) fun s' c' h' => h'.copy .literal

end Follows

/-- The result in the block: the copy, its terminator, and what stood behind. -/
def putBack (mem out : List UInt8) : List UInt8 := out ++ 0 :: mem.drop (out.length + 1)

theorem Follows.putBack_eq {orig : List UInt8} {s : Minifying} {c : Copying}
    (h : Follows orig s c) (hinto : s.into < s.mem.length) :
    s.mem.set s.into 0 = putBack orig c.out := by
  have hlen : c.out.length = s.into := by
    rw [← h.out, List.length_take]
    omega
  rw [List.set_eq_take_append_cons_drop, if_pos hinto, putBack, h.out, hlen, h.behind_succ]

/-- Writing into the block that is read makes no difference. -/
theorem minifyLoop_eq {orig : List UInt8} (fuel : Nat) {s : Minifying} {c : Copying}
    (h : Follows orig s c) : minifyLoop fuel s = (copyLoop fuel c).map (putBack orig) := by
  induction fuel generalizing s c with
  | zero => rfl
  | succ fuel ih =>
      have hread := h.read 0
      rw [Nat.add_zero] at hread
      rw [minifyLoop, copyLoop, hread, h.mode]
      cases hnext : c.rest[0]? with
      | none => rfl
      | some b =>
          have hjson : s.json < s.mem.length := by
            by_contra hge
            rw [hnext, List.getElem?_eq_none (by omega)] at hread
            cases hread
          have hinto : s.into < s.mem.length := Nat.lt_of_le_of_lt h.into_le hjson
          show (if c.mode = .text ∧ b = 0 then _ else _) =
            (if c.mode = .text ∧ b = 0 then some c.out else _ : Option _).map _
          by_cases hend : c.mode = .text ∧ b = 0
          · rw [if_pos hend, if_pos hend, if_pos hinto, h.putBack_eq hinto]
            rfl
          · rw [if_neg hend, if_neg hend]
            exact (bind_eq_of_rel (h.turn b) fun s' c' h' => ih h').trans Option.map_bind.symm

theorem cJSONMinify_eq (mem : List UInt8) :
    cJSONMinify mem = (copyLoop (2 * mem.length + 1) ⟨mem, [], .text⟩).map (putBack mem) :=
  minifyLoop_eq _ ⟨rfl, rfl, rfl, rfl, Nat.le_refl 0, rfl⟩

theorem length_minifyLoop {orig mem : List UInt8} {fuel : Nat} {s : Minifying} {c : Copying}
    (h : Follows orig s c) (hmem : minifyLoop fuel s = some mem) : mem.length = orig.length := by
  induction fuel generalizing s c with
  | zero => cases hmem
  | succ fuel ih =>
      rw [minifyLoop] at hmem
      cases hread : s.mem[s.json]? with
      | none =>
          rw [hread] at hmem
          cases hmem
      | some b =>
          rw [hread, Option.bind_eq_bind, Option.bind_some] at hmem
          split_ifs at hmem
          · cases hmem
            rw [List.length_set, h.length]
          · have hturn := h.turn b
            generalize s.turn b = next at hmem hturn
            generalize c.turn b = next' at hturn
            cases hturn with
            | none => cases hmem
            | some h' => exact ih h' hmem

theorem length_cJSONMinify {mem mem' : List UInt8} (h : cJSONMinify mem = some mem') :
    mem'.length = mem.length :=
  length_minifyLoop (c := ⟨mem, [], .text⟩) ⟨rfl, rfl, rfl, rfl, Nat.le_refl 0, rfl⟩ h

/-! ## Parts of a text -/

/-- Reading `t` in one mode, the program writes `u` and is in the other mode. -/
def Passes (m : MinifyMode) (t u : List UInt8) (m' : MinifyMode) : Prop :=
  ∃ n ≤ 2 * t.length, ∀ fuel rest out,
    copyLoop (fuel + n) ⟨t ++ rest, out, m⟩ = copyLoop fuel ⟨rest, out ++ u, m'⟩

theorem passes_nil (m : MinifyMode) : Passes m [] [] m :=
  ⟨0, Nat.le_refl 0, fun fuel rest out => by rw [List.append_nil, List.nil_append, Nat.add_zero]⟩

theorem Passes.trans {m m' m'' : MinifyMode} {t t' u u' : List UInt8} (h : Passes m t u m')
    (h' : Passes m' t' u' m'') : Passes m (t ++ t') (u ++ u') m'' := by
  rcases h with ⟨n, hn, h⟩
  rcases h' with ⟨n', hn', h'⟩
  refine ⟨n' + n, by rw [List.length_append]; omega, ?_⟩
  intro fuel rest out
  rw [List.append_assoc, ← Nat.add_assoc, h, h', List.append_assoc]

theorem not_end {m : MinifyMode} (h : m ≠ .text) (c : UInt8) : ¬ (m = .text ∧ c = 0) :=
  fun hend => h hend.1

/-- One turn. -/
theorem copyLoop_turn {c : UInt8} {rest out : List UInt8} {m : MinifyMode} {s : Copying}
    (hend : ¬ (m = .text ∧ c = 0)) (h : Copying.turn ⟨c :: rest, out, m⟩ c = some s) (fuel : Nat) :
    copyLoop (fuel + 1) ⟨c :: rest, out, m⟩ = copyLoop fuel s := by
  show (if m = .text ∧ c = 0 then _ else (Copying.turn _ c).bind (copyLoop fuel)) = _
  rw [if_neg hend, h, Option.bind_some]

/-- One turn that takes one character. -/
theorem passes_one {m m' : MinifyMode} {c : UInt8} {u : List UInt8}
    (hend : ¬ (m = .text ∧ c = 0))
    (h : ∀ rest out, Copying.turn ⟨c :: rest, out, m⟩ c = some ⟨rest, out ++ u, m'⟩) :
    Passes m [c] u m' :=
  ⟨1, by simp, fun fuel rest out => copyLoop_turn hend (h rest out) fuel⟩

/-- A character outside of strings that is neither a gap nor the beginning of one. -/
def Plain (c : UInt8) : Prop := 32 < c ∧ c ≠ slash ∧ c ≠ quote

instance (c : UInt8) : Decidable (Plain c) :=
  inferInstanceAs (Decidable (32 < c ∧ c ≠ slash ∧ c ≠ quote))

theorem Plain.ne_zero {c : UInt8} (h : Plain c) : c ≠ 0 := by
  rintro rfl
  exact absurd h.1 (by decide)

theorem Plain.passes {c : UInt8} (h : Plain c) : Passes .text [c] [c] .text := by
  have hwhite : c ∉ [32, 9, 13, 10] := by
    intro hc
    simp only [List.mem_cons, List.not_mem_nil, or_false] at hc
    have hlow := h.1
    rcases hc with rfl | rfl | rfl | rfl <;> revert hlow <;> decide
  refine passes_one (fun hend => h.ne_zero hend.2) fun rest out => ?_
  simp only [Copying.turn, if_neg hwhite, if_neg h.2.1, if_neg h.2.2]
  rfl

theorem passes_plain {t : List UInt8} (h : ∀ c ∈ t, Plain c) : Passes .text t t .text := by
  induction t with
  | nil => exact passes_nil .text
  | cons c t ih => exact (h c (by simp)).passes.trans (ih fun d hd => h d (by simp [hd]))

/-! ## Gaps -/

/-- White space and comments. -/
inductive Blank : List UInt8 → Prop
  | nil : Blank []
  | white {c : UInt8} {g : List UInt8} (hc : c ∈ [32, 9, 13, 10]) (hg : Blank g) : Blank (c :: g)
  | line {body g : List UInt8} (hbody : ∀ c ∈ body, c ≠ 0 ∧ c ≠ 10) (hg : Blank g) :
      Blank (slash :: slash :: (body ++ 10 :: g))
  | block {body g : List UInt8} (hnul : ∀ c ∈ body, c ≠ 0) (hhead : body.head? ≠ some slash)
      (hclose : ¬ [star, slash] <:+: body) (hg : Blank g) :
      Blank (slash :: star :: (body ++ star :: slash :: g))

theorem passes_white {c : UInt8} (hc : c ∈ [32, 9, 13, 10]) : Passes .text [c] [] .text := by
  refine passes_one ?_ fun rest out => ?_
  · rintro ⟨-, rfl⟩
    revert hc
    decide
  · simp only [Copying.turn, if_pos hc, List.append_nil]
    rfl

theorem passes_line {body : List UInt8} (h : ∀ c ∈ body, c ≠ 0 ∧ c ≠ 10) :
    Passes .line body [] .line := by
  induction body with
  | nil => exact passes_nil .line
  | cons c body ih =>
      have hc := h c (by simp)
      have hfirst : Passes .line [c] [] .line := by
        refine passes_one (not_end (by decide) c) fun rest out => ?_
        simp only [Copying.turn, if_neg (not_or.2 hc), List.append_nil]
        rfl
      exact hfirst.trans (ih fun d hd => h d (by simp [hd]))

/-- The loop ends at the line break, and the line break is white space then. -/
theorem passes_newline : Passes .line [10] [] .text := by
  refine ⟨2, by decide, fun fuel rest out => ?_⟩
  rw [List.append_nil]
  rfl

/-- The loop over a comment begins at the first slash. -/
theorem passes_openLine : Passes .text [slash, slash] [] .line := by
  refine ⟨3, by decide, fun fuel rest out => ?_⟩
  rw [List.append_nil]
  rfl

theorem passes_block {body : List UInt8} (hnul : ∀ c ∈ body, c ≠ 0)
    (hclose : ¬ [star, slash] <:+: body) : Passes .block (body ++ [star, slash]) [] .text := by
  induction body with
  | nil => exact ⟨1, by decide, fun fuel rest out => by rw [List.append_nil]; rfl⟩
  | cons c body ih =>
      have htail := ih (fun d hd => hnul d (by simp [hd]))
        fun hinside => hclose (hinside.trans (List.suffix_cons c body).isInfix)
      rcases htail with ⟨n, hn, htail⟩
      refine ⟨n + 1, ?_, fun fuel rest out => ?_⟩
      · simp only [List.length_append, List.length_cons] at hn ⊢
        omega
      · -- the character behind a star is not a slash
        have hturn : Copying.turn ⟨c :: (body ++ [star, slash] ++ rest), out, .block⟩ c =
            some ⟨body ++ [star, slash] ++ rest, out, .block⟩ := by
          simp only [Copying.turn, if_neg (hnul c (by simp))]
          by_cases hstar : c = star
          · rw [if_pos hstar]
            cases body with
            | nil => rfl
            | cons d body =>
                have hd : d ≠ slash := by
                  rintro rfl
                  exact hclose ⟨[], body, by simp [hstar]⟩
                show (if d = slash then _ else _) = _
                rw [if_neg hd]
                rfl
          · rw [if_neg hstar]
            rfl
        rw [← Nat.add_assoc]
        exact (copyLoop_turn (not_end (by decide) c) hturn _).trans (htail fuel rest out)

/-- Behind the star at the beginning of a comment the loop does not look at that star again. -/
theorem passes_openBlock {body : List UInt8} (hhead : body.head? ≠ some slash) (fuel : Nat)
    (rest out : List UInt8) :
    copyLoop (fuel + 3) ⟨slash :: star :: (body ++ star :: rest), out, .text⟩ =
      copyLoop fuel ⟨body ++ star :: rest, out, .block⟩ := by
  have hopen : copyLoop (fuel + 3) ⟨slash :: star :: (body ++ star :: rest), out, .text⟩ =
      copyLoop (fuel + 1) ⟨star :: (body ++ star :: rest), out, .block⟩ := rfl
  rw [hopen]
  refine copyLoop_turn (not_end (by decide) star) ?_ fuel
  cases body with
  | nil => rfl
  | cons d body =>
      have hd : d ≠ slash := by
        rintro rfl
        exact hhead rfl
      show (if d = slash then _ else _) = _
      rw [if_neg hd]
      rfl

theorem Blank.passes {g : List UInt8} (h : Blank g) : Passes .text g [] .text := by
  induction h with
  | nil => exact passes_nil .text
  | white hc _ ih => exact (passes_white hc).trans ih
  | @line body g hbody _ ih =>
      have hline := passes_openLine.trans ((passes_line hbody).trans (passes_newline.trans ih))
      simpa using hline
  | @block body g hnul hhead hclose _ ih =>
      rcases (passes_block hnul hclose).trans ih with ⟨n, hn, hblock⟩
      refine ⟨n + 3, ?_, fun fuel rest out => ?_⟩
      · simp only [List.length_append, List.length_cons, List.length_nil] at hn ⊢
        omega
      · have htail := hblock fuel rest out
        simp only [List.append_assoc, List.cons_append, List.nil_append] at htail ⊢
        rw [← Nat.add_assoc, passes_openBlock hhead, htail]

/-! ## Tokens -/

variable {D : Type} {A : Doubles D}

theorem plain_of_isDigit {c : UInt8} (h : isDigit c = true) : Plain c := by
  have hlow := (isDigit_iff.1 h).1
  refine ⟨UInt8.lt_of_lt_of_le (by decide) hlow, ?_, ?_⟩
  · rintro rfl
    exact absurd hlow (by decide)
  · rintro rfl
    exact absurd hlow (by decide)

theorem plain_exponent {e : UInt8} (he : e = 101 ∨ e = 69) : Plain e := by
  rcases he with rfl | rfl
  · exact ⟨by decide, by decide, by decide⟩
  · exact ⟨by decide, by decide, by decide⟩

theorem plain_cons {c : UInt8} {t : List UInt8} (hc : Plain c) (ht : ∀ d ∈ t, Plain d) :
    ∀ d ∈ c :: t, Plain d := by
  intro d hd
  rcases List.mem_cons.1 hd with rfl | hd
  · exact hc
  · exact ht d hd

theorem Digits.plain {ds : List UInt8} (h : Digits ds) : ∀ c ∈ ds, Plain c := fun c hc =>
  plain_of_isDigit (h c hc)

theorem SignText.plain {st : List UInt8} {sign : Int} (h : SignText st sign) :
    ∀ c ∈ st, Plain c := by
  cases h with
  | none => simp
  | minus => exact plain_cons (by decide) (by simp)

theorem IntegerText.plain {it integer : List UInt8} (h : IntegerText it integer) :
    ∀ c ∈ it, Plain c := by
  cases h with
  | zero => exact plain_cons (plain_of_isDigit rfl) (by simp)
  | digits hlow hhigh hds =>
      have hlow' := UInt8.le_trans (by decide : (48 : UInt8) ≤ 49) hlow
      exact plain_cons (plain_of_isDigit (isDigit_iff.2 ⟨hlow', hhigh⟩)) hds.plain

theorem FractionText.plain {ft ds : List UInt8} (h : FractionText ft ds) : ∀ c ∈ ft, Plain c := by
  cases h with
  | none => simp
  | digits hds => exact plain_cons (by decide) hds.plain

theorem ExponentText.plain {et : List UInt8} {e : Int} (h : ExponentText et e) :
    ∀ c ∈ et, Plain c := by
  cases h with
  | none => simp
  | unsigned he _ hds => exact plain_cons (plain_exponent he) hds.plain
  | positive he _ hds => exact plain_cons (plain_exponent he) (plain_cons (by decide) hds.plain)
  | negative he _ hds => exact plain_cons (plain_exponent he) (plain_cons (by decide) hds.plain)

theorem NumberText.plain {t : List UInt8} {n : D} (h : NumberText A t n) : ∀ c ∈ t, Plain c := by
  cases h with
  | numeral hs hi hf he =>
      intro c hc
      simp only [List.mem_append] at hc
      rcases hc with ((hc | hc) | hc) | hc
      · exact hs.plain c hc
      · exact hi.plain c hc
      · exact hf.plain c hc
      · exact he.plain c hc

theorem passes_raw {c : UInt8} (hc : c ≠ quote ∧ c ≠ backslash ∧ c ≠ 0) :
    Passes .literal [c] [c] .literal := by
  refine passes_one (not_end (by decide) c) fun rest out => ?_
  simp only [Copying.turn, if_neg (not_or.2 ⟨hc.1, hc.2.2⟩), if_neg hc.2.1]
  rfl

/-- The character behind a backslash is copied without a look at it. -/
theorem passes_escape (e : UInt8) : Passes .literal [backslash, e] [backslash, e] .literal := by
  refine ⟨1, by simp, fun fuel rest out => ?_⟩
  refine copyLoop_turn (not_end (by decide) backslash) ?_ fuel
  simp [Copying.turn, Copying.copy]

theorem Hex4.passes {ds : List UInt8} {n : Nat} (h : Hex4 ds n) :
    Passes .literal ds ds .literal := by
  have hplain := h.plain
  clear h
  induction ds with
  | nil => exact passes_nil .literal
  | cons c ds ih =>
      exact (passes_raw (hplain c (by simp))).trans (ih fun d hd => hplain d (by simp [hd]))

theorem BodyText.passes {t s : List UInt8} (h : BodyText t s) : Passes .literal t t .literal := by
  induction h with
  | nil => exact passes_nil .literal
  | raw hquote hback hnul _ ih => exact (passes_raw ⟨hquote, hback, hnul⟩).trans ih
  | escape _ _ ih => exact (passes_escape _).trans ih
  | unicode _ _ hds _ ih => exact (passes_escape 117).trans (hds.passes.trans ih)
  | pair _ hds hes _ ih =>
      exact (passes_escape 117).trans (hds.passes.trans ((passes_escape 117).trans
        (hes.passes.trans ih)))

theorem StringText.passes {t : List UInt8} {s : CString} (h : StringText t s) :
    Passes .text t t .text := by
  cases h with
  | quoted hbody =>
      have hopen : Passes .text [quote] [quote] .literal :=
        passes_one (by decide) fun rest out => rfl
      have hclose : Passes .literal [quote] [quote] .text :=
        passes_one (by decide) fun rest out => rfl
      exact hopen.trans (hbody.passes.trans hclose)

/-! ## Values -/

theorem passes_token {c : UInt8} (h : Plain c) {t u : List UInt8} (ht : Passes .text t u .text) :
    Passes .text (c :: t) (c :: u) .text :=
  h.passes.trans ht

def NoGap (g : List UInt8) : Prop := g = []

/-- The gaps go, and what is left spells the same. -/
theorem Spells.minified {ph : Phrase D} {t : List UInt8} (h : Spells A Blank ph t) :
    ∃ u, Passes .text t u .text ∧ Spells A NoGap ph u := by
  induction h with
  | null => exact ⟨nullText, passes_plain (by simp [Plain, nullText]), .null⟩
  | bool b =>
      refine ⟨_, passes_plain ?_, .bool b⟩
      cases b <;> simp [Plain, trueText, falseText]
  | number h => exact ⟨_, passes_plain h.plain, .number h⟩
  | string h => exact ⟨_, h.passes, .string h⟩
  | emptyArray hg =>
      refine ⟨[openBracket, closeBracket], ?_, .emptyArray (g := []) rfl⟩
      exact passes_token (by decide) (hg.passes.trans (Plain.passes (by decide)))
  | array _ ih =>
      rcases ih with ⟨u, hu, htight⟩
      refine ⟨_, ?_, .array htight⟩
      exact passes_token (by decide) (hu.trans (Plain.passes (by decide)))
  | emptyObject hg =>
      refine ⟨[openBrace, closeBrace], ?_, .emptyObject (g := []) rfl⟩
      exact passes_token (by decide) (hg.passes.trans (Plain.passes (by decide)))
  | object _ ih =>
      rcases ih with ⟨u, hu, htight⟩
      refine ⟨_, ?_, .object htight⟩
      exact passes_token (by decide) (hu.trans (Plain.passes (by decide)))
  | lastElement hg _ hg' ih =>
      rcases ih with ⟨u, hu, htight⟩
      refine ⟨_, hg.passes.trans (hu.trans hg'.passes), ?_⟩
      exact .lastElement rfl htight rfl
  | element hg _ hg' _ ih ihs =>
      rcases ih with ⟨u, hu, htight⟩
      rcases ihs with ⟨us, hus, htights⟩
      refine ⟨_, hg.passes.trans (hu.trans (hg'.passes.trans (passes_token (by decide) hus))), ?_⟩
      exact .element rfl htight rfl htights
  | lastMember hg hk hg' hh _ hh' ih =>
      rcases ih with ⟨u, hu, htight⟩
      refine ⟨_, hg.passes.trans (hk.passes.trans (hg'.passes.trans (passes_token (by decide)
        (hh.passes.trans (hu.trans hh'.passes))))), ?_⟩
      exact .lastMember rfl hk rfl rfl htight rfl
  | member hg hk hg' hh _ hh' _ ih ihs =>
      rcases ih with ⟨u, hu, htight⟩
      rcases ihs with ⟨us, hus, htights⟩
      refine ⟨_, hg.passes.trans (hk.passes.trans (hg'.passes.trans (passes_token (by decide)
        (hh.passes.trans (hu.trans (hh'.passes.trans (passes_token (by decide) hus))))))), ?_⟩
      exact .member rfl hk rfl rfl htight rfl htights

/-- The whole block, with the text up to its terminator. -/
theorem cJSONMinify_of_passes {t u : List UInt8} (h : Passes .text t u .text) (rest : List UInt8) :
    cJSONMinify (t ++ 0 :: rest) = some (putBack (t ++ 0 :: rest) u) := by
  rcases h with ⟨n, hn, h⟩
  have hfuel : 2 * (t ++ 0 :: rest).length + 1 = 2 * (t ++ 0 :: rest).length - n + 1 + n := by
    rw [List.length_append]
    omega
  rw [cJSONMinify_eq, hfuel, h]
  rfl

theorem NoGap.space {g : List UInt8} (h : NoGap g) : Space g := by
  rw [h]
  intro c hc
  cases hc

/-- A text with white space and comments is minified in place to one without, which is parsed to
the same items. -/
theorem cJSONParse_cJSONMinify {g t g' : List UInt8} {v : Value D} (hg : Blank g)
    (h : Spells A Blank (.value v) t) (hg' : Blank g') (rest : List UInt8) :
    ∃ u after, cJSONMinify (g ++ (t ++ (g' ++ 0 :: rest))) = some (u ++ 0 :: after) ∧
      (u ++ 0 :: after).length = (g ++ (t ++ (g' ++ 0 :: rest))).length ∧
      Spells A NoGap (.value v) u ∧
      cJSONParseTerminated A (u ++ 0 :: after) = .done (v.item A) (0 :: after) := by
  rcases h.minified with ⟨u, hu, htight⟩
  have hpass : Passes .text (g ++ (t ++ g')) u .text := by
    have hall := hg.passes.trans (hu.trans hg'.passes)
    rwa [List.nil_append, List.append_nil] at hall
  have hmem : g ++ (t ++ (g' ++ 0 :: rest)) = g ++ (t ++ g') ++ 0 :: rest := by
    simp only [List.append_assoc]
  have hresult := cJSONMinify_of_passes hpass rest
  rw [hmem]
  have hspells : Spells A Space (.value v) u := htight.mono fun _ hgap => hgap.space
  exact ⟨u, _, hresult, length_cJSONMinify hresult, htight, cJSONParseTerminated_nul hspells _⟩

/-- A comment in front of `[7]` and one behind it. -/
theorem cJSONParse_cJSONMinify_seven :
    ∃ u after,
      cJSONMinify ([47, 42, 97, 42, 47] ++ ([91, 55, 93] ++ ([32, 47, 47, 98, 10] ++ [0]))) =
        some (u ++ 0 :: after) ∧
      (u ++ 0 :: after).length = 14 ∧
      Spells integers NoGap (.value (.array [.number 7])) u ∧
      cJSONParseTerminated integers (u ++ 0 :: after) =
        .done ((Value.array [.number (7 : Int)]).item integers) (0 :: after) := by
  have hinside : ¬ [star, slash] <:+: [97] := by decide
  exact cJSONParse_cJSONMinify
    (@Blank.block [97] [] (by simp) (by simp) hinside .nil) (spells_seven .nil)
    (.white (by simp) (@Blank.line [98] [] (by simp) .nil)) []

end Json
end AbsPlatform
