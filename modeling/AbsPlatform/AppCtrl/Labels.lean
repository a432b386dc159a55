import AbsPlatform.AppCtrl.Compiled
import AbsPlatform.Lib.Separated

/-!
# Labels — the permissions that a manifest asks for

`getPermissionsFromManifest` looks for the regular expression `<permission label="([^"]+)` in the
text of the manifest, at most five times, and each time behind the match before.  `regexec` gives
the leftmost match, and the longest one there.

In a document whose strings have none of the characters of the markup, the matches are the labels of
the permission tags that have a label in front (`getPermissionsFromManifest_compiled`): the first
five of them.
-/

namespace AbsPlatform
namespace AppCtrl

open Lib

/-! ## app_ctrl_assets.c -/

/-- `"permission"`. -/
def permissionName : CString := CString.ofBuffer [112, 101, 114, 109, 105, 115, 115, 105, 111, 110]

/-- `"label"`. -/
def labelName : CString := CString.ofBuffer [108, 97, 98, 101, 108]

/-- The part of the expression in front of the group. -/
def permissionStart : List UInt8 :=
  [60] ++ permissionName.bytes ++ [32] ++ labelName.bytes ++ [61, 34]

/-- The group of a match at the beginning of the text. -/
def labelAt (text : List UInt8) : Option (List UInt8) :=
  if permissionStart <+: text then
    let label := (text.drop permissionStart.length).takeWhile (· ≠ 34)
    if label = [] then none else some label
  else
    none

/-- `regexec`: the group of the first match, and the text behind the match. -/
def regexec : List UInt8 → Option (List UInt8 × List UInt8)
  | [] => none
  | b :: text =>
      match labelAt (b :: text) with
      | some label => some (label, (b :: text).drop (permissionStart.length + label.length))
      | none => regexec text

/-- The loop over the matches. -/
def collectMatches : (left : Nat) → (cursor : List UInt8) → List CString
  | 0, _ => []
  | left + 1, cursor =>
      match regexec cursor with
      | none => []
      | some (label, behind) => CString.ofBuffer label :: collectMatches left behind

def maxMatches : Nat := 5

/-- `getPermissionsFromManifest`. -/
def getPermissionsFromManifest (xml : Manifest) (block : CString) : xml.Reading (List CString) := do
  let source ← xml.decompressXML block
  pure (collectMatches maxMatches source)

/-! ## Labels of a document -/

/-- What a tag asks for: the value of the first attribute, if it is the label of a permission
and not empty. -/
def Tag.label : Tag → Option CString
  | .start name ((attr, value) :: _) =>
      if name = permissionName ∧ attr = labelName ∧ (value.getD Manifest.noValue).bytes ≠ [] then
        some (value.getD Manifest.noValue)
      else
        none
  | _ => none

/-- None of the characters that separate the parts of a tag. -/
def Plain (s : CString) : Prop := ∀ b ∈ s.bytes, b ∉ [32, 34, 60, 61, 62]

/-- A value that ends at its quotation mark and begins no tag. -/
def Quotable (s : CString) : Prop := ∀ b ∈ s.bytes, b ∉ [34, 60]

instance (s : CString) : Decidable (Plain s) := inferInstanceAs (Decidable (∀ b ∈ s.bytes, _))

instance (s : CString) : Decidable (Quotable s) := inferInstanceAs (Decidable (∀ b ∈ s.bytes, _))

/-- The strings of a tag are free of markup. -/
def Tag.Clean : Tag → Prop
  | .start name attributes =>
      Plain name ∧ ∀ a ∈ attributes, Plain a.1 ∧ Quotable (a.2.getD Manifest.noValue)
  | .finish name => Plain name

instance (tag : Tag) : Decidable tag.Clean := by
  cases tag
  · exact inferInstanceAs (Decidable (_ ∧ _))
  · exact inferInstanceAs (Decidable (Plain _))

/-! ## Matches -/

section

variable {text behind : List UInt8} {left : Nat}

theorem labelAt_of_ne {b : UInt8} (hb : b ≠ 60) : labelAt (b :: text) = none := by
  have hno : ¬ permissionStart <+: b :: text := by
    rintro ⟨rest, hrest⟩
    exact hb (List.cons.inj hrest).1.symm
  rw [labelAt, if_neg hno]

/-- A match begins with `<`. -/
theorem regexec_skip (h : 60 ∉ text) : regexec (text ++ behind) = regexec behind := by
  induction text with
  | nil => rfl
  | cons b text ih =>
      have hb : b ≠ 60 := by
        rintro rfl
        exact h List.mem_cons_self
      rw [List.cons_append, regexec, labelAt_of_ne hb]
      exact ih fun hmem => h (List.mem_cons_of_mem b hmem)

theorem collectMatches_skip (h : 60 ∉ text) :
    collectMatches left (text ++ behind) = collectMatches left behind := by
  cases left with
  | zero => rfl
  | succ left => rw [collectMatches, collectMatches, regexec_skip h]

/-- A text without `<` has no match. -/
theorem collectMatches_of_notMem (h : 60 ∉ text) : collectMatches left text = [] := by
  have hskip : collectMatches left (text ++ []) = collectMatches left [] := collectMatches_skip h
  rw [List.append_nil] at hskip
  rw [hskip]
  cases left <;> rfl

/-- Where there is no match at a `<`, the search goes on behind it. -/
theorem collectMatches_of_none (h : labelAt (60 :: text ++ behind) = none) (hno : 60 ∉ text) :
    collectMatches left (60 :: text ++ behind) = collectMatches left behind := by
  cases left with
  | zero => rfl
  | succ left =>
      have hsearch : regexec (60 :: text ++ behind) = regexec behind := by
        rw [List.cons_append, regexec, ← List.cons_append, h]
        exact regexec_skip hno
      rw [collectMatches, collectMatches, hsearch]

end

/-! ## Tags -/

theorem Plain.notMem {s : CString} (h : Plain s) {b : UInt8} (hb : b ∈ [32, 34, 60, 61, 62]) :
    b ∉ s.bytes := fun hmem => h b hmem hb

theorem Quotable.notMem {s : CString} (h : Quotable s) {b : UInt8} (hb : b ∈ [34, 60]) :
    b ∉ s.bytes := fun hmem => h b hmem hb

theorem attributeText_notMem {name value : CString} (hname : Plain name) (hvalue : Quotable value) :
    60 ∉ Manifest.attributeText name value := by
  have hn : 60 ∉ name.bytes := hname.notMem (by decide)
  have hv : 60 ∉ value.bytes := hvalue.notMem (by decide)
  simp [Manifest.attributeText, hn, hv]

theorem attributesText_notMem {attributes : List (CString × Option CString)}
    (h : ∀ a ∈ attributes, Plain a.1 ∧ Quotable (a.2.getD Manifest.noValue)) :
    60 ∉ Tag.attributesText attributes := by
  intro hmem
  rcases List.mem_flatMap.1 hmem with ⟨a, ha, hin⟩
  exact attributeText_notMem (h a ha).1 (h a ha).2 hin

/-- What a tag has behind its `<`. -/
def Tag.inner : Tag → List UInt8
  | .start name attributes => name.bytes ++ Tag.attributesText attributes ++ [62, 10]
  | .finish name => [47] ++ name.bytes ++ [62, 10]

theorem Tag.text_eq (tag : Tag) : tag.text = 60 :: tag.inner := by
  cases tag <;> simp [Tag.text, Tag.inner]

theorem Tag.inner_notMem {tag : Tag} (h : tag.Clean) : 60 ∉ tag.inner := by
  cases tag with
  | start name attributes =>
      have hn : 60 ∉ name.bytes := h.1.notMem (by decide)
      have ha := attributesText_notMem h.2
      simp [Tag.inner, hn, ha]
  | finish name =>
      have hn : 60 ∉ name.bytes := Plain.notMem h (by decide)
      simp [Tag.inner, hn]

/-- The part in front of the group, as a name, an attr and what separates them. -/
theorem permissionStart_append (rest : List UInt8) :
    permissionStart ++ rest =
      60 :: (permissionName.bytes ++ 32 :: (labelName.bytes ++ 61 :: 34 :: rest)) := by
  simp [permissionStart]

/-- The expression begins at a tag exactly if the tag is a permission with a label in front. -/
theorem permissionStart_prefix_iff {name attr value : CString} (hname : Plain name)
    (hattr : Plain attr) (rest : List UInt8) :
    permissionStart <+: 60 :: (name.bytes ++ Manifest.attributeText attr value ++ rest) ↔
      name = permissionName ∧ attr = labelName := by
  have htext : name.bytes ++ Manifest.attributeText attr value ++ rest =
      name.bytes ++ 32 :: (attr.bytes ++ 61 :: 34 :: (value.bytes ++ 34 :: rest)) := by
    simp [Manifest.attributeText]
  rw [htext]
  constructor
  · rintro ⟨tail, htail⟩
    rw [permissionStart_append, List.cons.injEq] at htail
    rcases append_cons_inj (by decide) (hname.notMem (by decide)) htail.2 with ⟨hfirst, _, hsecond⟩
    rcases append_cons_inj (by decide) (hattr.notMem (by decide)) hsecond with ⟨hlabel, _⟩
    exact ⟨CString.ext_bytes hfirst.symm, CString.ext_bytes hlabel.symm⟩
  · rintro ⟨rfl, rfl⟩
    exact ⟨value.bytes ++ 34 :: rest, permissionStart_append _⟩

/-- No match at a tag without attributes. -/
theorem labelAt_bare {name : CString} (hname : Plain name) (rest : List UInt8) :
    labelAt (60 :: (name.bytes ++ 62 :: rest)) = none := by
  have hno : ¬ permissionStart <+: 60 :: (name.bytes ++ 62 :: rest) := by
    rintro ⟨tail, htail⟩
    rw [permissionStart_append, List.cons.injEq] at htail
    rcases append_cons_inj (by decide) (hname.notMem (by decide)) htail.2 with ⟨_, hsep, _⟩
    exact absurd hsep (by decide)
  rw [labelAt, if_neg hno]

theorem labelAt_finish (rest : List UInt8) : labelAt (60 :: 47 :: rest) = none := by
  have hno : ¬ permissionStart <+: 60 :: 47 :: rest := by
    rintro ⟨tail, htail⟩
    rw [permissionStart_append, List.cons.injEq] at htail
    exact absurd (List.cons.inj htail.2).1 (by decide)
  rw [labelAt, if_neg hno]

/-- The group ends at the quotation mark. -/
theorem labelAt_permission {value : CString} (hvalue : Quotable value) (rest : List UInt8) :
    labelAt (permissionStart ++ (value.bytes ++ 34 :: rest)) =
      if value.bytes = [] then none else some value.bytes := by
  have hrun : (value.bytes ++ 34 :: rest).takeWhile (· ≠ 34) = value.bytes :=
    takeWhile_append_cons (hvalue.notMem (by decide))
  rw [labelAt, if_pos (List.prefix_append _ _), List.drop_left, hrun]

/-- A match, and the search behind it. -/
theorem collectMatches_permission {value : CString} (hvalue : Quotable value)
    (hne : value.bytes ≠ []) {text : List UInt8} (hno : 60 ∉ text) (left : Nat)
    (rest : List UInt8) :
    collectMatches (left + 1) (permissionStart ++ (value.bytes ++ 34 :: (text ++ rest))) =
      value :: collectMatches left rest := by
  have hmatch := labelAt_permission hvalue (text ++ rest)
  rw [if_neg hne] at hmatch
  have hfound : regexec (permissionStart ++ (value.bytes ++ 34 :: (text ++ rest))) =
      some (value.bytes, 34 :: (text ++ rest)) := by
    rw [permissionStart_append] at hmatch ⊢
    rw [regexec, hmatch, ← permissionStart_append, ← List.append_assoc]
    simp only [← List.length_append, List.drop_left]
  have hbehind : 60 ∉ 34 :: text := by simpa using hno
  rw [collectMatches, hfound]
  simp only [CString.ofBuffer_bytes]
  rw [← List.cons_append, collectMatches_skip hbehind]

/-- One tag: its label, if it asks for something, and then the tags behind it. -/
theorem collectMatches_tag {tag : Tag} (h : tag.Clean) (left : Nat) (rest : List UInt8) :
    collectMatches (left + 1) (tag.text ++ rest) =
      match tag.label with
      | some label => label :: collectMatches left rest
      | none => collectMatches (left + 1) rest := by
  have hskip (hnone : labelAt (60 :: tag.inner ++ rest) = none) :
      collectMatches (left + 1) (tag.text ++ rest) = collectMatches (left + 1) rest := by
    rw [tag.text_eq]
    exact collectMatches_of_none hnone (Tag.inner_notMem h)
  cases tag with
  | finish name => exact hskip (labelAt_finish _)
  | start name attributes =>
      cases attributes with
      | nil =>
          have hbare := labelAt_bare h.1 (10 :: rest)
          exact hskip (by simpa [Tag.inner, Tag.attributesText] using hbare)
      | cons a attributes =>
          obtain ⟨attr, value⟩ := a
          have ha := h.2 (attr, value) List.mem_cons_self
          have hrest := attributesText_notMem fun b hb => h.2 b (List.mem_cons_of_mem _ hb)
          have hinner : 60 :: Tag.inner (.start name ((attr, value) :: attributes)) ++ rest =
              60 :: (name.bytes ++ Manifest.attributeText attr (value.getD Manifest.noValue) ++
                (Tag.attributesText attributes ++ [62, 10] ++ rest)) := by
            simp [Tag.inner, Tag.attributesText]
          by_cases hname : name = permissionName ∧ attr = labelName
          · obtain ⟨rfl, rfl⟩ := hname
            have hstart :
                60 :: Tag.inner (.start permissionName ((labelName, value) :: attributes)) ++ rest =
                  permissionStart ++ ((value.getD Manifest.noValue).bytes ++
                    34 :: (Tag.attributesText attributes ++ [62, 10] ++ rest)) := by
              rw [hinner, permissionStart_append]
              simp [Manifest.attributeText]
            by_cases hempty : (value.getD Manifest.noValue).bytes = []
            · have hnone :=
                labelAt_permission ha.2 (Tag.attributesText attributes ++ [62, 10] ++ rest)
              rw [if_pos hempty, ← hstart] at hnone
              rw [hskip hnone, Tag.label, if_neg fun hlabel => hlabel.2.2 hempty]
            · rw [Tag.text_eq, hstart, Tag.label, if_pos ⟨rfl, rfl, hempty⟩]
              exact collectMatches_permission ha.2 hempty (by simpa using hrest) left rest
          · have hnone : labelAt
                (60 :: Tag.inner (.start name ((attr, value) :: attributes)) ++ rest) = none := by
              rw [hinner, labelAt, if_neg]
              rwa [permissionStart_prefix_iff h.1 ha.1]
            rw [hskip hnone, Tag.label, if_neg fun hlabel => hname ⟨hlabel.1, hlabel.2.1⟩]

theorem collectMatches_document {doc : List Tag} (h : ∀ tag ∈ doc, tag.Clean) (left : Nat) :
    collectMatches left (documentText doc) = (doc.filterMap Tag.label).take left := by
  induction doc generalizing left with
  | nil => cases left <;> rfl
  | cons tag doc ih =>
      have hdoc := ih fun t ht => h t (List.mem_cons_of_mem _ ht)
      cases left with
      | zero => rfl
      | succ left =>
          rw [documentText, List.flatMap_cons, collectMatches_tag (h tag List.mem_cons_self)]
          cases hlabel : tag.label with
          | none =>
              rw [List.filterMap_cons_none hlabel]
              exact hdoc (left + 1)
          | some label =>
              rw [List.filterMap_cons_some hlabel, List.take_succ_cons]
              exact congrArg _ (hdoc left)

/-- The permissions found in a compiled manifest are the first five that it asks for. -/
theorem getPermissionsFromManifest_compiled {c : CompiledXml} (h : c.Valid)
    (hclean : ∀ tag ∈ c.document, tag.Clean) {block : CString} (hblock : 60 ∉ block.bytes) :
    (getPermissionsFromManifest h.file block).value =
      some ((c.document.filterMap Tag.label).take 5) := by
  rw [getPermissionsFromManifest, Checked.value_bind, CompiledXml.value_decompressXML h block,
    Option.bind_some, Checked.value_pure, collectMatches_skip hblock,
    collectMatches_document hclean]
  rfl

end AppCtrl
end AbsPlatform
