import AbsPlatform.Json.Printed
import AbsPlatform.MCSG.Java

/-!
# Generate — the generator from the text of the configuration on

`main` of `MCS/mcsg.c` reads `mcsg.json` into a block that is not terminated, parses it, and prints
the tables.  The translators follow the members of a command by their positions, so the names of the
members make no difference, except for the groups of `expire_group`.  For every text that spells a
configuration, in any layout and whatever stands behind it, the generator prints what it prints for
the commands of the configuration (`mcsgMain_configuration`).
-/

namespace AbsPlatform
namespace MCSG

open Lib Json

/-! ## main -/

mutual

/-- What the generator sees of an item. -/
def ofItem {D : Type} : Item D → CJSON
  | .node _ string valuestring valueint _ child => .item string valuestring valueint (ofItems child)

def ofItems {D : Type} : List (Item D) → List CJSON
  | [] => []
  | item :: items => ofItem item :: ofItems items

end

inductive Generated
  /-- `"Error before: [%s]\n"` -/
  | error (before : CString)
  /-- `auto_mcs.h` and `auto_mcs.java` -/
  | written (header : Header) (java : List UInt8)

/-- The commands that have been parsed are read and printed. -/
def generate (malloc : Malloc) (json : CJSON) : Option Generated := do
  let commandlist ← mcsgCommandsReader malloc json
  let header ← mcsgCommandsTranslator commandlist
  let java ← mcsgJavaTranslator commandlist
  return .written header java

/-- `main`, with what is in the file and the byte of the block behind it, which is never written. -/
def mcsgMain {D : Type} (A : Doubles D) (malloc : Malloc) (file : List UInt8) (last : UInt8) :
    Option Generated :=
  match cJSONParse A (file ++ [last]) with
  | .fault => none
  -- `%s` reads up to a terminator
  | .fail place => if 0 ∈ place then some (.error (CString.ofBuffer place)) else none
  | .done json _ => generate malloc (ofItem json)

/-! ## Items that differ in names -/

/-- Items that are alike down to a depth at which they are equal, except for their names. -/
def Like : Nat → CJSON → CJSON → Prop
  | 0, a, b => a = b
  | k + 1, a, b =>
      a.valuestring = b.valuestring ∧ a.valueint = b.valueint ∧
        List.Forall₂ (Like k) a.child b.child

section

variable {k : Nat} {a b : CJSON} {α : Type}

theorem Like.read (h : Like (k + 1) a b) (i : Nat) {f g : CJSON → Option α}
    (hfg : ∀ x y, Like k x y → f x = g y) : a.child[i]?.bind f = b.child[i]?.bind g :=
  bind_eq_of_rel (rel_getElem? h.2.2 i) hfg

theorem Like.typeField (h : Like (k + 2) a b) : a.typeField = b.typeField :=
  h.read mcsgCommandTypeField fun _ _ hxy => hxy.1

theorem Like.nameField (h : Like (k + 2) a b) : a.nameField = b.nameField :=
  h.read 0 fun _ _ hxy => hxy.1

theorem Like.mcsgTypeIdentifier (h : Like (k + 2) a b) :
    mcsgTypeIdentifier a = mcsgTypeIdentifier b := by
  refine h.read mcsgCommandTypeField fun x y hxy => ?_
  rw [hxy.1]

/-- The members that all commands have, in front of what is done with them. -/
theorem Like.commonFields (h : Like 4 a b)
    {f g : CString × Int × Bool × List CJSON → Option α}
    (hfg : ∀ name nargs rawData l l', List.Forall₂ (Like 2) l l' →
      f (name, nargs, rawData, l) = g (name, nargs, rawData, l')) :
    (MCSG.commonFields a).bind f = (MCSG.commonFields b).bind g := by
  simp only [MCSG.commonFields, Option.bind_eq_bind, Option.bind_assoc, Option.bind_some]
  refine h.read 0 fun x₀ y₀ h₀ => ?_
  rw [h₀.1]
  refine Option.bind_congr fun name _ => ?_
  refine h.read 1 fun x₁ y₁ h₁ => ?_
  rw [h₁.1]
  refine Option.bind_congr fun _ _ => ?_
  refine h.read 2 fun x₂ y₂ h₂ => h.read 3 fun x₃ y₃ h₃ => h.read 5 fun x₅ y₅ h₅ => ?_
  rw [h₂.2.1, h₃.2.1]
  exact hfg _ _ _ _ _ h₅.2.2

theorem originGroupsFrom_like (h : Like (k + 1) a b) {l l' : List CJSON}
    (hl : List.Forall₂ (Like (k + 1)) l l') : originGroupsFrom a l = originGroupsFrom b l' := by
  induction hl generalizing a b with
  | nil => rfl
  | cons hxy _ ih => simp only [originGroupsFrom, h.1, ih hxy]

theorem originGroups_like {l l' : List CJSON} (hl : List.Forall₂ (Like (k + 1)) l l') :
    originGroups l = originGroups l' := by
  cases hl with
  | nil => rfl
  | cons hxy hl => simp only [originGroups, hxy.1, originGroupsFrom_like hxy hl]

theorem destinationGroups_like {l l' : List CJSON} (hl : List.Forall₂ (Like (k + 1)) l l') :
    destinationGroups l = destinationGroups l' := by
  induction hl with
  | nil => rfl
  | cons hxy _ ih => simp only [destinationGroups, hxy.1, ih]

/-- Here a name is read. -/
theorem expireGroups_like {l l' : List CJSON} (hl : List.Forall₂ (Like 1) l l') :
    expireGroups l = expireGroups l' := by
  induction hl with
  | nil => rfl
  | @cons x y _ _ hxy _ ih =>
      have hchild : x.child = y.child := List.forall₂_eq_eq_eq ▸ hxy.2.2
      simp only [expireGroups, hchild, ih]

theorem mcsgMessageTranslator_like (h : Like 4 a b) :
    mcsgMessageTranslator a = mcsgMessageTranslator b := by
  refine h.commonFields fun name nargs rawData l l' hl => ?_
  refine bind_eq_of_rel (rel_getElem? hl 3) fun x₃ y₃ h₃ => ?_
  refine bind_eq_of_rel (rel_getElem? hl 0) fun x₀ y₀ h₀ => ?_
  refine bind_eq_of_rel (rel_getElem? hl 1) fun x₁ y₁ h₁ => ?_
  rw [originGroups_like h₁.2.2, h₃.2.1, h₀.1]
  refine Option.bind_congr fun origin _ => ?_
  refine bind_eq_of_rel (rel_getElem? hl 2) fun x₂ y₂ h₂ => ?_
  rw [destinationGroups_like h₂.2.2]

theorem mcsgStateTranslator_like (h : Like 4 a b) :
    mcsgStateTranslator a = mcsgStateTranslator b := by
  refine h.commonFields fun name nargs rawData l l' hl => ?_
  refine bind_eq_of_rel (rel_getElem? hl 1) fun x₁ y₁ h₁ => ?_
  refine bind_eq_of_rel (rel_getElem? hl 2) fun x₂ y₂ h₂ => ?_
  rw [h₁.2.1, h₂.1]
  refine Option.bind_congr fun returnType _ => ?_
  refine bind_eq_of_rel (rel_getElem? hl 0) fun x₀ y₀ h₀ => ?_
  rw [h₀.1]
  refine Option.bind_congr fun request _ => ?_
  refine bind_eq_of_rel (rel_getElem? hl 3) fun x₃ y₃ h₃ => ?_
  rw [h₃.1]
  refine Option.bind_congr fun unit _ => ?_
  refine bind_eq_of_rel (rel_getElem? hl 4) fun x₄ y₄ h₄ => ?_
  rw [h₄.1, h₄.2.1]
  -- the last member is read behind both branches
  dsimp only
  split
  all_goals
    refine Option.bind_congr fun comment _ => ?_
    refine bind_eq_of_rel (rel_getElem? hl 5) fun x₅ y₅ h₅ => ?_
    rw [expireGroups_like h₅.2.2, isEmpty_eq_of_forall₂ h₅.2.2]

theorem mcsgPayloadTranslator_like (h : Like 4 a b) :
    mcsgPayloadTranslator a = mcsgPayloadTranslator b := by
  refine h.commonFields fun name nargs rawData l l' hl => ?_
  refine bind_eq_of_rel (rel_getElem? hl mcsgStateResponseSizeField) fun x₄ y₄ h₄ => ?_
  refine bind_eq_of_rel (rel_getElem? hl 0) fun x₀ y₀ h₀ => ?_
  refine bind_eq_of_rel (rel_getElem? hl 1) fun x₁ y₁ h₁ => ?_
  refine bind_eq_of_rel (rel_getElem? hl 2) fun x₂ y₂ h₂ => ?_
  rw [h₄.2.1, h₀.2.1, h₁.2.1, h₂.1]
  refine Option.bind_congr fun arguments _ => ?_
  refine bind_eq_of_rel (rel_getElem? hl 3) fun x₃ y₃ h₃ => ?_
  rw [h₃.1, h₃.2.1]

end

/-! ## Lists of commands that are alike -/

/-- The lists of the generator for commands that are alike: only the items in the cells differ. -/
structure SameLists (l l' : MCSGCommandList) : Prop where
  commands : Cells.Related (Like 4) l.commands l'.commands
  enumCells : l.enumCells = l'.enumCells
  sublists : l.sublists = l'.sublists
  enums : l.enums = l'.enums
  tempEnum : l.tempEnum = l'.tempEnum
  read : l.read = l'.read

section

variable {l l' : MCSGCommandList} (malloc : Malloc)

theorem SameLists.add (h : SameLists l l') (t : MCSType) {a b : CJSON} (hab : Like 4 a b) :
    Option.Rel SameLists (l.add malloc t a) (l'.add malloc t b) := by
  unfold MCSGCommandList.add
  rw [h.read, h.sublists, h.enumCells, h.enums, h.tempEnum]
  have hput := h.commands.put (malloc.addr (2 * l'.read)) hab none
  refine rel_bind (hput.link _ _ _) fun p p' hp => ?_
  rcases p with ⟨commands, first⟩
  rcases p' with ⟨commands', first'⟩
  rcases hp with ⟨hcommands, rfl⟩
  refine rel_bind (rel_getElem? hab.2.2 0) fun x y hxy => ?_
  rw [hxy.1]
  refine rel_bind (rel_eq _) ?_
  rintro name _ rfl
  refine rel_bind (rel_eq _) ?_
  rintro ⟨enumCells, enums⟩ _ rfl
  exact .some ⟨hcommands, rfl, rfl, rfl, rfl, rfl⟩

theorem SameLists.readCommands (h : SameLists l l') {items items' : List CJSON}
    (hitems : List.Forall₂ (Like 4) items items') :
    Option.Rel SameLists (readCommands malloc l items) (readCommands malloc l' items') := by
  induction hitems generalizing l l' with
  | nil => exact .some h
  | @cons a b _ _ hab _ ih =>
      rw [MCSG.readCommands, MCSG.readCommands, hab.mcsgTypeIdentifier]
      cases mcsgTypeIdentifier b with
      | none => exact .none
      | some t =>
          have hadd := h.add malloc t hab
          dsimp only
          generalize l.add malloc t a = x at hadd
          generalize l'.add malloc t b = y at hadd
          cases hadd with
          | none => exact .none
          | some hsame => exact ih hsame

theorem sameLists_empty : SameLists emptyCommandList emptyCommandList :=
  ⟨fun _ => .none, rfl, rfl, rfl, rfl, rfl⟩

theorem translateFrom_like {α : Type} {translate : CJSON → Option α}
    (htranslate : ∀ a b, Like 4 a b → translate a = translate b) {h h' : Cells CJSON}
    (hh : Cells.Related (Like 4) h h') (fuel : Nat) (p : Option Nat) (size : Nat) :
    translateFrom translate fuel h p size = translateFrom translate fuel h' p size := by
  induction fuel generalizing p size with
  | zero => rfl
  | succ fuel ih =>
      cases p with
      | none => rfl
      | some a =>
          refine bind_eq_of_rel (hh a) fun c c' hc => ?_
          rw [htranslate _ _ hc.1, hc.2]
          refine Option.bind_congr fun entry _ => ?_
          cases c'.next with
          | none => rfl
          | some next => simp only [ih]

theorem SameLists.mcsgCommandsTranslator (h : SameLists l l') :
    mcsgCommandsTranslator l = mcsgCommandsTranslator l' := by
  unfold MCSG.mcsgCommandsTranslator
  rw [h.read, h.sublists, h.enumCells, h.enums,
    translateFrom_like (fun _ _ => mcsgMessageTranslator_like) h.commands,
    translateFrom_like (fun _ _ => mcsgStateTranslator_like) h.commands,
    translateFrom_like (fun _ _ => mcsgPayloadTranslator_like) h.commands]

theorem SameLists.mcsgJavaTranslator (h : SameLists l l') :
    mcsgJavaTranslator l = mcsgJavaTranslator l' := by
  unfold MCSG.mcsgJavaTranslator
  rw [h.read, h.enumCells, h.enums]

end

/-! ## The whole program -/

/-- A root whose first member is a list of items like those of the commands. -/
theorem generate_like (malloc : Malloc) {json list : CJSON} {rest : List CJSON}
    (hjson : json.child = list :: rest) {cmds : List Command}
    (hlist : List.Forall₂ (Like 4) list.child (cmds.map Command.item)) :
    generate malloc json = generate malloc (configuration cmds) := by
  have hread : Option.Rel SameLists (mcsgCommandsReader malloc json)
      (mcsgCommandsReader malloc (configuration cmds)) := by
    have hconfig : (configuration cmds).child =
        [.parseArray none (cmds.map Command.item)] := rfl
    have hchild : (CJSON.parseArray none (cmds.map Command.item)).child =
        cmds.map Command.item := rfl
    simp only [mcsgCommandsReader, hjson, hconfig, hchild]
    generalize list.child = items at hlist
    generalize cmds.map Command.item = items' at hlist
    cases hlist with
    | nil => exact .none
    | cons hab hrest => exact sameLists_empty.readCommands malloc (.cons hab hrest)
  refine bind_eq_of_rel hread fun l l' hl => ?_
  rw [hl.mcsgCommandsTranslator, hl.mcsgJavaTranslator]

section

variable {D : Type} (A : Doubles D)

/-- The value has the members of the command in their order. -/
def Describes (v : Value D) (c : Command) : Prop := Like 4 (ofItem (v.item A)) c.item

theorem forall₂_ofItems {vs : List (Value D)} {cmds : List Command}
    (h : List.Forall₂ (Describes A) vs cmds) :
    List.Forall₂ (Like 4) (ofItems (elementItems A vs)) (cmds.map Command.item) := by
  induction h with
  | nil => exact .nil
  | cons hv _ ih => exact .cons hv ih

/-- The generator prints the tables of the commands that the file describes. -/
theorem mcsgMain_configuration (malloc : Malloc) {g t : List UInt8} {name : CString}
    {vs : List (Value D)} {more : List (CString × Value D)} {cmds : List Command} (hg : Space g)
    (h : Spells A Space (.value (.object ((name, .array vs) :: more))) t)
    (hcmds : List.Forall₂ (Describes A) vs cmds) (rest : List UInt8) (last : UInt8) :
    mcsgMain A malloc (g ++ (t ++ rest)) last = generate malloc (configuration cmds) := by
  have hparse : cJSONParse A (g ++ (t ++ rest) ++ [last]) =
      .done ((Value.object ((name, .array vs) :: more)).item A) (rest ++ [last]) := by
    rw [List.append_assoc, List.append_assoc]
    exact cJSONParse_spells hg h trivial
  have hchild : (ofItem ((Value.object ((name, .array vs) :: more)).item A)).child =
      .item (some name) none 0 (ofItems (elementItems A vs)) :: ofItems (memberItems A more) := rfl
  rw [mcsgMain, hparse]
  exact generate_like malloc hchild (forall₂_ofItems A hcmds)

end

/-- A member, under a name in ASCII. -/
def entry (name : String) (v : Value Int) : CString × Value Int :=
  (CString.ofBuffer (ascii name), v)

def document (c : CommonMembers) (type : CString) (config : List (CString × Value Int)) :
    Value Int :=
  .object [entry "name" (.string c.id), entry "description" (.string (c.description.getD c.id)),
    entry "nargs" (.number c.nargs), entry "raw_data" (.bool c.rawData),
    entry "type" (.string type), entry "config" (.object config)]

def messageDocument : Value Int :=
  document oneMessage.common (typeName .message)
    [entry "destination" .null, entry "origin_groups" (.array []),
      entry "destination_groups" (.array []), entry "response_size" (.number 0)]

def stateDocument : Value Int :=
  document oneState.common (typeName .state)
    [entry "update_function" (.string (CString.ofBuffer [102])), entry "dimensions" (.number 1),
      entry "return_type" (.string ReturnType.int.name),
      entry "unit" (.string (CString.ofBuffer [75])), entry "dimension_name" .null,
      entry "expire_group" (.array [])]

def payloadDocument : Value Int :=
  document onePayload.common (typeName .payload)
    [entry "command" (.string (CString.ofBuffer [48])),
      entry "parameters" (.string (CString.ofBuffer [48])),
      entry "arguments" (.string (CString.ofBuffer [])), entry "data" .null,
      entry "response_size" (.number 0)]

def oneOfEach : Value Int :=
  .object [entry "command_list" (.array [messageDocument, stateDocument, payloadDocument])]

theorem oneOfEach_numbers : oneOfEach.Numbers integers.IsInt := by
  simp only [oneOfEach, messageDocument, stateDocument, payloadDocument, document, entry,
    Value.Numbers, memberNumbers, elementNumbers, Doubles.IsInt, and_true, true_and]
  exact ⟨⟨⟨0, rfl, rfl⟩, 0, rfl, rfl⟩, ⟨⟨0, rfl, rfl⟩, 1, rfl, rfl⟩, ⟨0, rfl, rfl⟩, 0, rfl, rfl⟩

theorem oneOfEach_describes :
    List.Forall₂ (Describes integers) [messageDocument, stateDocument, payloadDocument]
      [oneMessage, oneState, onePayload] := by
  have hnil : ∀ k, List.Forall₂ (Like k) [] [] := fun _ => .nil
  refine .cons ?_ (.cons ?_ (.cons ?_ .nil))
  all_goals
    refine ⟨rfl, rfl, .cons ⟨rfl, rfl, hnil 2⟩ (.cons ⟨rfl, rfl, hnil 2⟩
      (.cons ⟨rfl, rfl, hnil 2⟩ (.cons ⟨rfl, rfl, hnil 2⟩ (.cons ⟨rfl, rfl, hnil 2⟩
        (.cons ⟨rfl, rfl, ?_⟩ .nil)))))⟩
  · exact .cons ⟨rfl, rfl, hnil 1⟩ (.cons ⟨rfl, rfl, hnil 1⟩ (.cons ⟨rfl, rfl, hnil 1⟩
      (.cons ⟨rfl, rfl, hnil 1⟩ .nil)))
  · exact .cons ⟨rfl, rfl, hnil 1⟩ (.cons ⟨rfl, rfl, hnil 1⟩ (.cons ⟨rfl, rfl, hnil 1⟩
      (.cons ⟨rfl, rfl, hnil 1⟩ (.cons ⟨rfl, rfl, hnil 1⟩ (.cons ⟨rfl, rfl, hnil 1⟩ .nil)))))
  · exact .cons ⟨rfl, rfl, hnil 1⟩ (.cons ⟨rfl, rfl, hnil 1⟩ (.cons ⟨rfl, rfl, hnil 1⟩
      (.cons ⟨rfl, rfl, hnil 1⟩ (.cons ⟨rfl, rfl, hnil 1⟩ .nil))))

/-- A file that cJSON has printed, with one command of each type. -/
theorem mcsgMain_oneOfEach :
    ∃ file : CString, cJSONPrint integerRendering true (oneOfEach.item integers) = some file ∧
      mcsgMain integers ⟨id, Function.injective_id⟩ file.bytes 255 =
        generate ⟨id, Function.injective_id⟩ (configuration [oneMessage, oneState, onePayload]) ∧
      (generate ⟨id, Function.injective_id⟩
        (configuration [oneMessage, oneState, onePayload])).isSome = true := by
  rcases oneOfEach.printed integerRendering_exact true oneOfEach_numbers 0 with ⟨file, hfile, h⟩
  refine ⟨file, hfile, ?_, rfl⟩
  have hmain := mcsgMain_configuration integers ⟨id, Function.injective_id⟩ space_nil h
    oneOfEach_describes [] 255
  rwa [List.nil_append, List.append_nil] at hmain

end MCSG
end AbsPlatform
