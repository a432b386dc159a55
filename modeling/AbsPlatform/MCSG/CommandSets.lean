import AbsPlatform.MCSG.MessageTable
import AbsPlatform.MCSG.Numbering

/-!
# CommandSets — which sets of commands the generator handles

The generator should print one table for each type, with the commands of this type, and report the
commands of any other type.  `mcsg_type_identifier` returns 0 for those, which is the type of
messages, and `mcsg_commands_translator` prints the first entry of every table before it looks
whether there is one.
-/

namespace AbsPlatform
namespace MCSG

open Lib MCS

/-! ## What is to be printed -/

/-- `none` for a type that is none of the three. -/
def Command.kind (c : Command) : Option MCSType :=
  match c.config with
  | .message _ => some .message
  | .state _ => some .state
  | .payload _ => some .payload
  | .other _ _ _ => none

/-- The commands of a type, in the order of the file. -/
def ofKind (t : MCSType) (cmds : List Command) : List Command :=
  cmds.filter fun c => c.kind = some t

/-- The name of a command in the enumeration. -/
def Command.enumName (c : Command) : Option CString :=
  c.kind.map fun t => (enumPrefix t).strcat c.common.id.strToUpper

/-- The configuration with these commands. -/
def configuration (cmds : List Command) : CJSON :=
  .parseObject none [.parseArray none (cmds.map Command.item)]

/-- The `switch` of `mcsg_commands_reader` comes to its default, which prints an error. -/
def Reported (json : CJSON) : Prop :=
  ∃ t, mcsgTypeIdentifier json = some t ∧ t.isCommand = false

/-- The table of a type: an entry for each of its commands, and their number. -/
structure TableOf {α : Type} (cmds : List Command) (t : MCSType) (translate : CJSON → Option α)
    (entries : List α) (listSize : Nat) : Prop where
  count : entries.length = (ofKind t cmds).length
  listSize : listSize = (ofKind t cmds).length
  entry : ∀ k : Nat, entries[k]? = (ofKind t cmds)[k]?.bind fun c => translate c.item

/-- The header is the one for these commands, and the others have been reported. -/
structure Header.Handles (header : Header) (cmds : List Command) : Prop where
  messages : TableOf cmds .message mcsgMessageTranslator header.messages header.messageListSize
  states : TableOf cmds .state mcsgStateTranslator header.states header.stateListSize
  payloads : TableOf cmds .payload mcsgPayloadTranslator header.payloads header.payloadListSize
  enums : header.enums.map MCSGEnum.name = cmds.filterMap Command.enumName
  reported : ∀ c ∈ cmds, c.kind = none → Reported c.item

/-! ## Types -/

theorem nameField_item (c : Command) : c.item.nameField = some c.common.id := rfl

theorem typeField_item_iff {t : MCSType} (ht : t.isCommand = true) (c : Command) :
    c.item.typeField = some (typeName t) ↔ c.kind = some t := by
  -- a command has one type, so the type decides which of the four it is
  have hunique : ∀ u, u.isCommand = true → c.item.typeField = some (typeName u) →
      (c.item.typeField = some (typeName t) ↔ some u = some t) := by
    intro u hu htype
    constructor
    · intro h
      rw [type_unique hu ht htype h]
    · intro h
      rwa [← Option.some.inj h]
  rcases c with ⟨common, m | m | m | ⟨type, hunknown, members⟩⟩
  · exact hunique .message rfl rfl
  · exact hunique .state rfl rfl
  · exact hunique .payload rfl rfl
  · exact iff_of_false (fun h => hunknown t ht (Option.some.inj h)) (by simp [Command.kind])

theorem ofType_map_item {t : MCSType} (ht : t.isCommand = true) (cmds : List Command) :
    ofType t (cmds.map Command.item) = (ofKind t cmds).map Command.item := by
  simp only [ofType, ofKind, List.filter_map]
  congr 2
  funext c
  simp only [Function.comp_apply, typeField_item_iff ht c]

/-- No command is reported: what is returned for another type is a type. -/
theorem not_reported (json : CJSON) : ¬ Reported json := by
  rintro ⟨t, h, ht⟩
  simp only [mcsgTypeIdentifier, Option.bind_eq_bind, Option.bind_eq_some_iff] at h
  rcases h with ⟨subitem, _, name, _, h⟩
  split_ifs at h <;> cases h <;> cases ht

theorem isCommand_of_kind {c : Command} {t : MCSType} (h : c.kind = some t) :
    t.isCommand = true := by
  rcases c with ⟨common, m | m | m | ⟨type, hunknown, members⟩⟩ <;> cases h <;> rfl

/-! ## Commands that can be printed -/

/-- The members that the translators print with `%s` are not `null`. -/
structure Command.Printable (c : Command) : Prop where
  description : c.common.description ≠ none
  unit : ∀ m, c.config = .state m → m.unit ≠ none

theorem expireGroups_map (groups : List (CString × Int)) :
    (expireGroups (groups.map fun (group, expire) =>
      .parseObject none [.parseNumber (some group) expire])).isSome = true := by
  induction groups with
  | nil => rfl
  | cons g groups ih =>
      rcases Option.isSome_iff_exists.1 ih with ⟨rest, hrest⟩
      simp only [List.map_cons, expireGroups, hrest]
      rfl

theorem isSome_mcsgMessageTranslator (c : CommonMembers) (m : MessageMembers) :
    (mcsgMessageTranslator (Command.item ⟨c, .message m⟩)).isSome = true ↔
      c.description ≠ none := by
  rw [mcsgMessageTranslator_item, Option.isSome_map, Option.isSome_iff_ne_none]

theorem isSome_mcsgStateTranslator (c : CommonMembers) (m : StateMembers) :
    (mcsgStateTranslator (Command.item ⟨c, .state m⟩)).isSome = true ↔
      c.description ≠ none ∧ m.unit ≠ none := by
  rw [mcsgStateTranslator, commonFields_item]
  cases c.description with
  | none => simp
  | some description =>
      rcases Option.isSome_iff_exists.1 (expireGroups_map m.expireGroup) with ⟨groups, hgroups⟩
      have hchild : expireGroups (CJSON.parseArray none (m.expireGroup.map fun (group, expire) =>
          .parseObject none [.parseNumber (some group) expire])).child = some groups := hgroups
      simp only [ConfigMembers.items, Option.map_some, Option.bind_eq_bind, Option.bind_some,
        List.getElem?_cons_zero, List.getElem?_cons_succ, valuestring_optionalString,
        valueint_optionalString, hchild, if_true]
      cases m.unit with
      | none => exact iff_of_false (by simp [CJSON.parseString, CJSON.valuestring]) (by simp)
      | some unit => exact iff_of_true rfl (by simp)

theorem isSome_mcsgPayloadTranslator (c : CommonMembers) (m : PayloadMembers) :
    (mcsgPayloadTranslator (Command.item ⟨c, .payload m⟩)).isSome = true ↔
      c.description ≠ none := by
  rw [mcsgPayloadTranslator, commonFields_item]
  cases c.description with
  | none => simp
  | some description =>
      simp only [ConfigMembers.items, Option.map_some, Option.bind_eq_bind, Option.bind_some,
        List.getElem?_cons_zero, List.getElem?_cons_succ, mcsgStateResponseSizeField,
        valueint_optionalString, if_true]
      exact iff_of_true rfl (by simp)

/-- Only the translator for its type sees a command. -/
theorem translatable_of_kind {c : Command} {t : MCSType} (hkind : c.kind = some t)
    (hmessage : t = .message → (mcsgMessageTranslator c.item).isSome = true)
    (hstate : t = .state → (mcsgStateTranslator c.item).isSome = true)
    (hpayload : t = .payload → (mcsgPayloadTranslator c.item).isSome = true) :
    Translatable c.item := by
  have htype : ∀ u : MCSType, u.isCommand = true → c.item.typeField = some (typeName u) →
      t = u := by
    intro u hu h
    exact Option.some.inj (hkind.symm.trans ((typeField_item_iff hu c).1 h))
  exact ⟨fun h => hmessage (htype .message rfl h), fun h => hstate (htype .state rfl h),
    fun h => hpayload (htype .payload rfl h)⟩

/-- A command of one of the three types gets through its translator exactly if it is printable. -/
theorem translatable_item_iff {c : Command} (hknown : c.kind ≠ none) :
    Translatable c.item ↔ c.Printable := by
  rcases c with ⟨common, m | m | m | ⟨type, hunknown, members⟩⟩
  · have hentry := isSome_mcsgMessageTranslator common m
    constructor
    · intro h
      exact ⟨hentry.1 (h.message rfl), fun m' h' => by cases h'⟩
    · intro h
      exact translatable_of_kind rfl (fun _ => hentry.2 h.description) (by simp) (by simp)
  · have hentry := isSome_mcsgStateTranslator common m
    constructor
    · intro h
      rcases hentry.1 (h.state rfl) with ⟨hdescription, hunit⟩
      exact ⟨hdescription, fun m' h' => by cases h'; exact hunit⟩
    · intro h
      exact translatable_of_kind rfl (by simp) (fun _ => hentry.2 ⟨h.description, h.unit m rfl⟩)
        (by simp)
  · have hentry := isSome_mcsgPayloadTranslator common m
    constructor
    · intro h
      exact ⟨hentry.1 (h.payload rfl), fun m' h' => by cases h'⟩
    · intro h
      exact translatable_of_kind rfl (by simp) (by simp) (fun _ => hentry.2 h.description)
  · exact absurd rfl hknown

/-! ## Tables and enumeration -/

section

variable {α : Type} {cmds : List Command} {t : MCSType} {translate : CJSON → Option α}

/-- A table that has been printed is the one of its type. -/
theorem Reads.tableOf {malloc : Malloc} {l : MCSGCommandList} {b : MCSType → List (Nat × CJSON)}
    {es : List (Nat × MCSGEnum)} (h : Reads malloc l (cmds.map Command.item) b es)
    (ht : t.isCommand = true) {r : List α × Nat}
    (hr : translateFrom translate l.read l.commands (l.sublists t).first 1 = some r) :
    TableOf cmds t translate r.1 r.2 := by
  rcases h.table ht (h.ofType_ne_nil ht hr) hr with ⟨hsize, hcount, hentry⟩
  simp only [ofType_map_item ht, List.length_map, List.getElem?_map, Option.bind_map] at *
  exact ⟨hcount, hsize, hentry⟩

/-- Every command of the type has been translated. -/
theorem TableOf.isSome {entries : List α} {n : Nat} (h : TableOf cmds t translate entries n)
    {c : Command} (hc : c ∈ cmds) (hkind : c.kind = some t) :
    (translate c.item).isSome = true := by
  have hmem : c ∈ ofKind t cmds := List.mem_filter.2 ⟨hc, by simpa using hkind⟩
  rcases List.mem_iff_getElem?.1 hmem with ⟨k, hk⟩
  have hlt : k < entries.length := by
    rw [h.count]
    exact (List.getElem?_eq_some_iff.1 hk).1
  have hentry := h.entry k
  rw [hk, List.getElem?_eq_getElem hlt] at hentry
  exact Option.isSome_iff_exists.2 ⟨_, hentry.symm⟩

theorem Header.Handles.translatable {header : Header} (h : header.Handles cmds) {c : Command}
    (hc : c ∈ cmds) : Translatable c.item where
  message := fun htype => h.messages.isSome hc ((typeField_item_iff rfl c).1 htype)
  state := fun htype => h.states.isSome hc ((typeField_item_iff rfl c).1 htype)
  payload := fun htype => h.payloads.isSome hc ((typeField_item_iff rfl c).1 htype)

theorem Numbered.names {enums : List MCSGEnum} (h : Numbered (cmds.map Command.item) enums) :
    enums.map MCSGEnum.name = cmds.filterMap Command.enumName := by
  have hsome : enums.map (fun e => some e.name) = cmds.map Command.enumName := by
    apply List.ext_getElem?
    intro i
    rw [List.getElem?_map, List.getElem?_map]
    cases hc : cmds[i]? with
    | none =>
        have hlen : enums.length ≤ i := by
          rw [h.length, List.length_map]
          exact List.getElem?_eq_none_iff.1 hc
        simp [hlen]
    | some c =>
        rcases h.entry i c.item (by simp [hc]) with ⟨t, name, ht, htype, hname, hentry⟩
        have hid : c.common.id = name := Option.some.inj hname
        simp [hentry, enumerator, Command.enumName, (typeField_item_iff ht c).1 htype, hid]
  calc enums.map MCSGEnum.name = (enums.map fun e => some e.name).filterMap id := by
        simp [List.filterMap_map, List.filterMap_eq_map']
    _ = cmds.filterMap Command.enumName := by
        rw [hsome, List.filterMap_map, Function.id_comp]

end

/-! ## The result -/

theorem fields_of_kind {cmds : List Command} (h : ∀ c ∈ cmds, c.kind ≠ none) :
    ∀ json ∈ cmds.map Command.item, ∃ t name, t.isCommand = true ∧
      json.typeField = some (typeName t) ∧ json.nameField = some name := by
  intro json hjson
  rcases List.mem_map.1 hjson with ⟨c, hc, rfl⟩
  rcases Option.ne_none_iff_exists'.1 (h c hc) with ⟨t, hkind⟩
  have ht := isCommand_of_kind hkind
  exact ⟨t, c.common.id, ht, (typeField_item_iff ht c).2 hkind, rfl⟩

/-- The generator handles exactly the sets of commands of the three types, with at least one of
each, whose descriptions and units are not `null`. -/
theorem generator_handles_iff (malloc : Malloc) (cmds : List Command) :
    (∃ l header, mcsgCommandsReader malloc (configuration cmds) = some l ∧
      mcsgCommandsTranslator l = some header ∧ header.Handles cmds) ↔
    (∀ c ∈ cmds, c.kind ≠ none) ∧
      (∀ t : MCSType, t.isCommand = true → ∃ c ∈ cmds, c.kind = some t) ∧
      ∀ c ∈ cmds, c.Printable := by
  have hconfig : Configuration (configuration cmds) (cmds.map Command.item) := ⟨_, _, rfl, rfl⟩
  have hsome : ∀ t : MCSType, t.isCommand = true →
      (ofType t (cmds.map Command.item) ≠ [] ↔ ∃ c ∈ cmds, c.kind = some t) := by
    intro t ht
    rw [ofType_map_item ht, ne_eq, List.map_eq_nil_iff, ofKind, List.filter_eq_nil_iff]
    simp
  constructor
  · rintro ⟨l, header, hread, hheader, hhandles⟩
    have hknown : ∀ c ∈ cmds, c.kind ≠ none :=
      fun c hc hkind => not_reported c.item (hhandles.reported c hc hkind)
    have hne : cmds.map Command.item ≠ [] := by
      intro hnil
      rw [List.map_eq_nil_iff.1 hnil] at hread
      cases hread
    rcases hconfig.reads malloc hne (fields_of_kind hknown) with ⟨l', b, es, hread', h⟩
    cases Option.some.inj (hread.symm.trans hread')
    rcases mcsgCommandsTranslator_eq_some hheader with ⟨_, hms, hss, hps⟩
    refine ⟨hknown, fun t ht => (hsome t ht).1 ?_, fun c hc => ?_⟩
    · cases t with
      | message => exact h.ofType_ne_nil rfl hms
      | state => exact h.ofType_ne_nil rfl hss
      | payload => exact h.ofType_ne_nil rfl hps
      | ok => cases ht
      | okData => cases ht
      | err => cases ht
    · exact (translatable_item_iff (hknown c hc)).1 (hhandles.translatable hc)
  · rintro ⟨hknown, hall, hprintable⟩
    have hall' : ∀ t : MCSType, t.isCommand = true → ofType t (cmds.map Command.item) ≠ [] :=
      fun t ht => (hsome t ht).2 (hall t ht)
    have hne := ne_nil_of_ofType hall'
    rcases hconfig.reads malloc hne (fields_of_kind hknown) with ⟨l, b, es, hread, h⟩
    have htrans : ∀ json ∈ cmds.map Command.item, Translatable json := by
      intro json hjson
      rcases List.mem_map.1 hjson with ⟨c, hc, rfl⟩
      exact (translatable_item_iff (hknown c hc)).2 (hprintable c hc)
    rcases Option.isSome_iff_exists.1 (h.isSome_translator hall' htrans) with ⟨header, hheader⟩
    rcases mcsgCommandsTranslator_eq_some hheader with ⟨henums, hms, hss, hps⟩
    refine ⟨l, header, hread, hheader, h.tableOf rfl hms, h.tableOf rfl hss, h.tableOf rfl hps,
      ?_, fun c hc hkind => absurd hkind (hknown c hc)⟩
    rw [Option.some.inj (henums.symm.trans (h.walk_enums hne))]
    exact h.numbered.names

/-- A message to the SDB. -/
def oneMessage : Command where
  common := plainCommand
  config := .message
    { destination := none, originGroups := [], destinationGroups := [], responseSize := 0 }

def oneState : Command where
  common := plainCommand
  config := .state
    { updateFunction := CString.ofBuffer [102]
      dimensions := 1
      returnType := .int
      unit := some (CString.ofBuffer [75])
      dimensionName := none
      expireGroup := [] }

def onePayload : Command where
  common := plainCommand
  config := .payload
    { command := CString.ofBuffer [48]
      parameters := CString.ofBuffer [48]
      arguments := CString.ofBuffer []
      data := none
      responseSize := 0 }

/-- `"messages"`. -/
def misspelled : CString := CString.ofBuffer [109, 101, 115, 115, 97, 103, 101, 115]

theorem misspelled_unknown (t : MCSType) (_ : t.isCommand = true) : misspelled ≠ typeName t := by
  cases t <;> decide

/-- A command whose type is misspelled. -/
def misspelledMessage : Command where
  common := plainCommand
  config := .other misspelled misspelled_unknown oneMessage.config.items

/-- Without a state the translator follows a NULL pointer, and a misspelled type makes one message
more. -/
theorem sets_not_handled :
    (∃ l, mcsgCommandsReader ⟨id, Function.injective_id⟩
        (configuration [oneMessage, onePayload]) = some l ∧
      mcsgCommandsTranslator l = none) ∧
    ∃ l header, mcsgCommandsReader ⟨id, Function.injective_id⟩
        (configuration [oneMessage, misspelledMessage, oneState, onePayload]) = some l ∧
      mcsgCommandsTranslator l = some header ∧ header.messages.length = 2 ∧
      header.messageListSize = 2 ∧ header.enums.length = 4 ∧
      (ofKind .message [oneMessage, misspelledMessage, oneState, onePayload]).length = 1 ∧
      ¬ Reported misspelledMessage.item :=
  ⟨⟨_, rfl, rfl⟩, _, _, rfl, rfl, rfl, rfl, rfl, rfl, not_reported _⟩

end MCSG
end AbsPlatform
