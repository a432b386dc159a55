import AbsPlatform.MCSG.StatePath

/-!
# MessageTable — the entry of a message and its configuration

A command of the configuration as the format describes it, and the items that cJSON makes of it.
The entry that `mcsg_message_translator` prints for a message has the configured values, but the
loop over the origin groups takes the name of a group before it moves on to the next one: the first
group is printed twice and the last one is not printed (`originGroups_map`).
-/

namespace AbsPlatform
namespace MCSG

/-! ## Commands of the configuration -/

/-- What all commands have; `none` stands for `null`, here and below. -/
structure CommonMembers where
  id : CString
  description : Option CString
  nargs : Nat
  rawData : Bool

structure MessageMembers where
  destination : Option CString
  originGroups : List CString
  destinationGroups : List CString
  responseSize : Int

structure StateMembers where
  updateFunction : CString
  dimensions : Nat
  returnType : ReturnType
  unit : Option CString
  dimensionName : Option CString
  expireGroup : List (CString × Int)

structure PayloadMembers where
  command : CString
  parameters : CString
  arguments : CString
  data : Option CString
  responseSize : Int

/-- `type` and `config`. -/
inductive ConfigMembers
  | message (m : MessageMembers)
  | state (m : StateMembers)
  | payload (m : PayloadMembers)
  /-- a type that is none of the three, with anything in `config` -/
  | other (type : CString) (unknown : ∀ t, t.isCommand = true → type ≠ typeName t)
      (members : List CJSON)

structure Command where
  common : CommonMembers
  config : ConfigMembers

namespace ConfigMembers

def type : ConfigMembers → CString
  | message _ => typeName .message
  | state _ => typeName .state
  | payload _ => typeName .payload
  | other type _ _ => type

def items : ConfigMembers → List CJSON
  | message m =>
      [optionalString m.destination, .parseArray none (m.originGroups.map (.parseString none)),
        .parseArray none (m.destinationGroups.map (.parseString none)),
        .parseNumber none m.responseSize]
  | state m =>
      [.parseString none m.updateFunction, .parseNumber none m.dimensions,
        .parseString none m.returnType.name, optionalString m.unit,
        optionalString m.dimensionName,
        .parseArray none (m.expireGroup.map fun (group, expire) =>
          .parseObject none [.parseNumber (some group) expire])]
  | payload m =>
      [.parseString none m.command, .parseString none m.parameters,
        .parseString none m.arguments, optionalString m.data, .parseNumber none m.responseSize]
  | other _ _ members => members

end ConfigMembers

/-- The item cJSON makes of a command. -/
def Command.item (c : Command) : CJSON :=
  .parseObject none
    [.parseString none c.common.id, optionalString c.common.description,
      .parseNumber none c.common.nargs, .parseBool none c.common.rawData,
      .parseString none c.config.type, .parseObject none c.config.items]

/-- The states of which the size is followed are commands of this format. -/
theorem StateConfig.item_eq (c : StateConfig) :
    c.item = Command.item
      { common :=
          { id := c.name
            description := c.description
            nargs := c.nargs
            rawData := c.rawData }
        config := .state
          { updateFunction := c.updateFunction
            dimensions := c.dimensions
            returnType := c.returnType
            unit := c.unit
            dimensionName := c.dimensionName
            expireGroup := c.expireGroup } } :=
  rfl

/-- The description is given to `fprintf` as it is. -/
theorem commonFields_item (c : Command) :
    commonFields c.item = c.common.description.map fun _ =>
      (c.common.id, (c.common.nargs : Int), c.common.rawData, c.config.items) := by
  rcases c with ⟨⟨id, description, nargs, rawData⟩, config⟩
  cases description <;> cases rawData <;> rfl

/-! ## Groups -/

theorem destinationGroups_map (names : List CString) :
    destinationGroups (names.map (.parseString none)) = some (names.map sdbGroupIdentifier) := by
  induction names with
  | nil => rfl
  | cons name names ih =>
      simp only [List.map_cons, destinationGroups, ih]
      rfl

theorem originGroupsFrom_map (name : CString) (names : List CString) :
    originGroupsFrom (.parseString none name) (names.map (.parseString none)) =
      some ((name :: names).dropLast.map sdbGroupIdentifier) := by
  induction names generalizing name with
  | nil => rfl
  | cons next names ih =>
      simp only [List.map_cons, originGroupsFrom, ih next]
      rfl

/-- The first group comes twice and the last one is left out. -/
theorem originGroups_map (names : List CString) :
    originGroups (names.map (.parseString none)) =
      some ((names.take 1 ++ names.dropLast).map sdbGroupIdentifier) := by
  cases names with
  | nil => rfl
  | cons name names =>
      simp only [List.map_cons, originGroups, originGroupsFrom_map]
      rfl

/-- What is printed for a message with a description. -/
theorem mcsgMessageTranslator_item (c : CommonMembers) (m : MessageMembers) :
    mcsgMessageTranslator (Command.item ⟨c, .message m⟩) = c.description.map fun _ =>
      { cmd :=
          { name := c.id
            nargs := c.nargs
            rawData := c.rawData
            responseSize := m.responseSize }
        destination := m.destination
        originGroups := (m.originGroups.take 1 ++ m.originGroups.dropLast).map sdbGroupIdentifier
        destinationGroups := m.destinationGroups.map sdbGroupIdentifier } := by
  rw [mcsgMessageTranslator, commonFields_item]
  cases c.description with
  | none => rfl
  | some description =>
      have horigin : originGroups (CJSON.parseArray none
          (m.originGroups.map (.parseString none))).child = _ := originGroups_map m.originGroups
      have hdestination : destinationGroups (CJSON.parseArray none
          (m.destinationGroups.map (.parseString none))).child = _ :=
        destinationGroups_map m.destinationGroups
      simp only [ConfigMembers.items, Option.map_some, Option.bind_eq_bind, Option.bind_some,
        List.getElem?_cons_zero, List.getElem?_cons_succ, valuestring_optionalString, horigin,
        hdestination]
      rfl

def plainCommand : CommonMembers where
  id := CString.ofBuffer [97]
  description := some (CString.ofBuffer [])
  nargs := 0
  rawData := false

end MCSG
end AbsPlatform
