import AbsPlatform.Include

/-!
# Translator — from an item of the configuration to an entry of a table

The generator `MCS/mcsg.c` reads `mcsg.json` through cJSON and prints the tables of `auto_mcs.h`.
An item is what the parser leaves in a `cJSON` structure; a pointer to an item is the position of
the item among its siblings.  An entry is the initialiser that is printed, field by field.

The translators walk over the members of a command by their position and do not look at their
names.  Following a NULL pointer is a fault, `none`.
-/

namespace AbsPlatform

namespace CString

/-- `toupper` in the C locale. -/
def toupper (c : UInt8) : UInt8 := if 97 ≤ c ∧ c ≤ 122 then c - 32 else c

theorem toupper_ne_zero {c : UInt8} (h : c ≠ 0) : toupper c ≠ 0 := by
  unfold toupper
  split_ifs with hlower
  · intro hz
    have hle : (32 : UInt8) ≤ c := UInt8.le_trans (by decide) hlower.1
    have hnat : c.toNat - 32 = 0 := by
      simpa [hz] using (UInt8.toNat_sub_of_le c 32 hle).symm
    have hlow : 97 ≤ c.toNat := hlower.1
    omega
  · exact h

/-- `str_to_upper`. -/
def strToUpper (s : CString) : CString where
  bytes := s.bytes.map toupper
  noNul := by
    intro b hb
    rcases List.mem_map.1 hb with ⟨c, hc, rfl⟩
    exact toupper_ne_zero (s.noNul c hc)

/-- `strcat`. -/
def strcat (s t : CString) : CString where
  bytes := s.bytes ++ t.bytes
  noNul := by
    intro b hb
    rcases List.mem_append.1 hb with hb | hb
    · exact s.noNul b hb
    · exact t.noNul b hb

end CString

namespace MCSG

/-! ## cJSON -/

/-- The fields of a `cJSON` item the generator reads. -/
inductive CJSON
  | item (string valuestring : Option CString) (valueint : Int) (child : List CJSON)

namespace CJSON

/-- The name of the item in its object. -/
def string : CJSON → Option CString
  | item string _ _ _ => string

def valuestring : CJSON → Option CString
  | item _ valuestring _ _ => valuestring

def valueint : CJSON → Int
  | item _ _ valueint _ => valueint

/-- The items from `child` on. -/
def child : CJSON → List CJSON
  | item _ _ _ child => child

/-! What `parse_value` leaves in an item for each kind of value.  A new item is all zero, so a
string has no number value and a number no string. -/

def parseNull (string : Option CString) : CJSON := item string none 0 []

def parseBool (string : Option CString) (b : Bool) : CJSON :=
  item string none (if b then 1 else 0) []

def parseString (string : Option CString) (s : CString) : CJSON := item string (some s) 0 []

def parseNumber (string : Option CString) (n : Int) : CJSON := item string none n []

def parseArray (string : Option CString) (elements : List CJSON) : CJSON :=
  item string none 0 elements

def parseObject (string : Option CString) (members : List CJSON) : CJSON :=
  item string none 0 members

end CJSON

/-- What is left for a member that is a string or `null`. -/
def optionalString : Option CString → CJSON
  | none => .parseNull none
  | some s => .parseString none s

theorem valuestring_optionalString (s : Option CString) : (optionalString s).valuestring = s := by
  cases s <;> rfl

/-- A string and `null` have no number value. -/
theorem valueint_optionalString (s : Option CString) : (optionalString s).valueint = 0 := by
  cases s <;> rfl

/-! ## The type of a command -/

/-- `MCSG_COMMAND_TYPE_FIELD`. -/
def mcsgCommandTypeField : Nat := 4

/-- `"message"`, `"state"` and `"payload"`. -/
def typeName : MCSType → CString
  | .message => ⟨[109, 101, 115, 115, 97, 103, 101], by simp⟩
  | .state => ⟨[115, 116, 97, 116, 101], by simp⟩
  | .payload => ⟨[112, 97, 121, 108, 111, 97, 100], by simp⟩
  | _ => ⟨[], CString.noNul_nil⟩

def mcsgTypeIdentifier (json : CJSON) : Option MCSType := do
  let subitem ← json.child[mcsgCommandTypeField]?
  let name ← subitem.valuestring
  if name = typeName .message then some .message
  else if name = typeName .state then some .state
  else if name = typeName .payload then some .payload
  -- `return 0`
  else some .message

/-! ## Entries -/

/-- The initialiser of a `MCSCommandOptionsCommon`. -/
structure CommonInit where
  name : CString
  nargs : Int
  rawData : Bool
  responseSize : Int

structure MessageInit where
  cmd : CommonInit
  /-- `none` for `NULL` -/
  destination : Option CString
  originGroups : List CString
  destinationGroups : List CString

structure StateInit where
  cmd : CommonInit
  request : CString
  dimensions : Int
  /-- `none` for `NULL` -/
  expireGroup : Option (List (CString × Int))

structure PayloadInit where
  cmd : CommonInit
  command : Int
  parameters : Int
  arguments : CString
  /-- `none` for `NULL` -/
  data : Option CString

/-- The members all commands have: the name, `nargs`, `raw_data` and the children of `config`.  The
description is printed as a comment. -/
def commonFields (json : CJSON) : Option (CString × Int × Bool × List CJSON) := do
  let name ← (← json.child[0]?).valuestring
  let _description ← (← json.child[1]?).valuestring
  let nargs := (← json.child[2]?).valueint
  let rawData := (← json.child[3]?).valueint
  let config ← json.child[5]?
  some (name, nargs, rawData ≠ 0, config.child)

/-- `"SDB_GROUP_"` and the name in capitals. -/
def sdbGroupIdentifier (name : CString) : CString :=
  CString.strcat ⟨[83, 68, 66, 95, 71, 82, 79, 85, 80, 95], by simp⟩ name.strToUpper

/-- The loop over the origin groups behind the first one: the name is taken before the pointer
moves on. -/
def originGroupsFrom : CJSON → List CJSON → Option (List CString)
  | _, [] => some []
  | subitem, next :: rest => do
      let name ← subitem.valuestring
      let names ← originGroupsFrom next rest
      some (sdbGroupIdentifier name :: names)

def originGroups : List CJSON → Option (List CString)
  | [] => some []
  | subitem :: rest => do
      let name ← subitem.valuestring
      let names ← originGroupsFrom subitem rest
      some (sdbGroupIdentifier name :: names)

/-- The destination groups: here the pointer moves on first. -/
def destinationGroups : List CJSON → Option (List CString)
  | [] => some []
  | subitem :: rest => do
      let name ← subitem.valuestring
      let names ← destinationGroups rest
      some (sdbGroupIdentifier name :: names)

def mcsgMessageTranslator (json : CJSON) : Option MessageInit := do
  let (name, nargs, rawData, config) ← commonFields json
  let responseSize := (← config[3]?).valueint
  let destination := (← config[0]?).valuestring
  let origin ← originGroups (← config[1]?).child
  let destinations ← destinationGroups (← config[2]?).child
  some
    { cmd := { name := name, nargs := nargs, rawData := rawData, responseSize := responseSize }
      destination := destination
      originGroups := origin
      destinationGroups := destinations }

/-- `MCSG_INT_SIZE`, `MCSG_FLOAT_SIZE` and `MCSG_STRING_SIZE`, by the return type: `"int"`,
`"float"` or anything else. -/
def returnSize (returnType : CString) : Int :=
  if returnType.bytes = [105, 110, 116] then 4
  else if returnType.bytes = [102, 108, 111, 97, 116] then 8
  else -1

/-- The entries for `expire_group`: the first member of every element. -/
def expireGroups : List CJSON → Option (List (CString × Int))
  | [] => some []
  | element :: rest => do
      let subitem ← element.child[0]?
      let name ← subitem.string
      let groups ← expireGroups rest
      some ((sdbGroupIdentifier name, subitem.valueint) :: groups)

def mcsgStateTranslator (json : CJSON) : Option StateInit := do
  let (name, nargs, rawData, config) ← commonFields json
  let dimensions := (← config[1]?).valueint
  let returnType ← (← config[2]?).valuestring
  let request ← (← config[0]?).valuestring
  -- the unit and the name of the dimension are printed as comments
  let _unit ← (← config[3]?).valuestring
  let dimensionName ← config[4]?
  let _comment ←
    if dimensionName.valueint = 0 then some none else dimensionName.valuestring.map some
  let expire ← config[5]?
  let groups ← expireGroups expire.child
  some
    { cmd :=
        { name := name
          nargs := nargs
          rawData := rawData
          responseSize := dimensions * returnSize returnType }
      request := request
      dimensions := dimensions
      expireGroup := if expire.child.isEmpty then none else some groups }

/-- `MCSG_STATE_RESPONSE_SIZE_FIELD`. -/
def mcsgStateResponseSizeField : Nat := 4

def mcsgPayloadTranslator (json : CJSON) : Option PayloadInit := do
  let (name, nargs, rawData, config) ← commonFields json
  let responseSize := (← config[mcsgStateResponseSizeField]?).valueint
  -- both are printed with `%d`
  let command := (← config[0]?).valueint
  let parameters := (← config[1]?).valueint
  let arguments ← (← config[2]?).valuestring
  let data ← config[3]?
  let dataString ← if data.valueint = 0 then some none else data.valuestring.map some
  some
    { cmd := { name := name, nargs := nargs, rawData := rawData, responseSize := responseSize }
      command := command
      parameters := parameters
      arguments := arguments
      data := dataString }

/-! ## Compiled entries -/

/-- What the compiler makes of the common part: `nargs` is an `unsigned short`. -/
def CommonInit.compile (c : CommonInit) : MCSCommandOptionsCommon where
  nargs := UInt16.ofInt c.nargs
  rawData := c.rawData
  responseSize := c.responseSize

/-- What the compiler makes of the entry of a payload: the two numbers are a `char` each. -/
def PayloadInit.compile (p : PayloadInit) : MCSCommandOptionsPayload where
  cmd := p.cmd.compile
  command := UInt8.ofInt p.command
  parameters := UInt8.ofInt p.parameters

end MCSG
end AbsPlatform
