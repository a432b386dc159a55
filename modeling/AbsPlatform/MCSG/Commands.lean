import AbsPlatform.Lib.SinglyLinked
import AbsPlatform.MCSG.Translator

/-!
# Commands — the lists of the generator

`mcsg_commands_reader` puts every command of the configuration in the list of its type and in the
list of the enumeration, and `mcsg_commands_translator` prints the four lists.  The lists are
linked cells that grow at their ends; the pointers and the counter of each type are a `Sublist`.
-/

namespace AbsPlatform
namespace MCSG

open Lib

/-- `malloc`: the address of the k-th block.  Nothing is freed while the lists grow. -/
structure Malloc where
  addr : Nat → Nat
  injective : Function.Injective addr

structure MCSGEnum where
  name : CString
  value : Nat

/-- The list of a type (`messages`, `temp_message`, `command_count_message`). -/
structure Sublist where
  first : Option Nat
  temp : Option Nat
  count : Nat

/-- `MCSGCommandList` with the cells it leads to. -/
structure MCSGCommandList where
  commands : Cells CJSON
  enumCells : Cells MCSGEnum
  sublists : MCSType → Sublist
  enums : Option Nat
  tempEnum : Option Nat
  /-- commands read so far -/
  read : Nat

def emptyCommandList : MCSGCommandList where
  commands := fun _ => none
  enumCells := fun _ => none
  sublists := fun _ => ⟨none, none, 0⟩
  enums := none
  tempEnum := none
  read := 0

/-- `"MCS_MESSAGE_"`, `"MCS_STATE_"` and `"MCS_PAYLOAD_"`. -/
def enumPrefix : MCSType → CString
  | .message => ⟨[77, 67, 83, 95, 77, 69, 83, 83, 65, 71, 69, 95], by simp⟩
  | .state => ⟨[77, 67, 83, 95, 83, 84, 65, 84, 69, 95], by simp⟩
  | .payload => ⟨[77, 67, 83, 95, 80, 65, 89, 76, 79, 65, 68, 95], by simp⟩
  | _ => ⟨[], CString.noNul_nil⟩

/-- `MCSG_TYPE_MESSAGE_DEC`, `MCSG_TYPE_STATE_DEC` and `MCSG_TYPE_PAYLOAD_DEC`. -/
def typeDec : MCSType → Nat
  | .message => 0
  | .state => 65536
  | .payload => 131072
  | _ => 0

/-- One branch of the `switch`: the command goes to the end of the list of its type and to the end
of the enumeration. -/
def MCSGCommandList.add (l : MCSGCommandList) (malloc : Malloc) (type : MCSType) (json : CJSON) :
    Option MCSGCommandList := do
  let node := malloc.addr (2 * l.read)
  let sub := l.sublists type
  let (commands, first) ←
    (l.commands.put node (some { val := json, next := none })).link sub.first sub.temp node
  let entry := malloc.addr (2 * l.read + 1)
  let commandName ← (← json.child[0]?).valuestring
  let enumerator : MCSGEnum :=
    { name := (enumPrefix type).strcat commandName.strToUpper, value := typeDec type + sub.count }
  let (enumCells, enums) ←
    (l.enumCells.put entry (some { val := enumerator, next := none })).link l.enums l.tempEnum entry
  some
    { commands := commands
      enumCells := enumCells
      sublists :=
        Function.update l.sublists type
          { first := first, temp := some node, count := sub.count + 1 }
      enums := enums
      tempEnum := some entry
      read := l.read + 1 }

/-- The loop of `mcsg_commands_reader` over the commands from one on. -/
def readCommands (malloc : Malloc) : MCSGCommandList → List CJSON → Option MCSGCommandList
  | l, [] => some l
  | l, json :: rest =>
      match mcsgTypeIdentifier json with
      | none => none
      | some type =>
          match l.add malloc type json with
          | none => none
          | some l => readCommands malloc l rest

/-- `mcsg_commands_reader`: `json->child->child` is the first command. -/
def mcsgCommandsReader (malloc : Malloc) (json : CJSON) : Option MCSGCommandList :=
  match json.child with
  | [] => none
  | list :: _ =>
      match list.child with
      -- the body of the loop follows the pointer before anything is tested
      | [] => none
      | cmds => readCommands malloc emptyCommandList cmds

/-! ## Printing -/

/-- What is printed to `auto_mcs.h`: the enumeration, and the three tables with the size that is
defined for each. -/
structure Header where
  enums : List MCSGEnum
  messages : List MessageInit
  messageListSize : Nat
  states : List StateInit
  stateListSize : Nat
  payloads : List PayloadInit
  payloadListSize : Nat

/-- The entries of a table from a cell on and the final `command_list_size`. -/
def translateFrom {α : Type} (translate : CJSON → Option α) :
    Nat → Cells CJSON → Option Nat → Nat → Option (List α × Nat)
  | 0, _, _, _ => none
  | _ + 1, _, none, _ => none
  | fuel + 1, h, some a, size => do
      let cell ← h a
      let entry ← translate cell.val
      match cell.next with
      | none => some ([entry], size)
      | some next => do
          let (entries, size) ← translateFrom translate fuel h (some next) (size + 1)
          some (entry :: entries, size)

def mcsgCommandsTranslator (l : MCSGCommandList) : Option Header := do
  let enums ← l.enumCells.walk l.read l.enums
  let messages ←
    translateFrom mcsgMessageTranslator l.read l.commands (l.sublists .message).first 1
  let states ← translateFrom mcsgStateTranslator l.read l.commands (l.sublists .state).first 1
  let payloads ←
    translateFrom mcsgPayloadTranslator l.read l.commands (l.sublists .payload).first 1
  some
    { enums := enums
      messages := messages.1
      messageListSize := messages.2
      states := states.1
      stateListSize := states.2
      payloads := payloads.1
      payloadListSize := payloads.2 }

end MCSG
end AbsPlatform
