import AbsPlatform.MCSG.CommandSets
import AbsPlatform.SDB.Qos

/-!
# Java — the enumeration in C and in Java

`mcsg_commands_reader` leaves a list with a name and a value for every command.
`mcsg_enum_translator` prints it to `auto_mcs.h` and `mcsg_java_translator` to `auto_mcs.java`,
where the names come without the first two words: every underscore is counted, and a character is
printed once there have been two of them.
-/

namespace AbsPlatform
namespace MCSG

open Lib MCS SDB

/-! ## What is printed -/

/-- The characters of a text in ASCII. -/
def ascii (s : String) : List UInt8 := s.toList.map fun c => UInt8.ofNat c.toNat

/-- `"    %s = %d,\n"`. -/
def mcsgEnumTranslator (e : MCSGEnum) : List UInt8 :=
  ascii "    " ++ e.name.bytes ++ ascii " = " ++ decimal e.value ++ ascii ",\n"

/-- The loop of `mcsg_commands_translator` over the enumeration. -/
def enumText (l : MCSGCommandList) : Option (List UInt8) :=
  (l.enumCells.walk l.read l.enums).map fun enums => enums.flatMap mcsgEnumTranslator

/-- The loop over the characters of a name. -/
def cutFrom : (understroke : Nat) → List UInt8 → List UInt8
  | _, [] => []
  | understroke, c :: cs =>
      (if 2 ≤ understroke then [c] else []) ++
        cutFrom (if c = 95 then understroke + 1 else understroke) cs

/-- What the loop prints for an entry in front of the separator. -/
def javaConstant (e : MCSGEnum) : List UInt8 :=
  ascii "        " ++ cutFrom 0 e.name.bytes ++ ascii " (" ++ decimal e.value ++ ascii ")"

/-- The loop of `mcsg_java_translator` from an entry on. -/
def javaConstantsFrom : Nat → Cells MCSGEnum → Option Nat → Option (List UInt8)
  | 0, _, _ => none
  | _ + 1, _, none => none
  | fuel + 1, h, some a =>
      match h a with
      | none => none
      | some cell =>
          match cell.next with
          | none => some (javaConstant cell.val ++ ascii ";\n")
          | some next =>
              (javaConstantsFrom fuel h (some next)).map fun rest =>
                javaConstant cell.val ++ ascii ",\n" ++ rest

def javaHeaders : List UInt8 :=
  ascii "public class SDBPacket \x7b\n\n    public enum CMD \x7b\n\n"

def javaFooter : List UInt8 :=
  ascii "\n        private int cmd;\n\n        private CMD (int cmd)\n" ++
    ascii "        \x7b\n            this.cmd = cmd;\n        \x7d\n\n" ++
    ascii "        public int getCmd ()\n        \x7b\n            return cmd;\n" ++
    ascii "        \x7d\n    \x7d\n\n    private CMD cmd;\n    private byte [] args;\n" ++
    ascii "    private byte [] data;\n\n    public SDBPacket (CMD cmd, byte [] " ++
    ascii "args, byte [] data)\n    \x7b\n        //...\n    \x7d\n\n\x7d"

def mcsgJavaTranslator (l : MCSGCommandList) : Option (List UInt8) :=
  (javaConstantsFrom l.read l.enumCells l.enums).map fun constants =>
    javaHeaders ++ constants ++ javaFooter

/-! ## What is to be printed -/

/-- A constant of the two enumerations. -/
structure Constant where
  type : MCSType
  name : CString
  value : Nat

/-- A line of the enumeration in C. -/
def Constant.cText (k : Constant) : List UInt8 :=
  ascii "    " ++ (enumPrefix k.type).bytes ++ k.name.bytes ++ ascii " = " ++ decimal k.value ++
    ascii ",\n"

def Constant.javaText (k : Constant) : List UInt8 :=
  ascii "        " ++ k.name.bytes ++ ascii " (" ++ decimal k.value ++ ascii ")"

/-- The constant of a command: its name in capitals, and its type if it is one of the three. -/
structure Constant.Of (k : Constant) (c : Command) : Prop where
  name : k.name = c.common.id.strToUpper
  type : ∀ t, c.kind = some t → k.type = t

/-- The two enumerations have the same constants, those of the commands, and no name twice; in Java
they are separated by commas, and a semicolon is at the end. -/
def EnumerationsAgree (malloc : Malloc) (cmds : List Command) : Prop :=
  ∃ l constants, mcsgCommandsReader malloc (configuration cmds) = some l ∧
    List.Forall₂ Constant.Of constants cmds ∧
    enumText l = some (constants.flatMap Constant.cText) ∧
    mcsgJavaTranslator l = some
      (javaHeaders ++ (ascii ",\n").intercalate (constants.map Constant.javaText) ++ ascii ";\n" ++
        javaFooter) ∧
    (constants.map Constant.name).Nodup

/-- Lower-case letters, digits and underscores. -/
def IdentifierByte (b : UInt8) : Prop := (97 ≤ b ∧ b ≤ 122) ∨ (48 ≤ b ∧ b ≤ 57) ∨ b = 95

/-! ## Names -/

theorem cutFrom_of_le {n : Nat} (h : 2 ≤ n) (bs : List UInt8) : cutFrom n bs = bs := by
  induction bs generalizing n with
  | nil => rfl
  | cons b bs ih =>
      rw [cutFrom, if_pos h]
      split_ifs
      · rw [ih (Nat.le_succ_of_le h)]
        rfl
      · rw [ih h]
        rfl

/-- The first two words are the ones of the type. -/
theorem cutFrom_enumPrefix {t : MCSType} (ht : t.isCommand = true) (bs : List UInt8) :
    cutFrom 0 ((enumPrefix t).bytes ++ bs) = bs := by
  have hcut : cutFrom 0 ((enumPrefix t).bytes ++ bs) = cutFrom 2 bs := by
    cases t with
    | message => rfl
    | state => rfl
    | payload => rfl
    | ok => cases ht
    | okData => cases ht
    | err => cases ht
  rw [hcut, cutFrom_of_le (Nat.le_refl 2)]

theorem toNat_toupper (b : UInt8) :
    (CString.toupper b).toNat = if 97 ≤ b.toNat ∧ b.toNat ≤ 122 then b.toNat - 32 else b.toNat := by
  have hlower : 97 ≤ b ∧ b ≤ 122 ↔ 97 ≤ b.toNat ∧ b.toNat ≤ 122 := Iff.rfl
  unfold CString.toupper
  by_cases h : 97 ≤ b ∧ b ≤ 122
  · rw [if_pos h, if_pos (hlower.1 h)]
    exact UInt8.toNat_sub_of_le b 32 (UInt8.le_trans (by decide) h.1)
  · rw [if_neg h, if_neg (fun h' => h (hlower.2 h'))]

/-- The capitals are none of the other characters of a name. -/
theorem toupper_injOn {b c : UInt8} (hb : IdentifierByte b) (hc : IdentifierByte c)
    (h : CString.toupper b = CString.toupper c) : b = c := by
  have hnat := congrArg UInt8.toNat h
  rw [toNat_toupper, toNat_toupper] at hnat
  simp only [IdentifierByte, UInt8.le_iff_toNat_le, ← UInt8.toNat_inj, UInt8.reduceToNat] at hb hc
  apply UInt8.toNat_inj.1
  split_ifs at hnat <;> omega

theorem map_toupper_injOn {bs cs : List UInt8} (hbs : ∀ b ∈ bs, IdentifierByte b)
    (hcs : ∀ c ∈ cs, IdentifierByte c)
    (h : bs.map CString.toupper = cs.map CString.toupper) : bs = cs := by
  induction bs generalizing cs with
  | nil => exact (List.map_eq_nil_iff.1 h.symm).symm
  | cons b bs ih =>
      cases cs with
      | nil => cases h
      | cons c cs =>
          rcases List.cons.inj h with ⟨hhead, htail⟩
          rcases List.forall_mem_cons.1 hbs with ⟨hb, hbs⟩
          rcases List.forall_mem_cons.1 hcs with ⟨hc, hcs⟩
          rw [toupper_injOn hb hc hhead, ih hbs hcs htail]

/-- Names that are different stay different in capitals. -/
theorem nodup_strToUpper {names : List CString} (hnodup : names.Nodup)
    (hchars : ∀ name ∈ names, ∀ b ∈ name.bytes, IdentifierByte b) :
    (names.map CString.strToUpper).Nodup := by
  refine hnodup.map_on fun name hname name' hname' h => CString.ext_bytes ?_
  exact map_toupper_injOn (hchars name hname) (hchars name' hname') (congrArg CString.bytes h)

/-! ## The list of the enumeration -/

theorem isCommand_mcsgTypeIdentifier {json : CJSON} {t : MCSType}
    (h : mcsgTypeIdentifier json = some t) : t.isCommand = true := by
  by_contra hnot
  exact not_reported json ⟨t, h, Bool.eq_false_of_not_eq_true hnot⟩

/-- A command of another type is read as a message. -/
theorem exists_mcsgTypeIdentifier (c : Command) :
    ∃ t, mcsgTypeIdentifier c.item = some t ∧ ∀ u, c.kind = some u → t = u := by
  cases hkind : c.kind with
  | none =>
      rcases c with ⟨common, m | m | m | ⟨type, hunknown, members⟩⟩
      · cases hkind
      · cases hkind
      · cases hkind
      · refine ⟨.message, ?_, by simp⟩
        simp [mcsgTypeIdentifier, Command.item, ConfigMembers.type, mcsgCommandTypeField,
          CJSON.parseObject, CJSON.parseString, CJSON.child, CJSON.valuestring,
          hunknown .message rfl, hunknown .state rfl, hunknown .payload rfl]
  | some u =>
      have hu := isCommand_of_kind hkind
      refine ⟨u, mcsgTypeIdentifier_of_typeField hu ((typeField_item_iff hu c).2 hkind), ?_⟩
      intro u' hu'
      exact Option.some.inj hu'

/-- An entry of the enumeration and the constant that it stands for. -/
def MCSGEnum.Is (e : MCSGEnum) (k : Constant) : Prop :=
  k.type.isCommand = true ∧ e.name = (enumPrefix k.type).strcat k.name ∧ e.value = k.value

/-- The loop of the reader puts a constant for each command at the end of the enumeration. -/
theorem Linked.readCommands {malloc : Malloc} {l : MCSGCommandList}
    {b : MCSType → List (Nat × CJSON)} {es : List (Nat × MCSGEnum)} (h : Linked malloc l b es)
    (cmds : List Command) :
    ∃ l' b' es' constants, readCommands malloc l (cmds.map Command.item) = some l' ∧
      Linked malloc l' b' (es ++ es') ∧ l'.read = l.read + cmds.length ∧
      List.Forall₂ Constant.Of constants cmds ∧
      List.Forall₂ MCSGEnum.Is (es'.map Prod.snd) constants := by
  induction cmds generalizing l b es with
  | nil => exact ⟨l, b, [], [], rfl, by simpa using h, rfl, .nil, .nil⟩
  | cons c cmds ih =>
      rcases exists_mcsgTypeIdentifier c with ⟨t, ht, hkind⟩
      rcases h.add t (nameField_item c) with ⟨l₁, hadd, h₁, hread₁, _⟩
      rcases ih h₁ with ⟨l', b', es', constants, hread, h', hlen, hof, his⟩
      refine ⟨l', b',
        (malloc.addr (2 * l.read + 1),
          ⟨(enumPrefix t).strcat c.common.id.strToUpper, typeDec t + (l.sublists t).count⟩) :: es',
        ⟨t, c.common.id.strToUpper, typeDec t + (l.sublists t).count⟩ :: constants,
        ?_, ?_, ?_, .cons ⟨rfl, hkind⟩ hof,
        .cons ⟨isCommand_mcsgTypeIdentifier ht, rfl, rfl⟩ his⟩
      · simp only [List.map_cons, MCSG.readCommands, ht, hadd, hread]
      · simpa using h'
      · rw [hlen, hread₁, List.length_cons]
        omega

/-! ## The texts -/

theorem mcsgEnumTranslator_of_is {e : MCSGEnum} {k : Constant} (h : e.Is k) :
    mcsgEnumTranslator e = k.cText := by
  simp [mcsgEnumTranslator, Constant.cText, h.2.1, h.2.2, CString.strcat]

theorem javaConstant_of_is {e : MCSGEnum} {k : Constant} (h : e.Is k) :
    javaConstant e = k.javaText := by
  rw [javaConstant, Constant.javaText, h.2.1, h.2.2, CString.strcat, cutFrom_enumPrefix h.1]

theorem flatMap_mcsgEnumTranslator {enums : List MCSGEnum} {constants : List Constant}
    (h : List.Forall₂ MCSGEnum.Is enums constants) :
    enums.flatMap mcsgEnumTranslator = constants.flatMap Constant.cText := by
  induction h with
  | nil => rfl
  | cons his _ ih => rw [List.flatMap_cons, List.flatMap_cons, mcsgEnumTranslator_of_is his, ih]

/-- The constants of a linked list, with their separators. -/
theorem javaConstantsFrom_eq {h : Cells MCSGEnum} {cells : List (Nat × MCSGEnum)}
    (hchain : Chain h cells none) (hne : cells ≠ []) {fuel : Nat} (hfuel : cells.length ≤ fuel) :
    javaConstantsFrom fuel h (firstPtr cells none) =
      some ((ascii ",\n").intercalate (cells.map fun c => javaConstant c.2) ++ ascii ";\n") := by
  induction cells generalizing fuel with
  | nil => exact absurd rfl hne
  | cons c cells ih =>
      cases fuel with
      | zero => simp at hfuel
      | succ fuel =>
          cases cells with
          | nil => simp [javaConstantsFrom, hchain.1, List.intercalate]
          | cons d cells =>
              have hrest := ih hchain.2 (by simp) (Nat.le_of_succ_le_succ hfuel)
              simp only [firstPtr_cons] at hrest
              simp [javaConstantsFrom, hchain.1, hrest, List.intercalate]

theorem map_javaConstant {enums : List MCSGEnum} {constants : List Constant}
    (h : List.Forall₂ MCSGEnum.Is enums constants) :
    enums.map javaConstant = constants.map Constant.javaText := by
  induction h with
  | nil => rfl
  | cons his _ ih => rw [List.map_cons, List.map_cons, javaConstant_of_is his, ih]

theorem map_name_of_forall₂ {constants : List Constant} {cmds : List Command}
    (h : List.Forall₂ Constant.Of constants cmds) :
    constants.map Constant.name = (cmds.map fun c => c.common.id).map CString.strToUpper := by
  induction h with
  | nil => rfl
  | cons hof _ ih => rw [List.map_cons, List.map_cons, List.map_cons, hof.name, ih]

/-- What is read from a configuration with a first command. -/
theorem mcsgCommandsReader_configuration (malloc : Malloc) {cmds : List Command} (hne : cmds ≠ []) :
    mcsgCommandsReader malloc (configuration cmds) =
      readCommands malloc emptyCommandList (cmds.map Command.item) := by
  rcases List.exists_cons_of_ne_nil hne with ⟨c, cs, rfl⟩
  rfl

/-- The two enumerations agree for every list of commands but the empty one. -/
theorem enumerations_agree_iff (malloc : Malloc) (cmds : List Command)
    (hchars : ∀ c ∈ cmds, ∀ b ∈ c.common.id.bytes, IdentifierByte b)
    (hdistinct : (cmds.map fun c => c.common.id).Nodup) :
    EnumerationsAgree malloc cmds ↔ cmds ≠ [] := by
  constructor
  · rintro ⟨l, constants, hread, _⟩ rfl
    -- the reader follows the pointer to the first command
    cases hread
  · intro hne
    rcases (linked_empty malloc).readCommands cmds with
      ⟨l, b, es, constants, hread, hlinked, hlen, hof, his⟩
    rw [← mcsgCommandsReader_configuration malloc hne] at hread
    rw [List.nil_append] at hlinked
    have hcount : es.length = cmds.length := by
      simpa using his.length_eq.trans hof.length_eq
    have hes : es ≠ [] := by
      rintro rfl
      exact hne (List.length_eq_zero_iff.1 hcount.symm)
    have hfuel : es.length ≤ l.read := by
      rw [hlen, hcount]
      exact Nat.le_add_left _ _
    have hfirst : l.enums = firstPtr es none := hlinked.enums.first ()
    have hchain := hlinked.enums.chain ()
    refine ⟨l, constants, hread, hof, ?_, ?_, ?_⟩
    · rw [enumText, hfirst, hchain.walk hes hfuel, Option.map_some, flatMap_mcsgEnumTranslator his]
    · rw [mcsgJavaTranslator, hfirst, javaConstantsFrom_eq hchain hes hfuel, Option.map_some,
        ← map_javaConstant his, List.map_map]
      simp [Function.comp_def]
    · rw [map_name_of_forall₂ hof]
      refine nodup_strToUpper hdistinct fun name hname => ?_
      rcases List.mem_map.1 hname with ⟨c, hc, rfl⟩
      exact hchars c hc

/-- A payload `"get_pin"`. -/
def getPin : Command where
  common :=
    { plainCommand with id := CString.ofBuffer [103, 101, 116, 95, 112, 105, 110] }
  config := onePayload.config

theorem messageAndPin_agree :
    EnumerationsAgree ⟨id, Function.injective_id⟩ [oneMessage, getPin] := by
  refine (enumerations_agree_iff _ [oneMessage, getPin] ?_ ?_).2 (by simp)
  · simp [oneMessage, getPin, plainCommand, CString.ofBuffer, IdentifierByte]
  · decide

/-- A configuration without commands: the reader follows a NULL pointer. -/
theorem noCommands_fault :
    mcsgCommandsReader ⟨id, Function.injective_id⟩ (configuration []) = none ∧
      ¬ EnumerationsAgree ⟨id, Function.injective_id⟩ [] := by
  refine ⟨rfl, ?_⟩
  rintro ⟨l, constants, hread, _⟩
  cases hread

end MCSG
end AbsPlatform
