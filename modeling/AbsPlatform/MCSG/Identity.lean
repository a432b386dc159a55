import AbsPlatform.MCS.RoundTrip
import AbsPlatform.MCSG.Numbering

/-!
# Identity — which command a packet is of

A value of the generated enumeration is a type and a number, `type << 16 | number`.
`mcs_create_packet` takes it apart, and `mcs_command` is to put it together again; it shifts the
type by 2 bits.  The result is `identifies_iff`: the value comes back exactly for the commands
whose value is their number, that is, for messages.
-/

namespace AbsPlatform
namespace MCSG

open Lib MCS

/-! ## The value that `mcs_command` returns -/

/-- Any two bits more than the number are lost in it. -/
theorem mcsCommand_lt (pkt : MCSPacket) : (mcsCommand pkt).toNat < 65536 := by
  rw [toNat_mcsCommand]
  have htype : pkt.type.toNat <<< 2 < 2 ^ 16 := by
    have hlt : pkt.type.toNat < 256 := pkt.type.toNat_lt
    rw [Nat.shiftLeft_eq]
    omega
  exact Nat.or_lt_two_pow htype pkt.cmd.toNat_lt

/-! ## Packets of a command -/

/-- A packet that `mcs_create_packet` returns for a value, or what the reader makes of it once it
has been written. -/
inductive PacketOf (t : MCSTables) (value : Nat) : MCSPacket → Prop
  | created (random : UInt32) (args data : Block) (pkt : MCSPacket) :
      mcsCreatePacket t random (UInt32.ofNat value) args data = some pkt → PacketOf t value pkt
  | readBack (random : UInt32) (args data : Block) (pkt pkt' : MCSPacket) (rfd : Int)
      (wfd : WriteFd) (rest : List UInt8) :
      mcsCreatePacket t random (UInt32.ofNat value) args data = some pkt →
      (mcsReadCommand t rfd wfd ((mcsWriteCommand t pkt openFd).2 ++ rest)).pkt = some pkt' →
      PacketOf t value pkt'

theorem mcsCreatePacket_eq_some {t : MCSTables} {random cmd : UInt32} {args data : Block}
    {pkt : MCSPacket} (h : mcsCreatePacket t random cmd args data = some pkt) :
    checkPacket t pkt = true ∧ pkt.type = commandType cmd ∧ pkt.cmd = commandNumber cmd := by
  simp only [mcsCreatePacket, Option.ite_none_right_eq_some, Option.some.injEq] at h
  rcases h with ⟨hcheck, rfl⟩
  exact ⟨hcheck, rfl, rfl⟩

/-- The reader finds the type and the number of a command where the writer has put them. -/
theorem type_cmd_of_readBack {t : MCSTables} {pkt pkt' : MCSPacket} {type : MCSType}
    (htype : pkt.type = type.code) (hcommand : type.isCommand = true) {rfd : Int} {wfd : WriteFd}
    {rest : List UInt8} (h : (mcsReadCommand t rfd wfd (rawBytes pkt ++ rest)).pkt = some pkt') :
    pkt'.type = pkt.type ∧ pkt'.cmd = pkt.cmd := by
  have hrfd : 0 ≤ rfd := by
    by_contra hneg
    have hlt : rfd < 0 := Int.not_le.1 hneg
    simp [mcsReadCommand, hlt] at h
  rcases (mcsReadCommand_iff t hrfd wfd _ _ pkt').1 ⟨h, rfl⟩ with ⟨f, hfits, hbytes, rfl⟩
  rw [rawBytes_command htype hcommand] at hbytes
  simp only [Frame.bytes, List.append_assoc] at hbytes
  -- identifier by identifier, then the type byte, then the number
  have hbody := (List.append_inj hbytes (by simp)).2
  cases f with
  | command id type' cmd args dest data =>
      simp only [Frame.body, List.cons_append, List.nil_append, List.cons.injEq,
        List.append_assoc] at hbody
      have hcmd := (List.append_inj hbody.2 (by simp)).1
      refine ⟨by simp [Frame.packet, htype, hbody.1], ?_⟩
      calc cmd = word16 (bytes16 cmd) := (word16_bytes16 cmd).symm
        _ = word16 (bytes16 pkt.cmd) := by rw [hcmd]
        _ = pkt.cmd := word16_bytes16 pkt.cmd
  | err id code =>
      have hcode : type = .err := MCSType.code_injective (List.cons.inj hbody).1
      simp [hcode, MCSType.isCommand] at hcommand
  | okData id data =>
      have hcode : type = .okData := MCSType.code_injective (List.cons.inj hbody).1
      simp [hcode, MCSType.isCommand] at hcommand
  | ok id =>
      have hcode : type = .ok := MCSType.code_injective (List.cons.inj hbody).1
      simp [hcode, MCSType.isCommand] at hcommand

/-- Four bits of type make a command, if they make anything. -/
theorem isCommand_of_commandType {cmd : UInt32} {type : MCSType} (h : commandType cmd = type.code) :
    type.isCommand = true := by
  have hlt : (commandType cmd).toNat < 16 := by
    have hand : cmd.toNat &&& 0xF0000 ≤ 0xF0000 := Nat.and_le_right
    simp only [commandType, UInt32.toNat_toUInt8, UInt32.toNat_shiftRight, UInt32.toNat_and,
      UInt32.reduceToNat, Nat.reduceMod, Nat.shiftRight_eq_div_pow]
    omega
  rw [h] at hlt
  cases type with
  | message => rfl
  | state => rfl
  | payload => rfl
  | ok => exact absurd hlt (by decide)
  | okData => exact absurd hlt (by decide)
  | err => exact absurd hlt (by decide)

namespace PacketOf

variable {t : MCSTables} {value : Nat} {pkt : MCSPacket}

/-- Writing and reading change neither the type nor the number. -/
theorem type_cmd (h : PacketOf t value pkt) :
    pkt.type = commandType (UInt32.ofNat value) ∧
      pkt.cmd = commandNumber (UInt32.ofNat value) := by
  cases h with
  | created random args data _ hcreate => exact (mcsCreatePacket_eq_some hcreate).2
  | readBack random args data q _ rfd wfd rest hcreate hread =>
      rcases mcsCreatePacket_eq_some hcreate with ⟨hcheck, htype, hcmd⟩
      rcases (checkPacket_iff.1 hcheck).1 with ⟨type, hcode, _⟩
      rw [mcsWriteCommand_openFd hcheck] at hread
      have hcommand := isCommand_of_commandType (htype.symm.trans hcode)
      have hsame := type_cmd_of_readBack hcode hcommand hread
      exact ⟨hsame.1.trans htype, hsame.2.trans hcmd⟩

/-- A value below 65536 is the number of a message, and it comes back. -/
theorem mcsCommand_eq (h : PacketOf t value pkt) (hsmall : value < 65536) :
    (mcsCommand pkt).toNat = value := by
  rcases h.type_cmd with ⟨htype, hcmd⟩
  have hmessage : commandType (UInt32.ofNat value) = MCSType.message.code := by
    simpa [typeDec] using commandType_typeDec (t := .message) rfl hsmall
  have hnumber : (commandNumber (UInt32.ofNat value)).toNat = value := by
    simpa [typeDec] using commandNumber_typeDec (t := .message) rfl hsmall
  rw [mcsCommand_of_message (htype.trans hmessage), hcmd, hnumber]

end PacketOf

/-! ## Command sets -/

/-- `mcs_command` tells the commands of a list apart. -/
structure Identifies (t : MCSTables) (commands : List MCSGEnum) : Prop where
  recovers : ∀ e ∈ commands, ∀ pkt, PacketOf t e.value pkt → (mcsCommand pkt).toNat = e.value
  injective : ∀ e ∈ commands, ∀ e' ∈ commands, ∀ pkt pkt', PacketOf t e.value pkt →
    PacketOf t e'.value pkt' → mcsCommand pkt = mcsCommand pkt' → e.value = e'.value
  /-- a test for one command succeeds for its packets only -/
  tests : ∀ handshake ∈ commands, ∀ e ∈ commands, ∀ pkt, PacketOf t e.value pkt →
    (mcsCommand pkt).toNat = handshake.value → e.value = handshake.value

/-- One of the first 65536 messages of a configuration. -/
def NumberedMessage (cmds : List CJSON) (e : MCSGEnum) : Prop :=
  ∃ i c name, cmds[i]? = some c ∧ c.typeField = some (typeName .message) ∧
    e = enumerator (cmds.take i) .message name ∧ (ofType .message (cmds.take i)).length < 65536

theorem Numbered.value_lt_iff {cmds : List CJSON} {enums : List MCSGEnum}
    (h : Numbered cmds enums) {e : MCSGEnum} (he : e ∈ enums) :
    e.value < 65536 ↔ NumberedMessage cmds e := by
  rcases List.getElem?_of_mem he with ⟨i, hi⟩
  have hlt : i < cmds.length := by
    rw [← h.length]
    exact (List.getElem?_eq_some_iff.1 hi).1
  rcases h.entry i cmds[i] (List.getElem?_eq_getElem hlt) with ⟨t, name, ht, htype, _, hentry⟩
  have heq : e = enumerator (cmds.take i) t name := Option.some.inj (hi.symm.trans hentry)
  constructor
  · intro hsmall
    -- the values of the other types start at 65536
    have hmessage : t = .message := by
      rw [heq] at hsmall
      cases t with
      | message => rfl
      | state => simp [enumerator, typeDec] at hsmall
      | payload =>
          simp only [enumerator, typeDec] at hsmall
          omega
      | ok => cases ht
      | okData => cases ht
      | err => cases ht
    subst hmessage
    refine ⟨i, cmds[i], name, List.getElem?_eq_getElem hlt, htype, heq, ?_⟩
    rw [heq] at hsmall
    simpa [enumerator, typeDec] using hsmall
  · rintro ⟨j, c, name', _, _, rfl, hrank⟩
    simpa [enumerator, typeDec] using hrank

theorem identifies_of_values {t : MCSTables} {commands : List MCSGEnum}
    (h : ∀ e ∈ commands, e.value < 65536) : Identifies t commands where
  recovers := fun e he _ hpkt => hpkt.mcsCommand_eq (h e he)
  injective := by
    intro e he e' he' pkt pkt' hpkt hpkt' hsame
    calc e.value = (mcsCommand pkt).toNat := (hpkt.mcsCommand_eq (h e he)).symm
      _ = (mcsCommand pkt').toNat := by rw [hsame]
      _ = e'.value := hpkt'.mcsCommand_eq (h e' he')
  tests := by
    intro handshake _ e he pkt hpkt htest
    exact (hpkt.mcsCommand_eq (h e he)).symm.trans htest

/-- For the commands that the generator has numbered and for which a packet can be made, the
identity of a command comes back exactly if it is a message. -/
theorem identifies_iff (malloc : Malloc) (json : CJSON) (cmds : List CJSON)
    (hjson : Configuration json cmds)
    (hcmds : ∀ c ∈ cmds, ∃ t name, t.isCommand = true ∧ c.typeField = some (typeName t) ∧
      c.nameField = some name)
    (hne : cmds ≠ []) :
    ∃ l enums, mcsgCommandsReader malloc json = some l ∧
      l.enumCells.walk l.read l.enums = some enums ∧ Numbered cmds enums ∧
      ∀ (t : MCSTables) (commands : List MCSGEnum), (∀ e ∈ commands, e ∈ enums) →
        (∀ e ∈ commands, ∃ random args data,
          (mcsCreatePacket t random (UInt32.ofNat e.value) args data).isSome = true) →
        (Identifies t commands ↔ ∀ e ∈ commands, NumberedMessage cmds e) := by
  rcases hjson.reads malloc hne hcmds with ⟨l, b, es, hread, h⟩
  refine ⟨l, es.map Prod.snd, hread, h.walk_enums hne, h.numbered, ?_⟩
  intro t commands hmem hcreate
  constructor
  · intro hid e he
    rcases hcreate e he with ⟨random, args, data, hsome⟩
    rcases Option.isSome_iff_exists.1 hsome with ⟨pkt, hpkt⟩
    have hvalue := hid.recovers e he pkt (.created random args data pkt hpkt)
    refine (h.numbered.value_lt_iff (hmem e he)).1 ?_
    rw [← hvalue]
    exact mcsCommand_lt pkt
  · intro hall
    exact identifies_of_values fun e he => (h.numbered.value_lt_iff (hmem e he)).2 (hall e he)

/-- The first command of `shortCommands`, a message. -/
def firstMessage : MCSGEnum := enumerator [] .message (CString.ofBuffer [97])

/-- The last command of `shortCommands`, a state. -/
def lastState : MCSGEnum := enumerator (shortCommands.take 3) .state (CString.ofBuffer [100])

theorem identifies_firstMessage :
    ∃ l enums, mcsgCommandsReader ⟨id, Function.injective_id⟩
        (.parseObject none [.parseArray none shortCommands]) = some l ∧
      l.enumCells.walk l.read l.enums = some enums ∧ firstMessage ∈ enums ∧
      Identifies commandSet [firstMessage] := by
  rcases identifies_iff ⟨id, Function.injective_id⟩
    (.parseObject none [.parseArray none shortCommands]) shortCommands ⟨_, _, rfl, rfl⟩
    shortCommands_fields
    (by simp [shortCommands]) with ⟨l, enums, hread, hwalk, hnumbered, hiff⟩
  rcases hnumbered.entry 0 _ rfl with ⟨t, name, ht, htype, hname, hentry⟩
  have htm : t = .message := type_unique ht rfl htype rfl
  have hnm : name = CString.ofBuffer [97] := (Option.some.inj hname).symm
  subst htm hnm
  have hmem : firstMessage ∈ enums := List.mem_of_getElem? hentry
  refine ⟨l, enums, hread, hwalk, hmem, ?_⟩
  refine (hiff commandSet [firstMessage] (by simpa using hmem) ?_).2 ?_
  · intro e he
    rw [List.mem_singleton.1 he]
    exact ⟨0, emptyBlock, emptyBlock, rfl⟩
  · intro e he
    rw [List.mem_singleton.1 he]
    exact ⟨0, _, _, rfl, rfl, rfl, by decide⟩

/-- A packet of the state is taken for message number 4. -/
theorem state_taken_for_message :
    lastState.value = 65536 ∧
      (∃ pkt pkt', PacketOf commandSet lastState.value pkt ∧ PacketOf commandSet 4 pkt' ∧
        mcsCommand pkt = 4 ∧ mcsCommand pkt' = 4) ∧
      ¬ Identifies commandSet [lastState] := by
  have hstate : PacketOf commandSet lastState.value (rawPacket 0 65536 none ⟨[0], by decide⟩
      emptyBlock) := .created 0 ⟨[0], by decide⟩ emptyBlock _ rfl
  have hmessage : PacketOf commandSet 4 (rawPacket 0 4 none emptyBlock emptyBlock) :=
    .created 0 emptyBlock emptyBlock _ rfl
  refine ⟨rfl, ⟨_, _, hstate, hmessage, rfl, rfl⟩, ?_⟩
  intro hid
  have hvalue := hid.recovers lastState (by simp) _ hstate
  exact absurd hvalue (by decide)

end MCSG
end AbsPlatform
