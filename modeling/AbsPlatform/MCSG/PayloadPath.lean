import AbsPlatform.MCSG.Numbering
import AbsPlatform.SDB.UsbFraming

/-!
# PayloadPath — a payload command from the configuration to the firmware

The command and the parameters of a payload are bit strings in the configuration.  The generator
prints the number value of these members, the table goes into the packets of `mcs_to_usb`, and the
firmware decodes them.  A string has no number value, so what arrives is zero.
-/

namespace AbsPlatform
namespace MCSG

open MCS SDB Arduino

/-! ## Configuration -/

/-- A string of the digits 0 and 1. -/
def bitString (bits : List Bool) : CString where
  bytes := bits.map fun b => if b then 49 else 48
  noNul := by
    intro c hc
    rcases List.mem_map.1 hc with ⟨b, _, rfl⟩
    cases b <;> decide

/-- The number the bits stand for, the first one being the highest. -/
def bitsValue (bits : List Bool) : Nat := bits.foldl (fun n b => 2 * n + b.toNat) 0

/-- A payload command of the configuration. -/
structure PayloadConfig where
  name : CString
  /-- `none` for `null`, here and below -/
  description : Option CString
  nargs : Nat
  rawData : Bool
  command : List Bool
  parameters : List Bool
  arguments : CString
  data : Option CString
  responseSize : Int
  commandBits : command.length = 3
  parametersBits : parameters.length = 4
  fewArgs : nargs ≤ 2

/-- The item cJSON makes of it. -/
def PayloadConfig.item (p : PayloadConfig) : CJSON :=
  .parseObject none
    [.parseString none p.name, optionalString p.description, .parseNumber none p.nargs,
      .parseBool none p.rawData, .parseString none (typeName .payload),
      .parseObject none
        [.parseString none (bitString p.command), .parseString none (bitString p.parameters),
          .parseString none p.arguments, optionalString p.data,
          .parseNumber none p.responseSize]]

/-- The entry the generator prints, unless the description makes it follow NULL. -/
theorem mcsgPayloadTranslator_item (p : PayloadConfig) :
    mcsgPayloadTranslator p.item = p.description.map fun _ =>
      { cmd :=
          { name := p.name
            nargs := p.nargs
            rawData := p.rawData
            responseSize := p.responseSize }
        command := 0
        parameters := 0
        arguments := p.arguments
        data := none } := by
  rcases p with ⟨name, description, nargs, rawData, command, parameters, arguments, data,
    responseSize, _, _, _⟩
  -- a string and `null` have no number value, whatever is in them
  cases description <;> cases data <;> cases rawData <;> rfl

/-- The compiled entry. -/
def PayloadConfig.entry (p : PayloadConfig) : MCSCommandOptionsPayload where
  cmd :=
    { nargs := UInt16.ofNat p.nargs, rawData := p.rawData, responseSize := p.responseSize }
  command := 0
  parameters := 0

theorem compile_mcsgPayloadTranslator (p : PayloadConfig) :
    (mcsgPayloadTranslator p.item).map PayloadInit.compile =
      p.description.map fun _ => p.entry := by
  have hfew := p.fewArgs
  have hmod : ((p.nargs : Int) % 2 ^ 16).toNat = p.nargs := by omega
  have hnargs : UInt16.ofInt p.nargs = UInt16.ofNat p.nargs := by rw [UInt16.ofInt, hmod]
  have hzero : UInt8.ofInt 0 = 0 := by decide
  rw [mcsgPayloadTranslator_item, Option.map_map]
  simp [Function.comp_def, PayloadInit.compile, CommonInit.compile, PayloadConfig.entry, hnargs,
    hzero]

/-! ## The path of a request -/

/-- What the firmware decodes when a module asks for a payload command: the packet is created with
the drawn identifier, encoded for USB and processed. -/
def firmwareSees (t : MCSTables) (stale : USBPacket) (random cmd : UInt32) (args data : Block) :
    Option USBPacket :=
  match mcsCreatePacket t random cmd args data with
  | none => none
  | some packet =>
      match mcsToUsb t packet with
      | some (.bytes b) => processPacket stale b
      | _ => none

/-- The packet a module makes for the payload command with number `k`. -/
def payloadPacket (random : UInt32) (k : Nat) (args data : Block) : MCSPacket :=
  rawPacket (random &&& 0x7F) (UInt32.ofNat (typeDec .payload + k)) none args data

section

variable {t : MCSTables} {k : Nat} {entry : MCSCommandOptionsPayload} {args data : Block}

theorem isSome_copy {b : Block} (h : b.size ≠ 0) : b.copy.isSome = true := by
  simp [Block.copy, h]

theorem argBytes_payloadPacket (random : UInt32) (k : Nat) (args data : Block) :
    (payloadPacket random k args data).argBytes = args.bytes :=
  args.copy_getD

theorem type_payloadPacket (hk : k < 65536) (random : UInt32) (args data : Block) :
    (payloadPacket random k args data).type = MCSType.payload.code :=
  commandType_typeDec (t := .payload) rfl hk

theorem cmd_payloadPacket (hk : k < 65536) (random : UInt32) (args data : Block) :
    (payloadPacket random k args data).cmd.toNat = k :=
  commandNumber_typeDec (t := .payload) rfl hk

theorem id_payloadPacket (random : UInt32) (k : Nat) (args data : Block) :
    (payloadPacket random k args data).id ≤ 0x7F := by
  have hand : random.toNat &&& 127 ≤ 127 := Nat.and_le_right
  have hid : (payloadPacket random k args data).id.toNat = random.toNat &&& 127 :=
    UInt32.toNat_and random 127
  exact UInt32.le_iff_toNat_le.2 (hid.trans_le hand)

/-- A command of the table with the arguments and the data the table asks for is accepted. -/
theorem mcsCreatePacket_payload (hk : k < 65536) (hentry : t.payloads[k]? = some entry)
    (random : UInt32) (hargs : entry.cmd.nargs = args.size)
    (hdata : entry.cmd.rawData = true ↔ data.size ≠ 0) :
    mcsCreatePacket t random (UInt32.ofNat (typeDec .payload + k)) args data =
      some (payloadPacket random k args data) := by
  have htype := type_payloadPacket hk random args data
  have hcommon : t.common? .payload (payloadPacket random k args data).cmd = some entry.cmd := by
    rw [MCSTables.common?, cmd_payloadPacket hk, hentry]
    rfl
  have hcheck : checkPacket t (payloadPacket random k args data) = true := by
    refine checkPacket_iff.2 ⟨⟨.payload, htype, ?_⟩, isSome_copy, isSome_copy⟩
    exact checkCommand_iff.2 ⟨entry.cmd, hcommon, hargs, hdata⟩
  unfold mcsCreatePacket
  rw [if_pos (show commandType (UInt32.ofNat (typeDec .payload + k)) = _ from htype)]
  exact if_pos hcheck

/-- The firmware decodes the table's numbers and seven bits of each argument. -/
theorem firmwareSees_payload (hk : k < 65536) (hentry : t.payloads[k]? = some entry)
    (hcommand : entry.command < 8) (hparameters : entry.parameters < 16)
    (hargs : entry.cmd.nargs = args.size) (hfew : args.size ≤ 2)
    (hdata : entry.cmd.rawData = true ↔ data.size ≠ 0)
    (hsize : data.size.toNat + 6 ≤ sdbUsbDataSize) (stale : USBPacket) (random : UInt32) :
    firmwareSees t stale random (UInt32.ofNat (typeDec .payload + k)) args data =
      some (decodedRequest stale entry (payloadPacket random k args data)) := by
  have hid := id_payloadPacket random k args data
  have hb : usbPacket entry (payloadPacket random k args data) = some _ :=
    usbPacket_iff.2 ⟨isSome_copy, isSome_copy, rfl⟩
  have hentry' : t.payloads[(payloadPacket random k args data).cmd.toNat]? = some entry := by
    rw [cmd_payloadPacket hk, hentry]
  have husb := mcsToUsb_iff.2
    ⟨type_payloadPacket hk random args data, hsize, hid, hfew, entry, hentry', hb⟩
  simp only [firmwareSees, mcsCreatePacket_payload hk hentry random hargs hdata, husb]
  exact processPacket_usbPacket stale hcommand hparameters hsize hid hb

/-- What gets to the firmware is in the table and fits in a packet. -/
theorem sendable_of_firmwareSees (hk : k < 65536) {stale q : USBPacket} {random : UInt32}
    (h : firmwareSees t stale random (UInt32.ofNat (typeDec .payload + k)) args data = some q) :
    data.size.toNat + 6 ≤ sdbUsbDataSize ∧ t.payloads[k]? ≠ none := by
  unfold firmwareSees at h
  split at h
  case h_1 => cases h
  case h_2 packet hpacket =>
    rcases Option.ite_none_right_eq_some.1 hpacket with ⟨_, hraw⟩
    have hdataSize : packet.dataSize = data.size :=
      congrArg MCSPacket.dataSize (Option.some.inj hraw).symm
    have hcmd : packet.cmd.toNat = k :=
      (congrArg (fun p => p.cmd.toNat) (Option.some.inj hraw).symm).trans
        (cmd_payloadPacket hk random args data)
    split at h
    case h_1 b husb =>
      rcases mcsToUsb_iff.1 husb with ⟨_, hsize, _, _, entry, hentry, _⟩
      rw [hdataSize] at hsize
      rw [hcmd] at hentry
      exact ⟨hsize, by simp [hentry]⟩
    case h_2 => cases h

end

/-- Seven bits are enough for the arguments exactly when they are below 128. -/
theorem args_mod_iff {args : List UInt8} (hfew : args.length ≤ 2) :
    (∀ i : Fin 2, ∀ a, args[i.val]? = some a → (args[i.val]?.getD 0).toNat % 128 = a.toNat) ↔
      ∀ a ∈ args, a < 128 := by
  constructor
  · intro h a ha
    rcases List.mem_iff_getElem?.1 ha with ⟨i, hi⟩
    have hlt : i < 2 := (List.getElem?_eq_some_iff.1 hi).1.trans_le hfew
    have hmod : a.toNat % 128 = a.toNat := by simpa [hi] using h ⟨i, hlt⟩ a hi
    exact UInt8.lt_iff_toNat_lt.2 (hmod ▸ Nat.mod_lt _ (by decide))
  · intro h i a ha
    have hlt : a < 128 := h a (List.mem_of_getElem? ha)
    rw [ha]
    exact Nat.mod_eq_of_lt (UInt8.lt_iff_toNat_lt.1 hlt)

/-- A payload command keeps its meaning when it has a description, its bits are all zero and its
arguments and its data fit in a packet. -/
theorem firmwareSees_iff (p : PayloadConfig) (t : MCSTables) (k : Nat) (hk : k < 65536)
    (hentry : t.payloads[k]? = (mcsgPayloadTranslator p.item).map PayloadInit.compile)
    (stale : USBPacket) (random : UInt32) (args data : Block)
    (hargs : args.bytes.length = p.nargs) (hdata : p.rawData = true ↔ data.bytes ≠ []) :
    (∃ q, firmwareSees t stale random (UInt32.ofNat (typeDec .payload + k)) args data = some q ∧
      q.command.toNat = bitsValue p.command ∧ q.parameters.toNat = bitsValue p.parameters ∧
      ∀ i : Fin 2, ∀ a, args.bytes[i.val]? = some a → (q.arg i).toNat = a.toNat) ↔
    p.description ≠ none ∧ bitsValue p.command = 0 ∧ bitsValue p.parameters = 0 ∧
      (∀ a ∈ args.bytes, a < 128) ∧ data.bytes.length + 6 ≤ sdbUsbDataSize := by
  rw [compile_mcsgPayloadTranslator] at hentry
  by_cases hsend : p.description ≠ none ∧ data.bytes.length + 6 ≤ sdbUsbDataSize
  · rcases hsend with ⟨hdescription, hsize⟩
    rcases Option.ne_none_iff_exists'.1 hdescription with ⟨_, hsome⟩
    rw [hsome, Option.map_some] at hentry
    have hfew : args.bytes.length ≤ 2 := hargs ▸ p.fewArgs
    have hnargs : p.entry.cmd.nargs = args.size := congrArg UInt16.ofNat hargs.symm
    have hraw : p.entry.cmd.rawData = true ↔ data.size ≠ 0 := by
      rw [ne_eq, Block.size_eq_zero_iff]
      exact hdata
    have hsees := firmwareSees_payload hk hentry (show (0 : UInt8) < 8 by decide)
      (show (0 : UInt8) < 16 by decide) hnargs
      (UInt16.le_iff_toNat_le.2 (by simpa using hfew)) hraw (by simpa using hsize) stale random
    have harg (i : Fin 2) := toNat_arg_decodedRequest stale p.entry
      (payloadPacket random k args data) i
    simp only [argBytes_payloadPacket, List.getD_eq_getElem?_getD] at harg
    have hzero : p.entry.command.toNat = 0 ∧ p.entry.parameters.toNat = 0 := ⟨rfl, rfl⟩
    simp only [hsees, Option.some.injEq, exists_eq_left', toNat_command_decodedRequest,
      toNat_parameters_decodedRequest, harg, hzero, hdescription, hsize, and_true, true_and,
      args_mod_iff hfew, eq_comm (a := 0), ne_eq, not_false_eq_true]
  · -- nothing gets to the firmware
    refine iff_of_false ?_ fun h => hsend ⟨h.1, h.2.2.2.2⟩
    rintro ⟨q, hq, _⟩
    rcases sendable_of_firmwareSees hk hq with ⟨hsize, hknown⟩
    refine hsend ⟨fun hnone => hknown ?_, by simpa using hsize⟩
    rw [hentry, hnone, Option.map_none]

/-- A command whose digits are all 0. -/
def zeroPayload : PayloadConfig where
  name := ⟨[122], by simp⟩
  description := some ⟨[], CString.noNul_nil⟩
  nargs := 1
  rawData := false
  command := [false, false, false]
  parameters := [false, false, false, false]
  arguments := ⟨[], CString.noNul_nil⟩
  data := none
  responseSize := 0
  commandBits := rfl
  parametersBits := rfl
  fewArgs := by decide

def zeroTables : MCSTables := { messages := [], states := [], payloads := [zeroPayload.entry] }

theorem zeroPayload_arrives :
    ∃ q, firmwareSees zeroTables blankPacket 9 (UInt32.ofNat (typeDec .payload + 0))
      ⟨[5], by decide⟩ emptyBlock = some q ∧
      q.command.toNat = 0 ∧ q.parameters.toNat = 0 ∧
      ∀ i : Fin 2, ∀ a, [5][i.val]? = some a → (q.arg i).toNat = UInt8.toNat a :=
  (firmwareSees_iff zeroPayload zeroTables 0 (by decide)
    (compile_mcsgPayloadTranslator zeroPayload).symm blankPacket 9 ⟨[5], by decide⟩ emptyBlock rfl
    (by decide)).2 ⟨by simp [zeroPayload], rfl, rfl, by simp, by decide⟩

/-- `arduino_get_pin` of `mcsg.json`. -/
def arduinoGetPinConfig : PayloadConfig where
  name := ⟨[97, 114, 100, 117, 105, 110, 111, 95, 103, 101, 116, 95, 112, 105, 110], by simp⟩
  description := some
    ⟨[71, 101, 116, 32, 116, 104, 101, 32, 118, 97, 108, 117, 101, 32, 111, 102, 32, 116,
      104, 101, 32, 103, 105, 118, 101, 110, 32, 112, 105, 110, 32, 105, 110, 32, 116, 104,
      101, 32, 65, 114, 100, 117, 105, 110, 111, 32, 98, 111, 97, 114, 100], by simp⟩
  nargs := 1
  rawData := false
  command := [false, false, true]
  parameters := [false, true, true, false]
  arguments := argDestination
  data := none
  responseSize := 1
  commandBits := rfl
  parametersBits := rfl
  fewArgs := by decide

/-- The firmware is asked for command 0 with parameters 0 where the configuration says 1 and 6. -/
theorem arduinoGetPin_arrives_as_zero :
    commandSet.payloads[0]? =
      (mcsgPayloadTranslator arduinoGetPinConfig.item).map PayloadInit.compile ∧
    bitsValue arduinoGetPinConfig.command = 1 ∧ bitsValue arduinoGetPinConfig.parameters = 6 ∧
    ∃ q, firmwareSees commandSet blankPacket 9 (UInt32.ofNat (typeDec .payload + 0))
      ⟨[5], by decide⟩ emptyBlock = some q ∧
      q.command.toNat = 0 ∧ q.parameters.toNat = 0 ∧ (q.arg 0).toNat = 5 := by
  refine ⟨(compile_mcsgPayloadTranslator arduinoGetPinConfig).symm, by decide, by decide, ?_⟩
  exact ⟨_, rfl, by decide⟩

end MCSG
end AbsPlatform
