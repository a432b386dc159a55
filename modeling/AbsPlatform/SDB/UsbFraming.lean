import AbsPlatform.Arduino.Assets
import AbsPlatform.MCS.CommandSet
import AbsPlatform.SDB.Usb

/-!
# UsbFraming — the two ends of the USB link

Both programs spread a packet over bytes of which one bit is a marker: a field of seven bits is
doubled, and one is added to it unless it is the last of the packet.  The size of the data has
fourteen bits and takes two fields.

The request path agrees: what `mcs_to_usb` writes `process_packet` reads.  The answer path does not
for data of 128 bytes or more: `to_raw` puts the high part of the size on the marker bit, and
`usb_to_mcs` gives that part twice its weight.
-/

namespace AbsPlatform
namespace SDB

open MCS Arduino

/-! ## Answers -/

/-- The answers the firmware builds. -/
inductive Answer
  | ok
  | error (code : CInt)
  | okData (result : List UInt8)
  deriving DecidableEq

namespace Answer

/-- The constructor of the firmware for it. -/
def packet (stale : USBPacket) (id : CInt) : Answer → USBPacket
  | ok => usbOkPacket stale id
  | error code => usbErrorPacket stale id code
  | okData result => usbOkDataPacket stale id result (BitVec.ofNat 16 result.length)

def data : Answer → List UInt8
  | okData result => result
  | _ => []

/-- What the requester should get. -/
def mcs (id : UInt32) : Answer → MCSPacket
  | ok => mcsOkPacketId id
  | error _ => mcsErrPacketId id ehwfault
  | okData result => mcsOkPacketDataId id result

end Answer

/-- The first byte: `CONTROL`, the kind of answer and the marker. -/
def Answer.head : Answer → UInt8
  | ok => 1
  | okData _ => 3
  | error _ => 5

/-- The size the SDB takes from the header the firmware wrote. -/
theorem usbDataSize_toRaw : ∀ n < 251,
    usbDataSize (uint8 ((BitVec.ofNat 16 n).sshiftRight 7 + 1))
      (uint8 ((BitVec.ofNat 16 n <<< 1) + 1)) = if n < 128 then n else n + 128 := by
  decide +kernel

theorem head_answer (stale : USBPacket) (id : CInt) (a : Answer) :
    (a.packet stale id).head = a.head := by
  cases a with
  | ok =>
      change (USBPacket.mk control Arduino.ok 0 0 0 none 0).head = 1
      decide
  | error code =>
      change (USBPacket.mk control errors 0 0 0 none 0).head = 5
      decide
  | okData result =>
      change (USBPacket.mk control Arduino.okData 0 0 0 none 0).head = 3
      decide

/-- The SDB recognises the kind of every answer. -/
theorem usbResponse_head (id : UInt32) (a : Answer) :
    usbResponse (a.head >>> 1) id a.data = a.mcs id := by
  cases a with
  | ok =>
      have hkind : (1 : UInt8) >>> 1 = sdbUsbOk := by decide
      simp [usbResponse, Answer.head, Answer.mcs, hkind]
  | okData result =>
      have hkind : (3 : UInt8) >>> 1 = sdbUsbOkData := by decide
      have hne : ¬ sdbUsbOkData = sdbUsbOk := by decide
      simp [usbResponse, Answer.head, Answer.mcs, Answer.data, hkind, hne]
  | error code =>
      have hok : ¬ (5 : UInt8) >>> 1 = sdbUsbOk := by decide
      have hdata : ¬ (5 : UInt8) >>> 1 = sdbUsbOkData := by decide
      simp [usbResponse, Answer.head, Answer.mcs, hok, hdata]

theorem packetId_toRaw : ∀ id < 128,
    (uint8 (BitVec.ofNat 16 id <<< 1) >>> 1).toUInt32 = UInt32.ofNat id := by
  decide +kernel

/-- An `int` of the board holds what an `unsigned short` holds. -/
theorem toNat_ofNat_of_lt {n : Nat} (h : n < 2 ^ 16) : (BitVec.ofNat 16 n).toNat = n := by
  rw [BitVec.toNat_ofNat]
  exact Nat.mod_eq_of_lt h

theorem dataBytes?_answer (stale : USBPacket) (id : CInt) (a : Answer)
    (hsize : 6 + a.data.length ≤ sdbUsbDataSize) :
    (a.packet stale id).dataBytes? = some a.data := by
  cases a with
  | ok => rfl
  | error code => rfl
  | okData result =>
      have hsize' : 6 + result.length ≤ 256 := hsize
      exact USBPacket.dataBytes?_eq_some [] (toNat_ofNat_of_lt (by omega))
        (show result.length < 32768 by omega)
        (fun _ => by simp [Answer.packet, usbOkDataPacket, Answer.data])

/-- The bytes of an answer. -/
theorem toRaw_answer (stale : USBPacket) (id : CInt) (a : Answer)
    (hsize : 6 + a.data.length ≤ sdbUsbDataSize) :
    ∃ b1 b2, toRaw (a.packet stale id) =
      some (a.head :: b1 :: b2 :: uint8 ((BitVec.ofNat 16 a.data.length).sshiftRight 7 + 1)
        :: uint8 ((BitVec.ofNat 16 a.data.length <<< 1) + 1)
        :: (a.data ++ [uint8 (id <<< 1)])) := by
  refine ⟨uint8 (((a.packet stale id).cmdArg1 <<< 1) + 1),
    uint8 (((a.packet stale id).cmdArg2 <<< 1) + 1), ?_⟩
  have hdataSize : (a.packet stale id).dataSize = BitVec.ofNat 16 a.data.length := by
    cases a <;> rfl
  have hid : (a.packet stale id).packetId = id := by
    cases a <;> rfl
  simp [toRaw, dataBytes?_answer stale id a hsize, head_answer, hdataSize, hid]

section

variable (b0 b1 b2 : UInt8) {b3 b4 : UInt8} (last : UInt8) {data : List UInt8}

/-- The byte behind the data. -/
theorem getElem?_last (b3 b4 : UInt8) (data : List UInt8) :
    (b0 :: b1 :: b2 :: b3 :: b4 :: (data ++ [last]))[5 + data.length]? = some last := by
  rw [Nat.add_comm]
  simp

/-- The header announces the data that is there. -/
theorem usbToMcs_of_size (hsize : usbDataSize b3 b4 = data.length) :
    usbToMcs (b0 :: b1 :: b2 :: b3 :: b4 :: (data ++ [last])) =
      some (some (usbResponse (b0 >>> 1) (last >>> 1).toUInt32 data)) := by
  simp [usbToMcs, hsize, getElem?_last]

/-- The header announces other data. -/
theorem usbToMcs_of_size_ne (hpos : 0 < usbDataSize b3 b4)
    (hsize : usbDataSize b3 b4 ≠ data.length) :
    usbToMcs (b0 :: b1 :: b2 :: b3 :: b4 :: (data ++ [last])) = some none := by
  have hne : ¬ data.length = usbDataSize b3 b4 := fun h => hsize h.symm
  simp [usbToMcs, hpos, hne]

end

/-- The answer of the board reaches the requester unless it has 128 bytes of data or more. -/
theorem usbToMcs_toRaw_iff (stale : USBPacket) (a : Answer) (id : Nat) (hid : id < 128)
    (hsize : 6 + a.data.length ≤ sdbUsbDataSize) :
    (toRaw (a.packet stale (BitVec.ofNat 16 id))).bind usbToMcs =
      some (some (a.mcs (UInt32.ofNat id))) ↔ a.data.length < 128 := by
  have hlen : a.data.length < 251 := by
    have hsize' : 6 + a.data.length ≤ 256 := hsize
    omega
  have hdecoded := usbDataSize_toRaw a.data.length hlen
  rcases toRaw_answer stale (BitVec.ofNat 16 id) a hsize with ⟨b1, b2, hraw⟩
  rw [hraw, Option.bind_some]
  by_cases hshort : a.data.length < 128
  · rw [if_pos hshort] at hdecoded
    rw [usbToMcs_of_size _ _ _ _ hdecoded, packetId_toRaw id hid, usbResponse_head]
    simp [hshort]
  · -- the high part of the size is counted twice
    rw [if_neg hshort] at hdecoded
    rw [usbToMcs_of_size_ne _ _ _ _ (by omega) (by omega)]
    simp [hshort]

/-- A block of the board with nothing in it. -/
def blankPacket : USBPacket := ⟨0, 0, 0, 0, 0, none, 0⟩

theorem answer_of_one_byte_arrives :
    (toRaw ((Answer.okData [7]).packet blankPacket (BitVec.ofNat 16 3))).bind usbToMcs =
      some (some ((Answer.okData [7]).mcs (UInt32.ofNat 3))) :=
  (usbToMcs_toRaw_iff blankPacket (.okData [7]) 3 (by decide) (by decide)).2 (by decide)

/-- An answer with 128 bytes of data fits in a packet, and the SDB drops it. -/
theorem answer_of_128_bytes_lost :
    6 + (Answer.okData (List.replicate 128 0)).data.length ≤ sdbUsbDataSize ∧
    (toRaw ((Answer.okData (List.replicate 128 0)).packet blankPacket (BitVec.ofNat 16 3))).bind
      usbToMcs = some none := by
  decide +kernel

/-! ## Requests -/

theorem command_usbHead : ∀ command < 8, ∀ parameters < 16,
    (cint (usbHead (UInt8.ofNat command) (UInt8.ofNat parameters)) >>> 5) &&& 0x07 =
      BitVec.ofNat 16 command := by
  decide +kernel

theorem parameters_usbHead : ∀ command < 8, ∀ parameters < 16,
    (cint (usbHead (UInt8.ofNat command) (UInt8.ofNat parameters)) >>> 1) &&& 0x0F =
      BitVec.ofNat 16 parameters := by
  decide +kernel

/-- Seven bits of an argument arrive. -/
theorem cint_usbArgument : ∀ arg < 256,
    cint (usbArgument (UInt8.ofNat arg)) >>> 1 = BitVec.ofNat 16 (arg % 128) := by
  decide +kernel

theorem decodedSize_usbSize : ∀ n < 251,
    decodedSize (usbSizeHigh (UInt16.ofNat n)) (usbSizeLow (UInt16.ofNat n)) =
      BitVec.ofNat 16 n := by
  decide +kernel

theorem packetId_usbPacket : ∀ id < 128,
    cint (UInt32.ofNat id <<< 1).toUInt8 >>> 1 = BitVec.ofNat 16 id := by
  decide +kernel

theorem argBytes_eq_nil {packet : MCSPacket} (h : packet.nargs = 0) : packet.argBytes = [] := by
  cases hargs : packet.args with
  | none => simp [MCSPacket.argBytes, hargs]
  | some bs =>
      have hbs : bs.length = 0 := by simpa [h] using packet.args_len bs hargs
      simpa [MCSPacket.argBytes, hargs] using hbs

theorem dataBytes_eq_nil {packet : MCSPacket} (h : packet.dataSize = 0) :
    packet.dataBytes = [] := by
  cases hdata : packet.data with
  | none => simp [MCSPacket.dataBytes, hdata]
  | some bs =>
      have hbs : bs.length = 0 := by simpa [h] using packet.data_len bs hdata
      simpa [MCSPacket.dataBytes, hdata] using hbs

/-- Counted arguments are sent one by one, and those that are not there as zero. -/
theorem usbArguments_iff {packet : MCSPacket} {args : UInt8 × UInt8} :
    usbArguments packet = some args ↔
      (packet.nargs ≠ 0 → packet.args.isSome = true) ∧
        (usbArgument (packet.argBytes.getD 0 0), usbArgument (packet.argBytes.getD 1 0)) =
          args := by
  have hzero : usbArgument 0 = 1 := by decide
  unfold usbArguments
  by_cases h0 : packet.nargs = 0
  · simp [h0, argBytes_eq_nil h0, hzero]
  · cases hargs : packet.args with
    | none => simp [h0]
    | some bs =>
        by_cases h1 : packet.nargs = 1
        · have hbs : bs.length = 1 := by simpa [h1] using packet.args_len bs hargs
          have hnone : bs[1]? = none := List.getElem?_eq_none (by omega)
          simp [h1, MCSPacket.argBytes, hargs, hnone, hzero]
        · simp [h0, h1, MCSPacket.argBytes, hargs]

theorem usbData_iff {packet : MCSPacket} {data : List UInt8} :
    usbData packet = some data ↔
      (packet.dataSize ≠ 0 → packet.data.isSome = true) ∧ packet.dataBytes = data := by
  unfold usbData
  by_cases h0 : packet.dataSize = 0
  · simp [h0, dataBytes_eq_nil h0]
  · cases hdata : packet.data with
    | none => simp [h0]
    | some bs => simp [h0, MCSPacket.dataBytes, hdata]

/-- The bytes of a request. -/
theorem usbPacket_iff {entry : MCSCommandOptionsPayload} {packet : MCSPacket} {b : List UInt8} :
    usbPacket entry packet = some b ↔
      (packet.nargs ≠ 0 → packet.args.isSome = true) ∧
        (packet.dataSize ≠ 0 → packet.data.isSome = true) ∧
        b = usbHead entry.command entry.parameters
          :: usbArgument (packet.argBytes.getD 0 0) :: usbArgument (packet.argBytes.getD 1 0)
          :: usbSizeHigh packet.dataSize :: usbSizeLow packet.dataSize
          :: (packet.dataBytes ++ [(packet.id <<< 1).toUInt8]) := by
  unfold usbPacket
  constructor
  · intro h
    split at h
    case h_1 args data hargs hdata =>
      rcases usbArguments_iff.1 hargs with ⟨hsomeArgs, rfl⟩
      rcases usbData_iff.1 hdata with ⟨hsomeData, rfl⟩
      exact ⟨hsomeArgs, hsomeData, by simpa using (Option.some.inj h).symm⟩
    case h_2 => cases h
  · rintro ⟨hargs, hdata, rfl⟩
    rw [usbArguments_iff.2 ⟨hargs, rfl⟩, usbData_iff.2 ⟨hdata, rfl⟩]
    simp

/-- The packets `mcs_to_usb` accepts. -/
theorem mcsToUsb_iff {t : MCSTables} {packet : MCSPacket} {b : List UInt8} :
    mcsToUsb t packet = some (.bytes b) ↔
      packet.type = MCSType.payload.code ∧ packet.dataSize.toNat + 6 ≤ sdbUsbDataSize ∧
        packet.id ≤ 0x7F ∧ packet.nargs ≤ 2 ∧
        ∃ entry, t.payloads[packet.cmd.toNat]? = some entry ∧ usbPacket entry packet = some b := by
  unfold mcsToUsb
  by_cases htype : packet.type = MCSType.payload.code
  · cases hentry : t.payloads[packet.cmd.toNat]? with
    | none => simp [htype]
    | some entry =>
        simp only [htype, if_true]
        split_ifs with hsize hid hnargs
        · simp [hsize]
        · simp [hid]
        · simp [hnargs]
        · have hsize' : packet.dataSize.toNat + 6 ≤ sdbUsbDataSize := by omega
          simp [hsize', UInt32.not_lt.1 hid, UInt16.not_lt.1 hnargs]
  · simp [htype]

theorem length_dataBytes {packet : MCSPacket}
    (h : packet.dataSize ≠ 0 → packet.data.isSome = true) :
    packet.dataBytes.length = packet.dataSize.toNat := by
  by_cases h0 : packet.dataSize = 0
  · simp [dataBytes_eq_nil h0, h0]
  · rcases Option.isSome_iff_exists.1 (h h0) with ⟨bs, hbs⟩
    simpa [MCSPacket.dataBytes, hbs] using packet.data_len bs hbs

/-- `process_packet` on a packet whose size field is the size of its data. -/
theorem processPacket_of_size (stale : USBPacket) (b0 b1 b2 last : UInt8) {b3 b4 : UInt8}
    {data : List UInt8} (hsize : (decodedSize b3 b4).toNat = data.length) :
    processPacket stale (b0 :: b1 :: b2 :: b3 :: b4 :: (data ++ [last])) =
      some
        { command := (cint b0 >>> 5) &&& 0x07
          parameters := (cint b0 >>> 1) &&& 0x0F
          cmdArg1 := cint b1 >>> 1
          cmdArg2 := cint b2 >>> 1
          dataSize := decodedSize b3 b4
          data := if 0 < (decodedSize b3 b4).toInt then some (data ++ [last]) else stale.data
          packetId := cint last >>> 1 } := by
  simp [processPacket, hsize, getElem?_last]

/-- The request the firmware goes on with: the arguments are cut to seven bits. -/
def decodedRequest (stale : USBPacket) (entry : MCSCommandOptionsPayload) (packet : MCSPacket) :
    USBPacket where
  command := BitVec.ofNat 16 entry.command.toNat
  parameters := BitVec.ofNat 16 entry.parameters.toNat
  cmdArg1 := BitVec.ofNat 16 ((packet.argBytes.getD 0 0).toNat % 128)
  cmdArg2 := BitVec.ofNat 16 ((packet.argBytes.getD 1 0).toNat % 128)
  dataSize := BitVec.ofNat 16 packet.dataSize.toNat
  data :=
    if 0 < packet.dataSize.toNat then some (packet.dataBytes ++ [(packet.id <<< 1).toUInt8])
    else stale.data
  packetId := BitVec.ofNat 16 packet.id.toNat

theorem toNat_command_decodedRequest (stale : USBPacket) (entry : MCSCommandOptionsPayload)
    (packet : MCSPacket) :
    (decodedRequest stale entry packet).command.toNat = entry.command.toNat :=
  toNat_ofNat_of_lt (entry.command.toNat_lt.trans (by decide))

theorem toNat_parameters_decodedRequest (stale : USBPacket) (entry : MCSCommandOptionsPayload)
    (packet : MCSPacket) :
    (decodedRequest stale entry packet).parameters.toNat = entry.parameters.toNat :=
  toNat_ofNat_of_lt (entry.parameters.toNat_lt.trans (by decide))

theorem toNat_arg_decodedRequest (stale : USBPacket) (entry : MCSCommandOptionsPayload)
    (packet : MCSPacket) (k : Fin 2) :
    ((decodedRequest stale entry packet).arg k).toNat =
      (packet.argBytes.getD k.val 0).toNat % 128 := by
  have hlt : (packet.argBytes.getD k.val 0).toNat % 128 < 2 ^ 16 :=
    (Nat.mod_lt _ (by decide)).trans (by decide)
  match k with
  | 0 => exact toNat_ofNat_of_lt hlt
  | 1 => exact toNat_ofNat_of_lt hlt

theorem toNat_dataSize_decodedRequest (stale : USBPacket) (entry : MCSCommandOptionsPayload)
    (packet : MCSPacket) :
    (decodedRequest stale entry packet).dataSize.toNat = packet.dataSize.toNat :=
  toNat_ofNat_of_lt packet.dataSize.toNat_lt

theorem dataBytes?_decodedRequest (stale : USBPacket) (entry : MCSCommandOptionsPayload)
    {packet : MCSPacket} (hdata : packet.dataSize ≠ 0 → packet.data.isSome = true)
    (hsize : packet.dataSize.toNat + 6 ≤ sdbUsbDataSize) :
    (decodedRequest stale entry packet).dataBytes? = some packet.dataBytes := by
  have hlen := length_dataBytes hdata
  have hsize' : packet.dataSize.toNat + 6 ≤ 256 := hsize
  refine USBPacket.dataBytes?_eq_some [(packet.id <<< 1).toUInt8]
    ((toNat_dataSize_decodedRequest stale entry packet).trans hlen.symm) (by omega) ?_
  intro hne
  have hpos : 0 < packet.dataSize.toNat := by
    rw [← hlen]
    exact List.length_pos_iff.2 hne
  simp [decodedRequest, hpos]

/-- The firmware decodes the bytes of a request. -/
theorem processPacket_usbPacket (stale : USBPacket) {entry : MCSCommandOptionsPayload}
    {packet : MCSPacket} {b : List UInt8} (hcommand : entry.command < 8)
    (hparameters : entry.parameters < 16) (hsize : packet.dataSize.toNat + 6 ≤ sdbUsbDataSize)
    (hid : packet.id ≤ 0x7F) (hb : usbPacket entry packet = some b) :
    processPacket stale b = some (decodedRequest stale entry packet) := by
  rcases usbPacket_iff.1 hb with ⟨_, hdata, rfl⟩
  have hlt : packet.dataSize.toNat < 251 := by
    have hsize' : packet.dataSize.toNat + 6 ≤ 256 := hsize
    omega
  -- the five header bytes and the last one, each by its own table
  have hcmd := command_usbHead entry.command.toNat hcommand entry.parameters.toNat hparameters
  have hpar := parameters_usbHead entry.command.toNat hcommand entry.parameters.toNat hparameters
  have harg := fun k => cint_usbArgument _ (packet.argBytes.getD k 0).toNat_lt
  have hdec := decodedSize_usbSize _ hlt
  have hlast := packetId_usbPacket packet.id.toNat (Nat.lt_succ_of_le hid)
  simp only [UInt8.ofNat_toNat] at hcmd hpar harg
  simp only [UInt16.ofNat_toNat] at hdec
  simp only [UInt32.ofNat_toNat] at hlast
  have hnat : (BitVec.ofNat 16 packet.dataSize.toNat).toNat = packet.dataSize.toNat := by
    simp
  have hint : (BitVec.ofNat 16 packet.dataSize.toNat).toInt = packet.dataSize.toNat := by
    rw [BitVec.toInt_eq_toNat_of_lt (by omega), hnat]
  rw [processPacket_of_size]
  · simp only [hcmd, hpar, harg, hdec, hlast, hint, Int.natCast_pos, decodedRequest]
  · rw [hdec, hnat, length_dataBytes hdata]

/-- A request that `mcs_to_usb` accepts is the request the firmware decodes. -/
theorem processPacket_mcsToUsb (t : MCSTables)
    (ht : ∀ e ∈ t.payloads, e.command < 8 ∧ e.parameters < 16) (packet : MCSPacket)
    (stale : USBPacket) :
    ((∃ b, mcsToUsb t packet = some (.bytes b)) ↔
      packet.type = MCSType.payload.code ∧ packet.cmd.toNat < t.payloads.length ∧
        packet.id ≤ 0x7F ∧ packet.nargs ≤ 2 ∧ packet.dataSize.toNat + 6 ≤ sdbUsbDataSize ∧
        (packet.nargs ≠ 0 → packet.args.isSome = true) ∧
        (packet.dataSize ≠ 0 → packet.data.isSome = true)) ∧
    ∀ b, mcsToUsb t packet = some (.bytes b) →
      ∃ e q, t.payloads[packet.cmd.toNat]? = some e ∧ processPacket stale b = some q ∧
        q.command.toNat = e.command.toNat ∧ q.parameters.toNat = e.parameters.toNat ∧
        q.dataSize.toNat = packet.dataSize.toNat ∧ q.dataBytes? = some packet.dataBytes ∧
        q.packetId.toNat = packet.id.toNat ∧ 5 + q.dataSize.toNat + 1 = b.length ∧
        ∀ k : Fin 2,
          (∀ a, packet.argBytes[k.val]? = some a → a < 128 → (q.arg k).toNat = a.toNat) ∧
          (packet.argBytes[k.val]? = none → (q.arg k).toNat = 0) := by
  constructor
  · constructor
    · rintro ⟨b, hb⟩
      rcases mcsToUsb_iff.1 hb with ⟨htype, hsize, hid, hnargs, entry, hentry, hpkt⟩
      rcases usbPacket_iff.1 hpkt with ⟨hargs, hdata, _⟩
      exact ⟨htype, (List.getElem?_eq_some_iff.1 hentry).1, hid, hnargs, hsize, hargs, hdata⟩
    · rintro ⟨htype, hcmd, hid, hnargs, hsize, hargs, hdata⟩
      exact ⟨_, mcsToUsb_iff.2 ⟨htype, hsize, hid, hnargs, _, List.getElem?_eq_getElem hcmd,
        usbPacket_iff.2 ⟨hargs, hdata, rfl⟩⟩⟩
  · intro b hb
    rcases mcsToUsb_iff.1 hb with ⟨_, hsize, hid, _, entry, hentry, hpkt⟩
    rcases ht entry (List.mem_of_getElem? hentry) with ⟨hcommand, hparameters⟩
    have hdec := processPacket_usbPacket stale hcommand hparameters hsize hid hpkt
    rcases usbPacket_iff.1 hpkt with ⟨hargs, hdata, rfl⟩
    refine ⟨entry, decodedRequest stale entry packet, hentry, hdec,
      toNat_command_decodedRequest stale entry packet,
      toNat_parameters_decodedRequest stale entry packet,
      toNat_dataSize_decodedRequest stale entry packet,
      dataBytes?_decodedRequest stale entry hdata hsize, ?_, ?_, ?_⟩
    · exact toNat_ofNat_of_lt (Nat.lt_of_le_of_lt hid (by decide))
    · rw [toNat_dataSize_decodedRequest]
      simp only [List.length_cons, List.length_append, List.length_nil, length_dataBytes hdata]
      omega
    · intro k
      constructor
      · intro a ha hlt
        rw [toNat_arg_decodedRequest, List.getD_eq_getElem?_getD, ha]
        exact Nat.mod_eq_of_lt hlt
      · intro hnone
        rw [toNat_arg_decodedRequest, List.getD_eq_getElem?_getD, hnone]
        rfl

/-- A request for pin 5. -/
def pinRequest : MCSPacket where
  id := 9
  type := MCSType.payload.code
  cmd := 0
  nargs := 1
  args := some [5]
  dest := none
  dataSize := 0
  data := none
  args_len := by simp
  data_len := null_length

theorem pinRequest_decoded :
    ∃ b q, mcsToUsb commandSet pinRequest = some (.bytes b) ∧
      processPacket blankPacket b = some q ∧ (q.arg 0).toNat = 5 := by
  have hboth := processPacket_mcsToUsb commandSet (by decide) pinRequest blankPacket
  rcases hboth.1.2 (by decide) with ⟨b, hb⟩
  rcases hboth.2 b hb with ⟨_, q, _, hq, _, _, _, _, _, _, hargs⟩
  exact ⟨b, q, hb, hq, (hargs 0).1 5 rfl (by decide)⟩

end SDB
end AbsPlatform
