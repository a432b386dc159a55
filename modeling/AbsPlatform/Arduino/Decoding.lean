import AbsPlatform.Arduino.Execute

/-!
# Decoding — which bytes the decoder reads

`loop` hands `process_packet` the buffer of a message without its length, and the decoder follows
the size that it finds in the message.  For `EVENT` and `CONF`, `execute_packet` calls the decoder
once more, for the data of the packet.

The bytes from the start of the buffer on are a function: those that were received, and behind them
what was in the memory before.  The decoder has no path that refuses a message.
-/

namespace AbsPlatform
namespace Arduino

/-! ## Bytes that are read -/

/-- `MAX_PACKET_SIZE`. -/
def maxPacketSize : Nat := 2 * 1024

/-- The bytes of the buffer that were received. -/
def received (mem : Nat → UInt8) (len : Nat) : List UInt8 := (List.range len).map mem

/-- `data_size` of the packet that begins here. -/
def announcedSize (mem : Nat → UInt8) : Nat := (decodedSize (mem 3) (mem 4)).toNat

/-- The indices of `msg` in `process_packet`, in its order. -/
def packetReads (mem : Nat → UInt8) : List Nat := [0, 0, 1, 2, 4, 3, 5 + announcedSize mem]

/-- The packet that is made of the bytes. -/
def decodedPacket (stale : USBPacket) (mem : Nat → UInt8) (len : Nat) : USBPacket where
  command := (cint (mem 0) >>> 5) &&& 0x07
  parameters := (cint (mem 0) >>> 1) &&& 0x0F
  cmdArg1 := cint (mem 1) >>> 1
  cmdArg2 := cint (mem 2) >>> 1
  dataSize := decodedSize (mem 3) (mem 4)
  data :=
    if 0 < (decodedSize (mem 3) (mem 4)).toInt then some ((received mem len).drop 5)
    else stale.data
  packetId := cint (mem (5 + announcedSize mem)) >>> 1

/-- `execute_packet` decodes the data of this packet. -/
structure DecodesAction (packet : USBPacket) : Prop where
  command : Command.ofInt? packet.command = some .event
  parameters : ParametersEvents.ofInt? packet.parameters = some .conf
  size : 0 < packet.dataSize.toInt

/-- The decoder reads received bytes only, and the packet that it returns ends in them; the decoder
of an action reads the data of the packet only. -/
def DecodesInside (stale : USBPacket) (mem : Nat → UInt8) (len : Nat) : Prop :=
  (∀ i ∈ packetReads mem, i < len) ∧
    ∃ packet, processPacket stale (received mem len) = some packet ∧
      packet.dataSize.toNat + 6 ≤ len ∧
      (DecodesAction packet →
        ∀ i ∈ packetReads (fun i => mem (5 + i)), i < packet.dataSize.toNat)

section

variable {stale packet : USBPacket} {mem : Nat → UInt8} {len : Nat}

theorem getElem?_received (mem : Nat → UInt8) {len i : Nat} (hi : i < len) :
    (received mem len)[i]? = some (mem i) := by
  simp [received, hi]

/-- The last byte of a packet is behind all the others. -/
theorem packetReads_lt_iff : (∀ i ∈ packetReads mem, i < len) ↔ 6 + announcedSize mem ≤ len := by
  simp only [packetReads, List.forall_mem_cons, List.not_mem_nil, false_imp_iff, implies_true,
    and_true]
  omega

/-- What the decoder returns when all the bytes are there. -/
theorem processPacket_received (hlen : 6 + announcedSize mem ≤ len) :
    processPacket stale (received mem len) = some (decodedPacket stale mem len) := by
  have hread : ∀ i < 6 + announcedSize mem, (received mem len)[i]? = some (mem i) :=
    fun i hi => getElem?_received mem (by omega)
  have hlast := hread (5 + announcedSize mem) (by omega)
  unfold announcedSize at hlast
  simp only [processPacket, hread 0 (by omega), hread 1 (by omega), hread 2 (by omega),
    hread 3 (by omega), hread 4 (by omega), Option.bind_eq_bind, Option.bind_some, hlast,
    Option.pure_def, announcedSize, decodedPacket]

/-- A message is decoded without a fault exactly if all the bytes that are read were received. -/
theorem isSome_processPacket_received_iff :
    (processPacket stale (received mem len)).isSome = true ↔ ∀ i ∈ packetReads mem, i < len := by
  rw [packetReads_lt_iff]
  constructor
  · intro h
    rcases (isSome_processPacket_iff stale).1 h with ⟨b3, b4, h3, h4, hlt⟩
    have hlen : (received mem len).length = len := by simp [received]
    rw [hlen] at hlt
    rw [getElem?_received mem (by omega), Option.some.injEq] at h3 h4
    rw [announcedSize, h3, h4]
    omega
  · intro h
    rw [processPacket_received h]
    rfl

/-! ## Events -/

/-- The first byte of a request for a new event. -/
theorem event_conf_iff (b : UInt8) :
    Command.ofInt? ((cint b >>> 5) &&& 0x07) = some .event ∧
      ParametersEvents.ofInt? ((cint b >>> 1) &&& 0x0F) = some .conf ↔ b >>> 1 = 48 := by
  have hall : ∀ n : Fin 256,
      Command.ofInt? ((cint (UInt8.ofNat n) >>> 5) &&& 0x07) = some .event ∧
        ParametersEvents.ofInt? ((cint (UInt8.ofNat n) >>> 1) &&& 0x0F) = some .conf ↔
      UInt8.ofNat n >>> 1 = 48 := by
    decide +kernel
  simpa using hall ⟨b.toNat, b.toNat_lt⟩

theorem toInt_decodedSize_pos_iff (b3 b4 : UInt8) :
    0 < (decodedSize b3 b4).toInt ↔ 0 < (decodedSize b3 b4).toNat := by
  have hlt := toNat_decodedSize_lt b3 b4
  rw [BitVec.toInt_eq_toNat_of_lt (by omega)]
  omega

/-- The two fields of the first byte and the size of the data decide whether there is an action. -/
theorem decodesAction_iff :
    DecodesAction (decodedPacket stale mem len) ↔ mem 0 >>> 1 = 48 ∧ 0 < announcedSize mem := by
  rw [← event_conf_iff, announcedSize, ← toInt_decodedSize_pos_iff]
  constructor
  · intro h
    exact ⟨⟨h.command, h.parameters⟩, h.size⟩
  · rintro ⟨⟨hcommand, hparameters⟩, hsize⟩
    exact ⟨hcommand, hparameters, hsize⟩

/-- Decoding stays inside exactly if the packet ends in what was received and, for a new event, the
packet in its data ends in the data. -/
theorem decodesInside_iff (stale : USBPacket) (mem : Nat → UInt8) (len : Nat) :
    DecodesInside stale mem len ↔
      6 + announcedSize mem ≤ len ∧
        (mem 0 >>> 1 = 48 ∧ 0 < announcedSize mem →
          6 + announcedSize (fun i => mem (5 + i)) ≤ announcedSize mem) := by
  simp only [DecodesInside, packetReads_lt_iff]
  refine and_congr_right fun hlen => ?_
  simp only [processPacket_received hlen, Option.some.injEq, exists_eq_left', decodesAction_iff]
  have hsize : (decodedPacket stale mem len).dataSize.toNat = announcedSize mem := rfl
  rw [hsize]
  exact and_iff_right (by omega)

end

/-- These bytes, and zeros behind them. -/
def zerosBehind (bytes : List UInt8) : Nat → UInt8 := fun i => bytes.getD i 0

/-- A message of one byte is decoded from bytes that were not received; a message of six bytes
that announces 100 bytes of data is decoded from the rest of the buffer; and for an event with one
byte of data the action is decoded from what comes behind the data. -/
theorem decodes_outside :
    (¬ DecodesInside zeroPacket (zerosBehind [35]) 1 ∧
      (processPacket zeroPacket (received (zerosBehind [35]) maxPacketSize)).isSome = true) ∧
    (¬ DecodesInside zeroPacket (zerosBehind [35, 11, 3, 1, 201, 18]) 6 ∧
      105 ∈ packetReads (zerosBehind [35, 11, 3, 1, 201, 18])) ∧
    ¬ DecodesInside zeroPacket (zerosBehind [97, 3, 1, 1, 3, 35, 18]) 7 := by
  refine ⟨⟨fun h => ?_, ?_⟩, ⟨fun h => ?_, by decide⟩, ?_⟩
  · exact absurd (h.1 4 (by decide)) (by decide)
  · exact isSome_processPacket_received_iff.2 (by decide)
  · exact absurd (h.1 105 (by decide)) (by decide)
  · rintro ⟨_, packet, hpacket, _, hnested⟩
    have hdecoded : processPacket zeroPacket (received (zerosBehind [97, 3, 1, 1, 3, 35, 18]) 7) =
        some ⟨3, 0, 1, 0, 1, some [35, 18], 9⟩ := rfl
    cases Option.some.inj (hdecoded.symm.trans hpacket)
    exact absurd (hnested ⟨rfl, rfl, by decide⟩ 4 (by decide)) (by decide)

end Arduino
end AbsPlatform
