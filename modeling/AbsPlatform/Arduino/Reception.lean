import AbsPlatform.Arduino.Execute
import AbsPlatform.Arduino.Hdlc

/-!
# Reception — frames and the answers to RECEIVE

What `execute_packet` answers to `RECEIVE` when the FIFO holds a frame: idle pairs, a delimiter, the
payload with its CRC, and a pair for the end of the packet or for an abort.
-/

namespace AbsPlatform
namespace Arduino

/-! ## RECEIVE -/

/-- A request that is answered with what `Comms::rx` returns. -/
structure IsReceive (packet : USBPacket) : Prop where
  command : Command.ofInt? packet.command = some .comms
  arg : packet.cmdArg1.toInt ≤ maxSerial
  parameters : ParametersComms.ofInt? packet.parameters = some .receive

/-- The answer to a packet when `Comms::rx` works on this FIFO. -/
def receiveAnswer (b : Board) (events : List Event) (packet : USBPacket) (memory : List UInt8)
    (fifo : List FifoPair) : Option USBPacket := do
  let e ← executePacket { b with rx := hdlcRx memory fifo } events packet
  e.response

/-- Whenever there is an answer to `RECEIVE`, it is the one for an abort. -/
theorem receiveAnswer_eq {b : Board} {events : List Event} {packet : USBPacket}
    {memory : List UInt8} {fifo : List FifoPair} (hpacket : IsReceive packet) :
    receiveAnswer b events packet memory fifo =
      (hdlcRx memory fifo).map fun _ => usbAbortPacket b.stale packet.packetId := by
  simp only [receiveAnswer, executePacket, hpacket.command, hpacket.arg, if_true, executeSerial,
    hpacket.parameters]
  cases hrx : hdlcRx memory fifo with
  | none => rfl
  | some response =>
      rw [Option.bind_some, receiveResponse_abort _ packet (status_of_hdlcRx hrx)]
      rfl

/-! ## Frames -/

/-- How a frame ends. -/
inductive FrameEnd
  | good
  | wrongCrc
  | abort
  deriving DecidableEq

/-- Bit 3 of the data says that the CRC is correct, bits 2 to 0 are 6 for a number of bits that is
a multiple of 8. -/
def FrameEnd.Marks (p : FifoPair) : FrameEnd → Prop
  | good =>
      p.flag 1 = true ∧ p.flag 0 = false ∧ p.data.toBitVec.getLsbD 3 = true ∧ p.data &&& 7 = 6
  | wrongCrc => p.flag 1 = true ∧ p.flag 0 = false ∧ p.data.toBitVec.getLsbD 3 = false
  | abort => p.flag 0 = true

/-- A frame in the FIFO, with whatever comes after it. -/
structure Frame where
  idle : List FifoPair
  delimiter : FifoPair
  /-- the payload and two bytes of CRC -/
  bytes : List FifoPair
  last : FifoPair
  rest : List FifoPair
  ends : FrameEnd
  idle_flags : ∀ p ∈ idle, ¬ (p.flag 1 = false ∧ p.flag 0 = true)
  delimiter_flags : delimiter.flag 1 = false ∧ delimiter.flag 0 = true
  bytes_flags : ∀ p ∈ bytes, p.flag 1 = false ∧ p.flag 0 = false
  last_marks : ends.Marks last
  bytes_length : ends = .good → 2 ≤ bytes.length ∧ bytes.length ≤ 127

def Frame.fifo (frame : Frame) : List FifoPair :=
  frame.idle ++ frame.delimiter :: (frame.bytes ++ frame.last :: frame.rest)

def Frame.payload (frame : Frame) : List UInt8 :=
  (frame.bytes.take (frame.bytes.length - 2)).map FifoPair.data

/-- A frame is reported as what it is: by `hdlc_rx` with its status, and by the answer. -/
def Reported (b : Board) (events : List Event) (packet : USBPacket) (memory : List UInt8)
    (frame : Frame) : Prop :=
  ∃ response answer, hdlcRx memory frame.fifo = some response ∧
    receiveAnswer b events packet memory frame.fifo = some answer ∧
    answer.command = control ∧ answer.packetId = packet.packetId ∧
    match frame.ends with
    | .good =>
        response[0]? = some 0 ∧ response[1]? = some (UInt8.ofNat frame.payload.length) ∧
          (response.drop 2).take frame.payload.length = frame.payload ∧
          answer.parameters = okData ∧ answer.dataBytes? = some frame.payload
    | .wrongCrc => answer.parameters = errors
    | .abort => answer.parameters = Arduino.abort

/-- A good frame and one with a wrong CRC are never reported; an aborted one is reported exactly
when the search and the pointer happen to let `hdlc_rx` return. -/
theorem hdlcRx_reports_iff (b : Board) (events : List Event) (packet : USBPacket)
    (hpacket : IsReceive packet) (memory : List UInt8) (frame : Frame) :
    Reported b events packet memory frame ↔
      frame.ends = .abort ∧ Returns memory frame.fifo := by
  unfold Reported
  rw [← isSome_hdlcRx_iff, receiveAnswer_eq hpacket]
  constructor
  · rintro ⟨response, answer, hrx, hanswer, _, _, hends⟩
    refine ⟨?_, by simp [hrx]⟩
    rw [hrx] at hanswer
    cases hanswer
    cases hkind : frame.ends with
    | abort => rfl
    | wrongCrc =>
        simp only [hkind] at hends
        have hsame : Arduino.abort = errors := hends
        exact absurd hsame (by decide)
    | good =>
        simp only [hkind] at hends
        rw [status_of_hdlcRx hrx] at hends
        exact absurd hends.1 (by decide)
  · rintro ⟨hkind, hsome⟩
    rcases Option.isSome_iff_exists.1 hsome with ⟨response, hrx⟩
    exact ⟨response, usbAbortPacket b.stale packet.packetId, hrx, by rw [hrx]; rfl, rfl, rfl,
      by simp only [hkind]; rfl⟩

/-- One byte of payload and two of CRC, between a preamble and the next delimiter. -/
def oneByteFifo (last : FifoPair) : List FifoPair :=
  [⟨3, 0xAA⟩, ⟨1, 0x7E⟩, ⟨0, 65⟩, ⟨0, 18⟩, ⟨0, 52⟩, last, ⟨1, 0x7E⟩]

def receiveRequest : USBPacket := { zeroPacket with command := 2, parameters := 11 }

/-- The pair for an end of packet with a correct CRC, the one for a wrong CRC and an abort: in
every case the status is 2 and the answer is `ABORT`.  The bytes of the first two frames begin with
their second one and go on with the end of the packet; without another delimiter the function does
not return. -/
theorem hdlcRx_oneByte :
    hdlcRx (List.replicate 8 0) (oneByteFifo ⟨2, 14⟩).dropLast = none ∧
    hdlcRx (List.replicate 8 0) (oneByteFifo ⟨2, 14⟩) = some [2, 0, 18, 52, 14, 0, 0, 0] ∧
    hdlcRx (List.replicate 8 0) (oneByteFifo ⟨2, 6⟩) = some [2, 0, 18, 52, 6, 0, 0, 0] ∧
    hdlcRx (List.replicate 8 0) (oneByteFifo ⟨1, 0xFF⟩) = some [2, 0, 18, 52, 0, 0, 0, 0] ∧
    ∀ last ∈ [FifoPair.mk 2 14, FifoPair.mk 2 6, FifoPair.mk 1 0xFF],
      receiveAnswer zeroBoard [] receiveRequest (List.replicate 8 0) (oneByteFifo last) =
        some { zeroPacket with parameters := abort } := by
  decide

/-- The aborted frame is reported. -/
theorem hdlcRx_reports_aborted :
    ∃ frame : Frame, frame.fifo = oneByteFifo ⟨1, 0xFF⟩ ∧ frame.ends = .abort ∧
      Reported zeroBoard [] receiveRequest (List.replicate 8 0) frame := by
  let frame : Frame :=
    { idle := [⟨3, 0xAA⟩]
      delimiter := ⟨1, 0x7E⟩
      bytes := [⟨0, 65⟩, ⟨0, 18⟩, ⟨0, 52⟩]
      last := ⟨1, 0xFF⟩
      rest := [⟨1, 0x7E⟩]
      ends := .abort
      idle_flags := by decide
      delimiter_flags := by decide
      bytes_flags := by decide
      last_marks := rfl
      bytes_length := by simp }
  have hreceive : IsReceive receiveRequest := ⟨rfl, by decide, rfl⟩
  have hroom : Room (List.replicate 8 0) 2 2 := ⟨by decide, by decide⟩
  refine ⟨frame, rfl, rfl, ?_⟩
  refine (hdlcRx_reports_iff zeroBoard [] receiveRequest hreceive _ frame).2 ⟨rfl, ?_⟩
  exact ⟨[⟨3, 0xAA⟩, ⟨1, 0x7E⟩], ⟨0, 65⟩, [⟨0, 18⟩, ⟨0, 52⟩], ⟨1, 0xFF⟩, [⟨1, 0x7E⟩], rfl,
    by decide, by decide, by decide, by decide, hroom⟩

end Arduino
end AbsPlatform
