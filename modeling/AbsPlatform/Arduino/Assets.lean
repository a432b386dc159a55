import Mathlib.Data.Nat.Notation

/-!
# Assets — packets in the firmware

The packets of `Arduino/abs/assets.ino`: the constructors of the answers, `to_raw` and
`process_packet`.  On the board an `int` has 16 bits.  A block that comes from `malloc` holds what
was left in it, so a constructor takes that content as `stale` and sets the fields the code sets.

Reading or writing outside a block is a fault, `none`.
-/

namespace AbsPlatform
namespace Arduino

/-! ## abs.h -/

/-- An `int` of the board. -/
abbrev CInt := BitVec 16

structure USBPacket where
  command : CInt
  parameters : CInt
  cmdArg1 : CInt
  cmdArg2 : CInt
  dataSize : CInt
  /-- what the pointer leads to, `none` when it has no valid target -/
  data : Option (List UInt8)
  packetId : CInt
  deriving DecidableEq

/-- The two arguments by their position. -/
def USBPacket.arg (packet : USBPacket) (k : Fin 2) : CInt :=
  if k = 0 then packet.cmdArg1 else packet.cmdArg2

/-- `CONTROL`, the command of every answer. -/
def control : CInt := 0

/-! `OK`, `OK_DATA` and `ERRORS`: the parameters of an answer. -/

def ok : CInt := 0
def okData : CInt := 1
def errors : CInt := 2

/-! ## Answers -/

def usbOkPacket (stale : USBPacket) (id : CInt) : USBPacket :=
  { stale with
    command := control
    parameters := ok
    cmdArg1 := 0
    cmdArg2 := 0
    dataSize := 0
    packetId := id }

/-- `usb_ok_data_packet`: the two arguments stay as they are. -/
def usbOkDataPacket (stale : USBPacket) (id : CInt) (result : List UInt8) (dsize : CInt) :
    USBPacket :=
  { stale with
    command := control
    parameters := okData
    dataSize := dsize
    data := some result
    packetId := id }

/-- `usb_error_packet`: the second argument stays as it is. -/
def usbErrorPacket (stale : USBPacket) (id error : CInt) : USBPacket :=
  { stale with
    command := control
    parameters := errors
    cmdArg1 := error
    dataSize := 0
    packetId := id }

/-! ## Bytes -/

/-- An `int` stored in a `uint8_t`. -/
def uint8 (x : CInt) : UInt8 := UInt8.ofBitVec (x.setWidth 8)

/-- A `uint8_t` in an expression. -/
def cint (b : UInt8) : CInt := b.toBitVec.setWidth 16

/-- The `data_size` bytes behind `data`. -/
def USBPacket.dataBytes? (packet : USBPacket) : Option (List UInt8) :=
  if packet.dataSize.toInt < 0 then
    -- the block of `to_raw` is too short for its header then
    none
  else if packet.dataSize = 0 then
    some []
  else
    match packet.data with
    | none => none
    | some bytes =>
        if packet.dataSize.toNat ≤ bytes.length then some (bytes.take packet.dataSize.toNat)
        else none

theorem USBPacket.dataBytes?_eq_some {packet : USBPacket} {bytes : List UInt8}
    (rest : List UInt8) (hsize : packet.dataSize.toNat = bytes.length)
    (hlt : bytes.length < 32768)
    (hdata : bytes ≠ [] → packet.data = some (bytes ++ rest)) :
    packet.dataBytes? = some bytes := by
  have hint : ¬ packet.dataSize.toInt < 0 := by
    rw [BitVec.toInt_eq_toNat_of_lt (by omega)]
    omega
  unfold dataBytes?
  by_cases h0 : packet.dataSize = 0
  · have hnil : bytes = [] := by
      apply List.length_eq_zero_iff.1
      rw [← hsize, h0]
      rfl
    simp [h0, hnil]
  · have hne : bytes ≠ [] := by
      rintro rfl
      exact h0 (BitVec.eq_of_toNat_eq hsize)
    rw [if_neg hint, if_neg h0, hdata hne]
    simp [hsize]

/-- The first byte of a packet: its command, its parameters and the marker. -/
def USBPacket.head (packet : USBPacket) : UInt8 :=
  let command : CInt := (packet.command <<< 5) &&& 0xE0
  let parameters : CInt := (packet.parameters <<< 1) &&& 0x1E
  uint8 (command + parameters + 1)

/-- `to_raw`; the length it stores is the length of the list. -/
def toRaw (packet : USBPacket) : Option (List UInt8) :=
  match packet.dataBytes? with
  | none => none
  | some data =>
      some
        ([packet.head,
          uint8 ((packet.cmdArg1 <<< 1) + 1),
          uint8 ((packet.cmdArg2 <<< 1) + 1),
          uint8 (packet.dataSize.sshiftRight 7 + 1),
          uint8 ((packet.dataSize <<< 1) + 1)]
        ++ data ++ [uint8 (packet.packetId <<< 1)])

/-- The size of the data according to bytes 3 and 4. -/
def decodedSize (b3 b4 : UInt8) : CInt :=
  let high : CInt := cint b3 &&& 0xFE
  (cint b4 >>> 1) + (high <<< 6)

/-- `process_packet` on a message of which these bytes were received.  The pointer it stores leads
to everything from byte 5 on. -/
def processPacket (stale : USBPacket) (msg : List UInt8) : Option USBPacket := do
  let b0 ← msg[0]?
  let b1 ← msg[1]?
  let b2 ← msg[2]?
  let b3 ← msg[3]?
  let b4 ← msg[4]?
  let dataSize := decodedSize b3 b4
  let last ← msg[5 + dataSize.toNat]?
  pure
    { command := (cint b0 >>> 5) &&& 0x07
      parameters := (cint b0 >>> 1) &&& 0x0F
      cmdArg1 := cint b1 >>> 1
      cmdArg2 := cint b2 >>> 1
      dataSize := dataSize
      data := if 0 < dataSize.toInt then some (msg.drop 5) else stale.data
      packetId := cint last >>> 1 }

end Arduino
end AbsPlatform
