import AbsPlatform.MCS.Packet

/-!
# Usb — the bridge to the board

`mcs_to_usb` and `usb_to_mcs` of `SDB/sdb_usb.c`: the packets the SDB exchanges with the board.
A packet there has five bytes of header, the data and a last byte with the identifier.

Following a NULL pointer, or reading outside the bytes that were received, is a fault, `none`.
-/

namespace AbsPlatform
namespace SDB

open MCS

/-- `SDB_USB_DATA_SIZE`. -/
def sdbUsbDataSize : Nat := 256

/-! `SDB_USB_OK` and `SDB_USB_OK_DATA`. -/

def sdbUsbOk : UInt8 := 0
def sdbUsbOkData : UInt8 := 1

/-! ## From the phone to the board -/

/-- What a call of `mcs_to_usb` comes to. -/
inductive UsbRequest
  | bytes (usbPacket : List UInt8)
  /-- NULL, and this answer for the module that sent the packet -/
  | refused (response : MCSPacket)
  deriving DecidableEq

/-- The byte of an argument. -/
def usbArgument (arg : UInt8) : UInt8 := ((arg.toUInt32 <<< 1) + 1).toUInt8

/-- Bytes 1 and 2: the arguments. -/
def usbArguments (packet : MCSPacket) : Option (UInt8 × UInt8) :=
  if packet.nargs = 0 then
    some (1, 1)
  else
    match packet.args with
    | none => none
    | some args =>
        if packet.nargs = 1 then some (usbArgument (args.getD 0 0), 1)
        else some (usbArgument (args.getD 0 0), usbArgument (args.getD 1 0))

/-- What `memcpy` copies from `packet->data`. -/
def usbData (packet : MCSPacket) : Option (List UInt8) :=
  if packet.dataSize = 0 then some [] else packet.data

/-- Byte 0: the command and the parameters of the table. -/
def usbHead (command parameters : UInt8) : UInt8 :=
  let high : UInt32 := (command.toUInt32 <<< 5) &&& 0xE0
  let low : UInt32 := (parameters.toUInt32 <<< 1) &&& 0x1E
  (high + low + (1 &&& 0x1 : UInt32)).toUInt8

/-- Byte 3: the high part of the size of the data. -/
def usbSizeHigh (dataSize : UInt16) : UInt8 :=
  let high : UInt32 := (dataSize.toUInt32 >>> 6) &&& 0xFE
  high.toUInt8 + 1

/-- Byte 4: the low part. -/
def usbSizeLow (dataSize : UInt16) : UInt8 :=
  let low : UInt32 := dataSize.toUInt32 <<< 1
  low.toUInt8 + 1

/-- The packet `mcs_to_usb` fills in when nothing speaks against it. -/
def usbPacket (entry : MCSCommandOptionsPayload) (packet : MCSPacket) : Option (List UInt8) :=
  match usbArguments packet, usbData packet with
  | some args, some data =>
      some ([usbHead entry.command entry.parameters, args.1, args.2,
          usbSizeHigh packet.dataSize, usbSizeLow packet.dataSize]
        ++ data ++ [(packet.id <<< 1).toUInt8])
  | _, _ => none

def mcsToUsb (t : MCSTables) (packet : MCSPacket) : Option UsbRequest :=
  let error := some (UsbRequest.refused (mcsErrPacket packet ebadformat))
  if packet.type = MCSType.payload.code then
    match t.payloads[packet.cmd.toNat]? with
    | none => error
    | some entry =>
        if packet.dataSize.toNat + 6 > sdbUsbDataSize then error
        else if packet.id > 0x7F then error
        else if packet.nargs > 2 then error
        else (usbPacket entry packet).map UsbRequest.bytes
  else
    error

/-! ## From the board to the phone -/

/-- The size of the data according to bytes 3 and 4. -/
def usbDataSize (b3 b4 : UInt8) : Nat :=
  let high : UInt32 := (b3.toUInt32 &&& ~~~1) <<< 7
  (high ||| (b4.toUInt32 >>> 1)).toNat

/-- The `switch` on the kind of answer. -/
def usbResponse (responseType : UInt8) (pktId : UInt32) (data : List UInt8) : MCSPacket :=
  if responseType = sdbUsbOk then
    mcsOkPacketId pktId
  else if responseType = sdbUsbOkData then
    mcsOkPacketDataId pktId data
  else
    -- `SDB_USB_ERROR` and anything else
    mcsErrPacketId pktId ehwfault

/-- `usb_to_mcs`; the inner `none` is the NULL it returns. -/
def usbToMcs (usbPacket : List UInt8) : Option (Option MCSPacket) :=
  if usbPacket.length < 6 then
    some none
  else do
    let b0 ← usbPacket[0]?
    let b3 ← usbPacket[3]?
    let b4 ← usbPacket[4]?
    let dataSize := usbDataSize b3 b4
    if 0 < dataSize ∧ usbPacket.length ≠ dataSize + 6 then
      pure none
    else do
      let last ← usbPacket[5 + dataSize]?
      let data := (usbPacket.drop 5).take dataSize
      pure (some (usbResponse (b0 >>> 1) (last >>> 1).toUInt32 data))

end SDB
end AbsPlatform
