import Mathlib.Tactic.SplitIfs
import AbsPlatform.Arduino.Assets

/-!
# Execute — requests in the firmware

`execute_packet` of `Arduino/abs/assets.ino`: a switch over the commands, and for each of them one
over its parameters.  The response is a local variable that every path should assign; `none` stands
for the value it has when a path does not.  Outside of an array, and outside of the bytes of a
message, there is a fault.

What the devices are told is a list of operations.  What the functions of `Comms` come to, and what
`malloc` leaves in a block, are arguments; a function that does not return, or that divides by zero,
makes a fault of the request.
-/

namespace AbsPlatform
namespace Arduino

/-! ## abs.h and abs.ino -/

def maxServo : Nat := 2
def maxSerial : Nat := 2
def maxEvents : Nat := 10

def bitrate : List Nat :=
  [300, 1200, 2400, 4800, 9600, 14400, 19200, 28800, 38400, 57600, 115200]

/-- `ABORT`, a parameter of an answer like `OK`. -/
def abort : CInt := 3

/-- `FCS_ERROR`. -/
def fcsError : CInt := 0

/-- An `int` is a valid index of an array of this length. -/
def InArray (i : CInt) (length : Nat) : Prop := 0 ≤ i.toInt ∧ i.toInt < length

instance (i : CInt) (length : Nat) : Decidable (InArray i length) :=
  inferInstanceAs (Decidable (_ ∧ _))

/-- `IS_PIN_DIGITAL`. -/
def isPinDigital (p : CInt) : Bool := 0 ≤ p.toInt && p.toInt ≤ 40

/-- `IS_PIN_ANALOG`. -/
def isPinAnalog (p : CInt) : Bool := 0 ≤ p.toInt && p.toInt ≤ 15

inductive Command
  | control
  | basicIo
  | comms
  | event
  | servo
  deriving DecidableEq

def Command.ofInt? (x : CInt) : Option Command :=
  [control, basicIo, comms, event, servo][x.toNat]?

inductive ParametersBasicIo
  | analogWrite
  | digitalWrite
  | analogRead
  | digitalRead
  | tooglePin
  deriving DecidableEq

def ParametersBasicIo.ofInt? (x : CInt) : Option ParametersBasicIo :=
  [analogWrite, digitalWrite, analogRead, digitalRead, tooglePin][x.toNat]?

inductive ParametersComms
  | initUart
  | readUart
  | writeUart
  | initSpi
  | readSpi
  | writeSpi
  | initCan
  | readCan
  | writeCan
  | configure
  | transmit
  | receive
  | changeX
  deriving DecidableEq

def ParametersComms.ofInt? (x : CInt) : Option ParametersComms :=
  [initUart, readUart, writeUart, initSpi, readSpi, writeSpi, initCan, readCan, writeCan, configure,
    transmit, receive, changeX][x.toNat]?

inductive ParametersEvents
  | conf
  | dump
  deriving DecidableEq

def ParametersEvents.ofInt? (x : CInt) : Option ParametersEvents := [conf, dump][x.toNat]?

inductive ParametersServo
  | start
  | setDc
  | stop
  deriving DecidableEq

def ParametersServo.ofInt? (x : CInt) : Option ParametersServo := [start, setDc, stop][x.toNat]?

structure Event where
  bufferid : CInt
  interval : CInt
  execute : CInt
  action : USBPacket

/-! ## The devices -/

/-- What the firmware tells a device to do. -/
inductive Operation
  | pinMode (pin : CInt) (output : Bool)
  | analogWrite (pin value : CInt)
  | digitalWrite (pin value : CInt)
  | serialBegin (num : CInt) (bitrate : Nat)
  | serialRead (num : CInt)
  | serialWrite (num : CInt) (byte : UInt8)
  | spiBegin
  | spiTransfer (byte : UInt8)
  | configure
  | transmit (bytes : List UInt8)
  | receive
  | changeX (parameter value : CInt)
  | servoAttach (num value : CInt)
  | servoWrite (num value : CInt)
  | servoDetach (num : CInt)
  | dump (bufferId : CInt)

/-- The surroundings of one call of `execute_packet`. -/
structure Board where
  /-- left in the block of the response -/
  stale : USBPacket
  /-- left in the block of the action of an event -/
  staleAction : USBPacket
  analogRead : CInt → CInt
  digitalRead : CInt → CInt
  /-- the block that `Comms::rx` returns -/
  rx : Option (List UInt8)
  /-- `Comms::configure` and `Comms::change_x` return -/
  configure : Option Unit
  changeX : CInt → CInt → Option Unit

/-- What a call leaves behind. -/
structure Execution where
  operations : List Operation
  /-- `event_list[0]` to `event_list[eventCount - 1]` -/
  events : List Event
  response : Option USBPacket

/-! ## execute_packet -/

def usbAbortPacket (stale : USBPacket) (id : CInt) : USBPacket :=
  { stale with
    command := control
    parameters := abort
    cmdArg1 := 0
    cmdArg2 := 0
    dataSize := 0
    packetId := id }

/-- The two bytes behind `int_res`. -/
def intBytes (x : CInt) : List UInt8 := [uint8 x, uint8 (x >>> 8)]

/-- `usb_ok_data_packet` with the address of the local variable `data`, which is gone when the
response is used. -/
def usbLocalPacket (stale : USBPacket) (id : CInt) : USBPacket :=
  { usbOkDataPacket stale id [] 1 with data := none }

/-- The bytes that a loop over `packet->data` reads. -/
def USBPacket.loopBytes? (packet : USBPacket) : Option (List UInt8) :=
  if 0 < packet.dataSize.toInt then
    match packet.data with
    | none => none
    | some bytes =>
        if packet.dataSize.toNat ≤ bytes.length then some (bytes.take packet.dataSize.toNat)
        else none
  else some []

def executeBasicIo (b : Board) (packet : USBPacket) : List Operation × USBPacket :=
  let pin := packet.cmdArg1
  let ok := usbOkPacket b.stale packet.packetId
  let error := usbErrorPacket b.stale packet.packetId 1
  match ParametersBasicIo.ofInt? packet.parameters with
  | some .analogWrite =>
      if isPinAnalog pin then ([.pinMode pin true, .analogWrite pin packet.cmdArg2], ok)
      else ([], error)
  | some .digitalWrite =>
      if isPinDigital pin then ([.pinMode pin true, .digitalWrite pin packet.cmdArg2], ok)
      else ([], error)
  | some .analogRead =>
      if isPinAnalog pin then
        ([], usbOkDataPacket b.stale packet.packetId (intBytes (b.analogRead pin)) 2)
      else ([], error)
  | some .digitalRead =>
      if isPinDigital pin then
        ([.pinMode pin false],
          usbOkDataPacket b.stale packet.packetId (intBytes (b.digitalRead pin)) 2)
      else ([], error)
  | some .tooglePin =>
      -- the pin is not checked here
      ([.pinMode pin true, .digitalWrite pin (if b.digitalRead pin = 0 then 1 else 0)], ok)
  | none => ([], error)

/-- The response to `RECEIVE` for the block behind `received`: a status, and for status 1 a size and
the data. -/
def receiveResponse (b : Board) (packet : USBPacket) : List UInt8 → Option USBPacket
  | [] => none
  | status :: rest =>
      if status = 1 then
        match rest with
        | [] => none
        | size :: data =>
            -- the size is a `char`, which has a sign
            some (usbOkDataPacket b.stale packet.packetId data (size.toBitVec.signExtend 16))
      else if status = 2 then some (usbAbortPacket b.stale packet.packetId)
      else some (usbErrorPacket b.stale packet.packetId fcsError)

/-- The parameters of `COMMS`, for an argument that has passed `num <= MAX_SERIAL`. -/
def executeSerial (b : Board) (packet : USBPacket) : Option (List Operation × Option USBPacket) :=
  let num := packet.cmdArg1
  let ok := usbOkPacket b.stale packet.packetId
  match ParametersComms.ofInt? packet.parameters with
  | some .initUart =>
      match bitrate[packet.cmdArg2.toNat]? with
      | none => none
      | some rate =>
          if InArray num maxSerial then some ([.serialBegin num rate], some ok) else none
  | some .readUart =>
      if InArray num maxSerial then
        some ([.serialRead num], some (usbLocalPacket b.stale packet.packetId))
      else none
  | some .writeUart =>
      match packet.loopBytes? with
      | none => none
      | some bytes =>
          if bytes = [] ∨ InArray num maxSerial then
            some (bytes.map (.serialWrite num), some ok)
          else none
  -- nothing is assigned on this path
  | some .initSpi => some ([.spiBegin, .pinMode 10 true], none)
  | some .readSpi =>
      some ([.digitalWrite 10 0, .spiTransfer 0, .digitalWrite 10 1],
        some (usbLocalPacket b.stale packet.packetId))
  | some .writeSpi =>
      match packet.loopBytes? with
      | none => none
      | some bytes =>
          some (bytes.flatMap fun c => [.digitalWrite 10 0, .spiTransfer c, .digitalWrite 10 1],
            some ok)
  | some .configure => b.configure.map fun _ => ([.configure], some ok)
  | some .transmit =>
      match packet.loopBytes? with
      | none => none
      | some bytes => some ([.transmit bytes], some ok)
  | some .receive =>
      (b.rx.bind (receiveResponse b packet)).map fun response => ([.receive], some response)
  | some .changeX =>
      (b.changeX packet.cmdArg1 packet.cmdArg2).map fun _ =>
        ([.changeX packet.cmdArg1 packet.cmdArg2], some ok)
  -- the switch has no default
  | some .initCan | some .readCan | some .writeCan | none => some ([], none)

def executeEvent (b : Board) (events : List Event) (packet : USBPacket) : Option Execution :=
  match ParametersEvents.ofInt? packet.parameters with
  | some .conf =>
      if 0 < packet.dataSize.toInt then
        if events.length < maxEvents then
          match packet.data.bind (processPacket b.staleAction) with
          | none => none
          | some action =>
              let event : Event :=
                { bufferid := BitVec.ofNat 16 events.length
                  interval := packet.cmdArg1
                  execute := 0
                  action := action }
              some
                { operations := []
                  events := events ++ [event]
                  response := some (usbOkPacket b.stale packet.packetId) }
        else none
      else
        some
          { operations := []
            events := events
            response := some (usbErrorPacket b.stale packet.packetId 1) }
  | some .dump =>
      some
        { operations := [.dump packet.cmdArg1]
          events := events
          response := some (usbLocalPacket b.stale packet.packetId) }
  | none => some { operations := [], events := events, response := none }

/-- The parameters of `SERVO`, for an argument that has passed `num <= MAX_SERIAL`. -/
def executeServo (b : Board) (packet : USBPacket) : Option (List Operation × Option USBPacket) :=
  let num := packet.cmdArg1
  let ok := usbOkPacket b.stale packet.packetId
  let attach (op : Operation) : Option (List Operation × Option USBPacket) :=
    if InArray num maxServo then some ([op], some ok) else none
  match ParametersServo.ofInt? packet.parameters with
  | some .start => attach (.servoAttach num packet.cmdArg2)
  | some .setDc => attach (.servoWrite num packet.cmdArg2)
  | some .stop => attach (.servoDetach num)
  | none => some ([], none)

def executePacket (b : Board) (events : List Event) (packet : USBPacket) : Option Execution :=
  let unchanged (r : List Operation × Option USBPacket) : Execution :=
    { operations := r.1, events := events, response := r.2 }
  let error : List Operation × Option USBPacket :=
    ([], some (usbErrorPacket b.stale packet.packetId 1))
  match Command.ofInt? packet.command with
  | some .basicIo =>
      let r := executeBasicIo b packet
      some (unchanged (r.1, some r.2))
  | some .comms =>
      if packet.cmdArg1.toInt ≤ maxSerial then (executeSerial b packet).map unchanged
      else some (unchanged error)
  | some .event => executeEvent b events packet
  | some .servo =>
      if packet.cmdArg1.toInt ≤ maxSerial then (executeServo b packet).map unchanged
      else some (unchanged error)
  | some .control | none => some (unchanged error)

/-- A block that begins with status 2 is answered with an abort, whatever else is in it. -/
theorem receiveResponse_abort (b : Board) (packet : USBPacket) {received : List UInt8}
    (hstatus : received[0]? = some 2) :
    receiveResponse b packet received = some (usbAbortPacket b.stale packet.packetId) := by
  cases received with
  | nil => simp at hstatus
  | cons status rest =>
      rw [List.getElem?_cons_zero, Option.some.injEq] at hstatus
      subst hstatus
      rfl

/-! ## Packets of process_packet -/

/-- The size of the data that a message announces has 14 bits. -/
theorem toNat_decodedSize_lt (b3 b4 : UInt8) : (decodedSize b3 b4).toNat < 16384 := by
  have h4 : b4.toNat < 256 := b4.toNat_lt
  have h3 : b3.toNat &&& 254 ≤ 254 := Nat.and_le_right
  simp [decodedSize, cint, Nat.shiftRight_eq_div_pow, Nat.shiftLeft_eq]
  omega

/-- What is known of the data of a packet that was decoded. -/
theorem data_of_processPacket {stale packet : USBPacket} {msg : List UInt8}
    (h : processPacket stale msg = some packet) :
    0 ≤ packet.dataSize.toInt ∧
      (0 < packet.dataSize.toInt →
        ∃ bytes, packet.data = some bytes ∧ packet.dataSize.toNat ≤ bytes.length) := by
  simp only [processPacket, Option.bind_eq_bind, Option.bind_eq_some_iff, Option.pure_def,
    Option.some.injEq] at h
  rcases h with ⟨b0, _, b1, _, b2, _, b3, _, b4, _, last, hlast, rfl⟩
  have hlt := toNat_decodedSize_lt b3 b4
  have hint : (decodedSize b3 b4).toInt = (decodedSize b3 b4).toNat :=
    BitVec.toInt_eq_toNat_of_lt (by omega)
  have hlen : 5 + (decodedSize b3 b4).toNat < msg.length :=
    (List.getElem?_eq_some_iff.1 hlast).1
  refine ⟨by simp [hint], fun hpos => ⟨msg.drop 5, ?_, ?_⟩⟩
  · exact if_pos hpos
  · rw [List.length_drop]
    dsimp only
    omega

/-- The bytes of a loop over the data are there, and there are none exactly without data. -/
theorem loopBytes?_of_processPacket {stale packet : USBPacket} {msg : List UInt8}
    (h : processPacket stale msg = some packet) :
    ∃ bytes, packet.loopBytes? = some bytes ∧ (bytes = [] ↔ packet.dataSize = 0) := by
  rcases data_of_processPacket h with ⟨hnonneg, hdata⟩
  unfold USBPacket.loopBytes?
  by_cases hpos : 0 < packet.dataSize.toInt
  · rcases hdata hpos with ⟨bytes, hbytes, hle⟩
    have hne : packet.dataSize ≠ 0 := by
      intro h0
      simp [h0] at hpos
    have hnat : packet.dataSize.toNat ≠ 0 := fun h0 => hne (BitVec.eq_of_toNat_eq h0)
    refine ⟨bytes.take packet.dataSize.toNat, by simp [hpos, hbytes, hle], ?_⟩
    refine iff_of_false (fun hnil => ?_) hne
    have hlen := congrArg List.length hnil
    rw [List.length_take_of_le hle] at hlen
    exact hnat hlen
  · have h0 : packet.dataSize = 0 := BitVec.eq_of_toInt_eq (by simp; omega)
    exact ⟨[], by simp [hpos], by simp [h0]⟩

/-- A message inside a message ends inside of it. -/
def EndsInside (msg : List UInt8) : Prop :=
  ∃ b3 b4, msg[3]? = some b3 ∧ msg[4]? = some b4 ∧ 5 + (decodedSize b3 b4).toNat < msg.length

theorem isSome_processPacket_iff (stale : USBPacket) {msg : List UInt8} :
    (processPacket stale msg).isSome = true ↔ EndsInside msg := by
  constructor
  · intro h
    rcases Option.isSome_iff_exists.1 h with ⟨packet, hpacket⟩
    simp only [processPacket, Option.bind_eq_bind, Option.bind_eq_some_iff] at hpacket
    rcases hpacket with ⟨b0, _, b1, _, b2, _, b3, h3, b4, h4, last, hlast, _⟩
    exact ⟨b3, b4, h3, h4, (List.getElem?_eq_some_iff.1 hlast).1⟩
  · rintro ⟨b3, b4, h3, h4, hlast⟩
    have h0 : 0 < msg.length := by omega
    have h1 : 1 < msg.length := by omega
    have h2 : 2 < msg.length := by omega
    simp [processPacket, h0, h1, h2, h3, h4, hlast]

/-! ## A board -/

def zeroPacket : USBPacket where
  command := 0
  parameters := 0
  cmdArg1 := 0
  cmdArg2 := 0
  dataSize := 0
  data := none
  packetId := 0

/-- Every reading is zero, and so is what `malloc` returns; the functions of `Comms` return. -/
def zeroBoard : Board where
  stale := zeroPacket
  staleAction := zeroPacket
  analogRead := fun _ => 0
  digitalRead := fun _ => 0
  rx := some [0, 0]
  configure := some ()
  changeX := fun _ _ => some ()

end Arduino
end AbsPlatform
