import AbsPlatform.Arduino.Execute
import AbsPlatform.Arduino.Hdlc
import AbsPlatform.Arduino.RadioTiming

/-!
# Answers — the requests that the firmware answers

A request is answered when `execute_packet` returns and has assigned a response to it.  Three of the
parameters of `COMMS` end in `Comms`: `RECEIVE` waits for a packet in the FIFO of the transceiver
and writes through an uninitialised pointer, `CONFIGURE` and `CHANGE_X` divide by numbers that can
be zero.  The board is connected to these functions here.
-/

namespace AbsPlatform
namespace Arduino

/-! ## The transceiver -/

/-- What the functions of `Comms` work on. -/
structure Transceiver where
  /-- what may be written behind the pointer of `hdlc_rx` -/
  memory : List UInt8
  fifo : List FifoPair
  radio : Comms.Radio
  /-- the word for `CICDEC` as a function of the bitrate -/
  cic : CInt → UInt32
  /-- in the variable of `getModulationReg` when no case assigns it -/
  left : UInt8

/-- The board whose `Comms` is the one of the source. -/
def Board.connect (b : Board) (t : Transceiver) : Board :=
  { b with
    rx := hdlcRx t.memory t.fifo
    configure := (Comms.configure t.cic t.radio).map fun _ => ()
    changeX := fun parameter value =>
      match Comms.Change.ofInt? t.left parameter value with
      | none => some ()
      | some a => (Comms.changeX t.cic t.radio a).map fun _ => () }

/-! ## Answers -/

/-- A response of one of the four kinds, to this request. -/
structure Answers (packet response : USBPacket) : Prop where
  command : response.command = control
  kind : response.parameters = ok ∨ response.parameters = okData ∨ response.parameters = errors ∨
    response.parameters = abort
  id : response.packetId = packet.packetId

section Kinds

variable (stale packet : USBPacket)

@[simp] theorem answers_usbOkPacket : Answers packet (usbOkPacket stale packet.packetId) :=
  ⟨rfl, .inl rfl, rfl⟩

@[simp] theorem answers_usbOkDataPacket (result : List UInt8) (dsize : CInt) :
    Answers packet (usbOkDataPacket stale packet.packetId result dsize) :=
  ⟨rfl, .inr (.inl rfl), rfl⟩

@[simp] theorem answers_usbLocalPacket : Answers packet (usbLocalPacket stale packet.packetId) :=
  ⟨rfl, .inr (.inl rfl), rfl⟩

@[simp] theorem answers_usbErrorPacket (error : CInt) :
    Answers packet (usbErrorPacket stale packet.packetId error) :=
  ⟨rfl, .inr (.inr (.inl rfl)), rfl⟩

@[simp] theorem answers_usbAbortPacket : Answers packet (usbAbortPacket stale packet.packetId) :=
  ⟨rfl, .inr (.inr (.inr rfl)), rfl⟩

end Kinds

/-! ## The requests that are answered -/

/-- The parameters of `COMMS` that assign a response, with arguments that stay in the arrays, where
the functions of `Comms` return. -/
def SerialAnswered (t : Transceiver) (packet : USBPacket) : Option ParametersComms → Prop
  | some .initUart => InArray packet.cmdArg1 maxSerial ∧ packet.cmdArg2.toNat < bitrate.length
  | some .readUart => InArray packet.cmdArg1 maxSerial
  | some .writeUart => packet.dataSize = 0 ∨ InArray packet.cmdArg1 maxSerial
  | some .initSpi | some .initCan | some .readCan | some .writeCan | none => False
  | some .readSpi | some .writeSpi | some .transmit => True
  | some .configure => (Comms.defaults.inputs t.cic).Computes t.radio.fskmul
  | some .receive => Returns t.memory t.fifo
  | some .changeX =>
      ∀ a ∈ Comms.Change.ofInt? t.left packet.cmdArg1 packet.cmdArg2, t.radio.Returns t.cic a

/-- The parameters of `EVENT` that assign a response; a new event needs a free place. -/
def EventAnswered (events : List Event) (packet : USBPacket) : Option ParametersEvents → Prop
  | some .conf =>
      packet.dataSize = 0 ∨
        (events.length < maxEvents ∧ ∃ msg, packet.data = some msg ∧ EndsInside msg)
  | some .dump => True
  | none => False

/-- A request that takes a path with a response. -/
def Answered (t : Transceiver) (events : List Event) (packet : USBPacket) : Prop :=
  match Command.ofInt? packet.command with
  | some .comms =>
      packet.cmdArg1.toInt ≤ maxSerial →
        SerialAnswered t packet (ParametersComms.ofInt? packet.parameters)
  | some .event => EventAnswered events packet (ParametersEvents.ofInt? packet.parameters)
  | some .servo =>
      packet.cmdArg1.toInt ≤ maxSerial →
        InArray packet.cmdArg1 maxServo ∧
          (ParametersServo.ofInt? packet.parameters).isSome = true
  | some .basicIo | some .control | none => True

section

variable {b : Board} {t : Transceiver} {events : List Event} {packet : USBPacket}

/-- The result of a branch that leaves the events alone answers the request. -/
def RespondsTo (packet : USBPacket) (r : Option (List Operation × Option USBPacket)) : Prop :=
  ∃ ops response, r = some (ops, some response) ∧ Answers packet response

theorem respondsTo_some {ops : List Operation} {response : USBPacket}
    (h : Answers packet response) : RespondsTo packet (some (ops, some response)) :=
  ⟨ops, response, rfl, h⟩

theorem not_respondsTo_none : ¬ RespondsTo packet none := nofun

theorem not_respondsTo_unassigned {ops : List Operation} :
    ¬ RespondsTo packet (some (ops, none)) := nofun

theorem answers_executeBasicIo (b : Board) (packet : USBPacket) :
    Answers packet (executeBasicIo b packet).2 := by
  unfold executeBasicIo
  cases ParametersBasicIo.ofInt? packet.parameters with
  | none => exact answers_usbErrorPacket ..
  | some p =>
      cases p with
      | tooglePin => exact answers_usbOkPacket ..
      -- a pin in range is used, any other one is an error
      | _ =>
          dsimp only
          split_ifs <;> simp

/-- A branch that always has a response answers when what it waits for is there. -/
theorem respondsTo_map_iff {α : Type} {r : Option α} {ops : List Operation} {response : USBPacket}
    (h : ∀ _ : α, Answers packet response) :
    RespondsTo packet (r.map fun _ => (ops, some response)) ↔ ∃ x, r = some x := by
  cases r with
  | none => exact iff_of_false not_respondsTo_none nofun
  | some x => exact iff_of_true (respondsTo_some (h x)) ⟨x, rfl⟩

theorem exists_map_unit_iff {α : Type} {r : Option α} :
    (∃ x, (r.map fun _ => ()) = some x) ↔ ∃ x, r = some x := by
  cases r <;> simp

theorem exists_connect_changeX_iff {parameter value : CInt} :
    (∃ x, (b.connect t).changeX parameter value = some x) ↔
      ∀ a ∈ Comms.Change.ofInt? t.left parameter value, t.radio.Returns t.cic a := by
  simp only [Board.connect]
  cases Comms.Change.ofInt? t.left parameter value with
  | none => simp
  | some a =>
      simp only [Option.mem_some, forall_eq']
      exact exists_map_unit_iff.trans Comms.exists_changeX_iff

/-- `hdlc_rx` stores no other status than 2. -/
theorem respondsTo_receive_iff :
    RespondsTo packet (((b.connect t).rx.bind (receiveResponse (b.connect t) packet)).map
        fun response => ([Operation.receive], some response)) ↔
      ∃ received, hdlcRx t.memory t.fifo = some received := by
  simp only [Board.connect]
  cases hrx : hdlcRx t.memory t.fifo with
  | none => exact iff_of_false not_respondsTo_none nofun
  | some received =>
      rw [Option.bind_some, receiveResponse_abort _ packet (status_of_hdlcRx hrx)]
      exact iff_of_true (respondsTo_some (answers_usbAbortPacket ..)) ⟨received, rfl⟩

theorem respondsTo_executeSerial_iff {bytes : List UInt8} (hbytes : packet.loopBytes? = some bytes)
    (hnil : bytes = [] ↔ packet.dataSize = 0) :
    RespondsTo packet (executeSerial (b.connect t) packet) ↔
      SerialAnswered t packet (ParametersComms.ofInt? packet.parameters) := by
  unfold executeSerial
  dsimp only
  cases ParametersComms.ofInt? packet.parameters with
  | none => exact iff_of_false not_respondsTo_unassigned id
  | some p =>
      cases p with
      | initUart =>
          simp only [SerialAnswered]
          by_cases hrate : packet.cmdArg2.toNat < bitrate.length
          · rw [List.getElem?_eq_getElem hrate]
            by_cases hnum : InArray packet.cmdArg1 maxSerial
            · simpa [hnum, hrate] using respondsTo_some (answers_usbOkPacket ..)
            · simpa [hnum] using not_respondsTo_none
          · rw [List.getElem?_eq_none (Nat.not_lt.1 hrate)]
            simpa [hrate] using not_respondsTo_none
      | readUart =>
          by_cases hnum : InArray packet.cmdArg1 maxSerial
          · simpa [SerialAnswered, hnum] using respondsTo_some (answers_usbLocalPacket ..)
          · simpa [SerialAnswered, hnum] using not_respondsTo_none
      | writeUart =>
          simp only [SerialAnswered, hbytes, ← hnil]
          by_cases hok : bytes = [] ∨ InArray packet.cmdArg1 maxSerial
          · rw [if_pos hok]
            exact iff_of_true (respondsTo_some (answers_usbOkPacket ..)) hok
          · rw [if_neg hok]
            exact iff_of_false not_respondsTo_none hok
      | initSpi => exact iff_of_false not_respondsTo_unassigned id
      | initCan => exact iff_of_false not_respondsTo_unassigned id
      | readCan => exact iff_of_false not_respondsTo_unassigned id
      | writeCan => exact iff_of_false not_respondsTo_unassigned id
      | readSpi => exact iff_of_true (respondsTo_some (answers_usbLocalPacket ..)) trivial
      | writeSpi =>
          simp only [hbytes]
          exact iff_of_true (respondsTo_some (answers_usbOkPacket ..)) trivial
      | configure =>
          refine (respondsTo_map_iff fun _ => answers_usbOkPacket ..).trans ?_
          exact exists_map_unit_iff.trans Comms.exists_configure_iff
      | transmit =>
          simp only [hbytes]
          exact iff_of_true (respondsTo_some (answers_usbOkPacket ..)) trivial
      | receive =>
          refine respondsTo_receive_iff.trans ?_
          exact Option.isSome_iff_exists.symm.trans isSome_hdlcRx_iff
      | changeX =>
          refine (respondsTo_map_iff fun _ => answers_usbOkPacket ..).trans ?_
          exact exists_connect_changeX_iff

theorem respondsTo_executeServo_iff :
    RespondsTo packet (executeServo b packet) ↔
      InArray packet.cmdArg1 maxServo ∧
        (ParametersServo.ofInt? packet.parameters).isSome = true := by
  unfold executeServo
  dsimp only
  by_cases hnum : InArray packet.cmdArg1 maxServo
  · cases ParametersServo.ofInt? packet.parameters with
    | none => exact iff_of_false not_respondsTo_unassigned (by simp)
    | some p =>
        refine iff_of_true ?_ ⟨hnum, rfl⟩
        cases p <;> simp only [if_pos hnum] <;> exact respondsTo_some (answers_usbOkPacket ..)
  · refine iff_of_false ?_ (fun h => hnum h.1)
    cases ParametersServo.ofInt? packet.parameters with
    | none => exact not_respondsTo_unassigned
    | some p => cases p <;> simp only [if_neg hnum] <;> exact not_respondsTo_none

end

/-- The answer of a branch that leaves the events alone. -/
theorem answers_unchanged_iff {packet : USBPacket} {events : List Event}
    {r : Option (List Operation × Option USBPacket)} :
    (∃ e response, r.map (fun r => ({ operations := r.1, events := events, response := r.2 } :
        Execution)) = some e ∧ e.response = some response ∧ Answers packet response) ↔
      RespondsTo packet r := by
  constructor
  · rintro ⟨e, response, he, hresponse, hanswers⟩
    rcases Option.map_eq_some_iff.1 he with ⟨⟨ops, response'⟩, rfl, rfl⟩
    exact ⟨ops, response, by rw [← hresponse], hanswers⟩
  · rintro ⟨ops, response, rfl, hanswers⟩
    exact ⟨_, response, rfl, rfl, hanswers⟩

theorem executeEvent_answers_iff {b : Board} {events : List Event} {packet : USBPacket}
    (hnonneg : 0 ≤ packet.dataSize.toInt) :
    (∃ e response, executeEvent b events packet = some e ∧ e.response = some response ∧
      Answers packet response) ↔
      EventAnswered events packet (ParametersEvents.ofInt? packet.parameters) := by
  unfold executeEvent
  cases ParametersEvents.ofInt? packet.parameters with
  | none =>
      refine iff_of_false ?_ id
      rintro ⟨e, response, he, hresponse, _⟩
      cases he
      cases hresponse
  | some p =>
      cases p with
      | dump => exact iff_of_true ⟨_, _, rfl, rfl, answers_usbLocalPacket ..⟩ trivial
      | conf =>
          dsimp only [EventAnswered]
          by_cases hpos : 0 < packet.dataSize.toInt
          · have hne : packet.dataSize ≠ 0 := by
              intro h0
              simp [h0] at hpos
            rw [if_pos hpos]
            by_cases hfree : events.length < maxEvents
            · rw [if_pos hfree]
              cases haction : packet.data.bind (processPacket b.staleAction) with
              | none =>
                  refine iff_of_false nofun ?_
                  rintro (h0 | ⟨_, msg, hmsg, hinside⟩)
                  · exact hne h0
                  · have hsome := (isSome_processPacket_iff b.staleAction).2 hinside
                    rw [hmsg, Option.bind_some] at haction
                    simp [haction] at hsome
              | some action =>
                  refine iff_of_true ⟨_, _, rfl, rfl, answers_usbOkPacket ..⟩ (.inr ⟨hfree, ?_⟩)
                  rcases Option.bind_eq_some_iff.1 haction with ⟨msg, hmsg, hdecoded⟩
                  refine ⟨msg, hmsg, (isSome_processPacket_iff b.staleAction).1 ?_⟩
                  simp [hdecoded]
            · rw [if_neg hfree]
              exact iff_of_false nofun fun h => h.elim hne fun h => hfree h.1
          · have h0 : packet.dataSize = 0 := BitVec.eq_of_toInt_eq (by simp; omega)
            rw [if_neg hpos]
            exact iff_of_true ⟨_, _, rfl, rfl, answers_usbErrorPacket ..⟩ (.inl h0)

/-- Whatever request comes out of `process_packet`, the response is assigned and answers it exactly
for the requests that the dispatch covers, whose arguments stay inside the arrays, and for which the
functions of `Comms` return. -/
theorem executePacket_answers_iff (b : Board) (t : Transceiver) (events : List Event)
    (stale packet : USBPacket) (msg : List UInt8)
    (hpacket : processPacket stale msg = some packet) :
    (∃ e response, executePacket (b.connect t) events packet = some e ∧
      e.response = some response ∧ Answers packet response) ↔ Answered t events packet := by
  rcases loopBytes?_of_processPacket hpacket with ⟨bytes, hbytes, hnil⟩
  have herror : ∀ ops, RespondsTo packet
      (some (ops, some (usbErrorPacket b.stale packet.packetId 1))) :=
    fun _ => respondsTo_some (answers_usbErrorPacket ..)
  unfold executePacket Answered
  cases Command.ofInt? packet.command with
  | none => exact iff_of_true (answers_unchanged_iff.2 (herror _)) trivial
  | some c =>
      cases c with
      | control => exact iff_of_true (answers_unchanged_iff.2 (herror _)) trivial
      | basicIo =>
          refine iff_of_true (answers_unchanged_iff.2 (respondsTo_some ?_)) trivial
          exact answers_executeBasicIo _ packet
      | comms =>
          by_cases hnum : packet.cmdArg1.toInt ≤ maxSerial
          · simp only [hnum, true_imp_iff]
            exact answers_unchanged_iff.trans (respondsTo_executeSerial_iff hbytes hnil)
          · simp only [hnum, false_imp_iff]
            exact iff_of_true (answers_unchanged_iff.2 (herror _)) trivial
      | event => exact executeEvent_answers_iff (data_of_processPacket hpacket).1
      | servo =>
          by_cases hnum : packet.cmdArg1.toInt ≤ maxSerial
          · simp only [hnum, true_imp_iff]
            exact answers_unchanged_iff.trans respondsTo_executeServo_iff
          · simp only [hnum, false_imp_iff]
            exact iff_of_true (answers_unchanged_iff.2 (herror _)) trivial

/-- The transceiver after a reset, with these pairs in its FIFO. -/
def resetTransceiver (fifo : List FifoPair) : Transceiver where
  memory := List.replicate 8 0
  fifo := fifo
  radio := .start fun _ => 0
  cic := Comms.cicdecWord
  left := 0

/-- `DIGITAL_WRITE` of 1 to pin 5, and `RECEIVE` with two bytes and an abort in the FIFO. -/
theorem answers_digitalWrite :
    (∃ packet e response, processPacket zeroPacket [35, 11, 3, 1, 1, 18] = some packet ∧
      executePacket (zeroBoard.connect (resetTransceiver [])) [] packet = some e ∧
      e.response = some response ∧ Answers packet response) ∧
    ∃ packet e response, processPacket zeroPacket [87, 1, 1, 1, 1, 18] = some packet ∧
      executePacket (zeroBoard.connect (resetTransceiver [⟨0, 65⟩, ⟨0, 66⟩, ⟨1, 0xFF⟩])) [] packet =
        some e ∧
      e.response = some response ∧ Answers packet response := by
  have hwrite : processPacket zeroPacket [35, 11, 3, 1, 1, 18] =
      some ⟨1, 1, 5, 1, 0, none, 9⟩ := rfl
  have hreceive : processPacket zeroPacket [87, 1, 1, 1, 1, 18] =
      some ⟨2, 11, 0, 0, 0, none, 9⟩ := rfl
  have hroom : Room (List.replicate 8 0) 2 1 := ⟨by decide, by decide⟩
  constructor
  · rcases (executePacket_answers_iff zeroBoard (resetTransceiver []) [] zeroPacket _ _ hwrite).2
      trivial with ⟨e, response, he, hresponse, hanswers⟩
    exact ⟨_, e, response, hwrite, he, hresponse, hanswers⟩
  · rcases (executePacket_answers_iff zeroBoard (resetTransceiver [⟨0, 65⟩, ⟨0, 66⟩, ⟨1, 0xFF⟩]) []
      zeroPacket _ _ hreceive).2 (fun _ => ⟨[], ⟨0, 65⟩, [⟨0, 66⟩], ⟨1, 0xFF⟩, [], rfl, by decide,
        by decide, by decide, by decide, hroom⟩) with ⟨e, response, he, hresponse, hanswers⟩
    exact ⟨_, e, response, hreceive, he, hresponse, hanswers⟩

/-- What `execute_packet` comes to after a reset: `none` for a fault, `some none` for a response
that was not assigned. -/
def responseAfterReset (fifo : List FifoPair) (packet : USBPacket) : Option (Option USBPacket) :=
  (executePacket (zeroBoard.connect (resetTransceiver fifo)) [] packet).map Execution.response

/-- `INIT_SPI`, parameters 2 of `EVENT` and parameters 3 of `SERVO`: no response is assigned.
`RECEIVE` does not return while no pair with bit 0 clear comes; `CONFIGURE`, and `CHANGE_X` for a
bitrate of 3, divide by zero. -/
theorem unassigned_responses :
    (processPacket zeroPacket [71, 1, 1, 1, 1, 18]).map (responseAfterReset []) =
      some (some none) ∧
    (processPacket zeroPacket [101, 1, 1, 1, 1, 18]).map (responseAfterReset []) =
      some (some none) ∧
    (processPacket zeroPacket [135, 1, 1, 1, 1, 18]).map (responseAfterReset []) =
      some (some none) ∧
    (processPacket zeroPacket [87, 1, 1, 1, 1, 18]).map
      (responseAfterReset [⟨1, 0x7E⟩, ⟨3, 0xAA⟩]) = some none ∧
    (processPacket zeroPacket [83, 1, 1, 1, 1, 18]).map (responseAfterReset []) = some none ∧
    (processPacket zeroPacket [89, 3, 7, 1, 1, 18]).map (responseAfterReset []) = some none := by
  decide +kernel

end Arduino
end AbsPlatform
