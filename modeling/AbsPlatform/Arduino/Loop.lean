import AbsPlatform.Arduino.Execute
import AbsPlatform.Lib.Runs

/-!
# Loop — the firmware over its whole uptime

`loop` and `events_routine` of `Arduino/abs/abs.ino` as one state machine.  A step is one of the two
parts of `loop`: a message that is received and executed, or one turn of the loop over the events;
or it is the timer interrupt, which can come between any two of them.

The array accesses of a step are listed apart from what the step does, so that they can be judged
also where the step itself is a fault.  What is sent back and what is saved on the card is no state
of the firmware and does not occur here.
-/

namespace AbsPlatform
namespace Arduino

/-! ## Accesses -/

/-- The arrays of a fixed length. -/
inductive FirmwareArray
  | eventList
  | mySerial
  | myServo
  | bitrate
  deriving DecidableEq

def FirmwareArray.length : FirmwareArray → Nat
  | eventList => maxEvents
  | mySerial => maxSerial
  | myServo => maxServo
  | bitrate => Arduino.bitrate.length

/-- An operation of the firmware that is undefined for some values. -/
inductive Access
  | index (array : FirmwareArray) (i : Int)
  | remainder (divisor : CInt)
  deriving DecidableEq

def Access.Safe : Access → Prop
  | index array i => 0 ≤ i ∧ i < array.length
  | remainder divisor => divisor ≠ 0

instance : DecidablePred Access.Safe
  | .index array i => inferInstanceAs (Decidable (0 ≤ i ∧ i < array.length))
  | .remainder divisor => inferInstanceAs (Decidable (divisor ≠ 0))

def serialAccesses (packet : USBPacket) : Option ParametersComms → List Access
  | some .initUart =>
      [.index .mySerial packet.cmdArg1.toInt, .index .bitrate packet.cmdArg2.toInt]
  | some .readUart => [.index .mySerial packet.cmdArg1.toInt]
  -- once for each byte of the data
  | some .writeUart =>
      List.replicate packet.dataSize.toInt.toNat (.index .mySerial packet.cmdArg1.toInt)
  | _ => []

/-- The accesses of `execute_packet`. -/
def packetAccesses (eventCount : Nat) (packet : USBPacket) : List Access :=
  match Command.ofInt? packet.command with
  | some .comms =>
      if packet.cmdArg1.toInt ≤ maxSerial then
        serialAccesses packet (ParametersComms.ofInt? packet.parameters)
      else []
  | some .event =>
      if ParametersEvents.ofInt? packet.parameters = some .conf ∧ 0 < packet.dataSize.toInt then
        [.index .eventList eventCount]
      else []
  | some .servo =>
      -- the same bound as for the serial ports
      if packet.cmdArg1.toInt ≤ maxSerial ∧
          (ParametersServo.ofInt? packet.parameters).isSome = true then
        [.index .myServo packet.cmdArg1.toInt]
      else []
  | some .basicIo | some .control | none => []

section

variable {b : Board} {events : List Event} {packet : USBPacket}

@[simp] theorem safe_mySerial_iff {i : CInt} :
    (Access.index .mySerial i.toInt).Safe ↔ InArray i maxSerial :=
  Iff.rfl

@[simp] theorem safe_myServo_iff {i : CInt} :
    (Access.index .myServo i.toInt).Safe ↔ InArray i maxServo :=
  Iff.rfl

@[simp] theorem safe_bitrate_iff {i : CInt} :
    (Access.index .bitrate i.toInt).Safe ↔ InArray i bitrate.length :=
  Iff.rfl

@[simp] theorem safe_eventList_iff {i : Nat} :
    (Access.index .eventList i).Safe ↔ i < maxEvents := by
  simp [Access.Safe, FirmwareArray.length]

@[simp] theorem safe_remainder_iff {divisor : CInt} :
    (Access.remainder divisor).Safe ↔ divisor ≠ 0 :=
  Iff.rfl

theorem inArray_of_getElem? {α : Type} {xs : List α} {x : α} {i : CInt}
    (hlen : xs.length < 32768) (h : xs[i.toNat]? = some x) : InArray i xs.length := by
  have hlt : i.toNat < xs.length := (List.getElem?_eq_some_iff.1 h).1
  have hint : i.toInt = i.toNat := BitVec.toInt_eq_toNat_of_lt (by omega)
  exact ⟨by omega, by omega⟩

/-- A loop over data that is not empty has a turn. -/
theorem loopBytes?_ne_nil {bytes : List UInt8} (hpos : 0 < packet.dataSize.toInt)
    (h : packet.loopBytes? = some bytes) : bytes ≠ [] := by
  have hne : packet.dataSize.toNat ≠ 0 := by
    intro h0
    have hzero : packet.dataSize = 0 := BitVec.eq_of_toNat_eq h0
    simp [hzero] at hpos
  rw [USBPacket.loopBytes?, if_pos hpos] at h
  cases hdata : packet.data with
  | none => simp [hdata] at h
  | some all =>
      rw [hdata] at h
      dsimp only at h
      split_ifs at h with hle
      cases h
      intro hnil
      have hlen := congrArg List.length hnil
      rw [List.length_take_of_le hle] at hlen
      exact hne hlen

theorem safe_of_executeSerial {r : List Operation × Option USBPacket}
    (h : executeSerial b packet = some r) :
    ∀ x ∈ serialAccesses packet (ParametersComms.ofInt? packet.parameters), x.Safe := by
  unfold executeSerial at h
  cases hparam : ParametersComms.ofInt? packet.parameters with
  | none => simp [serialAccesses]
  | some p =>
      rw [hparam] at h
      cases p with
      | initUart =>
          dsimp only at h
          cases hrate : bitrate[packet.cmdArg2.toNat]? with
          | none => simp [hrate] at h
          | some rate =>
              have hin2 : InArray packet.cmdArg2 bitrate.length :=
                inArray_of_getElem? (by decide) hrate
              by_cases hin : InArray packet.cmdArg1 maxSerial
              · simp [serialAccesses, hin, hin2]
              · simp [hrate, hin] at h
      | readUart =>
          by_cases hin : InArray packet.cmdArg1 maxSerial
          · simp [serialAccesses, hin]
          · simp [hin] at h
      | writeUart =>
          -- the port is used only if there is a byte to write
          by_cases hin : InArray packet.cmdArg1 maxSerial
          · simp [serialAccesses, hin]
          · cases hbytes : packet.loopBytes? with
            | none => simp [hbytes] at h
            | some bytes =>
                have hnil : bytes = [] := by
                  by_cases hne : bytes = []
                  · exact hne
                  · simp [hbytes, hin, hne] at h
                have hsize : packet.dataSize.toInt ≤ 0 :=
                  Int.not_lt.1 fun hpos => loopBytes?_ne_nil hpos hbytes hnil
                simp [serialAccesses, Int.toNat_of_nonpos hsize]
      | _ => simp [serialAccesses]

/-- `execute_packet` is a fault at an access that is not safe. -/
theorem safe_of_executePacket {e : Execution} (h : executePacket b events packet = some e) :
    ∀ x ∈ packetAccesses events.length packet, x.Safe := by
  unfold executePacket at h
  unfold packetAccesses
  cases hcommand : Command.ofInt? packet.command with
  | none => simp
  | some c =>
      rw [hcommand] at h
      cases c with
      | control => simp
      | basicIo => simp
      | comms =>
          dsimp only at h ⊢
          by_cases hnum : packet.cmdArg1.toInt ≤ maxSerial
          · rw [if_pos hnum] at h ⊢
            rcases Option.map_eq_some_iff.1 h with ⟨r, hr, _⟩
            exact safe_of_executeSerial hr
          · simp [hnum]
      | event =>
          by_cases hconf : ParametersEvents.ofInt? packet.parameters = some .conf ∧
              0 < packet.dataSize.toInt
          · simp only [executeEvent, hconf.1, if_pos hconf.2] at h
            by_cases hfree : events.length < maxEvents
            · simp [hconf, hfree]
            · simp [hfree] at h
          · simp [hconf]
      | servo =>
          dsimp only at h ⊢
          by_cases hnum : packet.cmdArg1.toInt ≤ maxSerial
          · rw [if_pos hnum] at h
            rcases Option.map_eq_some_iff.1 h with ⟨r, hr, _⟩
            unfold executeServo at hr
            cases hparam : ParametersServo.ofInt? packet.parameters with
            | none => simp
            | some p =>
                by_cases hin : InArray packet.cmdArg1 maxServo
                · simp [hnum, hin]
                · rw [hparam] at hr
                  cases p <;> simp [hin] at hr
          · simp [hnum]

end

/-! ## New events -/

/-- A packet that appends an event: the message with the action is complete. -/
structure Configures (packet : USBPacket) : Prop where
  command : Command.ofInt? packet.command = some .event
  parameters : ParametersEvents.ofInt? packet.parameters = some .conf
  size : 0 < packet.dataSize.toInt
  inside : ∃ msg, packet.data = some msg ∧ EndsInside msg

section

variable {b : Board} {events : List Event} {packet : USBPacket}

theorem executePacket_of_configures (b : Board) (hconf : Configures packet)
    (hfree : events.length < maxEvents) :
    ∃ e event, executePacket b events packet = some e ∧ e.events = events ++ [event] ∧
      event.interval = packet.cmdArg1 := by
  rcases hconf.inside with ⟨msg, hmsg, hinside⟩
  have hsome := (isSome_processPacket_iff b.staleAction).2 hinside
  rcases Option.isSome_iff_exists.1 hsome with ⟨action, haction⟩
  simp only [executePacket, hconf.command, executeEvent, hconf.parameters, if_pos hconf.size,
    if_pos hfree, hmsg, Option.bind_some, haction]
  exact ⟨_, _, rfl, rfl, rfl⟩

theorem executeEvent_events {e : Execution} (h : executeEvent b events packet = some e)
    (hcommand : Command.ofInt? packet.command = some .event) :
    e.events = events ∨
      Configures packet ∧ events.length < maxEvents ∧
        ∃ event, e.events = events ++ [event] ∧ event.interval = packet.cmdArg1 := by
  unfold executeEvent at h
  cases hparam : ParametersEvents.ofInt? packet.parameters with
  | none =>
      rw [hparam] at h
      cases h
      exact .inl rfl
  | some p =>
      rw [hparam] at h
      cases p with
      | dump =>
          cases h
          exact .inl rfl
      | conf =>
          dsimp only at h
          split_ifs at h with hpos hfree
          · -- an event is added when its action could be decoded
            cases haction : packet.data.bind (processPacket b.staleAction) with
            | none => simp [haction] at h
            | some action =>
                rw [haction] at h
                cases h
                rcases Option.bind_eq_some_iff.1 haction with ⟨msg, hmsg, hdecoded⟩
                have hinside : EndsInside msg :=
                  (isSome_processPacket_iff b.staleAction).1 (by simp [hdecoded])
                exact .inr ⟨⟨hcommand, hparam, hpos, msg, hmsg, hinside⟩, hfree, _, rfl, rfl⟩
          · cases h
            exact .inl rfl

theorem executePacket_events {e : Execution} (h : executePacket b events packet = some e) :
    e.events = events ∨
      Configures packet ∧ events.length < maxEvents ∧
        ∃ event, e.events = events ++ [event] ∧ event.interval = packet.cmdArg1 := by
  unfold executePacket at h
  cases hcommand : Command.ofInt? packet.command with
  | none =>
      rw [hcommand] at h
      cases h
      exact .inl rfl
  | some c =>
      rw [hcommand] at h
      cases c with
      | control =>
          cases h
          exact .inl rfl
      | basicIo =>
          cases h
          exact .inl rfl
      | comms =>
          left
          dsimp only at h
          split_ifs at h
          · rcases Option.map_eq_some_iff.1 h with ⟨r, _, rfl⟩
            rfl
          · cases h
            rfl
      | servo =>
          left
          dsimp only at h
          split_ifs at h
          · rcases Option.map_eq_some_iff.1 h with ⟨r, _, rfl⟩
            rfl
          · cases h
            rfl
      | event => exact executeEvent_events h hcommand

end

/-! ## The state machine -/

structure Firmware where
  /-- `event_list[0]` to `event_list[eventCount - 1]` -/
  events : List Event
  time : CInt
  /-- the counter of the loop over the events, `none` outside of it -/
  i : Option Nat

def Firmware.start : Firmware := { events := [], time := 0, i := none }

inductive FirmwareStep
  /-- `loop` returns before it asks for data -/
  | notReady
  /-- what is in memory from `msg` on after `RcvData` has stored a message there -/
  | receive (b : Board) (stale : USBPacket) (msg : List UInt8)
  | noData
  /-- one turn of the loop over the events; the data of an action is a pointer into the `msg` of an
  earlier call of `loop`, where anything can be by now -/
  | turn (b : Board) (data : Option (List UInt8))
  | timer

def eventsRoutine (time : CInt) (events : List Event) : Option (List Event) :=
  events.mapM fun event =>
    if event.interval = 0 then none
    else some (if time.srem event.interval = 0 then { event with execute := 1 } else event)

/-- The packet that a step executes. -/
def Firmware.executed (s : Firmware) : FirmwareStep → Option USBPacket
  | .receive _ stale msg => if s.i = none then processPacket stale msg else none
  | .turn _ data =>
      match s.i.bind (s.events[·]?) with
      | some event =>
          if event.execute = 1 then some { event.action with data := data } else none
      | none => none
  | .notReady | .noData | .timer => none

def Firmware.step (s : Firmware) (a : FirmwareStep) : Option Firmware :=
  match a, s.i with
  | .notReady, none => some s
  | .receive b _ _, none => do
      let packet ← s.executed a
      let e ← executePacket b s.events packet
      some { s with events := e.events, i := some 0 }
  | .noData, none => some { s with i := some 0 }
  | .turn b _, some i =>
      if i < s.events.length then
        match s.executed a with
        | some packet => do
            let e ← executePacket b s.events packet
            some
              { s with
                events := e.events.modify i fun event => { event with execute := 0 }
                i := some (i + 1) }
        | none => some { s with i := some (i + 1) }
      else some { s with i := none }
  | .timer, _ => do
      let events ← eventsRoutine s.time s.events
      some { s with events := events, time := s.time + 1 }
  | _, _ => none

/-- The accesses of `loop` and `events_routine` themselves. -/
def Firmware.ownAccesses (s : Firmware) : FirmwareStep → List Access
  | .turn _ _ =>
      match s.i with
      | some i => if i < s.events.length then [.index .eventList i] else []
      | none => []
  | .timer =>
      s.events.zipIdx.flatMap fun (event, i) => [.index .eventList i, .remainder event.interval]
  | .notReady | .receive _ _ _ | .noData => []

def Firmware.accesses (s : Firmware) (a : FirmwareStep) : List Access :=
  s.ownAccesses a ++ (s.executed a).toList.flatMap (packetAccesses s.events.length)

def Firmware.intervals (s : Firmware) : List CInt := s.events.map Event.interval

section

variable {s s' : Firmware} {a : FirmwareStep} {packet : USBPacket}

@[simp] theorem Firmware.length_intervals : s.intervals.length = s.events.length :=
  List.length_map ..

/-- Every event of a table without an interval of zero is flagged or left alone. -/
theorem eventsRoutine_eq_map {time : CInt} {events events' : List Event}
    (h : eventsRoutine time events = some events') :
    events' = events.map fun event =>
      if time.srem event.interval = 0 then { event with execute := 1 } else event := by
  unfold eventsRoutine at h
  induction events generalizing events' with
  | nil =>
      cases h
      rfl
  | cons event events ih =>
      simp only [List.mapM_cons, Option.bind_eq_bind, Option.bind_eq_some_iff, Option.pure_def,
        Option.some.injEq] at h
      rcases h with ⟨event', hevent, rest, hrest, rfl⟩
      by_cases hzero : event.interval = 0
      · simp [hzero] at hevent
      · rw [if_neg hzero] at hevent
        rw [List.map_cons, ih hrest, Option.some.inj hevent]

theorem intervals_eventsRoutine {time : CInt} {events events' : List Event}
    (h : eventsRoutine time events = some events') :
    events'.map Event.interval = events.map Event.interval := by
  rw [eventsRoutine_eq_map h, List.map_map]
  refine List.map_congr_left fun event _ => ?_
  simp only [Function.comp_apply]
  split_ifs <;> rfl

theorem intervals_modify_execute (i : Nat) (events : List Event) :
    (events.modify i fun event => { event with execute := 0 }).map Event.interval =
      events.map Event.interval := by
  induction events generalizing i with
  | nil => cases i <;> rfl
  | cons event events ih =>
      cases i with
      | zero => rfl
      | succ i => rw [List.modify_succ_cons, List.map_cons, List.map_cons, ih]

/-- What a step that executes a packet does to the intervals. -/
theorem Firmware.step_of_executed (h : s.executed a = some packet) :
    ∃ b, (s.step a).map Firmware.intervals =
      (executePacket b s.events packet).map fun e => e.events.map Event.interval := by
  cases a with
  | notReady => simp [executed] at h
  | noData => simp [executed] at h
  | timer => simp [executed] at h
  | receive b stale msg =>
      refine ⟨b, ?_⟩
      cases hi : s.i with
      | some i => simp [executed, hi] at h
      | none =>
          simp only [step, hi, h, Option.bind_eq_bind, Option.bind_some]
          cases executePacket b s.events packet <;> rfl
  | turn b data =>
      refine ⟨b, ?_⟩
      cases hi : s.i with
      | none => simp [executed, hi] at h
      | some i =>
          have hlt : i < s.events.length := by
            by_cases hlt : i < s.events.length
            · exact hlt
            · simp [executed, hi, hlt] at h
          simp only [step, hi, h, if_pos hlt, Option.bind_eq_bind]
          cases executePacket b s.events packet with
          | none => rfl
          | some e => exact congrArg some (intervals_modify_execute i e.events)

theorem Firmware.step_of_not_executed (h : s.executed a = none) (hstep : s.step a = some s') :
    s'.intervals = s.intervals := by
  cases a with
  | timer =>
      rcases Option.bind_eq_some_iff.1 hstep with ⟨events, hevents, hs'⟩
      cases hs'
      exact intervals_eventsRoutine hevents
  | notReady =>
      cases hi : s.i with
      | some i => simp [step, hi] at hstep
      | none =>
          simp only [step, hi, Option.some.injEq] at hstep
          rw [hstep]
  | noData =>
      cases hi : s.i with
      | some i => simp [step, hi] at hstep
      | none =>
          simp only [step, hi, Option.some.injEq] at hstep
          rw [← hstep]
          rfl
  | receive b stale msg =>
      cases hi : s.i with
      | some i => simp [step, hi] at hstep
      | none => simp [step, hi, h] at hstep
  | turn b data =>
      cases hi : s.i with
      | none => simp [step, hi] at hstep
      | some i =>
          simp only [step, hi, h] at hstep
          split_ifs at hstep
          all_goals
            cases hstep
            rfl

/-- The intervals stay as they are, or one is appended that a packet has brought. -/
theorem Firmware.step_intervals (hstep : s.step a = some s') :
    s'.intervals = s.intervals ∨
      ∃ packet, s.executed a = some packet ∧ Configures packet ∧ s.events.length < maxEvents ∧
        s'.intervals = s.intervals ++ [packet.cmdArg1] := by
  cases hexec : s.executed a with
  | none => exact .inl (step_of_not_executed hexec hstep)
  | some packet =>
      rcases step_of_executed hexec with ⟨b, hb⟩
      rw [hstep] at hb
      rcases Option.map_eq_some_iff.1 hb.symm with ⟨e, he, hintervals⟩
      rw [← hintervals]
      rcases executePacket_events he with hsame | ⟨hconf, hfree, event, hnew, hinterval⟩
      · exact .inl (by rw [hsame]; rfl)
      · refine .inr ⟨packet, rfl, hconf, hfree, ?_⟩
        rw [hnew, List.map_append, List.map_singleton, hinterval]
        rfl

/-- A packet that configures an event can be executed when there is a place. -/
theorem Firmware.step_of_configures (hexec : s.executed a = some packet)
    (hconf : Configures packet) (hfree : s.events.length < maxEvents) :
    ∃ s', s.step a = some s' ∧ packet.cmdArg1 ∈ s'.intervals := by
  rcases step_of_executed hexec with ⟨b, hb⟩
  rcases executePacket_of_configures b hconf hfree with ⟨e, event, he, hnew, hinterval⟩
  rw [he] at hb
  rcases Option.map_eq_some_iff.1 hb with ⟨s', hs', hintervals⟩
  refine ⟨s', hs', ?_⟩
  dsimp only at hintervals
  rw [hintervals, hnew, List.map_append, List.map_singleton, hinterval]
  exact List.mem_append_right _ (List.mem_singleton.2 rfl)

end

/-! ## Packets that do no harm -/

/-- The parameters of `COMMS` that use an array, with arguments inside of it. -/
def SerialInRange (packet : USBPacket) : Option ParametersComms → Prop
  | some .initUart =>
      InArray packet.cmdArg1 maxSerial ∧ InArray packet.cmdArg2 bitrate.length
  | some .readUart => InArray packet.cmdArg1 maxSerial
  | some .writeUart => 0 < packet.dataSize.toInt → InArray packet.cmdArg1 maxSerial
  | _ => True

/-- A packet whose arguments are inside the arrays of its command, at this number of events. -/
def InRange (eventCount : Nat) (packet : USBPacket) : Prop :=
  match Command.ofInt? packet.command with
  | some .comms =>
      packet.cmdArg1.toInt ≤ maxSerial →
        SerialInRange packet (ParametersComms.ofInt? packet.parameters)
  | some .event =>
      ParametersEvents.ofInt? packet.parameters = some .conf → 0 < packet.dataSize.toInt →
        eventCount < maxEvents
  | some .servo =>
      packet.cmdArg1.toInt ≤ maxSerial →
        (ParametersServo.ofInt? packet.parameters).isSome = true →
          InArray packet.cmdArg1 maxServo
  | some .basicIo | some .control | none => True

/-- The packet that a step executes is in range and configures no event of interval 0. -/
def Firmware.Harmless (s : Firmware) (a : FirmwareStep) : Prop :=
  ∀ packet, s.executed a = some packet →
    InRange s.events.length packet ∧ (Configures packet → packet.cmdArg1 ≠ 0)

theorem safe_serialAccesses_iff {packet : USBPacket} (p : Option ParametersComms) :
    (∀ x ∈ serialAccesses packet p, x.Safe) ↔ SerialInRange packet p := by
  cases p with
  | none => simp [serialAccesses, SerialInRange]
  | some p =>
      cases p with
      | writeUart => simp [serialAccesses, SerialInRange, Int.toNat_eq_zero]
      | _ => simp [serialAccesses, SerialInRange]

theorem safe_packetAccesses_iff {eventCount : Nat} {packet : USBPacket} :
    (∀ x ∈ packetAccesses eventCount packet, x.Safe) ↔ InRange eventCount packet := by
  unfold packetAccesses InRange
  cases Command.ofInt? packet.command with
  | none => simp
  | some c =>
      cases c with
      | control => simp
      | basicIo => simp
      | comms =>
          dsimp only
          split_ifs with hnum
          · simp only [hnum, true_imp_iff]
            exact safe_serialAccesses_iff _
          · simp [hnum]
      | event =>
          dsimp only
          split_ifs with hconf
          · simp [hconf.1, hconf.2]
          · refine iff_of_true (by simp) fun hparam hpos => absurd ⟨hparam, hpos⟩ hconf
      | servo =>
          dsimp only
          split_ifs with hnum
          · simp [hnum.1, hnum.2]
          · refine iff_of_true (by simp) fun hle hsome => absurd ⟨hle, hsome⟩ hnum

/-! ## Runs -/

/-- There is a place for every event, and no interval is 0. -/
structure Firmware.Valid (s : Firmware) : Prop where
  count : s.events.length ≤ maxEvents
  intervals : (0 : CInt) ∉ s.intervals

section

variable {s s' : Firmware} {a : FirmwareStep}

theorem Firmware.count_step (hs : s.events.length ≤ maxEvents) (hstep : s.step a = some s') :
    s'.events.length ≤ maxEvents := by
  rw [← length_intervals]
  rcases step_intervals hstep with hsame | ⟨packet, _, _, hfree, hnew⟩
  · rw [hsame, length_intervals]
    exact hs
  · rw [hnew, List.length_append, length_intervals]
    exact hfree

theorem Firmware.valid_step (hs : s.Valid) (ha : s.Harmless a) (hstep : s.step a = some s') :
    s'.Valid := by
  refine ⟨count_step hs.count hstep, ?_⟩
  rcases step_intervals hstep with hsame | ⟨packet, hexec, hconf, _, hnew⟩
  · exact hsame ▸ hs.intervals
  · have hne : packet.cmdArg1 ≠ 0 := (ha packet hexec).2 hconf
    rw [hnew, List.mem_append, List.mem_singleton]
    rintro (hold | h0)
    · exact hs.intervals hold
    · exact hne h0.symm

theorem Firmware.safe_ownAccesses (hs : s.Valid) (a : FirmwareStep) :
    ∀ x ∈ s.ownAccesses a, x.Safe := by
  intro x hx
  cases a with
  | notReady => simp [ownAccesses] at hx
  | receive b stale msg => simp [ownAccesses] at hx
  | noData => simp [ownAccesses] at hx
  | turn b data =>
      cases hi : s.i with
      | none => simp [ownAccesses, hi] at hx
      | some i =>
          simp only [ownAccesses, hi] at hx
          split_ifs at hx with hlt
          · rw [List.mem_singleton.1 hx, safe_eventList_iff]
            exact Nat.lt_of_lt_of_le hlt hs.count
          · simp at hx
  | timer =>
      rcases List.mem_flatMap.1 hx with ⟨⟨event, i⟩, hmem, hx⟩
      have hget : s.events[i]? = some event := List.mem_zipIdx_iff_getElem?.1 hmem
      have hlt : i < s.events.length := (List.getElem?_eq_some_iff.1 hget).1
      simp only [List.mem_cons, List.not_mem_nil, or_false] at hx
      rcases hx with rfl | rfl
      · exact safe_eventList_iff.2 (Nat.lt_of_lt_of_le hlt hs.count)
      · intro h0
        refine hs.intervals (List.mem_map.2 ⟨event, List.mem_of_getElem? hget, h0⟩)

theorem Firmware.intervals_of_safe_timer (h : ∀ x ∈ s.accesses .timer, x.Safe) :
    (0 : CInt) ∉ s.intervals := by
  intro hzero
  rcases List.mem_map.1 hzero with ⟨event, hevent, h0⟩
  rcases List.getElem?_of_mem hevent with ⟨i, hi⟩
  refine h (.remainder event.interval) (List.mem_append_left _ ?_) h0
  exact List.mem_flatMap.2 ⟨(event, i), List.mem_zipIdx_iff_getElem?.2 hi, by simp⟩

theorem Firmware.safe_accesses_iff (hs : s.Valid) :
    (∀ x ∈ s.accesses a, x.Safe) ↔
      ∀ packet, s.executed a = some packet → InRange s.events.length packet := by
  simp only [← safe_packetAccesses_iff, accesses, List.mem_append, List.mem_flatMap,
    Option.mem_toList, or_imp, forall_and]
  constructor
  · rintro ⟨_, h⟩ packet hpacket x hx
    exact h x ⟨packet, hpacket, hx⟩
  · intro h
    refine ⟨safe_ownAccesses hs a, ?_⟩
    rintro x ⟨packet, hpacket, hx⟩
    exact h packet hpacket x hx

end

/-- In every state of a run the accesses of the timer interrupt, and those of the step that comes
next, are safe: exactly when every packet that is executed in the run is harmless. -/
theorem firmware_safe_iff (acts : List FirmwareStep) :
    (∀ pre post s, acts = pre ++ post → pre.foldlM Firmware.step .start = some s →
      (∀ x ∈ s.accesses .timer, x.Safe) ∧ ∀ a ∈ post.head?, ∀ x ∈ s.accesses a, x.Safe) ↔
    ∀ pre a post s, acts = pre ++ a :: post → pre.foldlM Firmware.step .start = some s →
      s.Harmless a := by
  have hinit : Firmware.start.Valid := ⟨Nat.zero_le _, by simp [Firmware.intervals, Firmware.start]⟩
  constructor
  · intro hsafe pre a post s hsplit hpre
    rcases hsafe pre (a :: post) s hsplit hpre with ⟨htimer, hnext⟩
    have hcount : s.events.length ≤ maxEvents :=
      Lib.run_invariant (I := fun s => s.events.length ≤ maxEvents) Firmware.count_step hinit.count
        hpre
    have hs : s.Valid := ⟨hcount, Firmware.intervals_of_safe_timer htimer⟩
    have hrange := (Firmware.safe_accesses_iff hs).1 (hnext a rfl)
    intro packet hexec
    refine ⟨hrange packet hexec, fun hconf h0 => ?_⟩
    have hfree : s.events.length < maxEvents := by
      have hin := hrange packet hexec
      simp only [InRange, hconf.command] at hin
      exact hin hconf.parameters hconf.size
    -- the next timer interrupt would meet the new interval
    rcases Firmware.step_of_configures hexec hconf hfree with ⟨s', hstep, hmem⟩
    rcases hsafe (pre ++ [a]) post s' (by simp [hsplit]) (Lib.run_snoc hpre hstep) with ⟨hafter, _⟩
    exact Firmware.intervals_of_safe_timer hafter (h0 ▸ hmem)
  · intro hharmless pre post s hsplit hpre
    have hs : s.Valid := by
      refine Lib.run_invariant_of Firmware.valid_step hinit ?_ hpre
      intro pre' a' post' u hsplit' hpre'
      exact hharmless pre' a' (post' ++ post) u (by simp [hsplit, hsplit']) hpre'
    refine ⟨(Firmware.safe_accesses_iff hs).2 (by simp [Firmware.executed]), fun a ha => ?_⟩
    rcases post with _ | ⟨a', post⟩
    · simp at ha
    · cases ha
      refine (Firmware.safe_accesses_iff hs).2 fun packet hexec => ?_
      exact (hharmless pre a post s hsplit hpre packet hexec).1

/-- An event of interval 0 whose action is a `DIGITAL_WRITE`. -/
def confEveryTime : List UInt8 := [97, 1, 1, 1, 13, 35, 11, 3, 1, 1, 18, 18]

/-- The same event with interval 1. -/
def confEveryTick : List UInt8 := [97, 3, 1, 1, 13, 35, 11, 3, 1, 1, 18, 18]

/-- One call of `loop` that configures an event when there are `k`, and looks at all of them. -/
def configureLoop (k : Nat) : List FirmwareStep :=
  .receive zeroBoard zeroPacket confEveryTick :: List.replicate (k + 2) (.turn zeroBoard none)

/-- Interval 0, the eleventh event, `SET_DC` of servo 2 and `INIT_UART` with bitrate 11. -/
theorem firmware_accesses_unsafe :
    ([FirmwareStep.receive zeroBoard zeroPacket confEveryTime].foldlM Firmware.step .start).any
      (fun s => decide (Access.remainder 0 ∈ s.accesses .timer)) = true ∧
    (((List.range 10).flatMap configureLoop).foldlM Firmware.step .start).any
      (fun s => decide (Access.index .eventList 10 ∈
        s.accesses (.receive zeroBoard zeroPacket confEveryTick))) = true ∧
    Access.index .myServo 2 ∈
      Firmware.start.accesses (.receive zeroBoard zeroPacket [131, 5, 1, 1, 1, 18]) ∧
    Access.index .bitrate 11 ∈
      Firmware.start.accesses (.receive zeroBoard zeroPacket [65, 1, 23, 1, 1, 18]) ∧
    ¬ (Access.remainder 0).Safe ∧ ¬ (Access.index .eventList 10).Safe ∧
    ¬ (Access.index .myServo 2).Safe ∧ ¬ (Access.index .bitrate 11).Safe := by
  decide +kernel

end Arduino
end AbsPlatform
