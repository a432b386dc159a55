import AbsPlatform.MCS.CommandSet
import AbsPlatform.MCS.Frame

/-!
# SendSync — a request of the Java SDK and its answer

`SDBPacket` of the payload SDK, `sendSyncSDB` of `libraries.c` and `sendSyncNative` of `wrapper.c`.
A Java reference is an `Option`, `none` for `null`, and a call that ends in an exception is `none`.

The number the native wrapper hands to the constructor of the answer is the *size* of the answer's
data, where the constructor expects its type.  `javaPacket_own` and `javaPacket_stray_iff` say what
that makes of an answer to the request and of an answer to some other request.
-/

namespace AbsPlatform
namespace Android

open Lib MCS

/-! ## SDBPacket.java -/

inductive CMD
  | analogWrite
  | digitalWrite
  | analogRead
  | digitalRead
  | digitalToogle
  | initSerial
  | readSerial
  | writeSerial
  | createEvent
  | dumpBuffer
  | setInterval
  | ok
  | okData
  | error
  deriving DecidableEq, Repr

def CMD.getCmd : CMD → UInt32
  | .analogWrite => 131072
  | .digitalWrite => 131073
  | .analogRead => 131074
  | .digitalRead => 131075
  | .digitalToogle => 131076
  | .initSerial => 131077
  | .readSerial => 131078
  | .writeSerial => 131079
  | .createEvent => 131080
  | .dumpBuffer => 131081
  | .setInterval => 131082
  | .ok => 0
  | .okData => 1
  | .error => 2

structure SDBPacket where
  cmd : CMD
  args : Option (List UInt8)
  data : Option (List UInt8)
  deriving DecidableEq

namespace SDBPacket

/-- `SDBPacket(CMD, byte[], byte[])`, the constructor of requests: no arguments are an exception,
no data are an empty list. -/
def request (cmd : CMD) (args data : Option (List UInt8)) : Option SDBPacket :=
  args.map fun bs => { cmd := cmd, args := some bs, data := some (data.getD []) }

/-- `SDBPacket(int, byte[])`, the constructor of answers.  Only the second case looks at the
data. -/
def answer (cmd : Int) (data : Option (List UInt8)) : Option SDBPacket :=
  if cmd = 253 then
    some { cmd := .ok, args := none, data := none }
  else if cmd = 254 then
    data.map fun bs => { cmd := .okData, args := none, data := some bs }
  else
    some { cmd := .error, args := none, data := none }

/-- The packet for a request without an answer: `SDBPacket(0, null)`. -/
def failure : SDBPacket := { cmd := .error, args := none, data := none }

theorem answer_of_ne {cmd : Int} (data : Option (List UInt8)) (hok : cmd ≠ 253)
    (hdata : cmd ≠ 254) : answer cmd data = some failure := by
  simp [answer, hok, hdata, failure]

theorem answer_null : answer 0 none = some failure := rfl

theorem isSome_answer (cmd : Int) (bs : List UInt8) : (answer cmd (some bs)).isSome = true := by
  unfold answer
  split_ifs <;> rfl

/-- An answer differs from the packet for none exactly when its number is one of two. -/
theorem answer_eq_failure_iff (cmd : Int) (bs : List UInt8) :
    answer cmd (some bs) = some failure ↔ cmd ≠ 253 ∧ cmd ≠ 254 := by
  constructor
  · intro h
    constructor
    · rintro rfl
      simp [answer, failure] at h
    · rintro rfl
      simp [answer, failure] at h
  · rintro ⟨hok, hdata⟩
    exact answer_of_ne _ hok hdata

end SDBPacket

/-! ## libraries.c -/

/-- `sendSyncSDB`.  The copy it returns has the fields of the packet that was read. -/
def sendSyncSDB (t : MCSTables) (rfd : Int) (wfd : WriteFd) (pkt : Option MCSPacket)
    (input : List UInt8) : Option MCSPacket :=
  match pkt with
  | none => none
  | some pkt =>
      if (mcsWriteCommand t pkt wfd).1 ≠ 0 then
        none
      else
        match (mcsReadCommand t rfd wfd input).pkt with
        | none => none
        | some received =>
            -- identifiers that differ are reported, and nothing more
            if received.id ≠ pkt.id then
              some received
            else if received.type ≠ MCSType.ok.code then
              none
            else
              some received

/-! ## wrapper.c -/

theorem short_take (bs : List UInt8) : (bs.take (bs.length % 2 ^ 16)).length < 2 ^ 16 := by
  rw [List.length_take]
  omega

/-- A Java array as the `unsigned short` and the pointer of `mcs_create_packet`. -/
def arrayBlock (bs : List UInt8) : Block where
  bytes := bs.take (bs.length % 2 ^ 16)
  short := short_take bs

/-- The packet the wrapper makes of a request whose arrays it could read. -/
def createRequest (t : MCSTables) (random : UInt32) (cmd : CMD) (args data : List UInt8) :
    Option MCSPacket :=
  mcsCreatePacket t random cmd.getCmd (arrayBlock args) (arrayBlock data)

/-- The packet for Java: the first argument of the constructor is the size of the data. -/
def javaPacket : Option MCSPacket → Option SDBPacket
  | some response => SDBPacket.answer response.dataSize.toNat (some response.dataBytes)
  | none => SDBPacket.answer 0 none

/-- `Java_com_abs_payloadsdk_sdb_SDB_sendSyncNative`; `getArgs` and `getData` throw on a packet
without the list they copy. -/
def sendSyncNative (t : MCSTables) (random : UInt32) (rfd : Int) (wfd : WriteFd)
    (packet : SDBPacket) (input : List UInt8) : Option SDBPacket := do
  let args ← packet.args
  let data ← packet.data
  javaPacket (sendSyncSDB t rfd wfd (createRequest t random packet.cmd args data) input)

/-! ## What the SDK sees -/

theorem isSome_javaPacket (response : Option MCSPacket) :
    (javaPacket response).isSome = true := by
  cases response with
  | none => rfl
  | some pkt => exact SDBPacket.isSome_answer _ _

/-- A request of the SDK always comes back with some packet, whatever the bus does. -/
theorem isSome_sendSyncNative (t : MCSTables) (random : UInt32) (rfd : Int) (wfd : WriteFd)
    {cmd : CMD} {args data : Option (List UInt8)} {packet : SDBPacket}
    (hpacket : SDBPacket.request cmd args data = some packet) (input : List UInt8) :
    (sendSyncNative t random rfd wfd packet input).isSome = true := by
  rcases Option.map_eq_some_iff.1 hpacket with ⟨bs, _, rfl⟩
  exact isSome_javaPacket _

/-- A packet that `mcs_read_command` delivers with the type `OK` has no data. -/
theorem dataSize_of_ok {t : MCSTables} {rfd : Int} {wfd : WriteFd} {input : List UInt8}
    {received : MCSPacket} (hread : (mcsReadCommand t rfd wfd input).pkt = some received)
    (hok : received.type = MCSType.ok.code) : received.dataSize = 0 := by
  have hrfd : 0 ≤ rfd := by
    by_contra hneg
    simp [mcsReadCommand, Int.not_le.1 hneg] at hread
  rcases (mcsReadCommand_iff t hrfd wfd input _ received).1 ⟨hread, rfl⟩ with ⟨f, hfits, _, rfl⟩
  cases f with
  | command id type cmd args dest data =>
      -- a frame of a command has a type with a table
      rcases hfits with ⟨opts, hopts, _⟩
      have htype : type = .ok := MCSType.code_injective hok
      subst htype
      cases hopts
  | err id code => exact absurd (show MCSType.err.code = MCSType.ok.code from hok) (by decide)
  | okData id data =>
      exact absurd (show MCSType.okData.code = MCSType.ok.code from hok) (by decide)
  | ok id => rfl

section Exchange

/-! One exchange: the request was created and written, and a packet came back. -/

variable {t : MCSTables} {rfd : Int} {wfd : WriteFd} {input : List UInt8}
variable {request received : MCSPacket}

/-- An answer with another identifier is returned, whatever its type. -/
theorem sendSyncSDB_stray (hwrite : (mcsWriteCommand t request wfd).1 = 0)
    (hread : (mcsReadCommand t rfd wfd input).pkt = some received)
    (hid : received.id ≠ request.id) :
    sendSyncSDB t rfd wfd (some request) input = some received := by
  simp [sendSyncSDB, hwrite, hread, hid]

/-- Of the answers to the request itself only an `OK` is returned. -/
theorem sendSyncSDB_own (hwrite : (mcsWriteCommand t request wfd).1 = 0)
    (hread : (mcsReadCommand t rfd wfd input).pkt = some received)
    (hid : received.id = request.id) :
    sendSyncSDB t rfd wfd (some request) input =
      if received.type = MCSType.ok.code then some received else none := by
  by_cases hok : received.type = MCSType.ok.code
  · simp [sendSyncSDB, hwrite, hread, hid, hok]
  · simp [sendSyncSDB, hwrite, hread, hid, hok]

/-- The answer to the request itself always looks like no answer: an `OK` has no data, and a size
of zero is no number of an answer. -/
theorem javaPacket_own (hwrite : (mcsWriteCommand t request wfd).1 = 0)
    (hread : (mcsReadCommand t rfd wfd input).pkt = some received)
    (hid : received.id = request.id) :
    javaPacket (sendSyncSDB t rfd wfd (some request) input) = some SDBPacket.failure := by
  rw [sendSyncSDB_own hwrite hread hid]
  by_cases hok : received.type = MCSType.ok.code
  · have hsize : received.dataSize = 0 := dataSize_of_ok hread hok
    rw [if_pos hok, javaPacket, hsize]
    exact SDBPacket.answer_of_ne _ (by decide) (by decide)
  · rw [if_neg hok]
    exact SDBPacket.answer_null

/-- An answer to another request looks like no answer unless the size of its data is 253 or 254. -/
theorem javaPacket_stray_iff (hwrite : (mcsWriteCommand t request wfd).1 = 0)
    (hread : (mcsReadCommand t rfd wfd input).pkt = some received)
    (hid : received.id ≠ request.id) :
    javaPacket (sendSyncSDB t rfd wfd (some request) input) = some SDBPacket.failure ↔
      received.dataSize ≠ 253 ∧ received.dataSize ≠ 254 := by
  rw [sendSyncSDB_stray hwrite hread hid, javaPacket, SDBPacket.answer_eq_failure_iff]
  have hsize (n : UInt16) : (received.dataSize.toNat : Int) ≠ (n.toNat : Int) ↔
      received.dataSize ≠ n := by
    rw [Ne, Int.ofNat_inj, UInt16.toNat_inj]
  exact and_congr (hsize 253) (hsize 254)

end Exchange

/-! ## The answer of the bus -/

/-- The packet for Java stands for the answer: the kind of the answer, and its bytes. -/
def Represents (answer : MCSPacket) (result : SDBPacket) : Prop :=
  (answer.type = MCSType.ok.code → result.cmd = .ok) ∧
    (answer.type = MCSType.okData.code →
      result.cmd = .okData ∧ result.data = some answer.dataBytes) ∧
    (answer.type = MCSType.err.code → result.cmd = .error)

/-- The SDK sees the answer the bus gave: the answer to the request is represented, and one to
another request leaves what no answer leaves. -/
def Sees (request answer : MCSPacket) (result : Option SDBPacket) : Prop :=
  if answer.id = request.id then ∃ r, result = some r ∧ Represents answer r
  else result = some SDBPacket.failure

/-- Among the answers only an `ERR` is represented by the packet for none. -/
theorem represents_failure_iff {answer : MCSPacket} (hanswer : answer.isAnswer = true) :
    Represents answer SDBPacket.failure ↔ answer.type = MCSType.err.code := by
  constructor
  · rintro ⟨hok, hdata, _⟩
    simp only [MCSPacket.isAnswer, Bool.or_eq_true, decide_eq_true_eq] at hanswer
    rcases hanswer with (htype | htype) | htype
    · cases hok htype
    · cases (hdata htype).1
    · exact htype
  · intro htype
    refine ⟨?_, ?_, fun _ => rfl⟩
    · intro h
      exact absurd (MCSType.code_injective (htype.symm.trans h)) (by decide)
    · intro h
      exact absurd (MCSType.code_injective (htype.symm.trans h)) (by decide)

/-- The SDK sees the answer exactly when it is an `ERR` to the request, or an answer to another
request whose data have neither 253 nor 254 bytes. -/
theorem sendSyncNative_sees_iff (t : MCSTables) (random : UInt32) (rfd : Int) (wfd : WriteFd)
    (packet : SDBPacket) (args data : List UInt8) (input : List UInt8)
    (request answer : MCSPacket) (hargs : packet.args = some args) (hdata : packet.data = some data)
    (hrequest : createRequest t random packet.cmd args data = some request)
    (hwrite : (mcsWriteCommand t request wfd).1 = 0)
    (hread : (mcsReadCommand t rfd wfd input).pkt = some answer)
    (hanswer : answer.isAnswer = true) :
    Sees request answer (sendSyncNative t random rfd wfd packet input) ↔
      (answer.id = request.id ∧ answer.type = MCSType.err.code) ∨
        (answer.id ≠ request.id ∧ answer.dataSize ≠ 253 ∧ answer.dataSize ≠ 254) := by
  have hresult : sendSyncNative t random rfd wfd packet input =
      javaPacket (sendSyncSDB t rfd wfd (some request) input) := by
    simp [sendSyncNative, hargs, hdata, hrequest]
  rw [hresult, Sees]
  by_cases hid : answer.id = request.id
  · rw [if_pos hid, javaPacket_own hwrite hread hid]
    simpa [hid] using represents_failure_iff hanswer
  · rw [if_neg hid, javaPacket_stray_iff hwrite hread hid]
    simp [hid]

/-! ## The request of the shipped configuration -/

/-- `new SDBPacket(ANALOG_WRITE, {3}, null)`. -/
def pinRequest : SDBPacket := { cmd := .analogWrite, args := some [3], data := some [] }

/-- What the wrapper sends for it, with identifier 5. -/
def pinPacket : MCSPacket := rawPacket 5 131072 none (byteBlock 3) emptyBlock

theorem createRequest_pinRequest :
    createRequest commandSet 5 pinRequest.cmd [3] [] = some pinPacket := by
  decide +kernel

theorem mcsWriteCommand_pinPacket : (mcsWriteCommand commandSet pinPacket openFd).1 = 0 := by
  decide +kernel

/-- The stream with an `ERR` to the request: identifier, type and the error code. -/
theorem sendSyncNative_sees_iff_pinRequest :
    Sees pinPacket (mcsErrPacketId 5 ebadformat)
      (sendSyncNative commandSet 5 3 openFd pinRequest
        ([5, 0, 0, 0, 255] ++ intBytes ebadformat)) := by
  refine (sendSyncNative_sees_iff commandSet 5 3 openFd pinRequest [3] [] _ pinPacket _ rfl rfl
    createRequest_pinRequest mcsWriteCommand_pinPacket ?_ rfl).2 (Or.inl ⟨rfl, rfl⟩)
  decide +kernel

/-- A stream with an `OK` to the request, and one with 254 bytes for another request: the first is
an `ERROR` to the SDK, the second its `OK_DATA`. -/
theorem sendSyncNative_mistakes :
    (mcsReadCommand commandSet 3 openFd [5, 0, 0, 0, 253]).pkt = some (mcsOkPacketId 5) ∧
      ¬ Sees pinPacket (mcsOkPacketId 5)
        (sendSyncNative commandSet 5 3 openFd pinRequest [5, 0, 0, 0, 253]) ∧
      (mcsReadCommand commandSet 3 openFd
        ([9, 0, 0, 0, 254, 254, 0] ++ List.replicate 254 7)).pkt =
          some (mcsOkPacketDataId 9 (List.replicate 254 7)) ∧
      ¬ Sees pinPacket (mcsOkPacketDataId 9 (List.replicate 254 7))
        (sendSyncNative commandSet 5 3 openFd pinRequest
          ([9, 0, 0, 0, 254, 254, 0] ++ List.replicate 254 7)) := by
  have hok : sendSyncNative commandSet 5 3 openFd pinRequest [5, 0, 0, 0, 253] =
      some SDBPacket.failure := by
    decide +kernel
  have hstray : sendSyncNative commandSet 5 3 openFd pinRequest
      ([9, 0, 0, 0, 254, 254, 0] ++ List.replicate 254 7) =
        some { cmd := .okData, args := none, data := some (List.replicate 254 7) } := by
    decide +kernel
  refine ⟨by decide +kernel, ?_, by decide +kernel, ?_⟩
  · have hid : (mcsOkPacketId 5).id = pinPacket.id := rfl
    rw [hok, Sees, if_pos hid]
    rintro ⟨r, hr, hrep⟩
    cases hr
    exact absurd ((represents_failure_iff rfl).1 hrep) (by decide)
  · rw [hstray, Sees, if_neg (by decide)]
    intro h
    exact absurd (congrArg (Option.map SDBPacket.cmd) h) (by decide)

end Android
end AbsPlatform
