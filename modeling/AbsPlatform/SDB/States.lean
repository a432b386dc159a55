import AbsPlatform.SDB.Effects

/-!
# States — requests for the value of a state

What `process_pkt_state` answers, and the minimum expire time that a state can have for each group.
The bus should refuse a request whose first argument is below the minimum for the group of the
module that asks, and answer any other one with the data of the request function.
-/

namespace AbsPlatform
namespace SDB

open MCS Lib

/-! ## The minimum expire times -/

/-- The list `expire_group` of a state: one entry for a group at most. -/
structure ExpireList where
  perms : List MCSCommandOptionsStatePerms
  length_le : perms.length ≤ sdbGroupMax
  nodup : (perms.map MCSCommandOptionsStatePerms.group).Nodup

/-- The C array made from the list; what is left out is zero. -/
def ExpireList.array (expire : ExpireList) : Vector MCSCommandOptionsStatePerms sdbGroupMax :=
  Vector.ofFn fun i => expire.perms.getD i { group := .syscore, maxExpire := 0 }

/-- The list has an entry for the group that is greater than the first argument. -/
def ExpireList.Above (expire : ExpireList) (group : SDBGroup) (pkt : MCSPacket) : Prop :=
  ∃ p ∈ expire.perms, p.group = group ∧
    ∃ a, pkt.argBytes.head? = some a ∧ (a.toNat : Int) < p.maxExpire

/-! ## Answers -/

/-- The request is answered with this packet and no other. -/
def AnswersWith (cfg : SDBConfig) (me : Nat) (pkt : MCSPacket) (s : Bus) (answer : MCSPacket) :
    Prop :=
  ∃ s', processPktState cfg me pkt s = .ok s' ∧ s'.replies me = s.replies me ++ [answer]

/-- The request is answered with `OK_DATA` and exactly these bytes. -/
def AnswersData (cfg : SDBConfig) (me : Nat) (pkt : MCSPacket) (s : Bus) (data : List UInt8) :
    Prop :=
  ∃ answer, AnswersWith cfg me pkt s answer ∧ answer.type = MCSType.okData.code ∧
    answer.id = pkt.id ∧ answer.dataSize.toNat = data.length ∧ answer.dataBytes = data

section

variable {cfg : SDBConfig} {me : Nat} {pkt : MCSPacket} {s : Bus}
  {entry : MCSCommandOptionsState} {data : List UInt8}

/-- The size field of an answer has 16 bits, and an answer must not be empty. -/
theorem dataSize_mcsOkPacketData_iff (pkt : MCSPacket) :
    data.length % 2 ^ 16 ≠ 0 ∧ (mcsOkPacketData pkt data).dataSize.toNat = data.length ↔
      data ≠ [] ∧ data.length ≤ 65535 := by
  have hsize : (mcsOkPacketData pkt data).dataSize.toNat = data.length % 2 ^ 16 :=
    UInt16.toNat_ofNat'
  rw [hsize, ← List.length_pos_iff]
  omega

theorem dataBytes_mcsOkPacketData (hle : data.length ≤ 65535) :
    (mcsOkPacketData pkt data).dataBytes = data := by
  have hmod : data.length % 2 ^ 16 = data.length := Nat.mod_eq_of_lt (by omega)
  cases data with
  | nil => rfl
  | cons b data =>
      change List.take (_ % 2 ^ 16) _ = _
      rw [hmod, List.take_length]

/-- The one answer of a request whose function has given data. -/
theorem answersWith_iff (hentry : cfg.tables.states[pkt.cmd.toNat]? = some entry)
    (hdata : responseData entry.cmd.responseSize (entry.request pkt) = .ok data)
    {answer : MCSPacket} :
    AnswersWith cfg me pkt s answer ↔
      data.length % 2 ^ 16 ≠ 0 ∧ answer = mcsOkPacketData pkt data := by
  have hreplies : ∀ s', processPktState cfg me pkt s = .ok s' →
      s'.replies me = s.replies me ++ accepted cfg (mcsOkPacketData pkt data) := by
    intro s' hs'
    rcases processPktState_cases hs' with ⟨hnone, _⟩ | ⟨data', ⟨entry', hentry', hdata'⟩, hreplied⟩
    · simp [hentry] at hnone
    · rw [hentry] at hentry'
      cases hentry'
      rw [hdata] at hdata'
      cases hdata'
      exact hreplied.replies
  have hok : processPktState cfg me pkt s = .ok (writeCommand cfg me .socket
      (mcsOkPacketData pkt data) (registerEvent cfg me .pktReady pkt s)) := by
    simp [processPktState, hentry, expireRefused_eq, hdata, bind, Except.bind]
  constructor
  · rintro ⟨s', hs', hanswer⟩
    rw [hreplies s' hs', List.append_cancel_left_eq, accepted_mcsOkPacketData] at hanswer
    split_ifs at hanswer with hsize
    cases hanswer
    exact ⟨hsize, rfl⟩
  · rintro ⟨hsize, rfl⟩
    exact ⟨_, hok, by rw [hreplies _ hok, accepted_mcsOkPacketData, if_pos hsize]⟩

/-- Data that fits the size field arrives as it is. -/
theorem answersData_iff (hentry : cfg.tables.states[pkt.cmd.toNat]? = some entry)
    (hdata : responseData entry.cmd.responseSize (entry.request pkt) = .ok data) :
    AnswersData cfg me pkt s data ↔ data ≠ [] ∧ data.length ≤ 65535 := by
  rw [← dataSize_mcsOkPacketData_iff pkt]
  constructor
  · rintro ⟨answer, hanswer, _, _, hsize, _⟩
    rcases (answersWith_iff hentry hdata).1 hanswer with ⟨hmod, rfl⟩
    exact ⟨hmod, hsize⟩
  · rintro ⟨hmod, hsize⟩
    have hle := ((dataSize_mcsOkPacketData_iff pkt).1 ⟨hmod, hsize⟩).2
    exact ⟨_, (answersWith_iff hentry hdata).2 ⟨hmod, rfl⟩, rfl, rfl, hsize,
      dataBytes_mcsOkPacketData hle⟩

/-- Whatever the list says, no state request is refused with `EPERM`. -/
theorem not_answersWith_eperm (hentry : cfg.tables.states[pkt.cmd.toNat]? = some entry)
    (hdata : responseData entry.cmd.responseSize (entry.request pkt) = .ok data) :
    ¬ AnswersWith cfg me pkt s (mcsErrPacket pkt eperm) := by
  intro h
  rcases (answersWith_iff hentry hdata).1 h with ⟨_, hsame⟩
  have htype := congrArg MCSPacket.type hsame
  have hcodes : MCSType.err.code = MCSType.okData.code := htype
  exact absurd hcodes (by decide)

end

/-- A request is refused with `EPERM` if the minimum of its group is above its argument, and
answered with the data otherwise: exactly when it need not be refused and the data fits in an
answer. -/
theorem state_expire_iff (cfg : SDBConfig) (me : Nat) (pkt : MCSPacket) (s : Bus)
    (cmd : MCSCommandOptionsCommon) (request : MCSPacket → Option (List UInt8))
    (expire : ExpireList) (data : List UInt8)
    (hentry : cfg.tables.states[pkt.cmd.toNat]? =
      some { cmd := cmd, request := request, expireGroup := expire.array })
    (hdata : responseData cmd.responseSize (request pkt) = .ok data) :
    ((AnswersWith cfg me pkt s (mcsErrPacket pkt eperm) ↔
        expire.Above (s.modules me).group pkt) ∧
      (¬ expire.Above (s.modules me).group pkt → AnswersData cfg me pkt s data)) ↔
    ¬ expire.Above (s.modules me).group pkt ∧ data ≠ [] ∧ data.length ≤ 65535 := by
  have hnever : ¬ AnswersWith cfg me pkt s (mcsErrPacket pkt eperm) :=
    not_answersWith_eperm hentry hdata
  rw [answersData_iff hentry hdata]
  constructor
  · rintro ⟨heperm, hok⟩
    have hnot : ¬ expire.Above (s.modules me).group pkt := fun habove => hnever (heperm.2 habove)
    exact ⟨hnot, hok hnot⟩
  · rintro ⟨hnot, hfits⟩
    exact ⟨iff_of_false hnever hnot, fun _ => hfits⟩

/-! ## A temperature that applications should not ask for too often -/

/-- The list of `temperature_arduino`. -/
def appExpire : ExpireList where
  perms := [{ group := .app, maxExpire := 15 }]
  length_le := by decide
  nodup := by decide

def eightBytes : List UInt8 := [1, 2, 3, 4, 5, 6, 7, 8]

/-- The state with a sensor behind it. -/
def temperatureTables : MCSTables where
  messages := []
  states :=
    [{ cmd := { nargs := 1, rawData := false, responseSize := 8 }
       request := fun _ => some eightBytes
       expireGroup := appExpire.array }]
  payloads := []

def temperatureConfig (arch : Arch) : SDBConfig :=
  { shippedConfig arch with tables := temperatureTables }

/-- Module 0 is an application. -/
def oneApplication : Bus :=
  coreAndProcman.update 0 fun m => { m with group := .app }

/-- Asks for a value that is at most so old. -/
def temperatureRequest (age : UInt8) : MCSPacket :=
  rawPacket 7 65536 none (byteBlock age) emptyBlock

/-- The minimum is 15 and the argument 5, and the answer is the data, on both architectures. -/
theorem temperature_not_refused :
    appExpire.Above (oneApplication.modules 0).group (temperatureRequest 5) ∧
      ∀ arch, ∃ s', processPktState (temperatureConfig arch) 0 (temperatureRequest 5)
          oneApplication = .ok s' ∧
        (s'.replies 0).map (fun r => (r.type, r.dataBytes)) =
          [(MCSType.okData.code, eightBytes)] := by
  refine ⟨⟨_, List.mem_singleton.2 rfl, rfl, 5, rfl, by decide⟩, ?_⟩
  rintro (_ | _)
  · exact ⟨_, rfl, by decide +kernel⟩
  · exact ⟨_, rfl, by decide +kernel⟩

/-- With the argument 20 there is nothing to refuse. -/
theorem temperature_answered :
    AnswersData (temperatureConfig .lp64) 0 (temperatureRequest 20) oneApplication eightBytes := by
  have hnot : ¬ appExpire.Above (oneApplication.modules 0).group (temperatureRequest 20) := by
    rintro ⟨p, hp, _, a, ha, hlt⟩
    cases List.mem_singleton.1 hp
    cases ha
    exact absurd hlt (by decide)
  exact ((state_expire_iff (temperatureConfig .lp64) 0 (temperatureRequest 20) oneApplication _ _
    appExpire eightBytes rfl rfl).2 ⟨hnot, by decide, by decide⟩).2 hnot

end SDB
end AbsPlatform
