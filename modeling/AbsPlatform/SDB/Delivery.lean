import AbsPlatform.SDB.Permissions
import AbsPlatform.SDB.Turn

/-!
# Delivery — what becomes of a packet that a client sends

Two promises of the bus about a packet that `process_pkt_socket` has read: a request gets at most
one answer from the SDB itself, and no packet is lost without an answer.  Each is compared with the
code, in every state of the modules and of the event log.
-/

namespace AbsPlatform
namespace SDB

open MCS Lib

variable {cfg : SDBConfig} {me : Nat} {pkt : MCSPacket} {s s' : Bus}

/-! ## The answers the SDB gives itself -/

/-- The answers with an id among packets written to a socket. -/
def answersTo (x : UInt32) (written : List MCSPacket) : Nat :=
  written.countP fun r => r.isAnswer && r.id == x

/-- Packets that answer `pkt`. -/
def AllAnswer (pkt : MCSPacket) (replies : List MCSPacket) : Prop :=
  ∀ r ∈ replies, r.isAnswer = true ∧ r.id = pkt.id

theorem answersTo_append (x : UInt32) (l₁ l₂ : List MCSPacket) :
    answersTo x (l₁ ++ l₂) = answersTo x l₁ + answersTo x l₂ :=
  List.countP_append

theorem answersTo_of_allAnswer {replies : List MCSPacket} (h : AllAnswer pkt replies) :
    answersTo pkt.id replies = replies.length :=
  List.countP_eq_length.2 fun r hr => by simp [h r hr]

theorem allAnswer_singleton {r : MCSPacket} (hanswer : r.isAnswer = true) (hid : r.id = pkt.id) :
    AllAnswer pkt [r] := by
  intro r' hr'
  rw [List.mem_singleton.1 hr']
  exact ⟨hanswer, hid⟩

theorem allAnswer_accepted {r : MCSPacket} (hanswer : r.isAnswer = true) (hid : r.id = pkt.id) :
    AllAnswer pkt (accepted cfg r) := by
  unfold accepted
  split_ifs
  · exact allAnswer_singleton hanswer hid
  · exact fun r hr => by cases hr

theorem length_accepted_le (r : MCSPacket) : (accepted cfg r).length ≤ 1 := by
  unfold accepted
  split_ifs <;> simp

theorem allAnswer_dumpReply : AllAnswer pkt (dumpReply cfg me pkt s) := by
  unfold dumpReply
  split_ifs
  · exact allAnswer_accepted rfl rfl
  · exact allAnswer_singleton rfl rfl

theorem length_dumpReply_le : (dumpReply cfg me pkt s).length ≤ 1 := by
  unfold dumpReply
  split_ifs
  · exact length_accepted_le _
  · simp

/-- A dump is answered, unless the log is on and the size of its text is zero in 16 bits. -/
theorem dumpReply_eq_nil_iff :
    dumpReply cfg me pkt s = [] ↔
      (s.modules me).qosEnabled = true ∧ (s.qosTable.dumpText me).length % 2 ^ 16 = 0 := by
  unfold dumpReply
  split_ifs with hon
  · rw [accepted_mcsOkPacketData]
    split_ifs with hsize
    · exact iff_of_false (by simp) fun h => hsize h.2
    · exact iff_of_true rfl ⟨hon, not_not.1 hsize⟩
  · simp [hon]

theorem allAnswer_sdbReplies : AllAnswer pkt (sdbReplies cfg me pkt s) := by
  unfold sdbReplies
  split_ifs
  · exact allAnswer_singleton rfl rfl
  · exact allAnswer_dumpReply
  · intro r hr
    rcases List.mem_append.1 hr with hr | hr
    · exact allAnswer_dumpReply r hr
    · rw [List.mem_singleton.1 hr]
      exact ⟨rfl, rfl⟩
  · exact allAnswer_singleton rfl rfl

/-- Only the command that stops the log is answered twice. -/
theorem one_lt_length_sdbReplies_iff :
    1 < (sdbReplies cfg me pkt s).length ↔
      pkt.cmd.toNat = cfg.qosStop ∧ dumpReply cfg me pkt s ≠ [] := by
  -- the three command numbers differ, so each branch is about one of them
  have hlabels := cfg.labels
  simp only [List.nodup_cons, List.mem_cons, List.not_mem_nil, or_false, not_or] at hlabels
  have hdump : (dumpReply cfg me pkt s).length ≤ 1 := length_dumpReply_le
  unfold sdbReplies
  split_ifs with hstart hdumpCmd hstop
  · simp [hstart, hlabels.1.2]
  · simp [hdumpCmd, hlabels.2.1, hdump]
  · simp only [List.length_append, List.length_singleton, hstop, true_and]
    rw [← List.length_pos_iff]
    omega
  · simp [hstop]

/-- The SDB carries out a command that stops the log, and the dump it starts with is answered. -/
def AnswersTwice (cfg : SDBConfig) (me : Nat) (pkt : MCSPacket) (s : Bus) : Prop :=
  pkt.type = MCSType.message.code ∧ ForSDB cfg me pkt s ∧ pkt.cmd.toNat = cfg.qosStop ∧
    dumpReply cfg me pkt s ≠ []

theorem not_forSDB_of_routed {dst : Nat} (h : Routed cfg me pkt s dst) :
    ¬ ForSDB cfg me pkt s := by
  rcases h with ⟨entry, destination, _, hentry, _, hdest, _⟩
  rintro ⟨entry', hentry', _, hnull⟩
  have hsame : entry = entry' := Option.some.inj (hentry.symm.trans hentry')
  subst hsame
  simp [hdest] at hnull

/-- The answers a command gets while it is handled. -/
theorem processCommand_replies (h : processCommand cfg me pkt s = .ok s') :
    ∃ new, s'.replies me = s.replies me ++ new ∧ AllAnswer pkt new ∧
      (1 < new.length ↔ AnswersTwice cfg me pkt s) := by
  cases processCommand_cases h with
  | refused errCode hmsg _ _ hs' =>
      refine ⟨[mcsErrPacket pkt errCode], hs' ▸ (replied_refuse errCode).replies,
        allAnswer_singleton rfl rfl, ?_⟩
      exact iff_of_false (by simp) fun htwice => (hmsg htwice.1).2 htwice.2.1
  | carriedOut htype hsdb hs' =>
      refine ⟨_, hs' ▸ replied_processSdbCommand.replies, allAnswer_sdbReplies, ?_⟩
      rw [one_lt_length_sdbReplies_iff]
      simp [AnswersTwice, htype, hsdb]
  | sent dst htype hrouted _ hmailed =>
      -- a message that is sent is not answered here
      refine ⟨[], by simp [hmailed.replies, queuePush], fun r hr => (by cases hr), ?_⟩
      exact iff_of_false (by simp) fun htwice => not_forSDB_of_routed hrouted htwice.2.1
  | unsent dst htype hrouted _ hs' =>
      refine ⟨[], by simp [hs', queuePush], fun r hr => (by cases hr), ?_⟩
      exact iff_of_false (by simp) fun htwice => not_forSDB_of_routed hrouted htwice.2.1
  | stated data htype _ hreplied =>
      refine ⟨_, hreplied.replies, allAnswer_accepted rfl rfl, ?_⟩
      refine iff_of_false (Nat.not_lt.2 (length_accepted_le _)) fun htwice => ?_
      exact absurd (htype.symm.trans htwice.1) (by decide)
  | payload htype _ hs' =>
      refine ⟨[], by simp [hs', queuePush], fun r hr => (by cases hr), ?_⟩
      refine iff_of_false (by simp) fun htwice => ?_
      exact absurd (htype.symm.trans htwice.1) (by decide)

/-- The text of the module's log once the arrival of the packet is in it. -/
def textWith (cfg : SDBConfig) (me : Nat) (pkt : MCSPacket) (s : Bus) : List UInt8 :=
  (s.qosTable.registerEvent me (cfg.clock s.readings) .pktIn pkt).dumpText me

theorem dumpText_arrived (hon : (s.modules me).qosEnabled = true) :
    (arrived cfg me pkt s).qosTable.dumpText me = textWith cfg me pkt s := by
  simp [arrived, registerEvent, hon, textWith, Bus.log, Bus.update]

theorem dumpReply_arrived_eq_nil_iff :
    dumpReply cfg me pkt (arrived cfg me pkt s) = [] ↔
      (s.modules me).qosEnabled = true ∧ (textWith cfg me pkt s).length % 2 ^ 16 = 0 := by
  rw [dumpReply_eq_nil_iff, arrived_qosEnabled]
  exact and_congr_right fun hon => by rw [dumpText_arrived hon]

theorem replies_update_socket (m k : Nat) :
    (s.update m fun x => { x with dataSocket := false }).replies k = s.replies k := rfl

/-- A request gets at most one answer from `process_pkt_socket`, except for the command that stops
the log when the dump it starts with is answered. -/
theorem one_answer_iff (cfg : SDBConfig) (me : Nat) (s s' : Bus) (pkt : MCSPacket)
    (hread : (readSocket cfg me s).pkt = some pkt) (hrequest : pkt.isAnswer = false)
    (hend : processPktSocket cfg me s = .ok s') :
    answersTo pkt.id (s'.replies me) ≤ answersTo pkt.id (s.replies me) + 1 ↔
      ¬ (pkt.type = MCSType.message.code ∧ ForSDB cfg me pkt s ∧
        pkt.cmd.toNat = cfg.qosStop ∧
        ((s.modules me).qosEnabled = true → (textWith cfg me pkt s).length % 2 ^ 16 ≠ 0)) := by
  rcases processPktSocket_of_read hread hend with ⟨s₁, hcommand, rfl⟩
  simp only [dispatch, hrequest] at hcommand
  rcases processCommand_replies hcommand with ⟨new, hnew, hall, htwice⟩
  -- the arrival writes nothing, so the new answers are those of the command
  have hcount : answersTo pkt.id (s₁.replies me) =
      answersTo pkt.id (s.replies me) + new.length := by
    rw [hnew, arrived_replies, answersTo_append, answersTo_of_allAnswer hall]
  -- the condition is about the state before the packet is read; only the log has changed since
  have htwice' : AnswersTwice cfg me pkt (arrived cfg me pkt s) ↔
      pkt.type = MCSType.message.code ∧ ForSDB cfg me pkt s ∧ pkt.cmd.toNat = cfg.qosStop ∧
        ((s.modules me).qosEnabled = true → (textWith cfg me pkt s).length % 2 ^ 16 ≠ 0) := by
    simp only [AnswersTwice, forSDB_arrived, ne_eq, dumpReply_arrived_eq_nil_iff, not_and]
  rw [replies_update_socket, hcount, ← htwice', ← htwice]
  omega

/-- The client of the core sends bytes, and the observer has seen them. -/
def coreReads (bytes : List UInt8) : Bus :=
  (coreAndProcman.update 0 fun m => { m with input := m.input ++ bytes }).update 0 fun m =>
    { m with dataSocket := true }

/-- The core's client starts the event log. -/
def qosStartPacket : MCSPacket := rawPacket 7 2 none emptyBlock emptyBlock

/-- The core's client stops the event log. -/
def qosStopPacket : MCSPacket := rawPacket 7 4 none emptyBlock emptyBlock

theorem one_answer_iff_qosStart :
    ∃ s', processPktSocket (shippedConfig .lp64) 0 (coreReads [7, 0, 0, 0, 0, 2, 0]) = .ok s' ∧
      answersTo 7 (s'.replies 0) ≤ 1 :=
  ⟨_, rfl, (one_answer_iff (shippedConfig .lp64) 0 (coreReads [7, 0, 0, 0, 0, 2, 0]) _
    qosStartPacket rfl rfl rfl).2 fun h => absurd h.2.2.1 (by decide)⟩

/-- Stopping the log is answered with the text of the log and then with an error. -/
theorem qosStop_answered_twice :
    (readSocket (shippedConfig .lp64) 0 (coreReads [7, 0, 0, 0, 0, 4, 0])).pkt =
        some qosStopPacket ∧
      ∃ s', processPktSocket (shippedConfig .lp64) 0 (coreReads [7, 0, 0, 0, 0, 4, 0]) = .ok s' ∧
        (s'.replies 0).map (fun r => (r.id, r.type)) =
          [(7, MCSType.okData.code), (7, MCSType.err.code)] ∧
        answersTo 7 (s'.replies 0) = 2 :=
  ⟨rfl, _, rfl, by decide +kernel, by decide +kernel⟩

/-! ## Lost packets -/

/-- The module a message names. -/
def Destined (cfg : SDBConfig) (pkt : MCSPacket) (s : Bus) (dst : Nat) : Prop :=
  pkt.type = MCSType.message.code ∧
    ∃ entry destination name,
      cfg.tables.messages[pkt.cmd.toNat]? = some entry ∧ entry.destination = some destination ∧
      destName destination pkt = some name ∧ findModule s name = some dst

/-- A command has been answered, or it is in the mailbox of the module it names and noted in its
sender's queue; an answer that matches a request is in the mailbox of the module that made it, and
one that matches nothing leaves the queues alone. -/
def NotLost (cfg : SDBConfig) (me : Nat) (pkt : MCSPacket) (s s' : Bus) : Prop :=
  if pkt.isAnswer then
    (∀ e, matching me pkt s = some e → (s'.modules e.idProcess).mailbox = some (me, pkt)) ∧
      (matching me pkt s = none → s'.net.queue = s.net.queue)
  else
    answersTo pkt.id (s.replies me) < answersTo pkt.id (s'.replies me) ∨
      ∃ dst, Destined cfg pkt s dst ∧ (s'.modules dst).mailbox = some (me, pkt) ∧
        sdbPacket pkt me ∈ (s'.modules me).queue

/-- The packets the bus loses. -/
inductive Lost (cfg : SDBConfig) (me : Nat) (pkt : MCSPacket) (s : Bus) : Prop
  /-- an answer too large for the mailbox of the module that waits for it -/
  | answer (e : SDBPacket) : pkt.isAnswer = true → matching me pkt s = some e →
      TooLarge cfg.arch pkt → Lost cfg me pkt s
  /-- a message too large for the mailbox of its destination -/
  | message (dst : Nat) : pkt.type = MCSType.message.code → Routed cfg me pkt s dst →
      TooLarge cfg.arch pkt → Lost cfg me pkt s
  /-- a dump of the log whose size is zero in 16 bits -/
  | dump : pkt.type = MCSType.message.code → ForSDB cfg me pkt s → pkt.cmd.toNat = cfg.qosDump →
      (s.modules me).qosEnabled = true → (textWith cfg me pkt s).length % 2 ^ 16 = 0 →
      Lost cfg me pkt s
  /-- a state whose size is zero in 16 bits -/
  | state (data : List UInt8) : pkt.type = MCSType.state.code → StateData cfg pkt data →
      data.length % 2 ^ 16 = 0 → Lost cfg me pkt s
  /-- every command for the payload -/
  | payload : pkt.type = MCSType.payload.code →
      cfg.tables.payloads[pkt.cmd.toNat]?.isSome = true → Lost cfg me pkt s

/-! ### Lost packets, kind by kind -/

theorem isAnswer_of_type {type : MCSType} (htype : pkt.type = type.code) :
    pkt.isAnswer = !type.isCommand := by
  cases type <;> simp [MCSPacket.isAnswer, htype, MCSType.code, MCSType.isCommand]

theorem lost_answer_iff (hanswer : pkt.isAnswer = true) :
    Lost cfg me pkt s ↔ ∃ e, matching me pkt s = some e ∧ TooLarge cfg.arch pkt := by
  -- the other kinds are commands
  have hnot : ∀ {type : MCSType}, pkt.type = type.code → type.isCommand = true → False := by
    intro type htype hcommand
    simp [isAnswer_of_type htype, hcommand] at hanswer
  constructor
  · intro hlost
    cases hlost with
    | answer e _ hmatch hlarge => exact ⟨e, hmatch, hlarge⟩
    | message dst htype _ _ => exact (hnot htype rfl).elim
    | dump htype _ _ _ _ => exact (hnot htype rfl).elim
    | state data htype _ _ => exact (hnot htype rfl).elim
    | payload htype _ => exact (hnot htype rfl).elim
  · rintro ⟨e, hmatch, hlarge⟩
    exact .answer e hanswer hmatch hlarge

theorem lost_message_iff (htype : pkt.type = MCSType.message.code) :
    Lost cfg me pkt s ↔
      (∃ dst, Routed cfg me pkt s dst ∧ TooLarge cfg.arch pkt) ∨
        (ForSDB cfg me pkt s ∧ pkt.cmd.toNat = cfg.qosDump ∧
          dumpReply cfg me pkt (arrived cfg me pkt s) = []) := by
  rw [dumpReply_arrived_eq_nil_iff]
  constructor
  · intro hlost
    cases hlost with
    | answer e hanswer _ _ => simp [isAnswer_of_type htype, MCSType.isCommand] at hanswer
    | message dst _ hrouted hlarge => exact Or.inl ⟨dst, hrouted, hlarge⟩
    | dump _ hsdb hcmd hon hsize => exact Or.inr ⟨hsdb, hcmd, hon, hsize⟩
    | state data ht _ _ => exact absurd (htype.symm.trans ht) (by decide)
    | payload ht _ => exact absurd (htype.symm.trans ht) (by decide)
  · rintro (⟨dst, hrouted, hlarge⟩ | ⟨hsdb, hcmd, hon, hsize⟩)
    · exact .message dst htype hrouted hlarge
    · exact .dump htype hsdb hcmd hon hsize

theorem lost_state_iff (htype : pkt.type = MCSType.state.code) :
    Lost cfg me pkt s ↔ ∃ data, StateData cfg pkt data ∧ data.length % 2 ^ 16 = 0 := by
  constructor
  · intro hlost
    cases hlost with
    | answer e hanswer _ _ => simp [isAnswer_of_type htype, MCSType.isCommand] at hanswer
    | message dst ht _ _ => exact absurd (htype.symm.trans ht) (by decide)
    | dump ht _ _ _ _ => exact absurd (htype.symm.trans ht) (by decide)
    | state data _ hdata hsize => exact ⟨data, hdata, hsize⟩
    | payload ht _ => exact absurd (htype.symm.trans ht) (by decide)
  · rintro ⟨data, hdata, hsize⟩
    exact .state data htype hdata hsize

/-- Two answers about the same request for a state agree. -/
theorem StateData.unique {data data' : List UInt8} (h : StateData cfg pkt data)
    (h' : StateData cfg pkt data') : data = data' := by
  rcases h with ⟨entry, hentry, hdata⟩
  rcases h' with ⟨entry', hentry', hdata'⟩
  have hsame : entry = entry' := Option.some.inj (hentry.symm.trans hentry')
  subst hsame
  simpa using hdata.symm.trans hdata'

theorem Routed.destined {dst : Nat} (htype : pkt.type = MCSType.message.code)
    (h : Routed cfg me pkt s dst) : Destined cfg pkt s dst := by
  rcases h with ⟨entry, destination, name, hentry, _, hdest, hname, hfind, _⟩
  exact ⟨htype, entry, destination, name, hentry, hdest, hname, hfind⟩

theorem not_destined_of_forSDB {dst : Nat} (h : ForSDB cfg me pkt s) :
    ¬ Destined cfg pkt s dst := by
  rcases h with ⟨entry, hentry, _, hnull⟩
  rintro ⟨_, entry', destination, _, hentry', hdest, _⟩
  have hsame : entry = entry' := Option.some.inj (hentry.symm.trans hentry')
  subst hsame
  simp [hdest] at hnull

/-- The SDB leaves only a dump without an answer. -/
theorem sdbReplies_eq_nil_iff :
    sdbReplies cfg me pkt s = [] ↔ pkt.cmd.toNat = cfg.qosDump ∧ dumpReply cfg me pkt s = [] := by
  have hlabels := cfg.labels
  simp only [List.nodup_cons, List.mem_cons, List.not_mem_nil, or_false, not_or] at hlabels
  unfold sdbReplies
  split_ifs with hstart hdump hstop
  · simp [hstart, hlabels.1.1]
  · simp [hdump]
  · simp [hdump]
  · simp [hdump]

theorem accepted_mcsOkPacketData_eq_nil_iff (data : List UInt8) :
    accepted cfg (mcsOkPacketData pkt data) = [] ↔ data.length % 2 ^ 16 = 0 := by
  rw [accepted_mcsOkPacketData]
  split_ifs with hsize
  · exact iff_of_false (by simp) hsize
  · exact iff_of_true rfl (not_not.1 hsize)

/-! ### Handling ends -/

/-- Nothing in a mailbox is too large for it, so such a packet is in none. -/
theorem Bounded.not_in_mailbox (h : Bounded cfg s) (hlarge : TooLarge cfg.arch pkt) (m src : Nat) :
    (s.modules m).mailbox ≠ some (src, pkt) :=
  fun hbox => (h.box hbox).2 hlarge

theorem answersTo_lt_iff {new : List MCSPacket} (hreplies : s'.replies me = s.replies me ++ new)
    (hall : AllAnswer pkt new) :
    answersTo pkt.id (s.replies me) < answersTo pkt.id (s'.replies me) ↔ new ≠ [] := by
  have hcount : answersTo pkt.id (s'.replies me) =
      answersTo pkt.id (s.replies me) + new.length := by
    rw [hreplies, answersTo_append, answersTo_of_allAnswer hall]
  rw [hcount, ← List.length_pos_iff]
  omega

/-- A command that has not been put into a mailbox is not lost exactly when it has been answered. -/
theorem notLost_iff_answered {new : List MCSPacket} (hrequest : pkt.isAnswer = false)
    (hreplies : s'.replies me = s.replies me ++ new) (hall : AllAnswer pkt new)
    (hnot : ∀ dst, Destined cfg pkt s dst → (s'.modules dst).mailbox ≠ some (me, pkt)) :
    NotLost cfg me pkt s s' ↔ new ≠ [] := by
  rw [← answersTo_lt_iff hreplies hall]
  simp only [NotLost, hrequest, Bool.false_eq_true, if_false, or_iff_left_iff_imp]
  rintro ⟨dst, hdestined, hmailbox, _⟩
  exact absurd hmailbox (hnot dst hdestined)

/-- The flag that is cleared in the end does not matter. -/
theorem notLost_update_socket (m : Nat) :
    NotLost cfg me pkt s (s'.update m fun x => { x with dataSocket := false }) ↔
      NotLost cfg me pkt s s' := by
  have hnet : (s'.update m fun x => { x with dataSocket := false }).net = s'.net :=
    net_update rfl rfl
  have hmailbox : ∀ k, ((s'.update m fun x => { x with dataSocket := false }).modules k).mailbox =
      (s'.modules k).mailbox := congrFun (congrArg Net.box hnet)
  have hqueue : ((s'.update m fun x => { x with dataSocket := false }).modules me).queue =
      (s'.modules me).queue := by
    by_cases hk : me = m
    · subst hk
      simp
    · simp [Bus.update_of_ne hk]
  simp only [NotLost, hmailbox, hqueue, hnet, replies_update]

/-- Whatever could have been lost would not have been refused. -/
theorem not_lost_of_refused (hrequest : pkt.isAnswer = false)
    (hmsg : pkt.type = MCSType.message.code →
      (∀ dst, ¬ Routed cfg me pkt s dst) ∧ ¬ ForSDB cfg me pkt s)
    (hstate : pkt.type = MCSType.state.code → cfg.tables.states[pkt.cmd.toNat]? = none)
    (hpayload : pkt.type = MCSType.payload.code → cfg.tables.payloads[pkt.cmd.toNat]? = none) :
    ¬ Lost cfg me pkt s := by
  intro hlost
  cases hlost with
  | answer e hanswer _ _ => simp [hrequest] at hanswer
  | message dst ht hrouted _ => exact (hmsg ht).1 dst hrouted
  | dump ht hsdb _ _ _ => exact (hmsg ht).2 hsdb
  | state data ht hdata _ =>
      rcases hdata with ⟨entry, hentry, _⟩
      simp [hstate ht] at hentry
  | payload ht hsome => simp [hpayload ht] at hsome

/-- What it takes for a command not to be lost. -/
theorem command_notLost_iff (hbounded : Bounded cfg s) (hempty : (s.modules me).mailbox = none)
    (hrequest : pkt.isAnswer = false)
    (h : CommandOutcome cfg me pkt (arrived cfg me pkt s) s') :
    NotLost cfg me pkt s s' ↔ ¬ Lost cfg me pkt s := by
  -- only a message names a module, so nothing else can have reached a mailbox
  have hother : ∀ {type : MCSType}, pkt.type = type.code → type.code ≠ MCSType.message.code →
      ∀ dst, Destined cfg pkt s dst → (s'.modules dst).mailbox ≠ some (me, pkt) :=
    fun htype hne dst hdestined => absurd (htype.symm.trans hdestined.1) hne
  have hnone : AllAnswer pkt [] := fun r hr => by cases hr
  cases h with
  | refused errCode hmsg hstate hpayload heq =>
      have hreplies : s'.replies me = s.replies me ++ [mcsErrPacket pkt errCode] := by
        rw [heq, (replied_refuse errCode).replies, arrived_replies]
      refine iff_of_true ?_ fun hlost => ?_
      · simp only [NotLost, hrequest, Bool.false_eq_true, if_false]
        exact Or.inl ((answersTo_lt_iff hreplies (allAnswer_singleton rfl rfl)).2 (by simp))
      · refine not_lost_of_refused hrequest (fun ht => ?_) hstate hpayload hlost
        simpa only [routed_arrived, forSDB_arrived] using hmsg ht
  | carriedOut htype hsdb heq =>
      rw [forSDB_arrived] at hsdb
      have hreplies : s'.replies me =
          s.replies me ++ sdbReplies cfg me pkt (arrived cfg me pkt s) := by
        rw [heq, replied_processSdbCommand.replies, arrived_replies]
      have hnotRouted : ∀ dst, ¬ Routed cfg me pkt s dst :=
        fun dst hrouted => not_forSDB_of_routed hrouted hsdb
      have hnot : ∀ dst, Destined cfg pkt s dst → (s'.modules dst).mailbox ≠ some (me, pkt) :=
        fun dst hdestined => absurd hdestined (not_destined_of_forSDB hsdb)
      -- for the SDB itself: not lost when it is answered
      rw [notLost_iff_answered hrequest hreplies allAnswer_sdbReplies hnot, lost_message_iff htype,
        ne_eq, sdbReplies_eq_nil_iff]
      simp [hsdb, hnotRouted]
  | sent dst htype hrouted hsmall hmailed =>
      rw [routed_arrived] at hrouted
      refine iff_of_true ?_ fun hlost => ?_
      · simp only [NotLost, hrequest, Bool.false_eq_true, if_false]
        refine Or.inr ⟨dst, hrouted.destined htype, ?_, ?_⟩
        · have hbox := congrFun (congrArg Net.box hmailed.net) dst
          simpa [Bus.net] using hbox
        · simp [hmailed.queue, queuePush]
      · rcases (lost_message_iff htype).1 hlost with ⟨_, _, hlarge⟩ | ⟨hsdb, _⟩
        · exact hsmall hlarge
        · exact not_forSDB_of_routed hrouted hsdb
  | unsent dst htype hrouted hwhy heq =>
      rw [routed_arrived] at hrouted
      have hlarge : TooLarge cfg.arch pkt := by
        rcases hwhy with hlarge | ⟨_, hfull⟩
        · exact hlarge
        · -- the module only reads its socket while its own mailbox is empty
          exact absurd (by simpa using hempty) hfull
      have hreplies : s'.replies me = s.replies me ++ [] := by simp [heq, queuePush]
      have hnot : ∀ dst, Destined cfg pkt s dst → (s'.modules dst).mailbox ≠ some (me, pkt) := by
        intro dst _
        simpa [heq] using hbounded.not_in_mailbox hlarge dst me
      -- it is noted in the queue, but nobody will ever answer it
      rw [notLost_iff_answered hrequest hreplies hnone hnot]
      exact iff_of_false (by simp) (not_not.2 (.message dst htype hrouted hlarge))
  | stated data htype hdata hreplied =>
      have hreplies : s'.replies me = s.replies me ++ accepted cfg (mcsOkPacketData pkt data) := by
        simpa using hreplied.replies
      -- the answer goes out unless its size is zero in 16 bits
      have hlost : Lost cfg me pkt s ↔ data.length % 2 ^ 16 = 0 := by
        rw [lost_state_iff htype]
        constructor
        · rintro ⟨data', hdata', hsize⟩
          rwa [hdata.unique hdata']
        · exact fun hsize => ⟨data, hdata, hsize⟩
      rw [notLost_iff_answered hrequest hreplies (allAnswer_accepted rfl rfl)
        (hother htype (by decide)), hlost, ne_eq, accepted_mcsOkPacketData_eq_nil_iff]
  | payload htype hsome heq =>
      have hreplies : s'.replies me = s.replies me ++ [] := by simp [heq, queuePush]
      -- the line that would send it to the payload is commented out
      rw [notLost_iff_answered hrequest hreplies hnone (hother htype (by decide))]
      exact iff_of_false (by simp) (not_not.2 (.payload htype hsome))

/-- What it takes for an answer not to be lost. -/
theorem answer_notLost_iff (hbounded : Bounded cfg s) (hempty : (s.modules me).mailbox = none)
    (hanswer : pkt.isAnswer = true)
    (h : processAnswer cfg me pkt (arrived cfg me pkt s) = .ok s') :
    NotLost cfg me pkt s s' ↔ ¬ Lost cfg me pkt s := by
  simp only [NotLost, hanswer, if_true, lost_answer_iff hanswer]
  rcases processAnswer_cases h with ⟨hmatch, hreplied⟩ | ⟨e, r, hmatch, hwrite, rfl⟩
  · -- nothing matches, so there is nothing to lose
    rw [matching_arrived] at hmatch
    have hqueue : s'.net.queue = s.net.queue := by rw [hreplied.net, arrived_net]
    simp [hmatch, hqueue]
  · rw [matching_arrived] at hmatch
    -- the entry names a module of the bus, so only the size can keep the answer back
    have hmem : routeEntry e ∈ s.net.queue me :=
      List.mem_map.2 ⟨e, List.mem_of_find?_eq_some hmatch, rfl⟩
    have hlt : e.idProcess < s.sdbModuleLast := hbounded.queue hmem
    have hlast : (queueGet me pkt (arrived cfg me pkt s)).2.sdbModuleLast = s.sdbModuleLast :=
      sameModules_queueGet.last.trans arrived_last
    have hboxes : ∀ k, ((queueGet me pkt (arrived cfg me pkt s)).2.modules k).mailbox =
        (s.modules k).mailbox := fun k => by rw [queueGet_mailbox, arrived_mailbox]
    simp only [hmatch, Option.some.injEq, forall_eq', reduceCtorEq, false_implies, and_true,
      exists_eq_left', registerEvent_modules]
    rcases sdbModuleWriteMcsPacket_cases hwrite with ⟨hsmall, hmailed⟩ | ⟨hsame, hwhy⟩
    · refine iff_of_true ?_ hsmall
      have hbox := congrFun (congrArg Net.box hmailed.net) e.idProcess
      simpa [Bus.net] using hbox
    · have hlarge : TooLarge cfg.arch pkt := by
        rcases hwhy with hge | hlarge | ⟨hself, hfull⟩
        · exact absurd hlt (Nat.not_lt.2 (hlast ▸ hge))
        · exact hlarge
        · rw [hboxes, ← hself] at hfull
          exact absurd hempty hfull
      refine iff_of_false ?_ (not_not.2 hlarge)
      rw [hsame, hboxes]
      exact hbounded.not_in_mailbox hlarge e.idProcess me

/-- In every reachable state, the packet that `process_pkt_socket` reads is delivered or answered
when its handling ends, except for the packets listed by `Lost`. -/
theorem notLost_iff (cfg : SDBConfig) (me : Nat) (s s' : Bus) (pkt : MCSPacket)
    (hreachable : Reachable cfg (fun _ => True) s) (hempty : (s.modules me).mailbox = none)
    (hread : (readSocket cfg me s).pkt = some pkt) (hend : processPktSocket cfg me s = .ok s') :
    NotLost cfg me pkt s s' ↔ ¬ Lost cfg me pkt s := by
  have hbounded := hreachable.bounded
  rcases processPktSocket_of_read hread hend with ⟨s₁, hdispatch, rfl⟩
  rw [notLost_update_socket]
  cases hanswer : pkt.isAnswer with
  | true =>
      simp only [dispatch, hanswer] at hdispatch
      exact answer_notLost_iff hbounded hempty hanswer hdispatch
  | false =>
      simp only [dispatch, hanswer] at hdispatch
      exact command_notLost_iff hbounded hempty hanswer (processCommand_cases hdispatch)

theorem reachable_coreReads (cfg : SDBConfig) (bytes : List UInt8) :
    Reachable cfg (fun _ => True) (coreReads bytes) :=
  reachable_of_run fresh_coreAndProcman [.client 0 bytes, .observe 0] (fun _ _ => trivial) rfl

/-- `arduino_get_pin`, with a pin. -/
def getPinPacket : MCSPacket := rawPacket 7 0x20000 none ⟨[1], by decide⟩ emptyBlock

theorem notLost_iff_test :
    ∃ s', processPktSocket (shippedConfig .lp64) 0 (coreReads testBytes) = .ok s' ∧
      NotLost (shippedConfig .lp64) 0 testPacket (coreReads testBytes) s' := by
  refine ⟨_, rfl, (notLost_iff (shippedConfig .lp64) 0 (coreReads testBytes) _ testPacket
    (reachable_coreReads _ _) rfl rfl rfl).2 fun hlost => ?_⟩
  rcases (lost_message_iff rfl).1 hlost with ⟨_, _, hlarge⟩ | ⟨_, hdump, _⟩
  · exact absurd hlarge (by decide)
  · exact absurd hdump (by decide)

/-- A command for the payload is neither answered nor delivered, and the queue keeps it. -/
theorem getPin_lost :
    Reachable (shippedConfig .lp64) (fun _ => True) (coreReads [7, 0, 0, 0, 2, 0, 0, 1]) ∧
      (readSocket (shippedConfig .lp64) 0 (coreReads [7, 0, 0, 0, 2, 0, 0, 1])).pkt =
        some getPinPacket ∧
      ∃ s', processPktSocket (shippedConfig .lp64) 0 (coreReads [7, 0, 0, 0, 2, 0, 0, 1]) = .ok s' ∧
        s'.replies 0 = [] ∧ (s'.modules 0).mailbox = none ∧ (s'.modules 1).mailbox = none ∧
        (s'.modules 0).queue = [sdbPacket getPinPacket 0] ∧
        ¬ NotLost (shippedConfig .lp64) 0 getPinPacket (coreReads [7, 0, 0, 0, 2, 0, 0, 1]) s' := by
  refine ⟨reachable_coreReads _ _, rfl, _, rfl, rfl, rfl, rfl, rfl, fun hnotLost => ?_⟩
  rcases hnotLost with hanswered | ⟨dst, hdestined, _⟩
  · exact absurd hanswered (by decide +kernel)
  · exact absurd hdestined.1 (by decide)

end SDB
end AbsPlatform
