import AbsPlatform.LibSDB.Callbacks
import AbsPlatform.MCS.Frame
import AbsPlatform.SDB.Handshake
import AbsPlatform.SDB.Turn

/-!
# Answers — what is sent on account of an answer

"Sending an answer means closing a communication": the handlers of the SDB drop an answer nobody
waits for.  Answers are also read by `mcs_read_command`, which reports what it cannot read before
anybody has asked for the type, by the thread of a connection that waits for its handshake, and by
`sdb_thread_read` of a client.  The result, `Arrival.quiet_iff`, says for each of them which answers
are met with silence.
-/

namespace AbsPlatform
namespace MCS

variable {t : MCSTables} {f : Frame} {input : List UInt8}

namespace Frame

def isAnswer : Frame → Bool
  | command .. => false
  | err .. => true
  | okData .. => true
  | ok .. => true

theorem isAnswer_packet (h : f.isAnswer = true) : f.packet.isAnswer = true := by
  cases f with
  | command => cases h
  | err | okData | ok => rfl

/-- The tables have nothing to say about answers. -/
theorem fits_of_isAnswer (t : MCSTables) (h : f.isAnswer = true) : f.Fits t := by
  cases f with
  | command => cases h
  | err | okData | ok => trivial

/-- A frame arrives with anything behind it, or it is cut off. -/
def Arrives (f : Frame) (input : List UInt8) : Prop := f.bytes <+: input ∨ input <+: f.bytes

end Frame

/-- A frame starts with the four bytes of its identifier. -/
theorem four_le_length (h : f.bytes <+: input) : 4 ≤ input.length := by
  have hle := h.length_le
  simp only [Frame.bytes, List.length_append, Lib.length_bytes32] at hle
  omega

/-- No frame is read from the beginning of another one. -/
theorem mcsReadCommand_cut (hfits : f.Fits t) (hcut : input <+: f.bytes)
    (hpart : ¬ f.bytes <+: input) : (mcsReadCommand t 0 openFd input).pkt = none := by
  rw [← Option.not_isSome_iff_eq_none, isSome_mcsReadCommand_iff t (Int.le_refl 0)]
  rintro ⟨g, hg, hprefix⟩
  obtain ⟨rest, hrest⟩ := hprefix.trans hcut
  have hsame : f.bytes ++ [] = g.bytes ++ rest := by rw [List.append_nil, hrest]
  have hnil : [] = rest := (Frame.packet_eq_of_bytes hfits hg hsame).2
  apply hpart
  rw [← hrest, ← hnil, List.append_nil]
  exact hprefix

theorem bytes_ne_nil (f : Frame) : f.bytes ≠ [] := by
  intro hnil
  have hzero : f.bytes.length = 0 := by rw [hnil, List.length_nil]
  simp [Frame.bytes] at hzero

/-- Reading an answer: it is there and nothing is said, or it is cut off, and an error is written
unless even the identifier is cut. -/
theorem mcsReadCommand_arrives (hfits : f.Fits t) (h : f.Arrives input) :
    (f.bytes <+: input ∧ (mcsReadCommand t 0 openFd input).pkt = some f.packet ∧
        (mcsReadCommand t 0 openFd input).reply = []) ∨
      (¬ f.bytes <+: input ∧ (mcsReadCommand t 0 openFd input).pkt = none ∧
        ((mcsReadCommand t 0 openFd input).reply = [] ↔ input.length < 4)) := by
  by_cases hwhole : f.bytes <+: input
  · obtain ⟨rest, hrest⟩ := hwhole
    have hread := (mcsReadCommand_iff t (Int.le_refl 0) openFd input rest f.packet).2
      ⟨f, hfits, hrest.symm, rfl⟩
    exact Or.inl ⟨⟨rest, hrest⟩, hread.1, mcsReadCommand_no_reply t 0 openFd input hread.1⟩
  · have hnone : (mcsReadCommand t 0 openFd input).pkt = none :=
      mcsReadCommand_cut hfits (h.resolve_left hwhole) hwhole
    refine Or.inr ⟨hwhole, hnone, ?_⟩
    have hreply : (mcsReadCommand t 0 openFd input).reply = _ :=
      mcsReadCommand_reply t 0 openFd input hnone
    rw [hreply]
    by_cases hid : 4 ≤ input.length
    · simp [hid, bytes_ne_nil]
    · simp [hid, Nat.lt_of_not_le hid]

end MCS

namespace SDB

open MCS Lib LibSDB

variable {α : Type} {cfg : SDBConfig} {me : Nat} {pkt : MCSPacket} {s s' : Bus} {f : Frame}
  {input : List UInt8}

/-! ## Who hears an answer, and what they may do with it -/

inductive Arrival (α : Type)
  /-- `process_pkt_socket` of module `me` -/
  | socket (me : Nat) (s : Bus)
  /-- `process_pkt_sdb` of module `me`, for what module `src` has put there -/
  | mailbox (me src : Nat) (s : Bus)
  /-- the first packet of a connection -/
  | connection (input : List UInt8)
  /-- `sdb_thread_read` of a client -/
  | client (c : Client) (callbacks : CallbackList α) (input : List UInt8)

/-- What arrives is the answer, or the beginning of it. -/
def Arrival.Brings (f : Frame) : Arrival α → Prop
  | socket me s => f.Arrives (s.modules me).input
  | mailbox me src s => (s.modules me).mailbox = some (src, f.packet)
  | connection input => f.Arrives input
  | client _ _ input => f.Arrives input

/-- Between two states nothing but the allowed events has happened. -/
def OnlyAdds (allowed : BusEvent → Prop) (s s' : Bus) : Prop :=
  ∃ new, s'.history = s.history ++ new ∧ ∀ e ∈ new, allowed e

/-- From a socket the answer may go to the module whose request it answers, and nowhere else. -/
def MailsOn (me : Nat) (pkt : MCSPacket) (s : Bus) (e : BusEvent) : Prop :=
  e = .socketIn me pkt ∨ ∃ r, matching me pkt s = some r ∧ e = .mailed me r.idProcess pkt

/-- From a mailbox it may go to the client that has asked. -/
def WritesOn (me : Nat) (pkt : MCSPacket) (s : Bus) (e : BusEvent) : Prop :=
  (matching me pkt s).isSome = true ∧ e = .socketOut me .sdb pkt

/-- The answer is passed on or dropped. -/
def Arrival.Quiet (cfg : SDBConfig) (f : Frame) : Arrival α → Prop
  | socket me s =>
      processPktSocket cfg me s ≠ .error .fault ∧
        ∀ s', processPktSocket cfg me s = .ok s' → OnlyAdds (MailsOn me f.packet s) s s'
  | mailbox me _ s => OnlyAdds (WritesOn me f.packet s) s (processPktSdb cfg me s)
  | connection input => ∃ first, firstPacket cfg.tables 0 openFd input = some first ∧
      first.reply = []
  | client c callbacks input =>
      let read := mcsReadCommand cfg.tables 0 openFd input
      read.reply = [] ∧
        ∃ reaction, sdbThreadRead (fun id => (c.getPendingPacketId id).isSome) callbacks read.pkt =
          some reaction ∧ ∀ r, reaction ≠ .reply r

/-- The answer passes the test of `sdb_module_write_mcs_packet`, which forgets the four bytes of the
sender, and does not fit into the empty mailbox it is meant for. -/
def Overflows (cfg : SDBConfig) (me : Nat) (pkt : MCSPacket) (s : Bus) : Prop :=
  ∃ r, matching me pkt s = some r ∧ r.idProcess < s.sdbModuleLast ∧
    (s.modules r.idProcess).mailbox = none ∧ ¬ TooLarge cfg.arch pkt ∧
    sdbModuleDataSize < regionBytes cfg.arch pkt

/-- The answer is complete, and at a client somebody waits for it.  A connection has nothing to be
answered before its handshake. -/
def Arrival.Expected (cfg : SDBConfig) (f : Frame) : Arrival α → Prop
  | socket me s =>
      (f.bytes <+: (s.modules me).input ∧ ¬ Overflows cfg me f.packet s) ∨
        (s.modules me).input.length < 4
  | mailbox .. => True
  | connection input => input.length < 4
  | client c _ input => f.bytes <+: input ∧ (c.getPendingPacketId f.id).isSome = true

/-! ## The handlers of the SDB -/

theorem OnlyAdds.nothing {allowed : BusEvent → Prop} (h : s'.history = s.history) :
    OnlyAdds allowed s s' :=
  ⟨[], by simp [h], by simp⟩

theorem OnlyAdds.one {allowed : BusEvent → Prop} {e : BusEvent} (h : s'.history = s.history ++ [e])
    (he : allowed e) : OnlyAdds allowed s s' :=
  ⟨[e], h, by simpa using he⟩

theorem OnlyAdds.trans {allowed : BusEvent → Prop} {s₁ s₂ s₃ : Bus}
    (h₁ : OnlyAdds allowed s₁ s₂) (h₂ : OnlyAdds allowed s₂ s₃) : OnlyAdds allowed s₁ s₃ := by
  obtain ⟨new₁, hnew₁, hall₁⟩ := h₁
  obtain ⟨new₂, hnew₂, hall₂⟩ := h₂
  refine ⟨new₁ ++ new₂, by rw [hnew₂, hnew₁, List.append_assoc], ?_⟩
  intro e he
  rcases List.mem_append.1 he with he | he
  · exact hall₁ e he
  · exact hall₂ e he

/-- What `sdb_module_write_mcs_packet` leaves in the history. -/
theorem sdbModuleWriteMcsPacket_history {dst : Nat} {r : Int × Bus}
    (h : sdbModuleWriteMcsPacket cfg me pkt dst s = .ok r) :
    r.2.history = s.history ∨ r.2.history = s.history ++ [.mailed me dst pkt] := by
  rcases sdbModuleWriteMcsPacket_ok h with ⟨hsame, _⟩ | ⟨_, _, _, hr⟩
  · exact Or.inl (by rw [hsame])
  · exact Or.inr (by simp [hr])

theorem sdbModuleWriteMcsPacket_fault_iff {dst : Nat} :
    sdbModuleWriteMcsPacket cfg me pkt dst s = .error .fault ↔
      dst < s.sdbModuleLast ∧ (s.modules dst).mailbox = none ∧ ¬ TooLarge cfg.arch pkt ∧
        sdbModuleDataSize < regionBytes cfg.arch pkt := by
  by_cases htests : s.sdbModuleLast ≤ dst ∨ TooLarge cfg.arch pkt
  · rw [sdbModuleWriteMcsPacket_eq_neg htests]
    constructor
    · intro h
      cases h
    · rintro ⟨hdst, _, hfits, _⟩
      exact absurd htests (not_or.2 ⟨Nat.not_le.2 hdst, hfits⟩)
  · rw [not_or] at htests
    have hdst : dst < s.sdbModuleLast := Nat.lt_of_not_le htests.1
    rw [sdbModuleWriteMcsPacket_eq hdst htests.2]
    cases (s.modules dst).mailbox with
    | some b => by_cases hself : me = dst <;> simp [hself]
    | none => by_cases hregion : regionBytes cfg.arch pkt > sdbModuleDataSize <;>
        simp [hregion, hdst, htests.2]

/-- An answer from the socket is mailed to the module that has asked, or dropped. -/
theorem processAnswer_onlyAdds (h : processAnswer cfg me pkt s = .ok s') :
    OnlyAdds (MailsOn me pkt s) s s' := by
  simp only [processAnswer, queueGet_fst] at h
  cases hmatch : matching me pkt s with
  | none =>
      simp only [hmatch, returnAnswer] at h
      cases h
      exact .nothing (by simp [queueGet_snd])
  | some e =>
      simp only [hmatch, returnAnswer] at h
      rcases exists_of_bind_ok h with ⟨r, hwrite, hs'⟩
      cases hs'
      rcases sdbModuleWriteMcsPacket_history hwrite with hsame | hmailed
      · exact .nothing (by simp [hsame, queueGet_snd])
      · exact .one (by simp [hmailed, queueGet_snd]) (Or.inr ⟨e, hmatch, rfl⟩)

theorem processAnswer_fault_iff :
    processAnswer cfg me pkt s = .error .fault ↔ Overflows cfg me pkt s := by
  simp only [processAnswer, queueGet_fst, Overflows]
  cases hmatch : matching me pkt s with
  | none => simp [returnAnswer]
  | some e =>
      have hwrite : sdbModuleWriteMcsPacket cfg me pkt e.idProcess (queueGet me pkt s).2 =
          .error .fault ↔ _ := sdbModuleWriteMcsPacket_fault_iff
      rw [queueGet_mailbox, sameModules_queueGet.last] at hwrite
      simp only [Option.some.injEq, exists_eq_left', ← hwrite, returnAnswer]
      cases sdbModuleWriteMcsPacket cfg me pkt e.idProcess (queueGet me pkt s).2 <;>
        simp [bind, Except.bind]

theorem overflows_arrived :
    Overflows cfg me pkt (arrived cfg me pkt s) ↔ Overflows cfg me pkt s := by
  simp [Overflows]

theorem mailsOn_arrived : MailsOn me pkt (arrived cfg me pkt s) = MailsOn me pkt s := by
  funext e
  simp [MailsOn]

/-- `process_pkt_socket` on an answer that has been read. -/
theorem processPktSocket_answer (hread : (readSocket cfg me s).pkt = some pkt)
    (hanswer : pkt.isAnswer = true) :
    (processPktSocket cfg me s = .error .fault ↔ Overflows cfg me pkt s) ∧
      ∀ s', processPktSocket cfg me s = .ok s' → OnlyAdds (MailsOn me pkt s) s s' := by
  have hdispatch : dispatch cfg me pkt (arrived cfg me pkt s) =
      processAnswer cfg me pkt (arrived cfg me pkt s) := by simp [dispatch, hanswer]
  constructor
  · rw [← overflows_arrived, ← processAnswer_fault_iff, processPktSocket_eq_dispatch hread,
      hdispatch]
    cases processAnswer cfg me pkt (arrived cfg me pkt s) <;> simp [Except.bind]
  · intro s' hs'
    rcases processPktSocket_of_read hread hs' with ⟨s₁, hs₁, rfl⟩
    rw [hdispatch] at hs₁
    -- the packet is heard first; the handler sees the same queue
    have hheard : OnlyAdds (MailsOn me pkt s) s (arrived cfg me pkt s) :=
      .one (by simp [arrived]) (Or.inl rfl)
    have hhandled : OnlyAdds (MailsOn me pkt s) (arrived cfg me pkt s) s₁ := by
      rw [← mailsOn_arrived]
      exact processAnswer_onlyAdds hs₁
    exact hheard.trans hhandled

/-- When nothing has been read, the error of the reader is all there is. -/
theorem processPktSocket_unread (pkt : MCSPacket) (hread : (readSocket cfg me s).pkt = none) :
    processPktSocket cfg me s ≠ .error .fault ∧
      ((∀ s', processPktSocket cfg me s = .ok s' → OnlyAdds (MailsOn me pkt s) s s') ↔
        (readSocket cfg me s).reply = []) := by
  simp only [processPktSocket, hread]
  refine ⟨by simp, ?_⟩
  constructor
  · intro h
    by_contra hreply
    rw [if_neg hreply] at h
    obtain ⟨new, hnew, hall⟩ := h _ rfl
    have hlogged : new = [.rejected me (readSocket cfg me s).reply] := by simpa using hnew.symm
    subst hlogged
    rcases hall _ (List.mem_singleton_self _) with hheard | ⟨r, _, hmailed⟩
    · cases hheard
    · cases hmailed
  · intro hreply s' hs'
    rw [if_pos hreply] at hs'
    cases hs'
    exact .nothing rfl

/-- An answer from the mailbox is written to the client that has asked, or dropped. -/
theorem processPktSdb_onlyAdds {src : Nat} (hbox : (s.modules me).mailbox = some (src, pkt))
    (hanswer : pkt.isAnswer = true) :
    OnlyAdds (WritesOn me pkt s) s (processPktSdb cfg me s) := by
  rw [processPktSdb_of_answer hbox hanswer]
  cases hmatch : matching me pkt s with
  | none => exact .nothing (by simp [completeAnswer, queueGet_snd, fetched])
  | some e =>
      cases hcheck : checkPacket cfg.tables pkt with
      | false =>
          refine .nothing ?_
          simp [completeAnswer, queueGet_snd, fetched, writeCommand_of_not_check hcheck]
      | true =>
          refine .one (e := .socketOut me .sdb pkt) ?_ ⟨by simp [hmatch], rfl⟩
          simp [completeAnswer, queueGet_snd, fetched, writeCommand_of_check hcheck]

/-! ## The others -/

/-- No answer is a handshake. -/
theorem handshake_answer (hanswer : f.isAnswer = true) :
    handshake f.packet = some (.refused none) := by
  have hcommand : mcsCommand f.packet ≠ mcsMessageSdbHandshake := by
    cases f with
    | command => cases hanswer
    | err | okData | ok =>
        simp only [mcsCommand, Frame.packet, answerPacket]
        decide
  simp [handshake, hcommand]

/-- As the first packet of a connection every answer is refused with an error. -/
theorem firstPacket_quiet_iff (t : MCSTables) (hanswer : f.isAnswer = true)
    (h : f.Arrives input) :
    (∃ first, firstPacket t 0 openFd input = some first ∧ first.reply = []) ↔
      input.length < 4 := by
  rcases mcsReadCommand_arrives (f.fits_of_isAnswer t hanswer) h with
    ⟨hwhole, hpkt, _⟩ | ⟨_, hpkt, hreply⟩
  · have hcheck : checkPacket t (mcsErrPacket f.packet econnrefused) = true :=
      checkPacket_mcsErrPacketId t _ _
    have hsent : (mcsWriteCommand t (mcsErrPacket f.packet econnrefused) openFd).2 ≠ [] := by
      rw [mcsWriteCommand_openFd hcheck]
      simp [rawBytes, mcsErrPacket, mcsErrPacketId]
    have hlong : ¬ input.length < 4 := Nat.not_lt.2 (four_le_length hwhole)
    simp [firstPacket, hpkt, handshake_answer hanswer, hsent, hlong]
  · simpa [firstPacket, hpkt] using hreply

/-- A client stores the answer it waits for; any other one it answers, or it follows NULL. -/
theorem sdbThreadRead_quiet_iff (t : MCSTables) (hanswer : f.isAnswer = true)
    (pending : UInt32 → Bool) (callbacks : CallbackList α) (h : f.Arrives input) :
    ((mcsReadCommand t 0 openFd input).reply = [] ∧
        ∃ reaction, sdbThreadRead pending callbacks (mcsReadCommand t 0 openFd input).pkt =
          some reaction ∧ ∀ r, reaction ≠ .reply r) ↔
      f.bytes <+: input ∧ pending f.id = true := by
  rcases mcsReadCommand_arrives (f.fits_of_isAnswer t hanswer) h with
    ⟨hwhole, hpkt, hreply⟩ | ⟨hpart, hpkt, _⟩
  · have hid : f.packet.id = f.id := by cases f <;> rfl
    rw [hpkt]
    simp only [sdbThreadRead, f.isAnswer_packet hanswer, if_true, hid]
    cases hpending : pending f.id with
    | true => simp [hreply, hwhole]
    | false => simp
  · simp [hpkt, hpart, sdbThreadRead]

namespace Arrival

/-- An answer is passed on or dropped, and nothing goes back to the peer, exactly when it is
expected. -/
theorem quiet_iff (cfg : SDBConfig) (f : Frame) (hanswer : f.isAnswer = true) (a : Arrival α)
    (h : a.Brings f) : a.Quiet cfg f ↔ a.Expected cfg f := by
  cases a with
  | socket me s =>
      simp only [Quiet, Expected]
      rcases mcsReadCommand_arrives (f.fits_of_isAnswer cfg.tables hanswer) h with
        ⟨hwhole, hpkt, _⟩ | ⟨hpart, hpkt, hreply⟩
      · -- the handler has the answer, and it drops what nobody waits for
        have hlong : ¬ (s.modules me).input.length < 4 := Nat.not_lt.2 (four_le_length hwhole)
        have hanswered := processPktSocket_answer hpkt (f.isAnswer_packet hanswer)
        constructor
        · rintro ⟨hfault, _⟩
          exact Or.inl ⟨hwhole, fun hoverflow => hfault (hanswered.1.2 hoverflow)⟩
        · rintro (⟨_, hfits⟩ | hshort)
          · exact ⟨fun hfault => hfits (hanswered.1.1 hfault), hanswered.2⟩
          · exact absurd hshort hlong
      · -- the reader has nothing for the handler
        have hunread := processPktSocket_unread f.packet hpkt
        constructor
        · rintro ⟨_, hadds⟩
          exact Or.inr (hreply.1 (hunread.2.1 hadds))
        · rintro (⟨hwhole, _⟩ | hshort)
          · exact absurd hwhole hpart
          · exact ⟨hunread.1, hunread.2.2 (hreply.2 hshort)⟩
  | mailbox me src s =>
      exact iff_of_true (processPktSdb_onlyAdds h (f.isAnswer_packet hanswer)) trivial
  | connection input => exact firstPacket_quiet_iff cfg.tables hanswer h
  | client c callbacks input => exact sdbThreadRead_quiet_iff cfg.tables hanswer _ callbacks h

/-- A client that waits for the answer 7 gets it. -/
def waitingClient : Arrival Unit :=
  client (Client.init.addPendingId 7) CallbackList.init (Frame.ok 7).bytes

theorem quiet_waitingClient :
    (Frame.ok 7).isAnswer = true ∧ waitingClient.Brings (Frame.ok 7) ∧
      waitingClient.Quiet (shippedConfig .lp64) (Frame.ok 7) :=
  ⟨rfl, Or.inl List.prefix_rfl,
    (quiet_iff (shippedConfig .lp64) (Frame.ok 7) rfl waitingClient (Or.inl List.prefix_rfl)).2
      ⟨List.prefix_rfl, by decide⟩⟩

/-- A client that waits for nothing gets the answer 7. -/
def idleClient : Arrival Unit := client Client.init CallbackList.init (Frame.ok 7).bytes

/-- The error 7 without its code is at the socket of module 0. -/
def cutError : Bus :=
  coreAndProcman.update 0 fun m => { m with input := bytes32 7 ++ [MCSType.err.code] }

/-- A complete answer is answered by a client, and a cut one by the SDB. -/
theorem answers_answered :
    (idleClient.Brings (Frame.ok 7) ∧
      sdbThreadRead (fun id => (Client.init.getPendingPacketId id).isSome)
        (CallbackList.init : CallbackList Unit) (some (Frame.ok 7).packet) =
          some (.reply (mcsErrPacket (Frame.ok 7).packet ecmdfault)) ∧
      ¬ idleClient.Quiet (shippedConfig .lp64) (Frame.ok 7)) ∧
    ((socket 0 cutError : Arrival Unit).Brings (Frame.badFormat 7) ∧
      (∃ s', processPktSocket (shippedConfig .lp64) 0 cutError = .ok s' ∧
        s'.history = [.rejected 0 (Frame.badFormat 7).bytes]) ∧
      ¬ (socket 0 cutError : Arrival Unit).Quiet (shippedConfig .lp64) (Frame.badFormat 7)) := by
  refine ⟨⟨Or.inl List.prefix_rfl, rfl, ?_⟩, Or.inr ?_, ⟨_, rfl, by decide⟩, ?_⟩
  · intro hquiet
    have hpending := ((sdbThreadRead_quiet_iff commandSet rfl _ _ (Or.inl List.prefix_rfl)).1
      hquiet).2
    cases hpending
  · decide
  · rintro ⟨_, hadds⟩
    have hsilent := (processPktSocket_unread (Frame.badFormat 7).packet (by decide)).2.1 hadds
    revert hsilent
    decide

end Arrival

end SDB
end AbsPlatform
