import AbsPlatform.MCS.RoundTrip
import AbsPlatform.SDB.Permissions
import AbsPlatform.SDB.Turn

/-!
# Routing — answers on the bus

The bus is an instance of the network of `Lib.AnswerRouting`: with clients that write well-formed
packets, every step of the bus is a step of the network or does not show in it.  What the network
guarantees about answers then holds of the sockets and mailboxes of the bus.
-/

namespace AbsPlatform
namespace SDB

open MCS Lib

variable {cfg : SDBConfig} {me : Nat} {pkt : MCSPacket} {s s' : Bus}

/-! ## Clients that write well-formed packets -/

/-- Clients write whole packets, as the tables describe them; answers need not answer anything. -/
def WellFormed (cfg : SDBConfig) : Action → Prop
  | .client _ bytes =>
      ∃ pkt, Conforms cfg.tables pkt ∧ bytes = (mcsWriteCommand cfg.tables pkt openFd).2
  | .observe _ => True
  | .turn _ => True

/-- A stream of conforming packets. -/
def Stream (cfg : SDBConfig) (bytes : List UInt8) : Prop :=
  ∃ pkts : List MCSPacket, (∀ p ∈ pkts, Conforms cfg.tables p) ∧ bytes = written cfg.tables pkts

theorem Stream.append_packet {bytes : List UInt8} (h : Stream cfg bytes)
    (hconf : Conforms cfg.tables pkt) :
    Stream cfg (bytes ++ (mcsWriteCommand cfg.tables pkt openFd).2) := by
  rcases h with ⟨pkts, hpkts, rfl⟩
  refine ⟨pkts ++ [pkt], fun p hp => ?_, by simp [written]⟩
  rcases List.mem_append.1 hp with hp | hp
  · exact hpkts p hp
  · exact List.mem_singleton.1 hp ▸ hconf

/-- What is read from such a stream conforms, and what is left is such a stream. -/
theorem Stream.readSocket (h : Stream cfg (s.modules me).input) :
    Stream cfg (readSocket cfg me s).rest ∧
      ∀ pkt, (readSocket cfg me s).pkt = some pkt → Conforms cfg.tables pkt := by
  rcases h with ⟨pkts, hpkts, hinput⟩
  unfold SDB.readSocket
  rw [hinput]
  cases pkts with
  | nil => exact ⟨⟨[], by simp, rfl⟩, fun pkt hpkt => by cases hpkt⟩
  | cons p pkts =>
      rcases (hpkts p (by simp)).read_write (by decide : (0 : Int) ≤ 0) openFd
        (written cfg.tables pkts) with ⟨_, q, hq, hrest, hsame⟩
      -- the reader takes the first packet as it was written, up to what `SamePacket` forgets
      have hsplit : written cfg.tables (p :: pkts) =
          (mcsWriteCommand cfg.tables p openFd).2 ++ written cfg.tables pkts := by simp [written]
      rw [hsplit, hq, hrest]
      refine ⟨⟨pkts, fun r hr => hpkts r (by simp [hr]), rfl⟩, fun pkt hpkt => ?_⟩
      cases hpkt
      exact (hpkts p (by simp)).of_samePacket hsame

/-- What holds of the bus as long as the clients write well-formed packets. -/
structure Clean (cfg : SDBConfig) (s : Bus) : Prop where
  input : ∀ m, Stream cfg (s.modules m).input
  box : ∀ {m src pkt}, s.net.box m = some (src, pkt) → checkPacket cfg.tables pkt = true
  moved : ∀ {a b pkt}, RouteEvent.moved a b pkt ∈ s.net.history → pkt.isAnswer = false →
    pkt.type = MCSType.message.code

theorem clean_of_fresh (h : Fresh s) : Clean cfg s where
  input := fun m => ⟨[], by simp, h.input m⟩
  box := by simp [Bus.net, h.mailbox]
  moved := by simp [Bus.net, h.history]

/-- Only messages are sent to other modules, and answers are returned to them. -/
theorem NetEffect.moved_origin (h : NetEffect cfg me s s') {a b : Nat}
    (hmoved : RouteEvent.moved a b pkt ∈ s'.net.history) :
    RouteEvent.moved a b pkt ∈ s.net.history ∨ pkt.isAnswer = true ∨
      pkt.type = MCSType.message.code := by
  -- writing to a socket is no move
  have hwrote : ∀ {p : MCSPacket}, RouteEvent.moved a b pkt ∉ wroteIf cfg me p := by
    intro p
    unfold wroteIf
    split_ifs <;> simp
  cases h with
  | same _ hnet => exact Or.inl (by simpa [hnet] using hmoved)
  | hear p _ _ hnet => exact Or.inl (by simpa [hnet] using hmoved)
  | keep p _ _ _ hnet => exact Or.inl (by simpa [hnet] using hmoved)
  | drop p e front back _ _ _ _ _ hnet => exact Or.inl (by simpa [hnet] using hmoved)
  | discard src p _ _ hnet => exact Or.inl (by simpa [hnet] using hmoved)
  | deliver src p _ _ hnet => exact Or.inl (by simpa [hnet, hwrote] using hmoved)
  | complete src p e front back _ _ _ _ hnet => exact Or.inl (by simpa [hnet, hwrote] using hmoved)
  | forward p dst _ _ _ htype _ _ _ hnet =>
      have hcases : RouteEvent.moved a b pkt ∈ s.net.history ∨ a = me ∧ b = dst ∧ pkt = p := by
        simpa [hnet] using hmoved
      rcases hcases with hold | ⟨_, _, rfl⟩
      · exact Or.inl hold
      · exact Or.inr (Or.inr htype)
  | reply p e front back _ _ hanswer _ _ _ _ hnet =>
      have hcases : RouteEvent.moved a b pkt ∈ s.net.history ∨ a = me ∧ b = e.1 ∧ pkt = p := by
        simpa [hnet] using hmoved
      rcases hcases with hold | ⟨_, _, rfl⟩
      · exact Or.inl hold
      · exact Or.inr (Or.inl hanswer)

theorem clean_turn (hturn : mainLoop cfg me s = .ok s') (hclean : Clean cfg s) : Clean cfg s' := by
  have heffect := mainLoop_net hturn
  rcases mainLoop_modules hturn with ⟨_, hother, hself⟩
  have hread := (hclean.input me).readSocket
  refine ⟨fun m => ?_, fun hbox => ?_, fun hmoved hrequest => ?_⟩
  · -- the module has read its own input, and the others are as they were
    by_cases hm : m = me
    · subst hm
      rcases hself with hsame | hrest
      · exact hsame ▸ hclean.input m
      · exact hrest ▸ hread.1
    · exact hother m hm ▸ hclean.input m
  · rcases heffect.box_origin hbox with hold | ⟨_, hpkt, _⟩
    · exact hclean.box hold
    · -- a packet that has just been read conforms, so it will pass the check when it is written
      exact (hread.2 _ hpkt).checkPacket_eq_true
  · rcases heffect.moved_origin hmoved with hold | hanswer | htype
    · exact hclean.moved hold hrequest
    · simp [hrequest] at hanswer
    · exact htype

theorem clean_act {a : Action} (hwell : WellFormed cfg a) (hact : s.act cfg a = .ok s')
    (hclean : Clean cfg s) : Clean cfg s' := by
  cases a with
  | turn m =>
      simp only [Bus.act] at hact
      split_ifs at hact with hm
      exact clean_turn hact hclean
  | observe m =>
      cases hact
      have hnet : (s.update m fun x => { x with dataSocket := true }).net = s.net :=
        net_update rfl rfl
      refine ⟨fun k => ?_, fun hbox => hclean.box (hnet ▸ hbox),
        fun hmoved => hclean.moved (hnet ▸ hmoved)⟩
      have hsame : SameModules s (s.update m fun x => { x with dataSocket := true }) :=
        sameModules_update fun _ => ⟨rfl, rfl, rfl⟩
      exact hsame.input k ▸ hclean.input k
  | client m bytes =>
      rcases hwell with ⟨pkt, hconf, rfl⟩
      cases hact
      -- the client appends one packet to the stream of its module
      have hnet : (s.update m fun x => { x with
          input := x.input ++ (mcsWriteCommand cfg.tables pkt openFd).2 }).net = s.net :=
        net_update rfl rfl
      refine ⟨fun k => ?_, fun hbox => hclean.box (hnet ▸ hbox),
        fun hmoved => hclean.moved (hnet ▸ hmoved)⟩
      by_cases hk : k = m
      · subst hk
        simpa using (hclean.input k).append_packet hconf
      · simpa [Bus.update_of_ne hk] using hclean.input k

/-! ## The bus refines the network -/

/-- With what is in the mailboxes checked, a turn of a module is a step of the network. -/
theorem NetEffect.netStep (h : NetEffect cfg me s s') (hclean : Clean cfg s) :
    s'.net = s.net ∨ Net.Step MCSPacket.id MCSPacket.isAnswer s.net s'.net := by
  -- in the network what is taken from a mailbox is written, which needs the check to pass
  have hwrote : ∀ {src : Nat} {p : MCSPacket}, s.net.box me = some (src, p) →
      wroteIf cfg me p = [.wrote me p] := by
    intro src p hbox
    simp [wroteIf, hclean.box hbox]
  cases h with
  | same _ hnet => exact Or.inl hnet
  | hear p hbox _ hnet => exact Or.inr (hnet ▸ Net.Step.hear me p hbox)
  | keep p hbox _ hrequest hnet => exact Or.inr (hnet ▸ Net.Step.keep me p hbox hrequest)
  | forward p dst hbox _ hrequest _ _ _ hempty hnet =>
      exact Or.inr (hnet ▸ Net.Step.forward me dst p hbox hempty hrequest)
  | drop p e front back hbox _ hanswer hqueue hid hnet =>
      exact Or.inr (hnet ▸ Net.Step.drop me p front back e hbox hanswer hqueue hid)
  | reply p e front back hbox _ hanswer hqueue hid _ hempty hnet =>
      exact Or.inr (hnet ▸ Net.Step.reply me p front back e hbox hanswer hqueue hid hempty)
  | deliver src p hbox hrequest hnet =>
      rw [hwrote hbox] at hnet
      exact Or.inr (hnet ▸ Net.Step.deliver me src p hbox hrequest)
  | complete src p e front back hbox hanswer hqueue hid hnet =>
      rw [hwrote hbox] at hnet
      exact Or.inr (hnet ▸ Net.Step.complete me src p front back e hbox hanswer hqueue hid)
  | discard src p hbox hanswer hnet =>
      exact Or.inr (hnet ▸ Net.Step.discard me src p hbox hanswer)

theorem net_of_fresh (h : Fresh s) : s.net = Net.init := by
  simp [Bus.net, Net.init, h.queue, h.mailbox, h.history]

/-- The bus is where a run of the network has led to. -/
structure Refines (cfg : SDBConfig) (s : Bus) : Prop where
  clean : Clean cfg s
  run : Relation.ReflTransGen (Net.Step MCSPacket.id MCSPacket.isAnswer) Net.init s.net

/-- Every run of the bus with such clients is a run of the network. -/
theorem Reachable.refines (h : Reachable cfg (WellFormed cfg) s) : Refines cfg s := by
  refine h.invariant (fun s hs => ⟨clean_of_fresh hs, net_of_fresh hs ▸ .refl⟩) ?_
  rintro s s' ⟨hclean, hrun⟩ ⟨a, hwell, hact⟩
  refine ⟨clean_act hwell hact hclean, ?_⟩
  -- a turn is a step or stutters; everything else stutters
  have hstep : s'.net = s.net ∨ Net.Step MCSPacket.id MCSPacket.isAnswer s.net s'.net := by
    rcases act_cases hact with ⟨m, rfl, _, hturn⟩ | ⟨hnet, _⟩
    · exact (mainLoop_net hturn).netStep hclean
    · exact Or.inl hnet
  rcases hstep with hsame | hstep
  · exact hsame ▸ hrun
  · exact hrun.tail hstep

/-! ## Answers -/

/-- The id of a request that has been read in an event. -/
def requestId : BusEvent → Option UInt32
  | .socketIn _ pkt => if pkt.isAnswer then none else some pkt.id
  | _ => none

/-- The event is an answer with an id that `process_pkt_sdb` writes to a module's socket. -/
def forwardedAnswer (m : Nat) (x : UInt32) : BusEvent → Bool
  | .socketOut k .sdb pkt => k = m && pkt.isAnswer && pkt.id == x
  | _ => false

/-- The event of the bus that is seen in the network. -/
def busEvent : RouteEvent Nat MCSPacket → BusEvent
  | .heard m pkt => .socketIn m pkt
  | .moved src dst pkt => .mailed src dst pkt
  | .wrote m pkt => .socketOut m .sdb pkt

theorem map_busEvent_sublist (s : Bus) : (s.net.history.map busEvent).Sublist s.history := by
  -- the network keeps the order of the events and leaves some of them out
  have hback : ∀ e r, routeEvent e = some r → busEvent r = e := by
    intro e r hr
    rcases e with ⟨m, p⟩ | ⟨m, _ | _, p⟩ | ⟨m, p⟩ | ⟨a, b, p⟩ <;> cases hr <;> rfl
  simp only [Bus.net]
  induction s.history with
  | nil => exact List.Sublist.refl []
  | cons e history ih =>
      cases hr : routeEvent e with
      | none => simpa [hr] using ih.cons e
      | some r => simpa [hr, hback e r hr] using ih

/-- Request ids that are not used twice, seen from the network. -/
theorem uniqueRequests_of_nodup (h : (s.history.filterMap requestId).Nodup) :
    Net.UniqueRequests MCSPacket.id MCSPacket.isAnswer s.net := by
  intro x
  -- requests are read from sockets only, and every such event is seen in the network
  have hcount : s.net.history.countP (Net.heardRequest MCSPacket.id MCSPacket.isAnswer x) =
      (s.history.filterMap requestId).count x := by
    simp only [Bus.net, List.count, List.countP_filterMap]
    refine List.countP_congr fun e _ => ?_
    rcases e with ⟨m, p⟩ | ⟨m, _ | _, p⟩ | ⟨m, p⟩ | ⟨a, b, p⟩
    · cases hp : p.isAnswer <;> simp [routeEvent, requestId, hp]
    all_goals simp [routeEvent, requestId]
  rw [hcount]
  exact List.nodup_iff_count_le_one.1 h x

theorem countP_forwardedAnswer (m : Nat) (x : UInt32) :
    s.history.countP (forwardedAnswer m x) =
      s.net.history.countP (Net.wroteReply MCSPacket.id MCSPacket.isAnswer m x) := by
  simp only [Bus.net, List.countP_filterMap]
  refine List.countP_congr fun e _ => ?_
  rcases e with ⟨k, p⟩ | ⟨k, _ | _, p⟩ | ⟨k, p⟩ | ⟨a, b, p⟩ <;>
    simp [routeEvent, forwardedAnswer, and_assoc]

/-- An answer that `process_pkt_sdb` writes to a socket answers a message of that module's client:
the message was read there, sent to a module and written to its socket, the answer was read from
that socket afterwards and sent back, and no other answer to it is written.  The two modules may be
the same. -/
theorem answer_routed_on_bus (cfg : SDBConfig) (s : Bus) (hrun : Reachable cfg (WellFormed cfg) s)
    (hids : (s.history.filterMap requestId).Nodup) (a : Nat) (ans : MCSPacket)
    (hwrote : BusEvent.socketOut a .sdb ans ∈ s.history) (hanswer : ans.isAnswer = true) :
    (∃ b req, req.type = MCSType.message.code ∧ req.id = ans.id ∧
        [BusEvent.socketIn a req, .mailed a b req, .socketOut b .sdb req, .socketIn b ans,
          .mailed b a ans, .socketOut a .sdb ans].Sublist s.history) ∧
      s.history.countP (forwardedAnswer a ans.id) ≤ 1 := by
  have hrefines := hrun.refines
  have hseen : RouteEvent.wrote a ans ∈ s.net.history :=
    List.mem_filterMap.2 ⟨_, hwrote, rfl⟩
  rcases Net.answer_routed hrefines.run (uniqueRequests_of_nodup hids) hseen hanswer with
    ⟨⟨b, req, hrequest, hid, hsub⟩, honce⟩
  refine ⟨⟨b, req, ?_, hid, ?_⟩, countP_forwardedAnswer a ans.id ▸ honce⟩
  · -- what was sent to another module without being an answer is a message
    have hmoved : RouteEvent.moved a b req ∈ s.net.history :=
      hsub.subset (by simp [Net.exchange, Net.delivery])
    exact hrefines.clean.moved hmoved hrequest
  · exact (hsub.map busEvent).trans (map_busEvent_sublist s)

/-- The core sends `test` to the process manager, whose client answers. -/
def testRun : List Action :=
  [.client 0 testBytes, .observe 0, .turn 0, .turn 1,
    .client 1 (mcsWriteCommand commandSet (mcsOkPacketId 7) openFd).2, .observe 1, .turn 1, .turn 0]

theorem wellFormed_testRun : ∀ a ∈ testRun, WellFormed (shippedConfig .lp64) a := by
  have htest : Conforms commandSet testPacket := by
    refine ⟨rfl, rfl, .message, rfl, testMessage.cmd, rfl, rfl, by decide, rfl, ?_⟩
    intro d hd
    cases hd
    decide
  have hok : Conforms commandSet (mcsOkPacketId 7) := ⟨rfl, rfl, .ok, rfl, ⟨rfl, rfl, rfl⟩, rfl⟩
  simp only [testRun, List.forall_mem_cons, List.not_mem_nil, false_implies, implies_true]
  exact ⟨⟨testPacket, htest, rfl⟩, trivial, trivial, trivial, ⟨mcsOkPacketId 7, hok, rfl⟩, trivial,
    trivial, trivial, trivial⟩

theorem answer_routed_on_bus_test :
    ∃ s, coreAndProcman.run (shippedConfig .lp64) testRun = .ok s ∧
      BusEvent.socketOut 0 .sdb (mcsOkPacketId 7) ∈ s.history ∧
      (∃ b req, req.type = MCSType.message.code ∧ req.id = 7 ∧
        [BusEvent.socketIn 0 req, .mailed 0 b req, .socketOut b .sdb req,
          .socketIn b (mcsOkPacketId 7), .mailed b 0 (mcsOkPacketId 7),
          .socketOut 0 .sdb (mcsOkPacketId 7)].Sublist s.history) ∧
      s.history.countP (forwardedAnswer 0 7) ≤ 1 := by
  refine ⟨_, rfl, by decide +kernel, ?_⟩
  exact answer_routed_on_bus (shippedConfig .lp64) _
    (reachable_of_run fresh_coreAndProcman testRun wellFormed_testRun rfl) (by decide +kernel) 0
    (mcsOkPacketId 7) (by decide +kernel) rfl

end SDB
end AbsPlatform
