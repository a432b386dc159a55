import AbsPlatform.SDB.Effects

/-!
# Turn — one turn of a module's main loop

`NetEffect` lists everything a turn can do to the network, and `mainLoop_net` says that a turn does
one of these things.  What holds of all reachable states is derived from this list.
-/

namespace AbsPlatform
namespace SDB

open MCS Lib

/-- The event of a packet that `process_pkt_sdb` writes, if the packet passes its check. -/
def wroteIf (cfg : SDBConfig) (m : Nat) (pkt : MCSPacket) : List (RouteEvent Nat MCSPacket) :=
  if checkPacket cfg.tables pkt then [.wrote m pkt] else []

inductive NetEffect (cfg : SDBConfig) (m : Nat) (s s' : Bus) : Prop
  /-- nothing could be read from the socket -/
  | same : (readSocket cfg m s).pkt = none → s'.net = s.net → NetEffect cfg m s s'
  /-- a packet has been read and dealt with -/
  | hear (pkt : MCSPacket) : (s.modules m).mailbox = none → (readSocket cfg m s).pkt = some pkt →
      s'.net = { s.net with history := s.net.history ++ [.heard m pkt] } → NetEffect cfg m s s'
  /-- a command has been read and put into the queue only -/
  | keep (pkt : MCSPacket) : (s.modules m).mailbox = none →
      (readSocket cfg m s).pkt = some pkt → pkt.isAnswer = false →
      s'.net =
        { s.net with
          queue := Function.update s.net.queue m (s.net.queue m ++ [(m, pkt)])
          history := s.net.history ++ [.heard m pkt] } →
      NetEffect cfg m s s'
  /-- a message has been read and sent -/
  | forward (pkt : MCSPacket) (dst : Nat) : (s.modules m).mailbox = none →
      (readSocket cfg m s).pkt = some pkt → pkt.isAnswer = false →
      pkt.type = MCSType.message.code → dst < s.sdbModuleLast → ¬ TooLarge cfg.arch pkt →
      (s.modules dst).mailbox = none →
      s'.net =
        { queue := Function.update s.net.queue m (s.net.queue m ++ [(m, pkt)])
          box := Function.update s.net.box dst (some (m, pkt))
          history := s.net.history ++ [.heard m pkt, .moved m dst pkt] } →
      NetEffect cfg m s s'
  /-- an answer has been read and matched, and it could not be sent -/
  | drop (pkt : MCSPacket) (e : Nat × MCSPacket) (front back : List (Nat × MCSPacket)) :
      (s.modules m).mailbox = none → (readSocket cfg m s).pkt = some pkt → pkt.isAnswer = true →
      s.net.queue m = front ++ e :: back → e.2.id = pkt.id →
      s'.net =
        { s.net with
          queue := Function.update s.net.queue m (front ++ back)
          history := s.net.history ++ [.heard m pkt] } →
      NetEffect cfg m s s'
  /-- an answer has been read, matched and sent -/
  | reply (pkt : MCSPacket) (e : Nat × MCSPacket) (front back : List (Nat × MCSPacket)) :
      (s.modules m).mailbox = none → (readSocket cfg m s).pkt = some pkt → pkt.isAnswer = true →
      s.net.queue m = front ++ e :: back → e.2.id = pkt.id → ¬ TooLarge cfg.arch pkt →
      (s.modules e.1).mailbox = none →
      s'.net =
        { queue := Function.update s.net.queue m (front ++ back)
          box := Function.update s.net.box e.1 (some (m, pkt))
          history := s.net.history ++ [.heard m pkt, .moved m e.1 pkt] } →
      NetEffect cfg m s s'
  /-- a command from the mailbox has been put into the queue and written to the socket -/
  | deliver (src : Nat) (pkt : MCSPacket) : (s.modules m).mailbox = some (src, pkt) →
      pkt.isAnswer = false →
      s'.net =
        { queue := Function.update s.net.queue m (s.net.queue m ++ [(src, pkt)])
          box := Function.update s.net.box m none
          history := s.net.history ++ wroteIf cfg m pkt } →
      NetEffect cfg m s s'
  /-- an answer from the mailbox has been matched and written to the socket -/
  | complete (src : Nat) (pkt : MCSPacket) (e : Nat × MCSPacket)
      (front back : List (Nat × MCSPacket)) :
      (s.modules m).mailbox = some (src, pkt) → pkt.isAnswer = true →
      s.net.queue m = front ++ e :: back → e.2.id = pkt.id →
      s'.net =
        { queue := Function.update s.net.queue m (front ++ back)
          box := Function.update s.net.box m none
          history := s.net.history ++ wroteIf cfg m pkt } →
      NetEffect cfg m s s'
  /-- an answer from the mailbox that nothing matches -/
  | discard (src : Nat) (pkt : MCSPacket) : (s.modules m).mailbox = some (src, pkt) →
      pkt.isAnswer = true →
      s'.net = { s.net with box := Function.update s.net.box m none } → NetEffect cfg m s s'

variable {cfg : SDBConfig} {me : Nat} {pkt : MCSPacket} {s s' : Bus}

/-! ## From the mailbox -/

theorem net_writeCommand_sdb :
    (writeCommand cfg me .sdb pkt s).net =
      { s.net with history := s.net.history ++ wroteIf cfg me pkt } := by
  cases hcheck : checkPacket cfg.tables pkt with
  | true => simp [writeCommand_of_check hcheck, net_log, routeEvent, wroteIf, hcheck]
  | false => simp [writeCommand_of_not_check hcheck, wroteIf, hcheck]

/-- The state in which a packet from the mailbox is handled. -/
def fetched (cfg : SDBConfig) (me : Nat) (pkt : MCSPacket) (s : Bus) : Bus :=
  registerEvent cfg me .pktIn pkt (s.update me fun m => { m with mailbox := none })

theorem fetched_net :
    (fetched cfg me pkt s).net = { s.net with box := Function.update s.net.box me none } := by
  simp [fetched, net_update_mailbox]

theorem matching_fetched (cfg : SDBConfig) (me : Nat) (pkt : MCSPacket) (s : Bus) :
    matching me pkt (fetched cfg me pkt s) = matching me pkt s := by
  simp [matching, fetched]

theorem processPktSdb_of_command {src : Nat} (hbox : (s.modules me).mailbox = some (src, pkt))
    (hrequest : pkt.isAnswer = false) :
    processPktSdb cfg me s = registerEvent cfg me .pktOut pkt
      (writeCommand cfg me .sdb pkt (queuePush me pkt src (fetched cfg me pkt s))) := by
  simp [processPktSdb, hbox, hrequest, fetched]

theorem processPktSdb_of_answer {src : Nat} (hbox : (s.modules me).mailbox = some (src, pkt))
    (hanswer : pkt.isAnswer = true) :
    processPktSdb cfg me s = completeAnswer cfg me pkt (matching me pkt s)
      (queueGet me pkt (fetched cfg me pkt s)).2 := by
  rw [← matching_fetched cfg, ← queueGet_fst]
  simp [processPktSdb, hbox, hanswer, fetched]

theorem processPktSdb_net {src : Nat} (hbox : (s.modules me).mailbox = some (src, pkt)) :
    NetEffect cfg me s (processPktSdb cfg me s) := by
  cases hanswer : pkt.isAnswer with
  | false =>
      -- a command: it waits in the queue for its answer, with the module it came from
      refine NetEffect.deliver src pkt hbox hanswer ?_
      simp [processPktSdb_of_command hbox hanswer, net_writeCommand_sdb, net_queuePush, fetched_net]
  | true =>
      -- an answer: it is written only when the queue has its request
      have heq : processPktSdb cfg me s = _ := processPktSdb_of_answer hbox hanswer
      cases hmatch : matching me pkt s with
      | none =>
          have hnone : matching me pkt (fetched cfg me pkt s) = none :=
            (matching_fetched cfg me pkt s).trans hmatch
          refine NetEffect.discard src pkt hbox hanswer ?_
          simp [heq, hmatch, completeAnswer, net_queueGet_none hnone, fetched_net]
      | some e =>
          have hsome : matching me pkt (fetched cfg me pkt s) = some e :=
            (matching_fetched cfg me pkt s).trans hmatch
          rcases net_queueGet_some hsome with ⟨front, back, hqueue, hid, hnet⟩
          rw [fetched_net] at hqueue
          refine NetEffect.complete src pkt (routeEntry e) front back hbox hanswer hqueue hid ?_
          simp [heq, hmatch, completeAnswer, net_writeCommand_sdb, hnet, fetched_net]

theorem completeAnswer_modules (pktOrigin : Option SDBPacket) :
    (completeAnswer cfg me pkt pktOrigin s).modules = s.modules := by
  cases pktOrigin <;> simp [completeAnswer]

/-- The mailbox has been emptied, and the others are as they were. -/
theorem processPktSdb_mailbox {src : Nat} (hbox : (s.modules me).mailbox = some (src, pkt))
    (k : Nat) :
    ((processPktSdb cfg me s).modules k).mailbox = Function.update s.net.box me none k := by
  have hfetched : ((fetched cfg me pkt s).modules k).mailbox =
      Function.update s.net.box me none k := congrFun (congrArg Net.box fetched_net) k
  cases hanswer : pkt.isAnswer with
  | false => simpa [processPktSdb_of_command hbox hanswer] using hfetched
  | true =>
      rw [processPktSdb_of_answer hbox hanswer, completeAnswer_modules, queueGet_mailbox]
      exact hfetched

/-! ## From the socket -/

theorem processCommand_net (hbox : (s.modules me).mailbox = none)
    (hread : (readSocket cfg me s).pkt = some pkt) (hrequest : pkt.isAnswer = false) {s₁ : Bus}
    (h : processCommand cfg me pkt (arrived cfg me pkt s) = .ok s₁) (hs' : s'.net = s₁.net) :
    NetEffect cfg me s s' := by
  -- the six outcomes have three effects: answered on the spot, kept, and sent
  have hanswered : ∀ {replies}, Replied me replies (arrived cfg me pkt s) s₁ →
      NetEffect cfg me s s' := fun hreplied =>
    NetEffect.hear pkt hbox hread (by rw [hs', hreplied.net, arrived_net])
  have hkept : s₁ = queuePush me pkt me (arrived cfg me pkt s) → NetEffect cfg me s s' := fun heq =>
    NetEffect.keep pkt hbox hread hrequest (by rw [hs', heq, net_queuePush, arrived_net])
  cases processCommand_cases h with
  | refused errCode _ _ _ heq => exact hanswered (heq ▸ replied_refuse errCode)
  | carriedOut _ _ heq => exact hanswered (heq ▸ replied_processSdbCommand)
  | sent dst htype _ hsmall hmailed =>
      refine NetEffect.forward pkt dst hbox hread hrequest htype ?_ hsmall ?_ ?_
      · simpa [queuePush] using hmailed.dst_lt
      · simpa using hmailed.empty
      · simp [hs', hmailed.net, net_queuePush, arrived_net]
  | unsent dst _ _ _ heq => exact hkept heq
  | stated data _ _ hreplied => exact hanswered hreplied
  | payload _ _ heq => exact hkept heq

theorem processAnswer_net (hbox : (s.modules me).mailbox = none)
    (hread : (readSocket cfg me s).pkt = some pkt) (hanswer : pkt.isAnswer = true) {s₁ : Bus}
    (h : processAnswer cfg me pkt (arrived cfg me pkt s) = .ok s₁) (hs' : s'.net = s₁.net) :
    NetEffect cfg me s s' := by
  rcases processAnswer_cases h with ⟨_, hreplied⟩ | ⟨e, r, hmatch, hwrite, rfl⟩
  · exact NetEffect.hear pkt hbox hread (by rw [hs', hreplied.net, arrived_net])
  · rcases net_queueGet_some hmatch with ⟨front, back, hqueue, hid, hnet⟩
    -- the entry is gone from the queue whether or not the answer fits into the mailbox
    have hqueue' : s.net.queue me = front ++ routeEntry e :: back := by
      simpa [arrived_net] using hqueue
    rw [net_registerEvent] at hs'
    rcases sdbModuleWriteMcsPacket_cases hwrite with ⟨hsmall, hmailed⟩ | ⟨hsame, _⟩
    · refine NetEffect.reply pkt (routeEntry e) front back hbox hread hanswer hqueue' hid hsmall ?_
        ?_
      · simpa [routeEntry] using hmailed.empty
      · simp [hs', hmailed.net, hnet, arrived_net, routeEntry]
    · refine NetEffect.drop pkt (routeEntry e) front back hbox hread hanswer hqueue' hid ?_
      simp [hs', hsame, hnet, arrived_net]

theorem processPktSocket_net (hbox : (s.modules me).mailbox = none)
    (h : processPktSocket cfg me s = .ok s') : NetEffect cfg me s s' := by
  cases hread : (readSocket cfg me s).pkt with
  | none => exact NetEffect.same hread (processPktSocket_of_not_read hread h).1
  | some pkt =>
      rcases processPktSocket_of_read hread h with ⟨s₁, hdispatch, rfl⟩
      -- `data_socket = 0` is the last thing the handler does
      have hs' : (s₁.update me fun m => { m with dataSocket := false }).net = s₁.net :=
        net_update rfl rfl
      cases hanswer : pkt.isAnswer with
      | true =>
          simp only [dispatch, hanswer] at hdispatch
          exact processAnswer_net hbox hread hanswer hdispatch hs'
      | false =>
          simp only [dispatch, hanswer] at hdispatch
          exact processCommand_net hbox hread hanswer hdispatch hs'

/-- The mailbox comes before the socket. -/
theorem mainLoop_cases (h : mainLoop cfg me s = .ok s') :
    (∃ src pkt, (s.modules me).mailbox = some (src, pkt) ∧ s' = processPktSdb cfg me s) ∨
      ((s.modules me).mailbox = none ∧ processPktSocket cfg me s = .ok s') := by
  unfold mainLoop at h
  cases hbox : (s.modules me).mailbox with
  | some b =>
      simp only [hbox] at h
      cases h
      exact Or.inl ⟨b.1, b.2, rfl, rfl⟩
  | none =>
      cases hsocket : (s.modules me).dataSocket with
      | false => simp [hbox, hsocket] at h
      | true => exact Or.inr ⟨rfl, by simpa [hbox, hsocket] using h⟩

/-- A turn of the main loop has one of the listed effects. -/
theorem mainLoop_net (h : mainLoop cfg me s = .ok s') : NetEffect cfg me s s' := by
  rcases mainLoop_cases h with ⟨src, pkt, hbox, rfl⟩ | ⟨hbox, hsocket⟩
  · exact processPktSdb_net hbox
  · exact processPktSocket_net hbox hsocket

/-! ## The modules over a turn -/

theorem processAnswer_sameModules (h : processAnswer cfg me pkt s = .ok s') : SameModules s s' := by
  rcases processAnswer_cases h with ⟨_, hreplied⟩ | ⟨e, r, _, hwrite, rfl⟩
  · exact hreplied.modules
  · have hready : SameModules r.2 (registerEvent cfg me .pktReady e.pkt r.2) :=
      sameModules_registerEvent .pktReady
    rcases sdbModuleWriteMcsPacket_cases hwrite with ⟨_, hmailed⟩ | ⟨hsame, _⟩
    · exact (sameModules_queueGet.trans hmailed.modules).trans hready
    · exact (hsame ▸ sameModules_queueGet).trans hready

theorem dispatch_sameModules (h : dispatch cfg me pkt s = .ok s') : SameModules s s' := by
  unfold dispatch at h
  split_ifs at h
  · exact processAnswer_sameModules h
  · exact (processCommand_cases h).sameModules

theorem sameModules_fetched : SameModules s (fetched cfg me pkt s) := by
  have hempty : SameModules s (s.update me fun m => { m with mailbox := none }) :=
    sameModules_update fun _ => ⟨rfl, rfl, rfl⟩
  exact hempty.trans (sameModules_registerEvent .pktIn)

theorem processPktSdb_sameModules {src : Nat} (hbox : (s.modules me).mailbox = some (src, pkt)) :
    SameModules s (processPktSdb cfg me s) := by
  cases hanswer : pkt.isAnswer with
  | false =>
      rw [processPktSdb_of_command hbox hanswer]
      exact ((sameModules_fetched.trans (sameModules_queuePush src)).trans
        (sameModules_writeCommand .sdb)).trans (sameModules_registerEvent .pktOut)
  | true =>
      rw [processPktSdb_of_answer hbox hanswer]
      have hget : SameModules s (queueGet me pkt (fetched cfg me pkt s)).2 :=
        sameModules_fetched.trans sameModules_queueGet
      have hlast : (completeAnswer cfg me pkt (matching me pkt s)
          (queueGet me pkt (fetched cfg me pkt s)).2).sdbModuleLast =
          (queueGet me pkt (fetched cfg me pkt s)).2.sdbModuleLast := by
        cases matching me pkt s <;> simp [completeAnswer]
      exact hget.trans (sameModules_of_modules (completeAnswer_modules _) hlast)

/-- Over a turn the table of modules stays, and only the module's own input is read. -/
theorem mainLoop_modules (h : mainLoop cfg me s = .ok s') :
    s'.sdbModuleLast = s.sdbModuleLast ∧
      (∀ k, k ≠ me → (s'.modules k).input = (s.modules k).input) ∧
      ((s'.modules me).input = (s.modules me).input ∨
        (s'.modules me).input = (readSocket cfg me s).rest) := by
  rcases mainLoop_cases h with ⟨src, pkt, hbox, rfl⟩ | ⟨hbox, hsocket⟩
  · have hsame : SameModules s (processPktSdb cfg me s) := processPktSdb_sameModules hbox
    exact ⟨hsame.last, fun k _ => hsame.input k, Or.inl (hsame.input me)⟩
  · cases hread : (readSocket cfg me s).pkt with
    | none =>
        rcases processPktSocket_of_not_read hread hsocket with ⟨_, hlast, _, hother, hself⟩
        exact ⟨hlast, hother, Or.inr hself⟩
    | some pkt =>
        rcases processPktSocket_of_read hread hsocket with ⟨s₁, hdispatch, rfl⟩
        have hsame := dispatch_sameModules hdispatch
        have hflag : SameModules s₁ (s₁.update me fun m => { m with dataSocket := false }) :=
          sameModules_update fun _ => ⟨rfl, rfl, rfl⟩
        have hall := hsame.trans hflag
        refine ⟨hall.last.trans arrived_last, fun k hk => ?_, Or.inr ?_⟩
        · exact (hall.input k).trans (arrived_input_of_ne hk)
        · exact (hall.input me).trans arrived_input_self

/-! ## Where the contents of mailboxes and queues come from -/

section Origins

variable {k src : Nat} {pkt' : MCSPacket}

theorem box_of_put {dst : Nat}
    (h : Function.update s.net.box dst (some (me, pkt)) k = some (src, pkt')) :
    s.net.box k = some (src, pkt') ∨ (src = me ∧ pkt' = pkt) := by
  by_cases hk : k = dst
  · subst hk
    have hnew : me = src ∧ pkt = pkt' := by simpa using h
    exact Or.inr ⟨hnew.1.symm, hnew.2.symm⟩
  · exact Or.inl (by simpa [Function.update_of_ne hk] using h)

theorem box_of_clear (h : Function.update s.net.box me none k = some (src, pkt)) :
    s.net.box k = some (src, pkt) := by
  by_cases hk : k = me
  · simp [hk] at h
  · simpa [Function.update_of_ne hk] using h

/-- What is in a mailbox after a turn was there before, or it has just been read. -/
theorem NetEffect.box_origin (h : NetEffect cfg me s s') (hbox : s'.net.box k = some (src, pkt)) :
    s.net.box k = some (src, pkt) ∨
      (src = me ∧ (readSocket cfg me s).pkt = some pkt ∧ ¬ TooLarge cfg.arch pkt) := by
  -- only a packet that was read in this turn is put anywhere, and by the module itself
  have hput : ∀ {dst : Nat} {p : MCSPacket}, (readSocket cfg me s).pkt = some p →
      ¬ TooLarge cfg.arch p →
      Function.update s.net.box dst (some (me, p)) k = some (src, pkt) →
      s.net.box k = some (src, pkt) ∨
        (src = me ∧ (readSocket cfg me s).pkt = some pkt ∧ ¬ TooLarge cfg.arch pkt) := by
    intro dst p hread hsmall hbox
    rcases box_of_put hbox with hold | ⟨hsrc, rfl⟩
    · exact Or.inl hold
    · exact Or.inr ⟨hsrc, hread, hsmall⟩
  cases h with
  | same _ hnet => exact Or.inl (by simpa [hnet] using hbox)
  | hear p _ _ hnet => exact Or.inl (by simpa [hnet] using hbox)
  | keep p _ _ _ hnet => exact Or.inl (by simpa [hnet] using hbox)
  | drop p e front back _ _ _ _ _ hnet => exact Or.inl (by simpa [hnet] using hbox)
  | forward p dst _ hread _ _ _ hsmall _ hnet =>
      exact hput hread hsmall (by simpa only [hnet] using hbox)
  | reply p e front back _ hread _ _ _ hsmall _ hnet =>
      exact hput hread hsmall (by simpa only [hnet] using hbox)
  | deliver from' p _ _ hnet => exact Or.inl (box_of_clear (by simpa only [hnet] using hbox))
  | complete from' p e front back _ _ _ _ hnet =>
      exact Or.inl (box_of_clear (by simpa only [hnet] using hbox))
  | discard from' p _ _ hnet => exact Or.inl (box_of_clear (by simpa only [hnet] using hbox))

theorem queue_of_push {e e' : Nat × MCSPacket}
    (h : e ∈ Function.update s.net.queue me (s.net.queue me ++ [e']) k) :
    e ∈ s.net.queue k ∨ e = e' := by
  by_cases hk : k = me
  · subst hk
    simpa using h
  · exact Or.inl (by simpa [Function.update_of_ne hk] using h)

theorem queue_of_take {e e' : Nat × MCSPacket} {front back : List (Nat × MCSPacket)}
    (hqueue : s.net.queue me = front ++ e' :: back)
    (h : e ∈ Function.update s.net.queue me (front ++ back) k) : e ∈ s.net.queue k := by
  by_cases hk : k = me
  · subst hk
    rw [Function.update_self] at h
    rw [hqueue]
    exact ((List.Sublist.refl front).append (List.sublist_cons_self e' back)).subset h
  · simpa [Function.update_of_ne hk] using h

/-- What is in a queue after a turn was there before, is the module's own, or was in its
mailbox. -/
theorem NetEffect.queue_origin (h : NetEffect cfg me s s') {e : Nat × MCSPacket}
    (hmem : e ∈ s'.net.queue k) :
    e ∈ s.net.queue k ∨ e.1 = me ∨ s.net.box me = some e := by
  -- what was read in this turn is noted with the module itself as its origin
  have hown : ∀ {p : MCSPacket},
      e ∈ Function.update s.net.queue me (s.net.queue me ++ [(me, p)]) k →
      e ∈ s.net.queue k ∨ e.1 = me ∨ s.net.box me = some e := by
    intro p hmem
    rcases queue_of_push hmem with hold | rfl
    · exact Or.inl hold
    · exact Or.inr (Or.inl rfl)
  cases h with
  | same _ hnet => exact Or.inl (by simpa [hnet] using hmem)
  | hear p _ _ hnet => exact Or.inl (by simpa [hnet] using hmem)
  | discard from' p _ _ hnet => exact Or.inl (by simpa [hnet] using hmem)
  | keep p _ _ _ hnet => exact hown (by simpa only [hnet] using hmem)
  | forward p dst _ _ _ _ _ _ _ hnet => exact hown (by simpa only [hnet] using hmem)
  | drop p e' front back _ _ _ hqueue _ hnet =>
      exact Or.inl (queue_of_take hqueue (by simpa only [hnet] using hmem))
  | reply p e' front back _ _ _ hqueue _ _ _ hnet =>
      exact Or.inl (queue_of_take hqueue (by simpa only [hnet] using hmem))
  | complete from' p e' front back _ _ hqueue _ hnet =>
      exact Or.inl (queue_of_take hqueue (by simpa only [hnet] using hmem))
  | deliver from' p hbox _ hnet =>
      -- the mailbox still says who has sent the command
      rcases queue_of_push (by simpa only [hnet] using hmem) with hold | rfl
      · exact Or.inl hold
      · exact Or.inr (Or.inr hbox)

end Origins

/-! ## Mailboxes and queues name modules -/

/-- Senders and requesters are modules of the bus, and what is in a mailbox has passed the size
test. -/
structure Bounded (cfg : SDBConfig) (s : Bus) : Prop where
  box : ∀ {m src pkt}, s.net.box m = some (src, pkt) →
    src < s.sdbModuleLast ∧ ¬ TooLarge cfg.arch pkt
  queue : ∀ {m e}, e ∈ s.net.queue m → e.1 < s.sdbModuleLast

theorem bounded_of_fresh (h : Fresh s) : Bounded cfg s where
  box := by simp [Bus.net, h.mailbox]
  queue := by simp [Bus.net, h.queue]

theorem bounded_of_net (h : Bounded cfg s) (hnet : s'.net = s.net)
    (hlast : s'.sdbModuleLast = s.sdbModuleLast) : Bounded cfg s' where
  box := fun hbox => hlast ▸ h.box (hnet ▸ hbox)
  queue := fun hmem => hlast ▸ h.queue (hnet ▸ hmem)

theorem NetEffect.bounded (h : NetEffect cfg me s s') (hme : me < s.sdbModuleLast)
    (hlast : s'.sdbModuleLast = s.sdbModuleLast) (hbounded : Bounded cfg s) : Bounded cfg s' where
  box := by
    intro m src pkt hbox
    rw [hlast]
    rcases h.box_origin hbox with hold | ⟨rfl, _, hsmall⟩
    · exact hbounded.box hold
    · exact ⟨hme, hsmall⟩
  queue := by
    intro m e hmem
    rw [hlast]
    rcases h.queue_origin hmem with hold | hself | hbox
    · exact hbounded.queue hold
    · exact hself ▸ hme
    · exact (hbounded.box hbox).1

/-- What an action does, seen from the network: a module takes a turn, or nothing happens. -/
theorem act_cases {a : Action} (h : s.act cfg a = .ok s') :
    (∃ m, a = .turn m ∧ m < s.sdbModuleLast ∧ mainLoop cfg m s = .ok s') ∨
      (s'.net = s.net ∧ s'.sdbModuleLast = s.sdbModuleLast ∧ ∀ k, s'.replies k = s.replies k) := by
  cases a with
  | client m bytes =>
      cases h
      exact Or.inr ⟨net_update rfl rfl, rfl, fun k => rfl⟩
  | observe m =>
      cases h
      exact Or.inr ⟨net_update rfl rfl, rfl, fun k => rfl⟩
  | turn m =>
      simp only [Bus.act] at h
      split_ifs at h with hm
      exact Or.inl ⟨m, rfl, hm, h⟩

theorem Reachable.bounded {allowed : Action → Prop} (h : Reachable cfg allowed s) :
    Bounded cfg s := by
  refine h.invariant (fun s hs => bounded_of_fresh hs) ?_
  rintro s s' hbounded ⟨a, _, hact⟩
  -- clients and the observer do not touch mailboxes or queues
  rcases act_cases hact with ⟨m, rfl, hm, hturn⟩ | ⟨hnet, hlast, _⟩
  · exact (mainLoop_net hturn).bounded hm (mainLoop_modules hturn).1 hbounded
  · exact bounded_of_net hbounded hnet hlast

end SDB
end AbsPlatform
