import AbsPlatform.SDB.Bus

/-!
# Effects — what the handlers do

One lemma for each handler, in terms of the network, the replies and the parts of the modules that
handlers leave alone.  The proofs about runs, permissions and lost packets use these and do not
unfold the handlers.
-/

namespace AbsPlatform
namespace SDB

open MCS Lib

variable {cfg : SDBConfig} {me : Nat} {pkt : MCSPacket} {s s' : Bus}

/-- What follows a call goes on with its result. -/
theorem exists_of_bind_ok {α β : Type} {x : Except Stuck α} {f : α → Except Stuck β} {b : β}
    (h : x >>= f = .ok b) : ∃ a, x = .ok a ∧ f a = .ok b := by
  cases x with
  | error e => cases h
  | ok a => exact ⟨a, rfl, h⟩

/-! ## What handlers leave alone -/

/-- The set of modules, their names and groups, and what waits at their sockets. -/
structure SameModules (s s' : Bus) : Prop where
  last : s'.sdbModuleLast = s.sdbModuleLast
  name : ∀ k, (s'.modules k).name = (s.modules k).name
  group : ∀ k, (s'.modules k).group = (s.modules k).group
  input : ∀ k, (s'.modules k).input = (s.modules k).input

theorem SameModules.refl (s : Bus) : SameModules s s :=
  ⟨rfl, fun _ => rfl, fun _ => rfl, fun _ => rfl⟩

theorem SameModules.trans {s₁ s₂ s₃ : Bus} (h₁ : SameModules s₁ s₂) (h₂ : SameModules s₂ s₃) :
    SameModules s₁ s₃ where
  last := h₂.last.trans h₁.last
  name := fun k => (h₂.name k).trans (h₁.name k)
  group := fun k => (h₂.group k).trans (h₁.group k)
  input := fun k => (h₂.input k).trans (h₁.input k)

theorem sameModules_of_modules (hmodules : s'.modules = s.modules)
    (hlast : s'.sdbModuleLast = s.sdbModuleLast) : SameModules s s' where
  last := hlast
  name := fun k => by simp [hmodules]
  group := fun k => by simp [hmodules]
  input := fun k => by simp [hmodules]

theorem sameModules_update {m : Nat} {f : SDBModule → SDBModule}
    (h : ∀ x, (f x).name = x.name ∧ (f x).group = x.group ∧ (f x).input = x.input) :
    SameModules s (s.update m f) := by
  have hmod : ∀ k, ((s.update m f).modules k).name = (s.modules k).name ∧
      ((s.update m f).modules k).group = (s.modules k).group ∧
      ((s.update m f).modules k).input = (s.modules k).input := by
    intro k
    by_cases hk : k = m
    · subst hk
      simpa using h (s.modules k)
    · simp [Bus.update_of_ne hk]
  exact ⟨rfl, fun k => (hmod k).1, fun k => (hmod k).2.1, fun k => (hmod k).2.2⟩

theorem sameModules_registerEvent (event : SDBQOSEvent) :
    SameModules s (registerEvent cfg me event pkt s) :=
  sameModules_of_modules registerEvent_modules registerEvent_last

theorem sameModules_log (e : BusEvent) : SameModules s (s.log e) :=
  sameModules_of_modules rfl rfl

theorem sameModules_writeCommand (writer : Writer) :
    SameModules s (writeCommand cfg me writer pkt s) :=
  sameModules_of_modules writeCommand_modules writeCommand_last

/-! ## Answering -/

/-- A handler that answers: it writes packets to its own socket and does nothing else that routing
could see. -/
structure Replied (me : Nat) (replies : List MCSPacket) (s s' : Bus) : Prop where
  net : s'.net = s.net
  replies : s'.replies me = s.replies me ++ replies
  modules : SameModules s s'

theorem Replied.nothing (hnet : s'.net = s.net) (hreplies : s'.replies me = s.replies me)
    (hmodules : SameModules s s') : Replied me [] s s' where
  net := hnet
  replies := by simpa using hreplies
  modules := hmodules

theorem Replied.trans {s₁ s₂ s₃ : Bus} {l₁ l₂ : List MCSPacket} (h₁ : Replied me l₁ s₁ s₂)
    (h₂ : Replied me l₂ s₂ s₃) : Replied me (l₁ ++ l₂) s₁ s₃ where
  net := h₂.net.trans h₁.net
  replies := by simp [h₂.replies, h₁.replies]
  modules := h₁.modules.trans h₂.modules

theorem replied_registerEvent (event : SDBQOSEvent) :
    Replied me [] s (registerEvent cfg me event pkt s) :=
  Replied.nothing (net_registerEvent event) (replies_registerEvent event me)
    (sameModules_registerEvent event)

/-- The packets that pass the writer's check. -/
def accepted (cfg : SDBConfig) (pkt : MCSPacket) : List MCSPacket :=
  if checkPacket cfg.tables pkt then [pkt] else []

theorem replied_writeCommand :
    Replied me (accepted cfg pkt) s (writeCommand cfg me .socket pkt s) := by
  cases hcheck : checkPacket cfg.tables pkt with
  | true =>
      refine ⟨?_, ?_, sameModules_writeCommand .socket⟩
      · simp [writeCommand_of_check hcheck, net_log, routeEvent]
      · simp [writeCommand_of_check hcheck, replies_log, replyEvent, accepted, hcheck]
  | false =>
      have hsame : writeCommand cfg me .socket pkt s = s := writeCommand_of_not_check hcheck
      refine ⟨by rw [hsame], ?_, sameModules_writeCommand .socket⟩
      simp [hsame, accepted, hcheck]

theorem accepted_mcsErrPacket (errCode : Int) :
    accepted cfg (mcsErrPacket pkt errCode) = [mcsErrPacket pkt errCode] := by
  simp [accepted, mcsErrPacket]

theorem accepted_mcsOkPacket : accepted cfg (mcsOkPacket pkt) = [mcsOkPacket pkt] := by
  simp [accepted, mcsOkPacket]

/-- An answer with data goes out unless its 16-bit size is zero. -/
theorem accepted_mcsOkPacketData (data : List UInt8) :
    accepted cfg (mcsOkPacketData pkt data) =
      if data.length % 2 ^ 16 ≠ 0 then [mcsOkPacketData pkt data] else [] := by
  have hiff := checkPacket_mcsOkPacketDataId cfg.tables pkt.id data
  by_cases hz : data.length % 2 ^ 16 ≠ 0
  · rw [if_pos hz]
    simp [accepted, mcsOkPacketData, hiff.2 hz]
  · have hfalse : checkPacket cfg.tables (mcsOkPacketDataId pkt.id data) = false := by
      simpa using mt hiff.1 hz
    rw [if_neg hz]
    simp [accepted, mcsOkPacketData, hfalse]

theorem replied_refuse (errCode : Int) :
    Replied me [mcsErrPacket pkt errCode] s (refuse cfg me pkt errCode s) := by
  have hwrite : Replied me (accepted cfg (mcsErrPacket pkt errCode)) s
      (writeCommand cfg me .socket (mcsErrPacket pkt errCode) s) := replied_writeCommand
  rw [accepted_mcsErrPacket] at hwrite
  simpa [refuse] using hwrite.trans (replied_registerEvent .pktScrap)

theorem replied_setQosEnabled (on : Bool) : Replied me [] s (setQosEnabled me on s) :=
  Replied.nothing (net_update rfl rfl) rfl (sameModules_update fun _ => ⟨rfl, rfl, rfl⟩)

/-- What a dump answers: its text, or an error while the log is off. -/
def dumpReply (cfg : SDBConfig) (me : Nat) (pkt : MCSPacket) (s : Bus) : List MCSPacket :=
  if (s.modules me).qosEnabled then
    accepted cfg (mcsOkPacketData pkt (s.qosTable.dumpText me))
  else
    [mcsErrPacket pkt eundef]

/-- The answers to a message for the SDB. -/
def sdbReplies (cfg : SDBConfig) (me : Nat) (pkt : MCSPacket) (s : Bus) : List MCSPacket :=
  if pkt.cmd.toNat = cfg.qosStart then
    [mcsOkPacket pkt]
  else if pkt.cmd.toNat = cfg.qosDump then
    dumpReply cfg me pkt s
  else if pkt.cmd.toNat = cfg.qosStop then
    dumpReply cfg me pkt s ++ [mcsErrPacket pkt ebadformat]
  else
    [mcsErrPacket pkt ebadformat]

theorem replied_dump {pktRes : MCSPacket} (h : sdbQosDumpModule me pkt s = some (pktRes, s')) :
    (s.modules me).qosEnabled = true ∧ pktRes = mcsOkPacketData pkt (s.qosTable.dumpText me) ∧
      Replied me [] s s' := by
  unfold sdbQosDumpModule at h
  split_ifs at h with henabled
  cases h
  exact ⟨henabled, rfl, Replied.nothing rfl rfl (sameModules_of_modules rfl rfl)⟩

theorem dump_eq_none_iff :
    sdbQosDumpModule me pkt s = none ↔ (s.modules me).qosEnabled = false := by
  unfold sdbQosDumpModule
  split_ifs with henabled <;> simp [henabled]

theorem replied_processSdbCommand :
    Replied me (sdbReplies cfg me pkt s) s (processSdbCommand cfg me pkt s) := by
  unfold sdbReplies processSdbCommand
  split_ifs with hstart hdump hstop
  · -- the log is switched on before the answer goes out
    have hwrite : Replied me (accepted cfg (mcsOkPacket pkt)) (sdbQosStart me s)
        (writeCommand cfg me .socket (mcsOkPacket pkt) (sdbQosStart me s)) := replied_writeCommand
    rw [accepted_mcsOkPacket] at hwrite
    simpa using (replied_setQosEnabled true).trans hwrite
  · cases hres : sdbQosDumpModule me pkt s with
    | none =>
        have hoff := dump_eq_none_iff.1 hres
        -- a log that is off has nothing to dump
        have hwrite : Replied me (accepted cfg (mcsErrPacket pkt eundef)) s
            (writeCommand cfg me .socket (mcsErrPacket pkt eundef) s) := replied_writeCommand
        rw [accepted_mcsErrPacket] at hwrite
        simpa [dumpReply, hoff] using hwrite
    | some r =>
        rcases replied_dump hres with ⟨hon, hpkt, hquiet⟩
        have hwrite : Replied me (accepted cfg r.1) r.2 (writeCommand cfg me .socket r.1 r.2) :=
          replied_writeCommand
        simpa [dumpReply, hon, hpkt] using hquiet.trans hwrite
  · -- the answer to the dump, and then that of the default case
    refine Replied.trans ?_ (replied_refuse ebadformat)
    cases hres : sdbQosDumpModule me pkt s with
    | none =>
        have hoff := dump_eq_none_iff.1 hres
        have hwrite : Replied me (accepted cfg (mcsErrPacket pkt eundef)) (sdbQosStop me s)
            (writeCommand cfg me .socket (mcsErrPacket pkt eundef) (sdbQosStop me s)) :=
          replied_writeCommand
        rw [accepted_mcsErrPacket] at hwrite
        simpa [dumpReply, hoff] using (replied_setQosEnabled false).trans hwrite
    | some r =>
        rcases replied_dump hres with ⟨hon, hpkt, hquiet⟩
        have hwrite : Replied me (accepted cfg r.1) (sdbQosStop me r.2)
            (writeCommand cfg me .socket r.1 (sdbQosStop me r.2)) := replied_writeCommand
        simpa [dumpReply, hon, hpkt] using hquiet.trans ((replied_setQosEnabled false).trans hwrite)
  · exact replied_refuse ebadformat

/-! ## Queues and mailboxes -/

/-- `sizeof(*pkt) + pkt->nargs + pkt->data_size > SDB_MODULE_DATA_SIZE`. -/
def TooLarge (arch : Arch) (pkt : MCSPacket) : Prop :=
  sizeofPacket arch + pkt.nargs.toNat + pkt.dataSize.toNat > sdbModuleDataSize

instance (arch : Arch) (pkt : MCSPacket) : Decidable (TooLarge arch pkt) :=
  inferInstanceAs (Decidable (_ > _))

theorem net_queuePush (id : Nat) :
    (queuePush me pkt id s).net =
      { s.net with queue := Function.update s.net.queue me (s.net.queue me ++ [(id, pkt)]) } := by
  have h := net_update_queue (s := s) me fun x => x.queue ++ [sdbPacket pkt id]
  simpa [queuePush, Bus.net, routeEntry, sdbPacket] using h

@[simp] theorem queuePush_mailbox (id k : Nat) :
    ((queuePush me pkt id s).modules k).mailbox = (s.modules k).mailbox :=
  congrFun (congrArg Net.box (net_queuePush id)) k

theorem sameModules_queuePush (id : Nat) : SameModules s (queuePush me pkt id s) :=
  sameModules_update fun _ => ⟨rfl, rfl, rfl⟩

/-- The first entry of the module's queue with the packet's id. -/
def matching (me : Nat) (pkt : MCSPacket) (s : Bus) : Option SDBPacket :=
  (s.modules me).queue.find? fun p => p.pkt.id == pkt.id

theorem queueGet_fst : (queueGet me pkt s).1 = matching me pkt s := rfl

theorem queueGet_snd :
    (queueGet me pkt s).2 =
      s.update me fun m => { m with queue := m.queue.eraseP fun p => p.pkt.id == pkt.id } := rfl

theorem sameModules_queueGet : SameModules s (queueGet me pkt s).2 := by
  rw [queueGet_snd]
  refine sameModules_update ?_
  intro x
  exact ⟨rfl, rfl, rfl⟩

@[simp] theorem queueGet_mailbox (k : Nat) :
    ((queueGet me pkt s).2.modules k).mailbox = (s.modules k).mailbox := by
  have hnet := net_update_queue (s := s) me fun x => x.queue.eraseP fun p => p.pkt.id == pkt.id
  exact congrFun (congrArg Net.box hnet) k

/-- When nothing matches, the queue is left as it is. -/
theorem net_queueGet_none (h : matching me pkt s = none) : (queueGet me pkt s).2.net = s.net := by
  have herase : (s.modules me).queue.eraseP (fun p => p.pkt.id == pkt.id) =
      (s.modules me).queue := List.eraseP_of_forall_not (by simpa [matching] using h)
  rw [queueGet_snd]
  exact net_update herase rfl

/-- Otherwise one entry is taken out of it. -/
theorem net_queueGet_some {e : SDBPacket} (h : matching me pkt s = some e) :
    ∃ front back, s.net.queue me = front ++ routeEntry e :: back ∧ e.pkt.id = pkt.id ∧
      (queueGet me pkt s).2.net =
        { s.net with queue := Function.update s.net.queue me (front ++ back) } := by
  rcases List.find?_eq_some_iff_append.1 h with ⟨hid, front, back, hqueue, hfront⟩
  refine ⟨front.map routeEntry, back.map routeEntry, by simp [Bus.net, hqueue],
    by simpa using hid, ?_⟩
  -- the entry that is found is the one that is unlinked
  have herase : (s.modules me).queue.eraseP (fun p => p.pkt.id == pkt.id) = front ++ back := by
    rw [hqueue, List.eraseP_append_right _ (by simpa using hfront)]
    simp [hid]
  have hnet := net_update_queue (s := s) me fun x => x.queue.eraseP fun p => p.pkt.id == pkt.id
  simpa [queueGet_snd, herase] using hnet

/-- A packet has been put into the mailbox of `dst`. -/
structure Mailed (me dst : Nat) (pkt : MCSPacket) (s s' : Bus) : Prop where
  dst_lt : dst < s.sdbModuleLast
  empty : (s.modules dst).mailbox = none
  net : s'.net =
    { s.net with
      box := Function.update s.net.box dst (some (me, pkt))
      history := s.net.history ++ [.moved me dst pkt] }
  queue : ∀ k, (s'.modules k).queue = (s.modules k).queue
  replies : ∀ k, s'.replies k = s.replies k
  modules : SameModules s s'

/-- `sdb_module_write_mcs_packet` for a packet that passes its tests: a full mailbox is waited for,
an empty one takes the packet, or it is written past its end. -/
theorem sdbModuleWriteMcsPacket_eq {dst : Nat} (hdst : dst < s.sdbModuleLast)
    (hfits : ¬ TooLarge cfg.arch pkt) :
    sdbModuleWriteMcsPacket cfg me pkt dst s =
      if (s.modules dst).mailbox.isSome then if me = dst then .ok (-1, s) else .error .waiting
      else if regionBytes cfg.arch pkt > sdbModuleDataSize then .error .fault
      else .ok (0, registerEvent cfg me .pktOut pkt
        ((s.update dst fun m => { m with mailbox := some (me, pkt) }).log
          (.mailed me dst pkt))) := by
  have hlast : ¬ dst ≥ s.sdbModuleLast := Nat.not_le.2 hdst
  have hle : ¬ sizeofPacket cfg.arch + pkt.nargs.toNat + pkt.dataSize.toNat >
      sdbModuleDataSize := hfits
  simp only [sdbModuleWriteMcsPacket, hlast, hle, if_false]
  cases (s.modules dst).mailbox <;> rfl

/-- For any other packet it returns -1. -/
theorem sdbModuleWriteMcsPacket_eq_neg {dst : Nat}
    (h : s.sdbModuleLast ≤ dst ∨ TooLarge cfg.arch pkt) :
    sdbModuleWriteMcsPacket cfg me pkt dst s = .ok (-1, s) := by
  by_cases hlast : dst ≥ s.sdbModuleLast
  · simp only [sdbModuleWriteMcsPacket, hlast, if_true]
  · have hgt : sizeofPacket cfg.arch + pkt.nargs.toNat + pkt.dataSize.toNat >
        sdbModuleDataSize := h.resolve_left hlast
    simp only [sdbModuleWriteMcsPacket, hlast, hgt, if_true, if_false]

/-- When it returns, it has changed nothing, or it has put the packet into an empty mailbox. -/
theorem sdbModuleWriteMcsPacket_ok {dst : Nat} {r : Int × Bus}
    (h : sdbModuleWriteMcsPacket cfg me pkt dst s = .ok r) :
    (r.2 = s ∧ (s.sdbModuleLast ≤ dst ∨ TooLarge cfg.arch pkt ∨
        (me = dst ∧ (s.modules dst).mailbox ≠ none))) ∨
      (dst < s.sdbModuleLast ∧ ¬ TooLarge cfg.arch pkt ∧ (s.modules dst).mailbox = none ∧
        r.2 = registerEvent cfg me .pktOut pkt
          ((s.update dst fun m => { m with mailbox := some (me, pkt) }).log
            (.mailed me dst pkt))) := by
  by_cases htests : s.sdbModuleLast ≤ dst ∨ TooLarge cfg.arch pkt
  · rw [sdbModuleWriteMcsPacket_eq_neg htests] at h
    cases h
    exact Or.inl ⟨rfl, htests.imp id Or.inl⟩
  · rw [not_or] at htests
    have hdst : dst < s.sdbModuleLast := Nat.lt_of_not_le htests.1
    rw [sdbModuleWriteMcsPacket_eq hdst htests.2] at h
    split_ifs at h with hfull hself hfits
    · -- a full mailbox: the thread waits, unless it is its own
      cases h
      exact Or.inl ⟨rfl, Or.inr (Or.inr ⟨hself, Option.isSome_iff_ne_none.1 hfull⟩)⟩
    · cases h
      exact Or.inr ⟨hdst, htests.2, by simpa using hfull, rfl⟩

/-- `sdb_module_write_mcs_packet` puts the packet into the mailbox, or it changes nothing. -/
theorem sdbModuleWriteMcsPacket_cases {dst : Nat} {r : Int × Bus}
    (h : sdbModuleWriteMcsPacket cfg me pkt dst s = .ok r) :
    (¬ TooLarge cfg.arch pkt ∧ Mailed me dst pkt s r.2) ∨
      (r.2 = s ∧ (s.sdbModuleLast ≤ dst ∨ TooLarge cfg.arch pkt ∨
        (me = dst ∧ (s.modules dst).mailbox ≠ none))) := by
  rcases sdbModuleWriteMcsPacket_ok h with hsame | ⟨hdst, hfits, hempty, hr⟩
  · exact Or.inr hsame
  · rw [hr]
    -- the copy: only the mailbox of the destination and the log have changed
    refine Or.inl ⟨hfits, hdst, hempty, ?_, ?_, ?_, ?_⟩
    · simp [net_log, net_update_mailbox, routeEvent]
    · intro k
      by_cases hk : k = dst
      · subst hk
        simp
      · simp [Bus.update_of_ne hk]
    · intro k
      simp [replies_log, replyEvent]
    · have hput : SameModules s (s.update dst fun m => { m with mailbox := some (me, pkt) }) :=
        sameModules_update fun _ => ⟨rfl, rfl, rfl⟩
      exact (hput.trans (sameModules_log _)).trans (sameModules_registerEvent .pktOut)

/-! ## Messages -/

/-- The message passes the origin test, names an existing module and passes the destination
test. -/
def Routed (cfg : SDBConfig) (me : Nat) (pkt : MCSPacket) (s : Bus) (dst : Nat) : Prop :=
  ∃ entry destination name,
    cfg.tables.messages[pkt.cmd.toNat]? = some entry ∧
    groupAllowed cfg.arch entry.originGroups (s.modules me).group = true ∧
    entry.destination = some destination ∧
    destName destination pkt = some name ∧
    findModule s name = some dst ∧
    groupAllowed cfg.arch entry.destinationGroups (s.modules dst).group = true

/-- The message passes the origin test and is for the SDB itself. -/
def ForSDB (cfg : SDBConfig) (me : Nat) (pkt : MCSPacket) (s : Bus) : Prop :=
  ∃ entry,
    cfg.tables.messages[pkt.cmd.toNat]? = some entry ∧
    groupAllowed cfg.arch entry.originGroups (s.modules me).group = true ∧
    entry.destination = none

theorem findModule_lt {name : CString} {dst : Nat} (h : findModule s name = some dst) :
    dst < s.sdbModuleLast := by
  simpa using List.mem_of_find?_eq_some h

theorem processPktMessage_of_routed {dst : Nat} (h : Routed cfg me pkt s dst) :
    processPktMessage cfg me pkt s = sendMessage cfg me pkt dst s := by
  rcases h with ⟨entry, destination, name, hentry, horigin, hdest, hname, hfind, hgroup⟩
  simp [processPktMessage, hentry, horigin, hdest, hname, hfind, hgroup]

theorem processPktMessage_of_forSDB (h : ForSDB cfg me pkt s) :
    processPktMessage cfg me pkt s = .ok (processSdbCommand cfg me pkt s) := by
  rcases h with ⟨entry, hentry, horigin, hdest⟩
  simp [processPktMessage, hentry, horigin, hdest]

/-- The ways a message can end: it is sent, it is for the SDB, or it is refused. -/
theorem processPktMessage_cases (h : processPktMessage cfg me pkt s = .ok s') :
    (∃ dst, Routed cfg me pkt s dst ∧ sendMessage cfg me pkt dst s = .ok s') ∨
      (ForSDB cfg me pkt s ∧ s' = processSdbCommand cfg me pkt s) ∨
      ((∀ dst, ¬ Routed cfg me pkt s dst) ∧ ¬ ForSDB cfg me pkt s ∧
        ∃ errCode, s' = refuse cfg me pkt errCode s) := by
  by_cases hrouted : ∃ dst, Routed cfg me pkt s dst
  · rcases hrouted with ⟨dst, hdst⟩
    exact Or.inl ⟨dst, hdst, (processPktMessage_of_routed hdst).symm.trans h⟩
  by_cases hsdb : ForSDB cfg me pkt s
  · rw [processPktMessage_of_forSDB hsdb] at h
    cases h
    exact Or.inr (Or.inl ⟨hsdb, rfl⟩)
  refine Or.inr (Or.inr ⟨fun dst hdst => hrouted ⟨dst, hdst⟩, hsdb, ?_⟩)
  -- every other exit is a refusal; the remaining branches contradict what has been excluded
  unfold processPktMessage at h
  cases hentry : cfg.tables.messages[pkt.cmd.toNat]? with
  | none =>
      simp only [hentry] at h
      cases h
      exact ⟨ecmdfault, rfl⟩
  | some entry =>
      cases horigin : groupAllowed cfg.arch entry.originGroups (s.modules me).group with
      | false =>
          simp only [hentry, horigin] at h
          cases h
          exact ⟨eperm, rfl⟩
      | true =>
          cases hdest : entry.destination with
          | none => exact absurd ⟨entry, hentry, horigin, hdest⟩ hsdb
          | some destination =>
              cases hname : destName destination pkt with
              | none => simp [hentry, horigin, hdest, hname] at h
              | some name =>
                  cases hfind : findModule s name with
                  | none =>
                      simp [hentry, horigin, hdest, hname, hfind] at h
                      exact ⟨ebadmodid, h.symm⟩
                  | some dst =>
                      cases hgroup : groupAllowed cfg.arch entry.destinationGroups
                          (s.modules dst).group with
                      | false =>
                          simp [hentry, horigin, hdest, hname, hfind, hgroup] at h
                          exact ⟨eperm, h.symm⟩
                      | true =>
                          exact absurd ⟨dst, entry, destination, name, hentry, horigin, hdest,
                            hname, hfind, hgroup⟩ hrouted

/-- Sending notes the packet in the queue, whether or not it reaches the mailbox. -/
theorem sendMessage_cases {dst : Nat} (h : sendMessage cfg me pkt dst s = .ok s') :
    (¬ TooLarge cfg.arch pkt ∧ Mailed me dst pkt (queuePush me pkt me s) s') ∨
      (s' = queuePush me pkt me s ∧ (s.sdbModuleLast ≤ dst ∨ TooLarge cfg.arch pkt ∨
        (me = dst ∧ (s.modules me).mailbox ≠ none))) := by
  -- the return value is not looked at
  rcases exists_of_bind_ok h with ⟨r, hwrite, hs'⟩
  cases hs'
  rcases sdbModuleWriteMcsPacket_cases hwrite with hmailed | ⟨hsame, hwhy⟩
  · exact Or.inl hmailed
  · refine Or.inr ⟨hsame, hwhy.imp_right (Or.imp_right ?_)⟩
    rintro ⟨rfl, hbox⟩
    exact ⟨rfl, by simpa using hbox⟩

/-! ## States and payload commands -/

/-- No entry of the permissions fits in a pointer, so none is looked at. -/
theorem expireRefused_eq (arch : Arch) (entry : MCSCommandOptionsState) (group : SDBGroup) :
    expireRefused arch entry group pkt = .ok false := by
  cases arch <;> rfl

/-- The data a state request is answered with. -/
def StateData (cfg : SDBConfig) (pkt : MCSPacket) (data : List UInt8) : Prop :=
  ∃ entry, cfg.tables.states[pkt.cmd.toNat]? = some entry ∧
    responseData entry.cmd.responseSize (entry.request pkt) = .ok data

theorem processPktState_cases (h : processPktState cfg me pkt s = .ok s') :
    (cfg.tables.states[pkt.cmd.toNat]? = none ∧ s' = refuse cfg me pkt ecmdfault s) ∨
      ∃ data, StateData cfg pkt data ∧
        Replied me (accepted cfg (mcsOkPacketData pkt data)) s s' := by
  unfold processPktState at h
  cases hentry : cfg.tables.states[pkt.cmd.toNat]? with
  | none =>
      simp only [hentry] at h
      cases h
      exact Or.inl ⟨rfl, rfl⟩
  | some entry =>
      -- the test of the permissions lets everything through, so the answer is always made
      simp only [hentry, expireRefused_eq, bind, Except.bind] at h
      cases hdata : responseData entry.cmd.responseSize (entry.request pkt) with
      | error e => simp [hdata] at h
      | ok data =>
          simp [hdata] at h
          subst h
          have hready : Replied me [] s (registerEvent cfg me .pktReady pkt s) :=
            replied_registerEvent .pktReady
          exact Or.inr ⟨data, ⟨entry, hentry, hdata⟩, hready.trans replied_writeCommand⟩

theorem processPktPayload_cases (cfg : SDBConfig) (me : Nat) (pkt : MCSPacket) (s : Bus) :
    (cfg.tables.payloads[pkt.cmd.toNat]? = none ∧
        processPktPayload cfg me pkt s = refuse cfg me pkt ecmdfault s) ∨
      (cfg.tables.payloads[pkt.cmd.toNat]?.isSome ∧
        processPktPayload cfg me pkt s = queuePush me pkt me s) := by
  unfold processPktPayload
  cases hentry : cfg.tables.payloads[pkt.cmd.toNat]? with
  | none => exact Or.inl ⟨rfl, rfl⟩
  | some entry => exact Or.inr ⟨rfl, rfl⟩

/-! ## Commands -/

/-- The ways the handling of a command can end. -/
inductive CommandOutcome (cfg : SDBConfig) (me : Nat) (pkt : MCSPacket) (s s' : Bus) : Prop
  /-- an error answer -/
  | refused (errCode : Int) :
      (pkt.type = MCSType.message.code →
        (∀ dst, ¬ Routed cfg me pkt s dst) ∧ ¬ ForSDB cfg me pkt s) →
      (pkt.type = MCSType.state.code → cfg.tables.states[pkt.cmd.toNat]? = none) →
      (pkt.type = MCSType.payload.code → cfg.tables.payloads[pkt.cmd.toNat]? = none) →
      s' = refuse cfg me pkt errCode s → CommandOutcome cfg me pkt s s'
  /-- a message for the SDB -/
  | carriedOut : pkt.type = MCSType.message.code → ForSDB cfg me pkt s →
      s' = processSdbCommand cfg me pkt s → CommandOutcome cfg me pkt s s'
  /-- a message that has reached the mailbox of its destination -/
  | sent (dst : Nat) : pkt.type = MCSType.message.code → Routed cfg me pkt s dst →
      ¬ TooLarge cfg.arch pkt → Mailed me dst pkt (queuePush me pkt me s) s' →
      CommandOutcome cfg me pkt s s'
  /-- a message that has only been noted -/
  | unsent (dst : Nat) : pkt.type = MCSType.message.code → Routed cfg me pkt s dst →
      (TooLarge cfg.arch pkt ∨ (me = dst ∧ (s.modules me).mailbox ≠ none)) →
      s' = queuePush me pkt me s → CommandOutcome cfg me pkt s s'
  /-- a state request with its data -/
  | stated (data : List UInt8) : pkt.type = MCSType.state.code → StateData cfg pkt data →
      Replied me (accepted cfg (mcsOkPacketData pkt data)) s s' → CommandOutcome cfg me pkt s s'
  /-- a command for the payload, which is only noted -/
  | payload : pkt.type = MCSType.payload.code →
      cfg.tables.payloads[pkt.cmd.toNat]?.isSome = true → s' = queuePush me pkt me s →
      CommandOutcome cfg me pkt s s'

theorem message_outcome (htype : pkt.type = MCSType.message.code)
    (h : processPktMessage cfg me pkt s = .ok s') : CommandOutcome cfg me pkt s s' := by
  rcases processPktMessage_cases h with ⟨dst, hrouted, hsend⟩ | ⟨hsdb, hs'⟩ |
    ⟨hnotRouted, hnotSDB, errCode, hs'⟩
  · rcases sendMessage_cases hsend with ⟨hsmall, hmailed⟩ | ⟨hs', hlast | hwhy⟩
    · exact .sent dst htype hrouted hsmall hmailed
    · -- the destination was found in the table
      rcases hrouted with ⟨_, _, _, _, _, _, _, hfind, _⟩
      exact absurd (findModule_lt hfind) (Nat.not_lt.2 hlast)
    · exact .unsent dst htype hrouted hwhy hs'
  · exact .carriedOut htype hsdb hs'
  · exact .refused errCode (fun _ => ⟨hnotRouted, hnotSDB⟩) (by simp [htype, MCSType.code])
      (by simp [htype, MCSType.code]) hs'

theorem processCommand_cases (h : processCommand cfg me pkt s = .ok s') :
    CommandOutcome cfg me pkt s s' := by
  unfold processCommand at h
  cases htype : MCSType.ofCode? pkt.type with
  | none =>
      -- an unknown type is none of the three that have a handler
      have hnone : ∀ t : MCSType, pkt.type ≠ t.code := by
        intro t ht
        simp [ht] at htype
      simp only [htype] at h
      exact .refused eundef (fun ht => absurd ht (hnone .message))
        (fun ht => absurd ht (hnone .state)) (fun ht => absurd ht (hnone .payload))
        (by simpa using h.symm)
  | some type =>
      have hcode : pkt.type = type.code := MCSType.ofCode?_eq_some.1 htype
      -- an answer does not come here, and the code would refuse it
      have hother : type.isCommand = false → s' = refuse cfg me pkt eundef s →
          CommandOutcome cfg me pkt s s' := by
        intro hanswer hs'
        refine .refused eundef ?_ ?_ ?_ hs' <;> intro ht <;>
          have hsame := MCSType.code_injective (hcode.symm.trans ht) <;>
          simp [hsame, MCSType.isCommand] at hanswer
      cases type with
      | message =>
          simp only [htype] at h
          exact message_outcome hcode h
      | state =>
          simp only [htype] at h
          rcases processPktState_cases h with ⟨hnone, hs'⟩ | ⟨data, hdata, hreplied⟩
          · exact .refused ecmdfault (by simp [hcode, MCSType.code]) (fun _ => hnone)
              (by simp [hcode, MCSType.code]) hs'
          · exact .stated data hcode hdata hreplied
      | payload =>
          simp only [htype] at h
          cases h
          rcases processPktPayload_cases cfg me pkt s with ⟨hnone, hs'⟩ | ⟨hsome, hs'⟩
          · exact .refused ecmdfault (by simp [hcode, MCSType.code]) (by simp [hcode, MCSType.code])
              (fun _ => hnone) hs'
          · exact .payload hcode hsome hs'
      | ok => exact hother rfl (by simpa [htype] using h.symm)
      | okData => exact hother rfl (by simpa [htype] using h.symm)
      | err => exact hother rfl (by simpa [htype] using h.symm)

theorem CommandOutcome.sameModules (h : CommandOutcome cfg me pkt s s') : SameModules s s' := by
  cases h with
  | refused errCode _ _ _ hs' => exact hs' ▸ (replied_refuse errCode).modules
  | carriedOut _ _ hs' => exact hs' ▸ replied_processSdbCommand.modules
  | sent dst _ _ _ hmailed => exact (sameModules_queuePush me).trans hmailed.modules
  | unsent dst _ _ _ hs' => exact hs' ▸ sameModules_queuePush me
  | stated data _ _ hreplied => exact hreplied.modules
  | payload _ _ hs' => exact hs' ▸ sameModules_queuePush me

/-! ## Reading from the socket -/

/-- The state in which a packet that has been read is handled. -/
def arrived (cfg : SDBConfig) (me : Nat) (pkt : MCSPacket) (s : Bus) : Bus :=
  let rest := (readSocket cfg me s).rest
  registerEvent cfg me .pktIn pkt
    ((s.update me fun m => { m with input := rest }).log (.socketIn me pkt))

section Arrived

/-- Only the input of the module has changed. -/
theorem arrived_modules (k : Nat) :
    ∃ input, (arrived cfg me pkt s).modules k = { s.modules k with input := input } := by
  by_cases hk : k = me
  · subst hk
    exact ⟨(readSocket cfg k s).rest, by simp [arrived]⟩
  · exact ⟨(s.modules k).input, by simp [arrived, Bus.update_of_ne hk]⟩

@[simp] theorem arrived_last : (arrived cfg me pkt s).sdbModuleLast = s.sdbModuleLast := by
  simp [arrived]

@[simp] theorem arrived_name (k : Nat) :
    ((arrived cfg me pkt s).modules k).name = (s.modules k).name := by
  rcases arrived_modules k with ⟨input, h⟩
  rw [h]

@[simp] theorem arrived_group (k : Nat) :
    ((arrived cfg me pkt s).modules k).group = (s.modules k).group := by
  rcases arrived_modules k with ⟨input, h⟩
  rw [h]

@[simp] theorem arrived_queue (k : Nat) :
    ((arrived cfg me pkt s).modules k).queue = (s.modules k).queue := by
  rcases arrived_modules k with ⟨input, h⟩
  rw [h]

@[simp] theorem arrived_mailbox (k : Nat) :
    ((arrived cfg me pkt s).modules k).mailbox = (s.modules k).mailbox := by
  rcases arrived_modules k with ⟨input, h⟩
  rw [h]

@[simp] theorem arrived_qosEnabled (k : Nat) :
    ((arrived cfg me pkt s).modules k).qosEnabled = (s.modules k).qosEnabled := by
  rcases arrived_modules k with ⟨input, h⟩
  rw [h]

theorem arrived_input_self :
    ((arrived cfg me pkt s).modules me).input = (readSocket cfg me s).rest := by
  simp [arrived]

theorem arrived_input_of_ne {k : Nat} (hk : k ≠ me) :
    ((arrived cfg me pkt s).modules k).input = (s.modules k).input := by
  simp [arrived, Bus.update_of_ne hk]

@[simp] theorem arrived_replies (k : Nat) :
    (arrived cfg me pkt s).replies k = s.replies k := by
  simp [arrived, replies_log, replyEvent]

theorem arrived_net :
    (arrived cfg me pkt s).net = { s.net with history := s.net.history ++ [.heard me pkt] } := by
  have hinput : (s.update me fun m => { m with input := (readSocket cfg me s).rest }).net =
      s.net := net_update rfl rfl
  simp [arrived, net_log, routeEvent, hinput]

theorem findModule_congr {s s' : Bus} (hlast : s'.sdbModuleLast = s.sdbModuleLast)
    (hname : ∀ k, (s'.modules k).name = (s.modules k).name) (name : CString) :
    findModule s' name = findModule s name := by
  simp [findModule, hlast, hname]

@[simp] theorem routed_arrived {dst : Nat} :
    Routed cfg me pkt (arrived cfg me pkt s) dst ↔ Routed cfg me pkt s dst := by
  have hfind : ∀ name, findModule (arrived cfg me pkt s) name = findModule s name :=
    findModule_congr arrived_last arrived_name
  simp only [Routed, arrived_group, hfind]

@[simp] theorem forSDB_arrived :
    ForSDB cfg me pkt (arrived cfg me pkt s) ↔ ForSDB cfg me pkt s := by
  simp only [ForSDB, arrived_group]

@[simp] theorem matching_arrived :
    matching me pkt (arrived cfg me pkt s) = matching me pkt s := by
  simp only [matching, arrived_queue]

end Arrived

/-- A packet that has been read is handled, and the module asks to be notified again. -/
theorem processPktSocket_eq_dispatch (hread : (readSocket cfg me s).pkt = some pkt) :
    processPktSocket cfg me s =
      (dispatch cfg me pkt (arrived cfg me pkt s)).bind fun s₁ =>
        .ok (s₁.update me fun m => { m with dataSocket := false }) := by
  simp only [processPktSocket, hread]
  rfl

theorem processPktSocket_of_read (hread : (readSocket cfg me s).pkt = some pkt)
    (h : processPktSocket cfg me s = .ok s') :
    ∃ s₁, dispatch cfg me pkt (arrived cfg me pkt s) = .ok s₁ ∧
      s' = s₁.update me fun m => { m with dataSocket := false } := by
  rw [processPktSocket_eq_dispatch hread] at h
  rcases exists_of_bind_ok h with ⟨s₁, hdispatch, hs'⟩
  exact ⟨s₁, hdispatch, (Except.ok.inj hs').symm⟩

/-- Otherwise at most an error goes back to the client. -/
theorem processPktSocket_of_not_read (hread : (readSocket cfg me s).pkt = none)
    (h : processPktSocket cfg me s = .ok s') :
    s'.net = s.net ∧ s'.sdbModuleLast = s.sdbModuleLast ∧ (∀ k, s'.replies k = s.replies k) ∧
      (∀ k, k ≠ me → (s'.modules k).input = (s.modules k).input) ∧
      (s'.modules me).input = (readSocket cfg me s).rest := by
  simp only [processPktSocket, hread] at h
  have hinput : (s.update me fun m => { m with input := (readSocket cfg me s).rest }).net =
      s.net := net_update rfl rfl
  -- whether an error is written depends on how far the reader came; no module sees it
  split_ifs at h with hreply
  · cases h
    exact ⟨hinput, rfl, fun k => rfl, fun k hk => by simp [Bus.update_of_ne hk], by simp⟩
  · cases h
    refine ⟨by simp [net_log, routeEvent, hinput], rfl, fun k => by simp [replies_log, replyEvent],
      fun k hk => by simp [Bus.update_of_ne hk], by simp⟩

theorem processAnswer_cases (h : processAnswer cfg me pkt s = .ok s') :
    (matching me pkt s = none ∧ Replied me [] s s') ∨
      ∃ e r, matching me pkt s = some e ∧
        sdbModuleWriteMcsPacket cfg me pkt e.idProcess (queueGet me pkt s).2 = .ok r ∧
        s' = registerEvent cfg me .pktReady e.pkt r.2 := by
  unfold processAnswer at h
  simp only [queueGet_fst] at h
  cases hmatch : matching me pkt s with
  | none =>
      simp only [hmatch, returnAnswer] at h
      cases h
      -- nobody has asked: the answer is scrapped
      refine Or.inl ⟨rfl, Replied.nothing ?_ ?_ ?_⟩
      · simp [net_queueGet_none hmatch]
      · simp [queueGet_snd]
      · exact sameModules_queueGet.trans (sameModules_registerEvent .pktScrap)
  | some e =>
      simp only [hmatch, returnAnswer] at h
      rcases exists_of_bind_ok h with ⟨r, hwrite, hs'⟩
      exact Or.inr ⟨e, r, rfl, hwrite, (Except.ok.inj hs').symm⟩

end SDB
end AbsPlatform
