import AbsPlatform.MCS.Frame
import AbsPlatform.SDB.Deadlock

/-!
# Notify — when a module may read its socket

The observer sets `data_socket` when it sees something at a module's socket, and
`process_pkt_socket` clears it at its end.  The exit for a packet that could not be read comes
before that: the flag stays set, and the thread calls `process_pkt_socket` again, with its lock, for
as long as nothing can be read.
-/

namespace AbsPlatform
namespace SDB

open MCS Lib

/-! ## What handlers do to `data_socket` -/

/-- Every module has its `data_socket` as it was. -/
def SameFlags (s s' : Bus) : Prop :=
  ∀ k, (s'.modules k).dataSocket = (s.modules k).dataSocket

section Flags

variable {cfg : SDBConfig} {me : Nat} {pkt : MCSPacket} {s s' : Bus}

theorem SameFlags.trans {s₁ s₂ s₃ : Bus} (h₁ : SameFlags s₁ s₂) (h₂ : SameFlags s₂ s₃) :
    SameFlags s₁ s₃ :=
  fun k => (h₂ k).trans (h₁ k)

theorem sameFlags_of_modules (h : s'.modules = s.modules) : SameFlags s s' := by
  intro k
  rw [h]

theorem sameFlags_update {m : Nat} {f : SDBModule → SDBModule}
    (h : ∀ x, (f x).dataSocket = x.dataSocket) : SameFlags s (s.update m f) := by
  intro k
  by_cases hk : k = m
  · subst hk
    simp [h]
  · simp [Bus.update_of_ne hk]

theorem sameFlags_registerEvent (event : SDBQOSEvent) :
    SameFlags s (registerEvent cfg me event pkt s) :=
  sameFlags_of_modules registerEvent_modules

theorem sameFlags_writeCommand (writer : Writer) :
    SameFlags s (writeCommand cfg me writer pkt s) :=
  sameFlags_of_modules writeCommand_modules

theorem sameFlags_refuse (errCode : Int) : SameFlags s (refuse cfg me pkt errCode s) :=
  (sameFlags_writeCommand .socket).trans (sameFlags_registerEvent .pktScrap)

theorem sameFlags_queuePush (id : Nat) : SameFlags s (queuePush me pkt id s) :=
  sameFlags_update fun _ => rfl

theorem sameFlags_queueGet : SameFlags s (queueGet me pkt s).2 := by
  rw [queueGet_snd]
  exact sameFlags_update fun _ => rfl

theorem sameFlags_setQosEnabled (on : Bool) : SameFlags s (setQosEnabled me on s) :=
  sameFlags_update fun _ => rfl

theorem sameFlags_dump {r : MCSPacket × Bus} (h : sdbQosDumpModule me pkt s = some r) :
    SameFlags s r.2 := by
  unfold sdbQosDumpModule at h
  split_ifs at h
  cases h
  exact sameFlags_of_modules rfl

theorem sameFlags_processSdbCommand : SameFlags s (processSdbCommand cfg me pkt s) := by
  unfold processSdbCommand
  split_ifs
  · exact (sameFlags_setQosEnabled true).trans (sameFlags_writeCommand .socket)
  · cases hres : sdbQosDumpModule me pkt s with
    | none => exact sameFlags_writeCommand .socket
    | some r => exact (sameFlags_dump hres).trans (sameFlags_writeCommand .socket)
  · refine SameFlags.trans ?_ (sameFlags_refuse ebadformat)
    cases hres : sdbQosDumpModule me pkt s with
    | none => exact (sameFlags_setQosEnabled false).trans (sameFlags_writeCommand .socket)
    | some r =>
        exact ((sameFlags_dump hres).trans (sameFlags_setQosEnabled false)).trans
          (sameFlags_writeCommand .socket)
  · exact sameFlags_refuse ebadformat

theorem sameFlags_setValid (c : Call) : SameFlags s (setValid cfg me c s) := by
  have hbox : SameFlags s (s.update c.dst fun m => { m with mailbox := some (me, c.pkt) }) :=
    sameFlags_update fun _ => rfl
  exact (hbox.trans (sameFlags_of_modules rfl)).trans (sameFlags_registerEvent .pktOut)

theorem sameFlags_sdbModuleWriteMcsPacket {dst : Nat} {r : Int × Bus}
    (h : sdbModuleWriteMcsPacket cfg me pkt dst s = .ok r) : SameFlags s r.2 := by
  rcases sdbModuleWriteMcsPacket_ok h with ⟨hsame, _⟩ | ⟨_, _, _, hr⟩
  · exact hsame ▸ sameFlags_of_modules rfl
  · rw [hr]
    exact sameFlags_setValid { pkt := pkt, dst := dst, pktOrigin := none }

theorem sameFlags_processPktMessage (h : processPktMessage cfg me pkt s = .ok s') :
    SameFlags s s' := by
  rcases processPktMessage_cases h with ⟨dst, _, hsend⟩ | ⟨_, rfl⟩ | ⟨_, _, errCode, rfl⟩
  · rcases exists_of_bind_ok hsend with ⟨r, hwrite, hs'⟩
    cases hs'
    exact (sameFlags_queuePush me).trans (sameFlags_sdbModuleWriteMcsPacket hwrite)
  · exact sameFlags_processSdbCommand
  · exact sameFlags_refuse errCode

theorem sameFlags_processPktState (h : processPktState cfg me pkt s = .ok s') :
    SameFlags s s' := by
  unfold processPktState at h
  cases hentry : cfg.tables.states[pkt.cmd.toNat]? with
  | none =>
      simp only [hentry] at h
      cases h
      exact sameFlags_refuse ecmdfault
  | some entry =>
      simp only [hentry] at h
      rcases exists_of_bind_ok h with ⟨refused, _, h⟩
      split_ifs at h
      · cases h
        exact sameFlags_refuse eperm
      · rcases exists_of_bind_ok h with ⟨data, _, h⟩
        cases h
        exact (sameFlags_registerEvent .pktReady).trans (sameFlags_writeCommand .socket)

theorem sameFlags_processCommand (h : processCommand cfg me pkt s = .ok s') : SameFlags s s' := by
  unfold processCommand at h
  split at h
  · exact sameFlags_processPktMessage h
  · exact sameFlags_processPktState h
  · cases h
    rcases processPktPayload_cases cfg me pkt s with ⟨_, hs'⟩ | ⟨_, hs'⟩
    · exact hs' ▸ sameFlags_refuse ecmdfault
    · exact hs' ▸ sameFlags_queuePush me
  · cases h
    exact sameFlags_refuse eundef

theorem sameFlags_processAnswer (h : processAnswer cfg me pkt s = .ok s') : SameFlags s s' := by
  have hget : SameFlags s (queueGet me pkt s).2 := sameFlags_queueGet
  refine hget.trans ?_
  simp only [processAnswer, returnAnswer] at h
  split at h
  · cases h
    exact sameFlags_registerEvent .pktScrap
  · rcases exists_of_bind_ok h with ⟨r, hwrite, hs'⟩
    cases hs'
    exact (sameFlags_sdbModuleWriteMcsPacket hwrite).trans (sameFlags_registerEvent .pktReady)

theorem sameFlags_dispatch (h : dispatch cfg me pkt s = .ok s') : SameFlags s s' := by
  unfold dispatch at h
  split_ifs at h
  · exact sameFlags_processAnswer h
  · exact sameFlags_processCommand h

theorem sameFlags_completeAnswer (pktOrigin : Option SDBPacket) :
    SameFlags s (completeAnswer cfg me pkt pktOrigin s) := by
  cases pktOrigin with
  | none => exact sameFlags_registerEvent .pktScrap
  | some e =>
      exact (((sameFlags_registerEvent .pktReady).trans (sameFlags_writeCommand .sdb)).trans
        (sameFlags_registerEvent .pktOut)).trans (sameFlags_registerEvent .pktReady)

theorem sameFlags_processPktSdb : SameFlags s (processPktSdb cfg me s) := by
  unfold processPktSdb
  split
  case h_1 => exact sameFlags_of_modules rfl
  case h_2 idOrigin pkt _ =>
    have hbox : SameFlags s (s.update me fun m => { m with mailbox := none }) :=
      sameFlags_update fun _ => rfl
    simp only
    split_ifs
    · exact ((hbox.trans (sameFlags_registerEvent .pktIn)).trans sameFlags_queueGet).trans
        (sameFlags_completeAnswer _)
    · exact (((hbox.trans (sameFlags_registerEvent .pktIn)).trans (sameFlags_queuePush _)).trans
        (sameFlags_writeCommand .sdb)).trans (sameFlags_registerEvent .pktOut)

theorem sameFlags_arrived : SameFlags s (arrived cfg me pkt s) := by
  intro k
  rcases arrived_modules k with ⟨input, h⟩
  rw [h]

theorem sameFlags_openCall {s₁ : Bus} {c : Call} (h : openCall cfg me pkt s = some (s₁, c)) :
    SameFlags s s₁ := by
  unfold openCall at h
  split_ifs at h
  · split at h
    · cases h
    · cases h
      exact sameFlags_queueGet
  · split at h
    · cases h
    · cases h
      exact sameFlags_queuePush me

theorem sameFlags_socketCall {s₁ : Bus} {c : Call} (h : socketCall cfg me s = some (s₁, c)) :
    SameFlags s s₁ := by
  unfold socketCall at h
  split at h
  · cases h
  · exact sameFlags_arrived.trans (sameFlags_openCall h)

/-- The end of `process_pkt_socket`: the flag of its module is clear, and the others are as they
were. -/
structure Cleared (me : Nat) (s s' : Bus) : Prop where
  self : (s'.modules me).dataSocket = false
  others : ∀ k, k ≠ me → (s'.modules k).dataSocket = (s.modules k).dataSocket

theorem SameFlags.cleared (h : SameFlags s s') :
    Cleared me s (s'.update me fun m => { m with dataSocket := false }) where
  self := by simp
  others := fun k hk => by rw [Bus.update_of_ne hk, h k]

theorem SameFlags.trans_cleared {s₁ s₂ s₃ : Bus} (h₁ : SameFlags s₁ s₂) (h₂ : Cleared me s₂ s₃) :
    Cleared me s₁ s₃ where
  self := h₂.self
  others := fun k hk => (h₂.others k hk).trans (h₁ k)

theorem cleared_closeCall (c : Call) : Cleared me s (closeCall cfg me c s) := by
  unfold closeCall
  cases c.pktOrigin with
  | none => exact (sameFlags_of_modules rfl).cleared
  | some e => exact (sameFlags_registerEvent .pktReady).cleared

/-- Without a call to another module: the flag is clear unless nothing could be read. -/
theorem cleared_processPktSocket (hread : (readSocket cfg me s).pkt.isSome = true)
    (h : processPktSocket cfg me s = .ok s') : Cleared me s s' := by
  rcases Option.isSome_iff_exists.1 hread with ⟨pkt, hpkt⟩
  rcases processPktSocket_of_read hpkt h with ⟨s₁, hdispatch, rfl⟩
  exact (sameFlags_arrived.trans (sameFlags_dispatch hdispatch)).cleared

/-- The early return. -/
theorem sameFlags_processPktSocket (hread : (readSocket cfg me s).pkt = none)
    (h : processPktSocket cfg me s = .ok s') : SameFlags s s' := by
  have hinput : SameFlags s (s.update me fun m => { m with input := (readSocket cfg me s).rest }) :=
    sameFlags_update fun _ => rfl
  simp only [processPktSocket, hread] at h
  split_ifs at h
  · cases h
    exact hinput
  · cases h
    exact hinput.trans (sameFlags_of_modules rfl)

end Flags

/-! ## Calls of `process_pkt_socket` -/

/-- The thread of module `i` is about to call `process_pkt_socket`. -/
structure AtSocket (t : Threads) (i : Nat) : Prop where
  lt : i < t.bus.sdbModuleLast
  pc : t.pc i = .loop
  valid : t.valid i = false
  dataSocket : (t.bus.modules i).dataSocket = true

/-- The step calls `process_pkt_socket` for module `i`. -/
def CallsSocket (t : Threads) (a : ThreadAct) (i : Nat) : Prop :=
  AtSocket t i ∧ ∃ ptrs, a = .step i ptrs

/-- The step returns from `process_pkt_socket`, which it may have called itself. -/
def ReturnsSocket (t : Threads) (a : ThreadAct) (t' : Threads) (i : Nat) : Prop :=
  (AtSocket t i ∨ (t.pc i).call.isSome = true) ∧ (∃ ptrs, a = .step i ptrs) ∧ t'.pc i = .loop

/-- A packet can be read from the socket of module `i`. -/
def Readable (cfg : ThreadConfig) (t : Threads) (i : Nat) : Prop :=
  ∃ f : Frame, f.Fits cfg.tables ∧ f.bytes <+: (t.bus.modules i).input

/-- Module `i` will not call `process_pkt_socket` before the observer has been there. -/
def Settled (t : Threads) (i : Nat) : Prop :=
  (t.pc i).call.isSome = true ∨ (t.bus.modules i).dataSocket = false

section Steps

variable {cfg : ThreadConfig} {t t' : Threads} {a : ThreadAct} {i j : Nat} {ptrs : Pointers}

theorem readable_iff :
    Readable cfg t i ↔ (readSocket cfg.toSDBConfig i t.bus).pkt.isSome = true :=
  (isSome_mcsReadCommand_iff cfg.tables (Int.le_refl 0) openFd (t.bus.modules i).input).symm

theorem AtSocket.not_settled (h : AtSocket t i) : ¬ Settled t i := by
  rintro (hcall | hflag)
  · simp [h.pc, PC.call] at hcall
  · simp [h.dataSocket] at hflag

end Steps

/-- What a step of thread `i` does to `data_socket`. -/
inductive SocketEffect (cfg : ThreadConfig) (t : Threads) (i : Nat) (t' : Threads) : Prop
  /-- `process_pkt_socket` from its start to its end -/
  | handled : AtSocket t i → Readable cfg t i → t'.pc = t.pc → Cleared i t.bus t'.bus →
      SocketEffect cfg t i t'
  /-- `process_pkt_socket` up to its call of `sdb_module_write_mcs_packet` -/
  | called (c : Call) : AtSocket t i → Readable cfg t i →
      t'.pc = Function.update t.pc i (.locking c) → SameFlags t.bus t'.bus →
      SocketEffect cfg t i t'
  /-- the early return -/
  | failed : AtSocket t i → ¬ Readable cfg t i → t'.pc = t.pc → t'.lock = t.lock →
      SameBoxes t.bus t'.bus → SameFlags t.bus t'.bus → SocketEffect cfg t i t'
  /-- the end of the call -/
  | returned : (t.pc i).call.isSome = true → t'.pc = Function.update t.pc i .loop →
      Cleared i t.bus t'.bus → SocketEffect cfg t i t'
  /-- anything else -/
  | moved (pc' : PC) : ¬ AtSocket t i → t'.pc = Function.update t.pc i pc' →
      pc'.call = (t.pc i).call → SameFlags t.bus t'.bus → SocketEffect cfg t i t'

section Steps

variable {cfg : ThreadConfig} {t t' : Threads} {a : ThreadAct} {i j : Nat} {ptrs : Pointers}

theorem readable_of_call {r : Bus × Call} (h : socketCall cfg.toSDBConfig i t.bus = some r) :
    Readable cfg t i := by
  apply readable_iff.2
  unfold socketCall at h
  split at h
  · cases h
  · next hpkt => simp [hpkt]

theorem step_effect (hlt : i < t.bus.sdbModuleLast) (h : t.step cfg ptrs i = some t') :
    SocketEffect cfg t i t' := by
  -- away from the head of the loop, no call can start
  have hnot : t.pc i ≠ .loop → ¬ AtSocket t i := fun hne hat => hne hat.pc
  cases step_case h with
  | wake hpc =>
      exact .moved .woken (hnot (by simp [hpc])) rfl (by simp [hpc, PC.call]) (fun _ => rfl)
  | resume l hpc _ =>
      exact .moved .loop (hnot (by simp [hpc])) rfl (by simp [hpc, PC.call]) (fun _ => rfl)
  | fetch r hpc hvalid _ =>
      exact .moved _ (fun hat => by simp [hat.valid] at hvalid) rfl (by simp [hpc, PC.call])
        (fun _ => rfl)
  | handle bus hpc hvalid hsocket hcall hend =>
      have hat : AtSocket t i := ⟨hlt, hpc, hvalid, hsocket⟩
      by_cases hread : Readable cfg t i
      · exact .handled hat hread rfl (cleared_processPktSocket (readable_iff.1 hread) hend)
      · have hnone : (readSocket cfg.toSDBConfig i t.bus).pkt = none := by
          simpa using mt readable_iff.2 hread
        exact .failed hat hread rfl rfl (sameBoxes_of_no_call hcall hend)
          (sameFlags_processPktSocket hnone hend)
  | refuse bus c hpc hvalid hsocket hcall _ =>
      exact .handled ⟨hlt, hpc, hvalid, hsocket⟩ (readable_of_call hcall) rfl
        ((sameFlags_socketCall hcall).trans_cleared (cleared_closeCall c))
  | call bus c hpc hvalid hsocket hcall _ =>
      exact .called c ⟨hlt, hpc, hvalid, hsocket⟩ (readable_of_call hcall) rfl
        (sameFlags_socketCall hcall)
  | rest hpc _ hsocket =>
      exact .moved .idle (fun hat => by simp [hat.dataSocket] at hsocket) rfl
        (by simp [hpc, PC.call]) (fun _ => rfl)
  | consume idOrigin pkt hpc =>
      have hbox : SameFlags t.bus
          (t.bus.update i fun m => { m with mailbox := some (idOrigin, pkt) }) :=
        sameFlags_update fun _ => rfl
      exact .moved .loop (hnot (by simp [hpc])) rfl (by simp [hpc, PC.call])
        (hbox.trans sameFlags_processPktSdb)
  | enter c l hpc _ =>
      exact .moved (.testing c) (hnot (by simp [hpc])) rfl (by simp [hpc, PC.call]) (fun _ => rfl)
  | giveUp c hpc _ _ => exact .returned (by simp [hpc, PC.call]) rfl (cleared_closeCall c)
  | wait c hpc _ _ =>
      exact .moved (.waiting c) (hnot (by simp [hpc])) rfl (by simp [hpc, PC.call]) (fun _ => rfl)
  | copy c data hpc _ _ _ =>
      exact .moved (.copied c) (hnot (by simp [hpc])) rfl (by simp [hpc, PC.call]) (fun _ => rfl)
  | again c hpc =>
      exact .moved (.locking c) (hnot (by simp [hpc])) rfl (by simp [hpc, PC.call]) (fun _ => rfl)
  | publish c hpc =>
      exact .returned (by simp [hpc, PC.call]) rfl
        ((sameFlags_setValid c).trans_cleared (cleared_closeCall c))

/-- A step of another thread. -/
theorem SocketEffect.other (h : SocketEffect cfg t j t') (hij : i ≠ j) :
    t'.pc i = t.pc i ∧ (t'.bus.modules i).dataSocket = (t.bus.modules i).dataSocket := by
  cases h with
  | handled _ _ hpc hflags => exact ⟨congrFun hpc i, hflags.others i hij⟩
  | called c _ _ hpc hflags => exact ⟨by rw [hpc, Function.update_of_ne hij], hflags i⟩
  | failed _ _ hpc _ _ hflags => exact ⟨congrFun hpc i, hflags i⟩
  | returned _ hpc hflags => exact ⟨by rw [hpc, Function.update_of_ne hij], hflags.others i hij⟩
  | moved pc' _ hpc _ hflags => exact ⟨by rw [hpc, Function.update_of_ne hij], hflags i⟩

/-- A module that has handled its packet stays settled through its own steps. -/
theorem SocketEffect.settled (h : SocketEffect cfg t i t') (hsettled : Settled t i) :
    Settled t' i := by
  cases h with
  | handled hat _ _ _ => exact absurd hsettled hat.not_settled
  | called c hat _ _ _ => exact absurd hsettled hat.not_settled
  | failed hat _ _ _ _ _ => exact absurd hsettled hat.not_settled
  | returned _ _ hflags => exact Or.inr hflags.self
  | moved pc' _ hpc hcall hflags =>
      refine hsettled.imp (fun hold => ?_) (fun hold => (hflags i).trans hold)
      rw [hpc, Function.update_self, hcall]
      exact hold

/-- A call that finds a packet settles its module. -/
theorem SocketEffect.settles (h : SocketEffect cfg t i t') (hat : AtSocket t i)
    (hread : Readable cfg t i) : Settled t' i := by
  cases h with
  | handled _ _ _ hflags => exact Or.inr hflags.self
  | called c _ _ hpc _ => exact Or.inl (by simp [hpc, PC.call])
  | failed _ hnot _ _ _ _ => exact absurd hread hnot
  | returned _ _ hflags => exact Or.inr hflags.self
  | moved pc' hnot _ _ _ => exact absurd hat hnot

theorem act_step (h : t.act cfg (.step i ptrs) = some t') : SocketEffect cfg t i t' := by
  simp only [Threads.act] at h
  split_ifs at h with hlt
  exact step_effect hlt h

/-- Nothing but the observer makes a settled module read again. -/
theorem settled_act (h : t.act cfg a = some t') (hne : a ≠ .observe i) (hsettled : Settled t i) :
    Settled t' i := by
  cases a with
  | client m bytes =>
      cases h
      have hflags : SameFlags t.bus
          (t.bus.update m fun x => { x with input := x.input ++ bytes }) :=
        sameFlags_update fun _ => rfl
      exact hsettled.imp id fun hold => (hflags i).trans hold
  | observe m =>
      simp only [Threads.act] at h
      split_ifs at h
      cases h
      have him : i ≠ m := fun him => hne (by rw [him])
      exact hsettled.imp id fun hold => by simpa [Bus.update_of_ne him] using hold
  | step j ptrs =>
      by_cases hij : i = j
      · subst hij
        exact (act_step h).settled hsettled
      · rcases (act_step h).other hij with ⟨hpc, hflag⟩
        simpa [Settled, hpc, hflag] using hsettled

theorem settled_run {acts : List ThreadAct} (h : t.run cfg acts = some t')
    (hnone : ThreadAct.observe i ∉ acts) (hsettled : Settled t i) : Settled t' i := by
  induction acts generalizing t with
  | nil =>
      cases h
      exact hsettled
  | cons a acts ih =>
      cases hact : t.act cfg a with
      | none => simp [Threads.run, hact] at h
      | some t₁ =>
          rw [Threads.run_cons hact] at h
          have hne : a ≠ .observe i := fun ha => hnone (by simp [ha])
          exact ih h (fun hmem => hnone (by simp [hmem])) (settled_act hact hne hsettled)

/-- A return from `process_pkt_socket` leaves the flag clear, unless nothing could be read. -/
theorem SocketEffect.cleared (h : SocketEffect cfg t i t')
    (hin : AtSocket t i ∨ (t.pc i).call.isSome = true) (hloop : t'.pc i = .loop)
    (hread : AtSocket t i → Readable cfg t i) : (t'.bus.modules i).dataSocket = false := by
  cases h with
  | handled _ _ _ hflags => exact hflags.self
  | called c _ _ hpc _ => simp [hpc] at hloop
  | failed hat hnot _ _ _ _ => exact absurd (hread hat) hnot
  | returned _ _ hflags => exact hflags.self
  | moved pc' hnot hpc hcall _ =>
      -- inside the call, the thread is not at the head of the loop
      have hpc' : pc' = .loop := by simpa [hpc] using hloop
      rw [← hcall, hpc'] at hin
      exact absurd (hin.resolve_left hnot) (by simp [PC.call])

/-- When nothing can be read, the thread is where it was, with its lock, and its flag is set. -/
theorem SocketEffect.again (h : SocketEffect cfg t i t') (hat : AtSocket t i)
    (hread : ¬ Readable cfg t i) : AtSocket t' i ∧ t'.lock = t.lock := by
  cases h with
  | handled _ hyes _ _ => exact absurd hyes hread
  | called c _ hyes _ _ => exact absurd hyes hread
  | failed _ _ hpc hlock hboxes hflags =>
      refine ⟨⟨hboxes.last ▸ hat.lt, (congrFun hpc i).trans hat.pc, ?_, ?_⟩, hlock⟩
      · simpa [Threads.valid, hboxes.mailbox] using hat.valid
      · exact (hflags i).trans hat.dataSocket
  | returned hcall _ _ => simp [hat.pc, PC.call] at hcall
  | moved pc' hnot _ _ _ => exact absurd hat hnot

end Steps

/-! ## Runs -/

/-- In a run, each module is notified before it reads its socket again. -/
structure Notified (cfg : ThreadConfig) (t : Threads) (acts : List ThreadAct) : Prop where
  /-- `process_pkt_socket` returns with `data_socket` clear -/
  cleared : ∀ pre a post u u' i, acts = pre ++ a :: post → t.run cfg pre = some u →
    u.act cfg a = some u' → ReturnsSocket u a u' i → (u'.bus.modules i).dataSocket = false
  /-- between two calls there is a step of the observer -/
  separated : ∀ pre a mid b post u u' v i, acts = pre ++ a :: (mid ++ b :: post) →
    t.run cfg pre = some u → u.act cfg a = some u' → u'.run cfg mid = some v →
    CallsSocket u a i → CallsSocket v b i → .observe i ∈ mid
  /-- a module that could not read, with an empty mailbox, waits and gives its lock back -/
  released : ∀ pre a post u u' i, acts = pre ++ a :: post → t.run cfg pre = some u →
    u.act cfg a = some u' → CallsSocket u a i → ¬ Readable cfg u i → u'.valid i = false →
    ∀ ptrs, ∃ v, u'.act cfg (.step i ptrs) = some v ∧ v.pc i = .idle ∧ v.lock i = .free

/-- A run notifies each module before it reads again exactly when every call of `process_pkt_socket`
finds a packet at the socket. -/
theorem notified_iff (cfg : ThreadConfig) (t t' : Threads) (acts : List ThreadAct)
    (hrun : t.run cfg acts = some t') :
    Notified cfg t acts ↔
      ∀ pre a post u i, acts = pre ++ a :: post → t.run cfg pre = some u → CallsSocket u a i →
        Readable cfg u i := by
  constructor
  · intro h pre a post u i hsplit hpre hcalls
    by_contra hread
    rcases hcalls with ⟨hat, ptrs, rfl⟩
    rw [hsplit] at hrun
    rcases Threads.act_of_run hpre hrun with ⟨u', hact⟩
    rcases (act_step hact).again hat hread with ⟨hagain, _⟩
    -- the call has returned, and its flag is still set
    have hclear := h.cleared pre _ post u u' i hsplit hpre hact
      ⟨Or.inl hat, ⟨ptrs, rfl⟩, hagain.pc⟩
    simp [hagain.dataSocket] at hclear
  · intro h
    refine ⟨?_, ?_, ?_⟩
    · rintro pre a post u u' i hsplit hpre hact ⟨hin, ⟨ptrs, rfl⟩, hloop⟩
      exact (act_step hact).cleared hin hloop fun hat =>
        h pre _ post u i hsplit hpre ⟨hat, ptrs, rfl⟩
    · rintro pre a mid b post u u' v i hsplit hpre hact hmid ⟨hat, ptrs, rfl⟩ ⟨hat', _⟩
      by_contra hnone
      have hread := h pre _ _ u i hsplit hpre ⟨hat, ptrs, rfl⟩
      -- the first call has settled the module, and nothing has changed that
      exact hat'.not_settled (settled_run hmid hnone ((act_step hact).settles hat hread))
    · intro pre a post u u' i hsplit hpre _ hcalls hread
      exact absurd (h pre a post u i hsplit hpre hcalls) hread

/-- The core sends `test` twice, and is notified each time. -/
def twiceRun : List ThreadAct :=
  [.client 0 (testBytes ++ testBytes), .observe 0, .step 0 somePointers, .step 0 somePointers,
    .step 0 somePointers, .step 0 somePointers, .step 0 somePointers, .step 0 somePointers,
    .observe 0, .step 0 somePointers, .step 0 somePointers, .step 0 somePointers]

theorem twiceRun_notified :
    (∃ t, twoThreads.run shippedThreads twiceRun = some t ∧ (t.pc 0).call.isSome = true) ∧
      Notified shippedThreads twoThreads twiceRun := by
  have hsome : (twoThreads.run shippedThreads twiceRun).any (fun t => (t.pc 0).call.isSome) =
      true := by decide +kernel
  rcases (Option.any_eq_true _ _).1 hsome with ⟨t, ht, hcall⟩
  refine ⟨⟨t, ht, hcall⟩, ?_⟩
  refine (notified_iff shippedThreads twoThreads t twiceRun ht).2 ?_
  -- before each step, thread 0 is in a call, or has not been notified, or finds a packet
  have hready : ∀ n < twiceRun.length, (twoThreads.run shippedThreads (twiceRun.take n)).all
      (fun u => (u.pc 0).call.isSome || !(u.bus.modules 0).dataSocket ||
        (readSocket shippedThreads.toSDBConfig 0 u.bus).pkt.isSome) = true := by decide +kernel
  rintro pre a post u i hsplit hpre ⟨hat, ptrs, rfl⟩
  have hi : i = 0 := by
    have hmem : ThreadAct.step i ptrs ∈ twiceRun := by simp [hsplit]
    simp [twiceRun] at hmem
    exact hmem.1
  subst hi
  have hu := Threads.all_states hready hsplit hpre
  simpa [readable_iff, hat.pc, PC.call, hat.dataSocket] using hu

/-- Five bytes that are no packet: an identifier and a type that does not exist. -/
def malformedBytes : List UInt8 := [1, 0, 0, 0, 119]

/-- The client of the core sends them. -/
def malformedRun : List ThreadAct :=
  [.client 0 malformedBytes, .observe 0, .step 0 somePointers, .step 0 somePointers]

/-- With nothing at the socket, the call changes nothing at all. -/
theorem socket_spins {cfg : ThreadConfig} {t : Threads} {i : Nat} (hat : AtSocket t i)
    (hempty : (t.bus.modules i).input = []) (ptrs : Pointers) :
    t.act cfg (.step i ptrs) = some t := by
  have hread : readSocket cfg.toSDBConfig i t.bus = ⟨none, [], []⟩ := by
    rw [readSocket, hempty]
    rfl
  have hcall : socketCall cfg.toSDBConfig i t.bus = none := by
    simp [socketCall, hread]
  have hmod : { t.bus.modules i with input := [] } = t.bus.modules i := by rw [← hempty]
  have hsame : (t.bus.update i fun m => { m with input := [] }) = t.bus := by
    rw [Bus.update, hmod, Function.update_eq_self]
  have hend : processPktSocket cfg.toSDBConfig i t.bus = .ok t.bus := by
    simp [processPktSocket, hread, hsame]
  simp [Threads.act, hat.lt, Threads.step, hat.pc, hat.valid, hat.dataSocket, Threads.socketStep,
    hcall, hend]

/-- The thread of the core holds its lock, has no packet to handle, and calls `process_pkt_socket`
for good. -/
theorem malformedRun_spins :
    Started twoThreads ∧ ∃ t, twoThreads.run shippedThreads malformedRun = some t ∧
      t.lock 0 = .held 0 0 ∧ AtSocket t 0 ∧
      (∀ ptrs, t.act shippedThreads (.step 0 ptrs) = some t) ∧
      ¬ Notified shippedThreads twoThreads malformedRun := by
  refine ⟨started_twoThreads, _, rfl, rfl, ?_⟩
  have hat : AtSocket ((twoThreads.run shippedThreads malformedRun).get rfl) 0 :=
    ⟨by decide, rfl, rfl, rfl⟩
  refine ⟨hat, socket_spins hat rfl, ?_⟩
  intro h
  -- the last step has called `process_pkt_socket` and has returned from it
  have hclear := h.cleared (malformedRun.take 3) _ [] _ _ 0 rfl rfl rfl
    ⟨Or.inl ⟨by decide, rfl, rfl, rfl⟩, ⟨_, rfl⟩, rfl⟩
  cases hclear

end SDB
end AbsPlatform
