import AbsPlatform.Lib.Locks
import AbsPlatform.Lib.Runs
import AbsPlatform.SDB.Mailbox
import AbsPlatform.SDB.Turn

/-!
# Threads — the module threads, from one lock operation to the next

Each module has a thread.  A thread holds the lock of its module except while it waits on its own
condition variable; to send a packet it takes the lock of the destination as well, and waits on the
destination's condition variable while the region there is in use.  Between two lock operations a
step of a thread is one piece of the code; copying a packet into a region and marking it as valid
are steps of their own, and so are copying it out and marking the region as free.

A thread may wake up from a condition variable at any time: `pthread_cond_broadcast` and spurious
wake-ups are not told apart.

The handlers are those of `Module`.  `mailbox` stands for `data_valid`; the packet that the owner
goes on with is the one it finds in the bytes of the region.
-/

namespace AbsPlatform
namespace SDB

open MCS Lib

/-! ## Handlers up to their call of `sdb_module_write_mcs_packet` -/

/-- A call `sdb_module_write_mcs_packet(pkt, dst)`; `pktOrigin` is the entry of the queue whose
answer is sent. -/
structure Call where
  pkt : MCSPacket
  dst : Nat
  pktOrigin : Option SDBPacket

section Calls

variable (cfg : SDBConfig) (me : Nat)

/-- The module `process_pkt_message` sends a message to, when nothing speaks against it. -/
def messageDest (pkt : MCSPacket) (s : Bus) : Option Nat :=
  match cfg.tables.messages[pkt.cmd.toNat]? with
  | none => none
  | some entry =>
      if !groupAllowed cfg.arch entry.originGroups (s.modules me).group then
        none
      else
        match entry.destination with
        | none => none
        | some destination =>
            match destName destination pkt with
            | none => none
            | some name =>
                match findModule s name with
                | none => none
                | some destIndex =>
                    if !groupAllowed cfg.arch entry.destinationGroups
                        (s.modules destIndex).group then
                      none
                    else
                      some destIndex

/-- The call a packet from the socket leads to, and the state it is made in. -/
def openCall (pkt : MCSPacket) (s : Bus) : Option (Bus × Call) :=
  if pkt.isAnswer then
    match matching me pkt s with
    | none => none
    | some e =>
        some ((queueGet me pkt s).2, { pkt := pkt, dst := e.idProcess, pktOrigin := some e })
  else if pkt.type = MCSType.message.code then
    match messageDest cfg me pkt s with
    | none => none
    | some dst => some (queuePush me pkt me s, { pkt := pkt, dst := dst, pktOrigin := none })
  else
    none

/-- `process_pkt_socket` up to its call. -/
def socketCall (s : Bus) : Option (Bus × Call) :=
  match (readSocket cfg me s).pkt with
  | none => none
  | some pkt => openCall cfg me pkt (arrived cfg me pkt s)

/-- `process_pkt_socket` from its call on. -/
def closeCall (c : Call) (s : Bus) : Bus :=
  let s :=
    match c.pktOrigin with
    | none => s
    | some pktOrigin => registerEvent cfg me .pktReady pktOrigin.pkt s
  s.update me fun m => { m with dataSocket := false }

/-- The exits of `sdb_module_write_mcs_packet` in front of its lock. -/
def Call.Refused (c : Call) (s : Bus) : Prop := s.sdbModuleLast ≤ c.dst ∨ TooLarge cfg.arch c.pkt

instance (c : Call) (s : Bus) : Decidable (c.Refused cfg s) := inferInstanceAs (Decidable (_ ∨ _))

/-- The packet is in the region: `data_valid` is set, and the event is logged. -/
def setValid (c : Call) (s : Bus) : Bus :=
  let s := s.update c.dst fun m => { m with mailbox := some (me, c.pkt) }
  registerEvent cfg me .pktOut c.pkt (s.log (.mailed me c.dst c.pkt))

end Calls

section CallLemmas

variable {cfg : SDBConfig} {me : Nat} {pkt : MCSPacket} {s s' : Bus} {c : Call}

theorem messageDest_eq_some_iff {dst : Nat} :
    messageDest cfg me pkt s = some dst ↔ Routed cfg me pkt s dst := by
  constructor
  · intro h
    unfold messageDest at h
    cases hentry : cfg.tables.messages[pkt.cmd.toNat]? with
    | none => simp [hentry] at h
    | some entry =>
        cases horigin : groupAllowed cfg.arch entry.originGroups (s.modules me).group with
        | false => simp [hentry, horigin] at h
        | true =>
            cases hdest : entry.destination with
            | none => simp [hentry, horigin, hdest] at h
            | some destination =>
                cases hname : destName destination pkt with
                | none => simp [hentry, horigin, hdest, hname] at h
                | some name =>
                    cases hfind : findModule s name with
                    | none => simp [hentry, horigin, hdest, hname, hfind] at h
                    | some index =>
                        have hgroup : groupAllowed cfg.arch entry.destinationGroups
                            (s.modules index).group = true ∧ index = dst := by
                          simpa [hentry, horigin, hdest, hname, hfind] using h
                        rcases hgroup with ⟨hgroup, rfl⟩
                        exact ⟨entry, destination, name, hentry, horigin, hdest, hname, hfind,
                          hgroup⟩
  · rintro ⟨entry, destination, name, hentry, horigin, hdest, hname, hfind, hgroup⟩
    simp [messageDest, hentry, horigin, hdest, hname, hfind, hgroup]

theorem dispatch_of_openCall {s₁ : Bus} (h : openCall cfg me pkt s = some (s₁, c)) :
    ((dispatch cfg me pkt s).bind fun s₂ =>
        .ok (s₂.update me fun m => { m with dataSocket := false })) =
      (sdbModuleWriteMcsPacket cfg me c.pkt c.dst s₁).bind fun r =>
        .ok (closeCall cfg me c r.2) := by
  unfold openCall at h
  cases hanswer : pkt.isAnswer with
  | true =>
      cases hmatch : matching me pkt s with
      | none => simp [hanswer, hmatch] at h
      | some e =>
          have hcall : (queueGet me pkt s).2 = s₁ ∧
              ({ pkt := pkt, dst := e.idProcess, pktOrigin := some e } : Call) = c := by
            simpa [hanswer, hmatch] using h
          rcases hcall with ⟨rfl, rfl⟩
          -- an answer: the call returns it to the module in the entry
          have hreturn : dispatch cfg me pkt s =
              returnAnswer cfg me pkt (some e) (queueGet me pkt s).2 := by
            simp [dispatch, hanswer, processAnswer, queueGet_fst, hmatch]
          rw [hreturn]
          cases hwrite : sdbModuleWriteMcsPacket cfg me pkt e.idProcess (queueGet me pkt s).2 <;>
            simp [returnAnswer, hwrite, bind, Except.bind, closeCall]
  | false =>
      by_cases htype : pkt.type = MCSType.message.code
      · cases hdest : messageDest cfg me pkt s with
        | none => simp [hanswer, htype, hdest] at h
        | some dst =>
            have hcall : queuePush me pkt me s = s₁ ∧
                ({ pkt := pkt, dst := dst, pktOrigin := none } : Call) = c := by
              simpa [hanswer, htype, hdest] using h
            rcases hcall with ⟨rfl, rfl⟩
            -- a message: the call sends it to the module that was found
            have hsend : dispatch cfg me pkt s = sendMessage cfg me pkt dst s := by
              rw [← processPktMessage_of_routed (messageDest_eq_some_iff.1 hdest)]
              simp [dispatch, hanswer, processCommand, htype]
            rw [hsend]
            cases hwrite : sdbModuleWriteMcsPacket cfg me pkt dst (queuePush me pkt me s) <;>
              simp [sendMessage, hwrite, bind, Except.bind, closeCall]
      · simp [hanswer, htype] at h

/-- Around its call, `process_pkt_socket` is the two parts. -/
theorem processPktSocket_of_call {s₁ : Bus} (h : socketCall cfg me s = some (s₁, c)) :
    processPktSocket cfg me s =
      (sdbModuleWriteMcsPacket cfg me c.pkt c.dst s₁).bind fun r =>
        .ok (closeCall cfg me c r.2) := by
  unfold socketCall at h
  cases hread : (readSocket cfg me s).pkt with
  | none => simp [hread] at h
  | some pkt =>
      simp only [hread] at h
      rw [processPktSocket_eq_dispatch hread, dispatch_of_openCall h]

/-- The number of modules and the mailboxes are as they were. -/
structure SameBoxes (s s' : Bus) : Prop where
  last : s'.sdbModuleLast = s.sdbModuleLast
  mailbox : ∀ k, (s'.modules k).mailbox = (s.modules k).mailbox

theorem SameBoxes.refl (s : Bus) : SameBoxes s s where
  last := rfl
  mailbox := fun _ => rfl

theorem SameBoxes.trans {s₁ s₂ s₃ : Bus} (h₁ : SameBoxes s₁ s₂) (h₂ : SameBoxes s₂ s₃) :
    SameBoxes s₁ s₃ where
  last := h₂.last.trans h₁.last
  mailbox := fun k => (h₂.mailbox k).trans (h₁.mailbox k)

theorem sameBoxes_of_net (hmodules : SameModules s s') (hbox : s'.net.box = s.net.box) :
    SameBoxes s s' where
  last := hmodules.last
  mailbox := congrFun hbox

theorem sameBoxes_arrived : SameBoxes s (arrived cfg me pkt s) where
  last := arrived_last
  mailbox := arrived_mailbox

theorem sameBoxes_update {m : Nat} {f : SDBModule → SDBModule}
    (h : ∀ x, (f x).mailbox = x.mailbox) : SameBoxes s (s.update m f) where
  last := rfl
  mailbox := by
    intro k
    by_cases hk : k = m
    · subst hk
      simp [h]
    · simp [Bus.update_of_ne hk]

theorem sameBoxes_openCall {s₁ : Bus} (h : openCall cfg me pkt s = some (s₁, c)) :
    SameBoxes s s₁ := by
  unfold openCall at h
  split_ifs at h with hanswer htype
  · cases hmatch : matching me pkt s with
    | none => simp [hmatch] at h
    | some e =>
        simp only [hmatch, Option.some.injEq, Prod.mk.injEq] at h
        rw [← h.1]
        exact ⟨sameModules_queueGet.last, queueGet_mailbox⟩
  · cases hdest : messageDest cfg me pkt s with
    | none => simp [hdest] at h
    | some dst =>
        simp only [hdest, Option.some.injEq, Prod.mk.injEq] at h
        rw [← h.1]
        exact ⟨(sameModules_queuePush me).last, queuePush_mailbox me⟩

theorem sameBoxes_socketCall {s₁ : Bus} (h : socketCall cfg me s = some (s₁, c)) :
    SameBoxes s s₁ := by
  unfold socketCall at h
  cases hread : (readSocket cfg me s).pkt with
  | none => simp [hread] at h
  | some pkt =>
      simp only [hread] at h
      exact sameBoxes_arrived.trans (sameBoxes_openCall h)

theorem sameBoxes_closeCall : SameBoxes s (closeCall cfg me c s) := by
  have hend : ∀ s₁ : Bus, SameBoxes s₁ (s₁.update me fun m => { m with dataSocket := false }) :=
    fun s₁ => sameBoxes_update fun _ => rfl
  unfold closeCall
  cases c.pktOrigin with
  | none => exact hend s
  | some e =>
      have hready : SameBoxes s (registerEvent cfg me .pktReady e.pkt s) :=
        ⟨registerEvent_last, fun k => by simp⟩
      exact hready.trans (hend _)

theorem dispatch_of_no_call (hnone : openCall cfg me pkt s = none)
    (h : dispatch cfg me pkt s = .ok s') : SameBoxes s s' := by
  have hmodules := dispatch_sameModules h
  refine sameBoxes_of_net hmodules ?_
  unfold openCall at hnone
  cases hanswer : pkt.isAnswer with
  | true =>
      simp only [dispatch, hanswer] at h
      rcases processAnswer_cases h with ⟨_, hreplied⟩ | ⟨e, r, hmatch, _⟩
      · rw [hreplied.net]
      · simp [hanswer, hmatch] at hnone
  | false =>
      simp only [dispatch, hanswer] at h
      -- a message that is sent has a destination
      have hnotRouted : pkt.type = MCSType.message.code → ∀ dst, ¬ Routed cfg me pkt s dst := by
        intro htype dst hrouted
        simp [hanswer, htype, messageDest_eq_some_iff.2 hrouted] at hnone
      cases processCommand_cases h with
      | refused errCode _ _ _ hs' => rw [hs', (replied_refuse errCode).net]
      | carriedOut _ _ hs' => rw [hs', replied_processSdbCommand.net]
      -- messages that are sent make a call, and the other outcomes leave the mailboxes alone
      | sent dst htype hrouted _ _ => exact absurd hrouted (hnotRouted htype dst)
      | unsent dst htype hrouted _ _ => exact absurd hrouted (hnotRouted htype dst)
      | stated data _ _ hreplied => rw [hreplied.net]
      | payload _ _ hs' => rw [hs', net_queuePush]

/-- Without a call, no mailbox changes. -/
theorem sameBoxes_of_no_call (hnone : socketCall cfg me s = none)
    (h : processPktSocket cfg me s = .ok s') : SameBoxes s s' := by
  unfold socketCall at hnone
  cases hread : (readSocket cfg me s).pkt with
  | none =>
      rcases processPktSocket_of_not_read hread h with ⟨hnet, hlast, _⟩
      exact ⟨hlast, fun k => congrFun (congrArg Net.box hnet) k⟩
  | some pkt =>
      simp only [hread] at hnone
      rcases processPktSocket_of_read hread h with ⟨s₁, hdispatch, rfl⟩
      -- reading, handling and clearing `data_socket`, one after the other
      exact (sameBoxes_arrived.trans (dispatch_of_no_call hnone hdispatch)).trans
        (sameBoxes_update fun _ => rfl)

end CallLemmas

/-! ## Threads -/

/-- The program with the addresses of the regions, which `malloc` has returned. -/
structure ThreadConfig extends SDBConfig where
  dataAddr : Nat → Nat
  dataAddr_pos : ∀ m, 0 < dataAddr m
  dataAddr_end : ∀ m, dataAddr m + sdbModuleDataSize ≤ 256 ^ arch.ptrSize

/-- Where a module's thread is. -/
inductive PC
  /-- in `pthread_cond_wait` on its own condition variable -/
  | idle
  /-- about to take its own lock -/
  | woken
  /-- at the head of the main loop -/
  | loop
  /-- a packet has been copied out of its region, which is still marked as valid -/
  | fetching (idOrigin : Nat) (pkt : MCSPacket)
  /-- about to take the destination's lock -/
  | locking (c : Call)
  /-- at the `while`, with the destination's lock -/
  | testing (c : Call)
  /-- in `pthread_cond_wait` on the destination's condition variable -/
  | waiting (c : Call)
  /-- the packet has been copied into the region, which is not yet marked as valid -/
  | copied (c : Call)

structure Threads where
  bus : Bus
  /-- the regions of the modules -/
  data : Nat → Region sdbModuleDataSize
  lock : Nat → Mutex Nat
  pc : Nat → PC
  /-- for each module, the calls that have written to its region and returned 0 -/
  written : Nat → List (Nat × MCSPacket)
  /-- what each module has read from its region -/
  read : Nat → List (Nat × MCSPacket)

namespace Threads

def goto (t : Threads) (i : Nat) (pc : PC) : Threads :=
  { t with pc := Function.update t.pc i pc }

def unlock (t : Threads) (m : Nat) : Threads :=
  { t with lock := Function.update t.lock m (t.lock m).unlock }

/-- `data_valid`. -/
def valid (t : Threads) (m : Nat) : Bool := (t.bus.modules m).mailbox.isSome

section Steps

variable (cfg : ThreadConfig)

/-- `process_pkt_socket` at the head of the main loop. -/
def socketStep (i : Nat) (t : Threads) : Option Threads :=
  match socketCall cfg.toSDBConfig i t.bus with
  | none =>
      match processPktSocket cfg.toSDBConfig i t.bus with
      | .ok bus => some { t with bus := bus }
      | .error _ => none
  | some (bus, c) =>
      -- the early returns come before any lock is taken
      if c.Refused cfg.toSDBConfig bus then
        some { t with bus := closeCall cfg.toSDBConfig i c bus }
      else
        some ({ t with bus := bus }.goto i (.locking c))

/-- The next step of thread `i`; there is none while a lock is held by another thread, and none
after a fault.  `ptrs` are the pointers in the packet, should it be copied. -/
def step (ptrs : Pointers) (i : Nat) (t : Threads) : Option Threads :=
  match t.pc i with
  | .idle => some (t.goto i .woken)
  | .woken =>
      match (t.lock i).lock i with
      | none => none
      | some l => some ({ t with lock := Function.update t.lock i l }.goto i .loop)
  | .loop =>
      if t.valid i then
        match readPacket cfg.arch (cfg.dataAddr i) (t.data i) with
        | none => none
        | some r => some (t.goto i (.fetching r.1 r.2))
      else if (t.bus.modules i).dataSocket then
        t.socketStep cfg i
      else
        -- `pthread_cond_wait` gives the lock back
        some ((t.unlock i).goto i .idle)
  | .fetching idOrigin pkt =>
      -- the handler of `Module` goes on with what was copied out of the region
      let bus := t.bus.update i fun m => { m with mailbox := some (idOrigin, pkt) }
      some
        ({ t with
            bus := processPktSdb cfg.toSDBConfig i bus
            read := Function.update t.read i (t.read i ++ [(idOrigin, pkt)]) }.goto i .loop)
  | .locking c =>
      match (t.lock c.dst).lock i with
      | none => none
      | some l => some ({ t with lock := Function.update t.lock c.dst l }.goto i (.testing c))
  | .testing c =>
      if t.valid c.dst then
        if i = c.dst then
          -- "Deadlock detected": the lock is not given back
          some ({ t with bus := closeCall cfg.toSDBConfig i c t.bus }.goto i .loop)
        else
          some ((t.unlock c.dst).goto i (.waiting c))
      -- the size test leaves `dest` out, so the copy can still run over the end of the region
      else if regionBytes cfg.arch c.pkt > sdbModuleDataSize then
        none
      else
        match writePacket cfg.arch (cfg.dataAddr c.dst) i c.pkt ptrs (t.data c.dst) with
        | none => none
        | some data =>
            some ({ t with data := Function.update t.data c.dst data }.goto i (.copied c))
  | .waiting c => some (t.goto i (.locking c))
  | .copied c =>
      let bus := closeCall cfg.toSDBConfig i c (setValid cfg.toSDBConfig i c t.bus)
      some
        (({ t with
            bus := bus
            written := Function.update t.written c.dst (t.written c.dst ++ [(i, c.pkt)]) }.unlock
              c.dst).goto i .loop)

end Steps

end Threads

inductive ThreadAct
  /-- a client sends bytes to its module's socket -/
  | client (m : Nat) (bytes : List UInt8)
  /-- the observer has seen something at a module's socket, and has got its lock -/
  | observe (m : Nat)
  /-- a thread goes on -/
  | step (i : Nat) (ptrs : Pointers)

namespace Threads

def act (cfg : ThreadConfig) (t : Threads) : ThreadAct → Option Threads
  | .client m bytes =>
      some { t with bus := t.bus.update m fun x => { x with input := x.input ++ bytes } }
  | .observe m =>
      if t.lock m = .free then
        some { t with bus := t.bus.update m fun x => { x with dataSocket := true } }
      else
        none
  | .step i ptrs => if i < t.bus.sdbModuleLast then t.step cfg ptrs i else none

def run (cfg : ThreadConfig) (t : Threads) : List ThreadAct → Option Threads
  | [] => some t
  | a :: acts =>
      match t.act cfg a with
      | none => none
      | some t' => t'.run cfg acts

end Threads

/-- All modules are registered, and their threads are in front of the main loop. -/
structure Started (t : Threads) : Prop where
  fresh : Fresh t.bus
  last : t.bus.sdbModuleLast ≤ sdbModuleMax
  lock : ∀ m, t.lock m = .free
  pc : ∀ m, t.pc m = .woken
  written : ∀ m, t.written m = []
  read : ∀ m, t.read m = []

/-! ## What a step can do -/

/-- Thread `i` is about to call `sdb_module_write_mcs_packet`, which will take a lock. -/
structure Calls (cfg : ThreadConfig) (t : Threads) (i : Nat) (bus : Bus) (c : Call) : Prop where
  lt : i < t.bus.sdbModuleLast
  pc : t.pc i = .loop
  valid : t.valid i = false
  dataSocket : (t.bus.modules i).dataSocket = true
  call : socketCall cfg.toSDBConfig i t.bus = some (bus, c)
  taken : ¬ c.Refused cfg.toSDBConfig bus

inductive Transition (cfg : ThreadConfig) (t : Threads) (a : ThreadAct) : Threads → Prop
  /-- nothing that locks and regions are about -/
  | quiet (bus : Bus) : SameBoxes t.bus bus → Transition cfg t a { t with bus := bus }
  | wake (i : Nat) : t.pc i = .idle → Transition cfg t a (t.goto i .woken)
  | resume (i : Nat) (l : Mutex Nat) : t.pc i = .woken → (t.lock i).lock i = some l →
      Transition cfg t a ({ t with lock := Function.update t.lock i l }.goto i .loop)
  | rest (i : Nat) : t.pc i = .loop → Transition cfg t a ((t.unlock i).goto i .idle)
  | fetch (i : Nat) (r : Nat × MCSPacket) : t.pc i = .loop → t.valid i = true →
      readPacket cfg.arch (cfg.dataAddr i) (t.data i) = some r →
      Transition cfg t a (t.goto i (.fetching r.1 r.2))
  | consume (i idOrigin : Nat) (pkt : MCSPacket) (bus : Bus) : t.pc i = .fetching idOrigin pkt →
      bus.sdbModuleLast = t.bus.sdbModuleLast → (bus.modules i).mailbox = none →
      (∀ k, k ≠ i → (bus.modules k).mailbox = (t.bus.modules k).mailbox) →
      Transition cfg t a
        ({ t with
            bus := bus
            read := Function.update t.read i (t.read i ++ [(idOrigin, pkt)]) }.goto i .loop)
  | call (i : Nat) (ptrs : Pointers) (bus : Bus) (c : Call) : a = .step i ptrs →
      Calls cfg t i bus c → SameBoxes t.bus bus →
      Transition cfg t a ({ t with bus := bus }.goto i (.locking c))
  | enter (i : Nat) (c : Call) (l : Mutex Nat) : t.pc i = .locking c →
      (t.lock c.dst).lock i = some l →
      Transition cfg t a ({ t with lock := Function.update t.lock c.dst l }.goto i (.testing c))
  | giveUp (i : Nat) (c : Call) (bus : Bus) : t.pc i = .testing c → t.valid c.dst = true →
      i = c.dst → SameBoxes t.bus bus → Transition cfg t a ({ t with bus := bus }.goto i .loop)
  | wait (i : Nat) (c : Call) : t.pc i = .testing c → i ≠ c.dst →
      Transition cfg t a ((t.unlock c.dst).goto i (.waiting c))
  | again (i : Nat) (c : Call) : t.pc i = .waiting c → Transition cfg t a (t.goto i (.locking c))
  | copy (i : Nat) (c : Call) (ptrs : Pointers) (data : Region sdbModuleDataSize) :
      i < t.bus.sdbModuleLast → t.pc i = .testing c → t.valid c.dst = false →
      regionBytes cfg.arch c.pkt ≤ sdbModuleDataSize →
      writePacket cfg.arch (cfg.dataAddr c.dst) i c.pkt ptrs (t.data c.dst) = some data →
      Transition cfg t a
        ({ t with data := Function.update t.data c.dst data }.goto i (.copied c))
  | publish (i : Nat) (c : Call) (bus : Bus) : t.pc i = .copied c →
      bus.sdbModuleLast = t.bus.sdbModuleLast →
      (bus.modules c.dst).mailbox = some (i, c.pkt) →
      (∀ k, k ≠ c.dst → (bus.modules k).mailbox = (t.bus.modules k).mailbox) →
      Transition cfg t a
        (({ t with
            bus := bus
            written := Function.update t.written c.dst (t.written c.dst ++ [(i, c.pkt)]) }.unlock
              c.dst).goto i .loop)

/-- The branches of `Threads.step`. -/
inductive StepCase (cfg : ThreadConfig) (ptrs : Pointers) (i : Nat) (t : Threads) : Threads → Prop
  | wake : t.pc i = .idle → StepCase cfg ptrs i t (t.goto i .woken)
  | resume (l : Mutex Nat) : t.pc i = .woken → (t.lock i).lock i = some l →
      StepCase cfg ptrs i t ({ t with lock := Function.update t.lock i l }.goto i .loop)
  | fetch (r : Nat × MCSPacket) : t.pc i = .loop → t.valid i = true →
      readPacket cfg.arch (cfg.dataAddr i) (t.data i) = some r →
      StepCase cfg ptrs i t (t.goto i (.fetching r.1 r.2))
  /-- `process_pkt_socket` without a call of `sdb_module_write_mcs_packet` -/
  | handle (bus : Bus) : t.pc i = .loop → t.valid i = false →
      (t.bus.modules i).dataSocket = true → socketCall cfg.toSDBConfig i t.bus = none →
      processPktSocket cfg.toSDBConfig i t.bus = .ok bus →
      StepCase cfg ptrs i t { t with bus := bus }
  /-- `process_pkt_socket` with a call that returns early -/
  | refuse (bus : Bus) (c : Call) : t.pc i = .loop → t.valid i = false →
      (t.bus.modules i).dataSocket = true →
      socketCall cfg.toSDBConfig i t.bus = some (bus, c) → c.Refused cfg.toSDBConfig bus →
      StepCase cfg ptrs i t { t with bus := closeCall cfg.toSDBConfig i c bus }
  | call (bus : Bus) (c : Call) : t.pc i = .loop → t.valid i = false →
      (t.bus.modules i).dataSocket = true →
      socketCall cfg.toSDBConfig i t.bus = some (bus, c) → ¬ c.Refused cfg.toSDBConfig bus →
      StepCase cfg ptrs i t ({ t with bus := bus }.goto i (.locking c))
  | rest : t.pc i = .loop → t.valid i = false → (t.bus.modules i).dataSocket = false →
      StepCase cfg ptrs i t ((t.unlock i).goto i .idle)
  | consume (idOrigin : Nat) (pkt : MCSPacket) : t.pc i = .fetching idOrigin pkt →
      StepCase cfg ptrs i t
        ({ t with
            bus := processPktSdb cfg.toSDBConfig i
              (t.bus.update i fun m => { m with mailbox := some (idOrigin, pkt) })
            read := Function.update t.read i (t.read i ++ [(idOrigin, pkt)]) }.goto i .loop)
  | enter (c : Call) (l : Mutex Nat) : t.pc i = .locking c → (t.lock c.dst).lock i = some l →
      StepCase cfg ptrs i t
        ({ t with lock := Function.update t.lock c.dst l }.goto i (.testing c))
  | giveUp (c : Call) : t.pc i = .testing c → t.valid c.dst = true → i = c.dst →
      StepCase cfg ptrs i t
        ({ t with bus := closeCall cfg.toSDBConfig i c t.bus }.goto i .loop)
  | wait (c : Call) : t.pc i = .testing c → t.valid c.dst = true → i ≠ c.dst →
      StepCase cfg ptrs i t ((t.unlock c.dst).goto i (.waiting c))
  | copy (c : Call) (data : Region sdbModuleDataSize) : t.pc i = .testing c →
      t.valid c.dst = false → regionBytes cfg.arch c.pkt ≤ sdbModuleDataSize →
      writePacket cfg.arch (cfg.dataAddr c.dst) i c.pkt ptrs (t.data c.dst) = some data →
      StepCase cfg ptrs i t
        ({ t with data := Function.update t.data c.dst data }.goto i (.copied c))
  | again (c : Call) : t.pc i = .waiting c → StepCase cfg ptrs i t (t.goto i (.locking c))
  | publish (c : Call) : t.pc i = .copied c →
      StepCase cfg ptrs i t
        (({ t with
            bus := closeCall cfg.toSDBConfig i c (setValid cfg.toSDBConfig i c t.bus)
            written := Function.update t.written c.dst (t.written c.dst ++ [(i, c.pkt)]) }.unlock
              c.dst).goto i .loop)

section Inversion

variable {cfg : ThreadConfig} {t t' : Threads} {a : ThreadAct} {i : Nat} {ptrs : Pointers}

/-- A thread that is not where the step has put one has not moved. -/
theorem Threads.pc_of_update {j : Nat} {pc pc' : PC} (hpc : t'.pc = Function.update t.pc i pc')
    (h : t'.pc j = pc) (hne : pc ≠ pc') : j ≠ i ∧ t.pc j = pc := by
  have hji : j ≠ i := fun hji => hne (by simpa [hpc, hji] using h.symm)
  exact ⟨hji, by simpa [hpc, Function.update_of_ne hji] using h⟩

theorem Threads.step_of_calls {bus : Bus} {c : Call} (h : Calls cfg t i bus c) (ptrs : Pointers) :
    t.act cfg (.step i ptrs) = some ({ t with bus := bus }.goto i (.locking c)) := by
  simp [Threads.act, h.lt, Threads.step, h.pc, h.valid, h.dataSocket, Threads.socketStep, h.call,
    h.taken]

/-- A call into an empty region does what `Module` says it does. -/
theorem write_of_empty {cfg : SDBConfig} {me : Nat} {s : Bus} {c : Call}
    (htaken : ¬ c.Refused cfg s) (hempty : (s.modules c.dst).mailbox = none)
    (hfits : regionBytes cfg.arch c.pkt ≤ sdbModuleDataSize) :
    sdbModuleWriteMcsPacket cfg me c.pkt c.dst s = .ok (0, setValid cfg me c s) := by
  have hdst : c.dst < s.sdbModuleLast := Nat.lt_of_not_le fun h => htaken (Or.inl h)
  have hsmall : ¬ TooLarge cfg.arch c.pkt := fun h => htaken (Or.inr h)
  simp [sdbModuleWriteMcsPacket_eq hdst hsmall, hempty, Nat.not_lt.2 hfits, setValid]

/-- A call during which no other thread moves is the handler of `Module`. -/
theorem processPktSocket_of_steps {bus : Bus} {c : Call} {ptrs₁ ptrs₂ ptrs₃ ptrs₄ : Pointers}
    (h : Calls cfg t i bus c) (hempty : t.valid c.dst = false)
    (hrun : t.run cfg [.step i ptrs₁, .step i ptrs₂, .step i ptrs₃, .step i ptrs₄] = some t') :
    t'.pc i = .loop ∧ processPktSocket cfg.toSDBConfig i t.bus = .ok t'.bus := by
  have hboxes := sameBoxes_socketCall h.call
  have hlt : i < bus.sdbModuleLast := hboxes.last ▸ h.lt
  have hnone : (bus.modules c.dst).mailbox = none := by
    rw [hboxes.mailbox]
    simpa [Threads.valid] using hempty
  -- the call, and the destination's lock
  rw [Threads.run, Threads.step_of_calls h ptrs₁] at hrun
  simp only [Threads.run, Threads.act, Threads.goto, hlt, if_true, Threads.step,
    Function.update_self] at hrun
  cases hlock : (t.lock c.dst).lock i with
  | none => simp [hlock] at hrun
  | some l =>
      -- the copy, for which the packet has to fit, and the flag
      simp only [hlock, hlt, if_true, Function.update_self, Threads.valid, hnone,
        Option.isSome_none, Bool.false_eq_true, if_false] at hrun
      split_ifs at hrun with hlarge
      cases hwrite : writePacket cfg.arch (cfg.dataAddr c.dst) i c.pkt ptrs₃ (t.data c.dst) with
      | none => simp [hwrite] at hrun
      | some data =>
          simp only [hwrite, hlt, if_true, Function.update_self, Option.some.injEq] at hrun
          have hfits : regionBytes cfg.arch c.pkt ≤ sdbModuleDataSize := Nat.le_of_not_lt hlarge
          rw [processPktSocket_of_call h.call, write_of_empty h.taken hnone hfits, ← hrun]
          exact ⟨by simp [Threads.unlock], rfl⟩

theorem setValid_mailbox {cfg : SDBConfig} {me : Nat} {s : Bus} (c : Call) (k : Nat) :
    ((setValid cfg me c s).modules k).mailbox =
      Function.update s.net.box c.dst (some (me, c.pkt)) k := by
  have hbox : ((s.update c.dst fun m => { m with mailbox := some (me, c.pkt) }).modules k).mailbox =
      Function.update s.net.box c.dst (some (me, c.pkt)) k :=
    congrFun (congrArg Net.box (net_update_mailbox c.dst _)) k
  simpa [setValid] using hbox

/-- `process_pkt_sdb` on a packet copied out of the region of `i` leaves the other regions alone. -/
theorem processPktSdb_mailbox_of_ne {cfg : SDBConfig} {s : Bus} {k : Nat} (w : Nat × MCSPacket)
    (hk : k ≠ i) :
    ((processPktSdb cfg i (s.update i fun m => { m with mailbox := some w })).modules k).mailbox =
      (s.modules k).mailbox := by
  have hfull : ((s.update i fun m => { m with mailbox := some w }).modules i).mailbox = some w := by
    simp
  rw [processPktSdb_mailbox hfull, Function.update_of_ne hk, net_update_mailbox]
  exact Function.update_of_ne hk _ _

/-- Marking the region of the destination as valid leaves the other regions alone. -/
theorem closeCall_setValid_mailbox_of_ne {cfg : SDBConfig} {s : Bus} {c : Call} {k : Nat}
    (hk : k ≠ c.dst) :
    ((closeCall cfg i c (setValid cfg i c s)).modules k).mailbox = (s.modules k).mailbox := by
  rw [sameBoxes_closeCall.mailbox, setValid_mailbox, Function.update_of_ne hk]
  rfl

theorem socketStep_case (hpc : t.pc i = .loop) (hvalid : t.valid i = false)
    (hsocket : (t.bus.modules i).dataSocket = true) (h : t.socketStep cfg i = some t') :
    StepCase cfg ptrs i t t' := by
  unfold Threads.socketStep at h
  cases hcall : socketCall cfg.toSDBConfig i t.bus with
  | none =>
      simp only [hcall] at h
      cases hend : processPktSocket cfg.toSDBConfig i t.bus with
      | error e => simp [hend] at h
      | ok bus =>
          simp only [hend, Option.some.injEq] at h
          exact h ▸ .handle bus hpc hvalid hsocket hcall hend
  | some r =>
      simp only [hcall] at h
      split_ifs at h with hrefused
      · cases h
        exact .refuse r.1 r.2 hpc hvalid hsocket hcall hrefused
      · cases h
        exact .call r.1 r.2 hpc hvalid hsocket hcall hrefused

theorem step_case (h : t.step cfg ptrs i = some t') : StepCase cfg ptrs i t t' := by
  unfold Threads.step at h
  cases hpc : t.pc i with
  | idle =>
      simp only [hpc] at h
      cases h
      exact .wake hpc
  | woken =>
      cases hlock : (t.lock i).lock i with
      | none => simp [hpc, hlock] at h
      | some l =>
          simp only [hpc, hlock] at h
          cases h
          exact .resume l hpc hlock
  | loop =>
      cases hvalid : t.valid i with
      | true =>
          cases hread : readPacket cfg.arch (cfg.dataAddr i) (t.data i) with
          | none => simp [hpc, hvalid, hread] at h
          | some r =>
              simp only [hpc, hvalid, hread, if_true] at h
              cases h
              exact .fetch r hpc hvalid hread
      | false =>
          cases hsocket : (t.bus.modules i).dataSocket with
          | true =>
              simp only [hpc, hvalid, hsocket, if_true, Bool.false_eq_true, if_false] at h
              exact socketStep_case hpc hvalid hsocket h
          | false =>
              simp only [hpc, hvalid, hsocket, Bool.false_eq_true, if_false] at h
              cases h
              exact .rest hpc hvalid hsocket
  | fetching idOrigin pkt =>
      simp only [hpc] at h
      cases h
      exact .consume idOrigin pkt hpc
  | locking c =>
      cases hlock : (t.lock c.dst).lock i with
      | none => simp [hpc, hlock] at h
      | some l =>
          simp only [hpc, hlock] at h
          cases h
          exact .enter c l hpc hlock
  | testing c =>
      simp only [hpc] at h
      split_ifs at h with hvalid hself hlarge
      · cases h
        exact .giveUp c hpc hvalid hself
      · cases h
        exact .wait c hpc hvalid hself
      · cases hwrite : writePacket cfg.arch (cfg.dataAddr c.dst) i c.pkt ptrs (t.data c.dst) with
        | none => simp [hwrite] at h
        | some data =>
            simp only [hwrite] at h
            cases h
            exact .copy c data hpc (by simpa using hvalid) (by omega) hwrite
  | waiting c =>
      simp only [hpc] at h
      cases h
      exact .again c hpc
  | copied c =>
      simp only [hpc] at h
      cases h
      exact .publish c hpc

/-- Everything a thread can do. -/
theorem step_transition (hlt : i < t.bus.sdbModuleLast) (h : t.step cfg ptrs i = some t') :
    Transition cfg t (.step i ptrs) t' := by
  cases step_case h with
  | wake hpc => exact .wake i hpc
  | resume l hpc hlock => exact .resume i l hpc hlock
  | fetch r hpc hvalid hread => exact .fetch i r hpc hvalid hread
  | handle bus _ _ _ hcall hend => exact .quiet bus (sameBoxes_of_no_call hcall hend)
  | refuse bus c _ _ _ hcall _ =>
      exact .quiet _ ((sameBoxes_socketCall hcall).trans sameBoxes_closeCall)
  | call bus c hpc hvalid hsocket hcall htaken =>
      exact .call i ptrs bus c rfl ⟨hlt, hpc, hvalid, hsocket, hcall, htaken⟩
        (sameBoxes_socketCall hcall)
  | rest hpc _ _ => exact .rest i hpc
  | consume idOrigin pkt hpc =>
      have hfull : ((t.bus.update i fun m => { m with mailbox := some (idOrigin, pkt) }).modules
          i).mailbox = some (idOrigin, pkt) := by simp
      refine .consume i idOrigin pkt _ hpc ?_ ?_ ?_
      · exact (processPktSdb_sameModules hfull).last
      · rw [processPktSdb_mailbox hfull]
        simp
      · exact fun k hk => processPktSdb_mailbox_of_ne (idOrigin, pkt) hk
  | enter c l hpc hlock => exact .enter i c l hpc hlock
  | giveUp c hpc hvalid hself => exact .giveUp i c _ hpc hvalid hself sameBoxes_closeCall
  | wait c hpc _ hself => exact .wait i c hpc hself
  | copy c data hpc hvalid hfits hwrite => exact .copy i c ptrs data hlt hpc hvalid hfits hwrite
  | again c hpc => exact .again i c hpc
  | publish c hpc =>
      have hlast : (setValid cfg.toSDBConfig i c t.bus).sdbModuleLast = t.bus.sdbModuleLast := by
        simp [setValid]
      refine .publish i c _ hpc (sameBoxes_closeCall.last.trans hlast) ?_ ?_
      · rw [sameBoxes_closeCall.mailbox, setValid_mailbox]
        simp
      · exact fun k hk => closeCall_setValid_mailbox_of_ne hk

theorem act_transition (h : t.act cfg a = some t') : Transition cfg t a t' := by
  cases a with
  | client m bytes =>
      cases h
      exact .quiet _ (sameBoxes_update fun _ => rfl)
  | observe m =>
      simp only [Threads.act] at h
      split_ifs at h
      cases h
      exact .quiet _ (sameBoxes_update fun _ => rfl)
  | step i ptrs =>
      simp only [Threads.act] at h
      split_ifs at h with hlt
      exact step_transition hlt h

end Inversion

theorem Threads.run_cons {cfg : ThreadConfig} {t t₁ : Threads} {a : ThreadAct}
    (h : t.act cfg a = some t₁) (acts : List ThreadAct) :
    t.run cfg (a :: acts) = t₁.run cfg acts := by
  simp [Threads.run, h]

theorem Threads.run_eq_foldlM (cfg : ThreadConfig) (t : Threads) (acts : List ThreadAct) :
    t.run cfg acts = acts.foldlM (Threads.act cfg) t := by
  induction acts generalizing t with
  | nil => rfl
  | cons a acts ih =>
      cases hact : t.act cfg a with
      | none => simp [Threads.run, List.foldlM_cons, hact]
      | some t₁ => rw [Threads.run_cons hact, Lib.run_cons hact, ih]

/-- A run goes through the states its beginnings lead to. -/
theorem Threads.run_append {cfg : ThreadConfig} {t u : Threads} {pre : List ThreadAct}
    (h : t.run cfg pre = some u) (acts : List ThreadAct) :
    t.run cfg (pre ++ acts) = u.run cfg acts := by
  rw [Threads.run_eq_foldlM] at h
  rw [Threads.run_eq_foldlM, Threads.run_eq_foldlM, List.foldlM_append, h]
  rfl

/-- Every action of a run leads to a state. -/
theorem Threads.act_of_run {cfg : ThreadConfig} {t t' u : Threads} {pre post : List ThreadAct}
    {a : ThreadAct} (hpre : t.run cfg pre = some u)
    (h : t.run cfg (pre ++ a :: post) = some t') : ∃ u', u.act cfg a = some u' := by
  rw [Threads.run_eq_foldlM] at hpre h
  exact step_of_run hpre h

/-- What a check of the state before each action of a run finds. -/
theorem Threads.all_states {cfg : ThreadConfig} {t u : Threads} {acts pre post : List ThreadAct}
    {a : ThreadAct} {f : Threads → Bool}
    (hall : ∀ n < acts.length, (t.run cfg (acts.take n)).all f = true)
    (hsplit : acts = pre ++ a :: post) (hpre : t.run cfg pre = some u) : f u = true := by
  simp only [Threads.run_eq_foldlM] at hall hpre
  exact Lib.all_states hall hsplit hpre

/-- An invariant of every run. -/
theorem Threads.run_invariant {cfg : ThreadConfig} {I : Threads → Prop}
    (hstep : ∀ {t t' : Threads} {a : ThreadAct}, I t → Transition cfg t a t' → I t')
    {t t' : Threads} {acts : List ThreadAct} (hinit : I t) (h : t.run cfg acts = some t') :
    I t' := by
  rw [Threads.run_eq_foldlM] at h
  exact Lib.run_invariant (fun hinv hact => hstep hinv (act_transition hact)) hinit h

end SDB
end AbsPlatform
