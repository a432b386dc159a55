import AbsPlatform.Lib.LockProgram
import AbsPlatform.LibSDB.CallbackTable

/-!
# LockBalance — the locks of the client library

The operations of `Libraries/SDB/sdb.c` from one lock operation to the next, with
`callback_list_lock`, `pending_list_lock` and the `pp_lock` of each entry.  Any number of threads
run them.  What an operation does to the lists between two lock operations is taken from `Pending`
and `CallbackTable`.

`sdb_register_callback` returns with `callback_list_lock` when the command is registered already,
and then nobody gets this lock any more.  There is no other way to end an operation with a lock.
-/

namespace AbsPlatform
namespace LibSDB

open MCS Lib

variable {α : Type}

/-! ## Locks and data -/

inductive LibLock
  | callbackList
  | pendingList
  /-- `pp_lock` of an entry -/
  | pp (e : Nat)
  deriving DecidableEq

/-- The order in which the locks are taken. -/
def LibLock.rank : LibLock → Nat
  | callbackList => 0
  | pendingList => 1
  | pp _ => 2

theorem LibLock.rank_le (l : LibLock) : l.rank ≤ 2 := by
  cases l <;> simp [rank]

structure Library (α : Type) where
  callbacks : CallbackList α
  client : Client
  /-- what the reader has done with the packets it has read -/
  reactions : List (Reaction α)

namespace Library

/-- After `sdb_init`. -/
def init : Library α where
  callbacks := CallbackList.init
  client := Client.init
  reactions := []

/-- An entry that has been freed has no lock. -/
def usable (d : Library α) : LibLock → Bool
  | .callbackList => true
  | .pendingList => true
  | .pp e => (d.client.heap e).isSome

/-- Following a pointer to an entry. -/
def access (e : Nat) (d : Library α) : Option (Library α) :=
  (d.client.heap e).map fun _ => d

def onClient (f : Client → Client) (d : Library α) : Option (Library α) :=
  some { d with client := f d.client }

def onCallbacks (f : CallbackList α → CallbackList α) (d : Library α) : Option (Library α) :=
  some { d with callbacks := f d.callbacks }

def react (d : Library α) (r : Reaction α) : Option (Library α) :=
  some { d with reactions := d.reactions ++ [r] }

/-- The reader starts a thread with the callback of an element. -/
def start (index : Nat) (d : Library α) : Option (Library α) :=
  (d.callbacks.entries[index]?).bind fun entry => d.react (.start entry)

/-- The reader stores answer number `n` in an entry. -/
def store (e : Nat) (n : PacketPtr) (d : Library α) : Option (Library α) :=
  (d.client.heap e).map fun p =>
    { d with client := d.client.storeAnswer e n p, reactions := d.reactions ++ [.store] }

end Library

/-- The sections of the operations. -/
inductive Section
  /-- `sdb_register_callback` looks for the command -/
  | lookFor (cmd : UInt32)
  | plain

/-- The command that is looked for has a callback. -/
def Section.Registered : Section → Library α → Prop
  | lookFor cmd, d => ∃ e ∈ d.callbacks.entries, e.1 = cmd
  | plain, _ => False

abbrev Code (α : Type) := LockProgram Section LibLock (Library α)

/-! ## Operations -/

namespace Code

open Library

/-- `sdb_register_callback`. -/
def sdbRegisterCallback (cmd : UInt32) : Option α → Code α
  | none => .done
  | some callback =>
      .lock .callbackList <|
      .run (.lookFor cmd) some fun d =>
        if (d.callbacks.getCallbackIndex cmd).isSome then
          -- this exit does not unlock
          .done
        else
          .run .plain (onCallbacks (·.add cmd callback)) fun _ =>
          .unlock .callbackList .done

/-- `sdb_unregister_callback`. -/
def sdbUnregisterCallback (cmd : UInt32) : Code α :=
  .lock .callbackList <|
  .run .plain some fun d =>
    match d.callbacks.getCallbackIndex cmd with
    | none => .unlock .callbackList .done
    | some index =>
        .run .plain (onCallbacks (·.shift index)) fun _ =>
        .unlock .callbackList .done

/-- `add_pending_id`, and what follows with the new entry. -/
def addPendingId (pktId : UInt32) (k : Nat → Code α) : Code α :=
  .lock .pendingList <|
  .run .plain (onClient (·.addPendingId pktId)) fun d =>
  .unlock .pendingList (k d.client.allocated)

/-- `delete_pending_id`. -/
def deletePendingId (pktId : UInt32) : Code α :=
  .lock .pendingList <|
  .run .plain (onClient (·.deletePendingId pktId)) fun _ =>
  .unlock .pendingList .done

/-- `sdb_send_sync`; `fd` is what the socket does. -/
def sdbSendSync (t : MCSTables) (pktIn : MCSPacket) (fd : WriteFd) : Code α :=
  addPendingId pktIn.id fun e =>
  .lock (.pp e) <|
  .run .plain (onClient (·.mark e (writeRequest t pktIn fd))) fun _ =>
    if writeRequest t pktIn fd = .written then
      .wait (.pp e) <|
      .run .plain (access e) fun _ =>
      .unlock (.pp e) (deletePendingId pktIn.id)
    else
      .unlock (.pp e) .done

/-- `sdb_send_async`. -/
def sdbSendAsync (t : MCSTables) (pktIn : MCSPacket) (fd : WriteFd) : Code α :=
  addPendingId pktIn.id fun e =>
  .run .plain (onClient (·.mark e (writeRequest t pktIn fd))) fun _ =>
  .done

/-- `sdb_wait_async`. -/
def sdbWaitAsync (e : Nat) : Code α :=
  .lock (.pp e) <|
  .run .plain (access e) fun d =>
    if (d.client.heap e).any (·.ppValid) then
      .unlock (.pp e) .done
    else
      .wait (.pp e) <|
      .unlock (.pp e) .done

/-- `sdb_check_async`. -/
def sdbCheckAsync (e : Nat) : Code α :=
  .lock (.pp e) <|
  .run .plain (access e) fun _ =>
  .unlock (.pp e) .done

/-- `sdb_pending_packet_free`. -/
def sdbPendingPacketFree (e : Nat) : Code α :=
  .run .plain (access e) fun d =>
    match d.client.heap e with
    | none => .done
    | some p => deletePendingId p.ppId

/-- The end of an iteration of the reader with a packet that nobody expects. -/
def unexpected (pkt : MCSPacket) : Code α :=
  .run .plain (·.react (.reply (mcsErrPacket pkt ecmdfault))) fun _ =>
  .done

/-- One iteration of `sdb_thread_read` with what `mcs_read_command` has returned. -/
def sdbThreadRead : Option MCSPacket → Code α
  -- `mcs_is_answer_packet` follows the pointer
  | none => .run .plain (fun _ => none) fun _ => .done
  | some pkt =>
      if pkt.isAnswer then
        .lock .pendingList <|
        .run .plain (onClient fun c => { c with received := c.received ++ [pkt] }) fun d =>
          match d.client.getPendingPacketId pkt.id with
          | some e =>
              .lock (.pp e) <|
              .run .plain (store e d.client.received.length) fun _ =>
              .unlock (.pp e) <|
              .unlock .pendingList .done
          | none => .unlock .pendingList (unexpected pkt)
      else
        .lock .callbackList <|
        .run .plain some fun d =>
          match d.callbacks.getCallbackIndex pkt.cmd.toUInt32 with
          | some index =>
              .run .plain (start index) fun _ =>
              .unlock .callbackList .done
          | none => .unlock .callbackList (unexpected pkt)

end Code

inductive Operation (α : Type)
  /-- `none` for NULL -/
  | registerCallback (cmd : UInt32) (callback : Option α)
  | unregisterCallback (cmd : UInt32)
  | sendSync (pktIn : MCSPacket) (fd : WriteFd)
  | sendAsync (pktIn : MCSPacket) (fd : WriteFd)
  | waitAsync (e : Nat)
  | checkAsync (e : Nat)
  | pendingPacketFree (e : Nat)
  | threadRead (pkt : Option MCSPacket)
  /-- an iteration in which `select` fails or the socket is not in the set -/
  | threadIdle

def Operation.code (t : MCSTables) : Operation α → Code α
  | registerCallback cmd callback => Code.sdbRegisterCallback cmd callback
  | unregisterCallback cmd => Code.sdbUnregisterCallback cmd
  | sendSync pktIn fd => Code.sdbSendSync t pktIn fd
  | sendAsync pktIn fd => Code.sdbSendAsync t pktIn fd
  | waitAsync e => Code.sdbWaitAsync e
  | checkAsync e => Code.sdbCheckAsync e
  | pendingPacketFree e => Code.sdbPendingPacketFree e
  | threadRead pkt => Code.sdbThreadRead pkt
  | threadIdle => .done

/-! ## The operations are sound -/

namespace Code

/-- What follows `held` in an operation gives it back. -/
abbrev Sound (held : List LibLock) (p : Code α) : Prop :=
  LockProgram.Sound LibLock.rank Section.Registered held p

theorem sound_plain {held : List LibLock} {f : Library α → Option (Library α)}
    {k : Library α → Code α} (h : ∀ d, Sound held (k d)) : Sound held (.run .plain f k) :=
  fun d _ _ => ⟨False.elim, fun _ => h d⟩

/-- Giving back the last lock. -/
theorem sound_unlock {l : LibLock} {p : Code α} (h : Sound [] p) : Sound [l] (.unlock l p) :=
  ⟨List.mem_singleton_self l, by simpa using h⟩

theorem sound_wait {l : LibLock} {p : Code α} (h : Sound [l] p) : Sound [l] (.wait l p) :=
  sound_unlock ⟨by simp, h⟩

theorem registered_iff {d : Library α} {cmd : UInt32} :
    (Section.lookFor cmd).Registered d ↔ (d.callbacks.getCallbackIndex cmd).isSome = true := by
  simp [Section.Registered, CallbackList.getCallbackIndex, List.findIdx?_isSome]

theorem sound_addPendingId {pktId : UInt32} {k : Nat → Code α} (h : ∀ e, Sound [] (k e)) :
    Sound [] (addPendingId pktId k) :=
  ⟨by simp, sound_plain fun d => sound_unlock (h d.client.allocated)⟩

theorem sound_deletePendingId (pktId : UInt32) : Sound [] (deletePendingId pktId : Code α) :=
  ⟨by simp, sound_plain fun _ => sound_unlock rfl⟩

theorem sound_sdbRegisterCallback (cmd : UInt32) (callback : Option α) :
    Sound [] (sdbRegisterCallback cmd callback) := by
  cases callback with
  | none => rfl
  | some callback =>
      refine ⟨by simp, fun d d' _ => ⟨fun hbad => ⟨by simp, ?_⟩, fun hgood => ?_⟩⟩
      · exact if_pos (registered_iff.1 hbad)
      · dsimp only
        rw [if_neg fun hfound => hgood (registered_iff.2 hfound)]
        exact sound_plain fun _ => sound_unlock rfl

theorem sound_sdbUnregisterCallback (cmd : UInt32) :
    Sound [] (sdbUnregisterCallback cmd : Code α) := by
  refine ⟨by simp, sound_plain fun d => ?_⟩
  cases d.callbacks.getCallbackIndex cmd with
  | none => exact sound_unlock rfl
  | some index => exact sound_plain fun _ => sound_unlock rfl

theorem sound_sdbSendSync (t : MCSTables) (pktIn : MCSPacket) (fd : WriteFd) :
    Sound [] (sdbSendSync t pktIn fd : Code α) := by
  refine sound_addPendingId fun e => ⟨by simp, sound_plain fun d => ?_⟩
  split_ifs with hwritten
  · refine sound_wait (sound_plain fun _ => ?_)
    exact sound_unlock (sound_deletePendingId pktIn.id)
  · exact sound_unlock rfl

theorem sound_sdbSendAsync (t : MCSTables) (pktIn : MCSPacket) (fd : WriteFd) :
    Sound [] (sdbSendAsync t pktIn fd : Code α) :=
  sound_addPendingId fun _ => sound_plain fun _ => rfl

theorem sound_sdbWaitAsync (e : Nat) : Sound [] (sdbWaitAsync e : Code α) := by
  refine ⟨by simp, sound_plain fun d => ?_⟩
  split_ifs with hvalid
  · exact sound_unlock rfl
  · exact sound_wait (sound_unlock rfl)

theorem sound_sdbCheckAsync (e : Nat) : Sound [] (sdbCheckAsync e : Code α) :=
  ⟨by simp, sound_plain fun _ => sound_unlock rfl⟩

theorem sound_sdbPendingPacketFree (e : Nat) : Sound [] (sdbPendingPacketFree e : Code α) := by
  refine sound_plain fun d => ?_
  cases d.client.heap e with
  | none => rfl
  | some p => exact sound_deletePendingId p.ppId

theorem sound_unexpected (pkt : MCSPacket) : Sound [] (unexpected pkt : Code α) :=
  sound_plain fun _ => rfl

theorem sound_sdbThreadRead (pkt : Option MCSPacket) : Sound [] (sdbThreadRead pkt : Code α) := by
  cases pkt with
  | none => exact sound_plain fun _ => rfl
  | some pkt =>
      dsimp only [sdbThreadRead]
      split_ifs with hanswer
      · refine ⟨by simp, sound_plain fun d => ?_⟩
        cases d.client.getPendingPacketId pkt.id with
        | none => exact sound_unlock (sound_unexpected pkt)
        | some e =>
            -- `pp_lock` is taken while `pending_list_lock` is held, and never the other way round
            refine ⟨by simp [LibLock.rank], sound_plain fun _ => ⟨by simp, ?_⟩⟩
            simpa using sound_unlock (l := .pendingList) (p := (.done : Code α)) rfl
      · refine ⟨by simp, sound_plain fun d => ?_⟩
        cases d.callbacks.getCallbackIndex pkt.cmd.toUInt32 with
        | none => exact sound_unlock (sound_unexpected pkt)
        | some index => exact sound_plain fun _ => sound_unlock rfl

end Code

theorem Operation.sound_code (t : MCSTables) (o : Operation α) : Code.Sound [] (o.code t) := by
  cases o with
  | registerCallback cmd callback => exact Code.sound_sdbRegisterCallback cmd callback
  | unregisterCallback cmd => exact Code.sound_sdbUnregisterCallback cmd
  | sendSync pktIn fd => exact Code.sound_sdbSendSync t pktIn fd
  | sendAsync pktIn fd => exact Code.sound_sdbSendAsync t pktIn fd
  | waitAsync e => exact Code.sound_sdbWaitAsync e
  | checkAsync e => exact Code.sound_sdbCheckAsync e
  | pendingPacketFree e => exact Code.sound_sdbPendingPacketFree e
  | threadRead pkt => exact Code.sound_sdbThreadRead pkt
  | threadIdle => rfl

/-! ## One operation alone -/

section Alone

open LockState

variable {τ : Type} [DecidableEq τ]

/-- The callbacks as `CallbackTable` has them, with their lock. -/
def Library.table (d : Library α) (holder : LibLock → Option τ) : CallbackList α :=
  { d.callbacks with locked := (holder .callbackList).isSome }

variable {i : τ} {holder : LibLock → Option τ} {d : Library α}

omit [DecidableEq τ] in
theorem getCallbackIndex_table (cmd : UInt32) :
    (d.table holder).getCallbackIndex cmd = d.callbacks.getCallbackIndex cmd :=
  rfl

theorem alone_sdbRegisterCallback (cmd : UInt32) (callback : Option α) :
    (alone Library.usable i (Code.sdbRegisterCallback cmd callback) holder d).map
        (fun r => r.2.table r.1) =
      (sdbRegisterCallback (d.table holder) cmd callback).map Prod.fst := by
  cases callback with
  | none => rfl
  | some callback =>
      cases hholder : holder .callbackList with
      | some u =>
          rw [Code.sdbRegisterCallback, alone_lock_held (by simp [hholder])]
          simp [sdbRegisterCallback, Library.table, hholder]
      | none =>
          have hfree : (d.table holder).locked = false := by simp [Library.table, hholder]
          rw [Code.sdbRegisterCallback, alone_lock rfl hholder, alone_run, Option.bind_some,
            sdbRegisterCallback, hfree, if_neg Bool.false_ne_true, getCallbackIndex_table]
          split_ifs with hfound
          · simp [alone, Library.table]
          · rw [alone_run, Library.onCallbacks, Option.bind_some, alone_unlock rfl hholder]
            rfl

theorem alone_sdbUnregisterCallback (cmd : UInt32) :
    (alone Library.usable i (Code.sdbUnregisterCallback cmd) holder d).map
        (fun r => r.2.table r.1) =
      (sdbUnregisterCallback (d.table holder) cmd).map Prod.fst := by
  cases hholder : holder .callbackList with
  | some u =>
      rw [Code.sdbUnregisterCallback, alone_lock_held (by simp [hholder])]
      simp [sdbUnregisterCallback, Library.table, hholder]
  | none =>
      have hfree : (d.table holder).locked = false := by simp [Library.table, hholder]
      rw [Code.sdbUnregisterCallback, alone_lock rfl hholder, alone_run, Option.bind_some,
        sdbUnregisterCallback, hfree, if_neg Bool.false_ne_true, getCallbackIndex_table]
      cases d.callbacks.getCallbackIndex cmd with
      | none =>
          dsimp only
          rw [alone_unlock rfl hholder]
          rfl
      | some index =>
          dsimp only
          rw [alone_run, Library.onCallbacks, Option.bind_some, alone_unlock rfl hholder]
          rfl

/-- With all locks free the reader does with a packet what `sdbThreadRead` says. -/
theorem alone_sdbThreadRead (pkt : Option MCSPacket) :
    (alone Library.usable i (Code.sdbThreadRead pkt) (fun _ => none) d).map (·.2.reactions) =
      (sdbThreadRead (fun id => (d.client.getPendingPacketId id).isSome)
        (d.table fun _ => (none : Option τ)) pkt).map (d.reactions ++ [·]) := by
  cases pkt with
  | none => rfl
  | some pkt =>
      dsimp only [Code.sdbThreadRead, sdbThreadRead]
      split_ifs with hanswer hpending hlocked
      · rcases Option.isSome_iff_exists.1 hpending with ⟨e, he⟩
        rcases getPendingPacketId_eq_some he with ⟨p, hp, _⟩
        rw [alone_lock rfl rfl, alone_run, Library.onClient, Option.bind_some, he]
        dsimp only
        rw [alone_lock (by simp [Library.usable, hp]) (by simp), alone_run, Library.store, hp,
          Option.map_some, Option.bind_some,
          alone_unlock (by simp [Library.usable, Client.storeAnswer]) (by simp),
          alone_unlock rfl rfl]
        rfl
      · have hnone : d.client.getPendingPacketId pkt.id = none := by simpa using hpending
        rw [alone_lock rfl rfl, alone_run, Library.onClient, Option.bind_some, hnone]
        dsimp only
        rw [alone_unlock rfl rfl]
        rfl
      · simp [Library.table] at hlocked
      · rw [alone_lock rfl rfl, alone_run, Option.bind_some, getCallbackIndex_table]
        cases d.callbacks.getCallbackIndex pkt.cmd.toUInt32 with
        | none =>
            dsimp only
            rw [alone_unlock rfl rfl]
            rfl
        | some index =>
            dsimp only
            rw [alone_run, Library.start]
            cases hentry : d.callbacks.entries[index]? with
            | none => simp [Library.table, hentry]
            | some entry =>
                rw [Option.bind_some, Library.react, Option.bind_some, alone_unlock rfl rfl]
                simp [alone, Library.table, hentry]

/-- The operation of a call. -/
def TableCall.operation : TableCall α → Operation α
  | register cmd callback => .registerCallback cmd callback
  | unregister cmd => .unregisterCallback cmd

theorem alone_tableCall (t : MCSTables) (c : TableCall α) :
    (alone Library.usable i (c.operation.code t) holder d).map (fun r => r.2.table r.1) =
      (d.table holder).call c := by
  cases c with
  | register cmd callback => exact alone_sdbRegisterCallback cmd callback
  | unregister cmd => exact alone_sdbUnregisterCallback cmd

end Alone

/-! ## The locks are balanced -/

abbrev LibState (α : Type) := LockState Nat Section LibLock (Library α)

abbrev LibAct (α : Type) := LockAct Nat (Operation α)

namespace LibState

def step (t : MCSTables) (s : LibState α) (a : LibAct α) : Option (LibState α) :=
  s.act (Operation.code t) Library.usable a

/-- After `sdb_init`. -/
def init : LibState α := LockState.start Library.init

/-- A call that returns according to `CallbackTable` is a run of its thread. -/
theorem run_of_tableCall (t : MCSTables) {s : LibState α} {i : Nat} {c : TableCall α}
    {table : CallbackList α} (hidle : s.prog i = .done)
    (h : (s.data.table s.holder).call c = some table) :
    ∃ (acts : List (LibAct α)) (s' : LibState α), acts.foldlM (step t) s = some s' ∧
      s'.prog i = .done ∧ s'.data.table s'.holder = table := by
  rw [← alone_tableCall t c (i := i), Option.map_eq_some_iff] at h
  rcases h with ⟨⟨holder', d'⟩, halone, rfl⟩
  rcases LockState.run_of_call hidle halone with ⟨acts, s', hrun, hidle', rfl, rfl⟩
  exact ⟨acts, s', hrun, hidle', rfl⟩

/-- The runs of `CallbackTable` are runs here, with all calls made by one thread. -/
theorem run_of_tableCalls (t : MCSTables) {s : LibState α} {i : Nat} {calls : List (TableCall α)}
    {table : CallbackList α} (hidle : s.prog i = .done)
    (h : calls.foldlM CallbackList.call (s.data.table s.holder) = some table) :
    ∃ (acts : List (LibAct α)) (s' : LibState α), acts.foldlM (step t) s = some s' ∧
      s'.prog i = .done ∧ s'.data.table s'.holder = table := by
  induction calls generalizing s with
  | nil =>
      cases h
      exact ⟨[], s, rfl, hidle, rfl⟩
  | cons c calls ih =>
      rcases run_cons_inv h with ⟨table₁, hcall, hrest⟩
      rcases run_of_tableCall t hidle hcall with ⟨acts₁, s₁, hrun₁, hidle₁, rfl⟩
      rcases ih hidle₁ hrest with ⟨acts, s', hrun, hs'⟩
      exact ⟨acts₁ ++ acts, s', by simp [List.foldlM_append, hrun₁, hrun], hs'⟩

/-- A thread in `sdb_register_callback` has got `callback_list_lock` and is about to look for a
command that has a callback. -/
def RegistersAgain (s : LibState α) (i : Nat) : Prop :=
  ∃ cmd f k, s.prog i = .run (.lookFor cmd) f k ∧ ∃ e ∈ s.data.callbacks.entries, e.1 = cmd

theorem registersAgain_iff {s : LibState α} {i : Nat} :
    s.RegistersAgain i ↔ s.Leaks Section.Registered i := by
  constructor
  · rintro ⟨cmd, f, k, hprog, hfound⟩
    exact ⟨.lookFor cmd, f, k, hprog, hfound⟩
  · rintro ⟨a, f, k, hprog, hbad⟩
    cases a with
    | lookFor cmd => exact ⟨cmd, f, k, hprog, hbad⟩
    | plain => exact hbad.elim

theorem sane_of_run {t : MCSTables} {acts : List (LibAct α)} {s : LibState α}
    (h : acts.foldlM (step t) init = some s) : s.Sane LibLock.rank Section.Registered :=
  run_invariant (fun hs hact => LockState.Sane.act (Operation.sound_code t) hs hact)
    (LockState.clean_start Library.init).sane h

/-- A lock with which an operation has ended is never given back. -/
theorem lock_stays {t : MCSTables} {acts later : List (LibAct α)} {s s' : LibState α} {i : Nat}
    {l : LibLock} (h : acts.foldlM (step t) init = some s) (hidle : s.prog i = .done)
    (hholder : s.holder l = some i) (hlater : later.foldlM (step t) s = some s') :
    s'.holder l = some i :=
  (sane_of_run h).kept (Operation.sound_code t) hidle hholder hlater

end LibState

/-- In every state of a run the operations that are over have ended with the locks they started
with, and every chain of waiting threads ends in one inside an operation that does not wait, exactly
when no thread registers a command that is registered. -/
theorem locks_balanced_iff (t : MCSTables) (acts : List (LibAct α)) :
    (∀ pre post s, acts = pre ++ post → pre.foldlM (LibState.step t) LibState.init = some s →
        s.Returned ∧ s.Released) ↔
      ∀ pre i post s s', acts = pre ++ .step i :: post →
        pre.foldlM (LibState.step t) LibState.init = some s → s.step t (.step i) = some s' →
        ¬ s.RegistersAgain i := by
  simp only [LibState.registersAgain_iff]
  exact LockState.balanced_iff (Operation.sound_code t) LibLock.rank_le Library.init acts

/-- Thread 0 registers a callback for command 3, and then another one.  Thread 1 calls
`sdb_unregister_callback` afterwards. -/
def registerTwice : List (LibAct Nat) :=
  [.call 0 (.registerCallback 3 (some 10)), .step 0, .step 0, .step 0, .step 0,
    .call 0 (.registerCallback 3 (some 11)), .step 0, .step 0, .call 1 (.unregisterCallback 3)]

/-- The second call has returned with the lock, and the thread that waits for it waits for ever. -/
theorem registerTwice_unbalanced :
    ∃ s, registerTwice.foldlM (LibState.step commandSet) LibState.init = some s ∧
      ¬ s.Returned ∧ ¬ s.Released ∧ s.Wants 1 .callbackList ∧
      ∀ (later : List (LibAct Nat)) (s' : LibState Nat),
        later.foldlM (LibState.step commandSet) s = some s' →
        s'.holder .callbackList = some 0 := by
  refine ⟨_, rfl, fun hreturned => ?_, fun hreleased => ?_, ⟨_, rfl⟩, fun later s' hlater => ?_⟩
  · have hbefore := (hreturned 0 rfl .callbackList).1 rfl
    cases hbefore
  · exact LockState.not_released (t := 1) (u := 0) ⟨.callbackList, ⟨_, rfl⟩, rfl⟩ rfl hreleased
  · have hrun : registerTwice.foldlM (LibState.step commandSet) LibState.init = some _ := rfl
    exact LibState.lock_stays hrun rfl rfl hlater

end LibSDB
end AbsPlatform
