import AbsPlatform.Lib.Runs
import AbsPlatform.MCS.Codec

/-!
# Pending — requests of a client and the answers to them

The part of `Libraries/SDB/sdb.c` that sends packets and waits for their answers, from one lock
operation to the next: any number of application threads call `sdb_send_sync`, `sdb_send_async`,
`sdb_wait_async`, `sdb_check_async` and `sdb_pending_packet_free` while `sdb_thread_read` runs.

A section of code between taking a lock and giving it back is one step where nothing in it blocks.
`sdb_send_sync` holds `pp_lock` from before it writes until it waits, and the reader holds
`pending_list_lock` while it asks for `pp_lock`; these are several steps.  An answer counts as
received when the reader has got `pending_list_lock` for it.  Packets that are not answers do not
touch the list.

Entries are named by the order in which they were allocated.  Following a pointer to an entry that
has been freed is a fault, and there is no step.  `pthread_cond_wait` may return without a
broadcast.
-/

namespace AbsPlatform
namespace LibSDB

open MCS

/-! ## State -/

/-- A packet that the reader has got, by its place in what was received. -/
abbrev PacketPtr := Nat

structure SDBPendingPacket where
  ppId : UInt32
  /-- `none` until something is stored: `malloc` does not initialise it -/
  ppPkt : Option PacketPtr
  ppValid : Bool
  /-- the application thread that holds `pp_lock` from one step to the next -/
  ppLock : Option Nat

/-- An entry as `add_pending_id` makes it. -/
def newPending (pktId : UInt32) : SDBPendingPacket where
  ppId := pktId
  ppPkt := none
  ppValid := false
  ppLock := none

/-- What has become of the request of an entry. -/
inductive Sent
  | unwritten
  | written
  | failed
  deriving DecidableEq

/-- The two functions that call `pthread_cond_wait`. -/
inductive Waiter
  | sendSync (pktIn : MCSPacket)
  | waitAsync

/-- Where an application thread is; `e` is the entry it works on. -/
inductive AppPC
  /-- outside the library -/
  | idle
  /-- `add_pending_id` is done, for `sdb_send_sync` or `sdb_send_async` -/
  | added (sync : Bool) (pktIn : MCSPacket) (e : Nat)
  /-- in `sdb_send_sync`, with `pp_lock` -/
  | locked (pktIn : MCSPacket) (e : Nat)
  /-- in `sdb_send_sync`, with `pp_lock`; the packet has been written -/
  | written (pktIn : MCSPacket) (e : Nat)
  /-- in `pthread_cond_wait` -/
  | waiting (w : Waiter) (e : Nat)
  /-- about to take `pp_lock` at the end of `pthread_cond_wait` -/
  | woken (w : Waiter) (e : Nat)
  /-- in `sdb_send_sync`, without locks; `*pkt_out` has been set -/
  | done (pktIn : MCSPacket) (e : Nat) (pktOut : Option PacketPtr)

structure Client where
  heap : Nat → Option SDBPendingPacket
  /-- how many entries `malloc` has returned -/
  allocated : Nat
  /-- the entries from `pending_list_first` on -/
  pending : List Nat
  /-- what the reader is about to store, and where; it holds `pending_list_lock` -/
  reader : Option (Nat × PacketPtr)
  pc : Nat → AppPC
  /-- the answers, in the order in which the reader has got them -/
  received : List MCSPacket
  /-- what the reader has sent back -/
  replies : List MCSPacket
  /-- for each entry, what has become of its request -/
  sent : Nat → Sent
  /-- for each entry, how many answers had been received when it was added -/
  since : Nat → Nat

namespace Client

/-- After `sdb_init`. -/
def init : Client where
  heap := fun _ => none
  allocated := 0
  pending := []
  reader := none
  pc := fun _ => .idle
  received := []
  replies := []
  sent := fun _ => .unwritten
  since := fun _ => 0

def goto (s : Client) (i : Nat) (pc : AppPC) : Client :=
  { s with pc := Function.update s.pc i pc }

def set (s : Client) (e : Nat) (p : SDBPendingPacket) : Client :=
  { s with heap := Function.update s.heap e (some p) }

def mark (s : Client) (e : Nat) (st : Sent) : Client :=
  { s with sent := Function.update s.sent e st }

/-- An entry whose `pp_lock` can be taken. -/
def unlocked (s : Client) (e : Nat) : Option SDBPendingPacket :=
  (s.heap e).filter fun p => p.ppLock.isNone

/-! ## The list -/

/-- `get_pending_packet_id`. -/
def getPendingPacketId (s : Client) (pktId : UInt32) : Option Nat :=
  s.pending.find? fun e => (s.heap e).any fun p => p.ppId == pktId

/-- `add_pending_id`; the new entry is number `allocated`. -/
def addPendingId (s : Client) (pktId : UInt32) : Client :=
  { s with
    heap := Function.update s.heap s.allocated (some (newPending pktId))
    allocated := s.allocated + 1
    pending := s.allocated :: s.pending
    sent := Function.update s.sent s.allocated .unwritten
    since := Function.update s.since s.allocated s.received.length }

/-- `delete_pending_id`: the first entry with the identifier. -/
def deletePendingId (s : Client) (pktId : UInt32) : Client :=
  match s.getPendingPacketId pktId with
  | none => s
  | some e => { s with heap := Function.update s.heap e none, pending := s.pending.erase e }

end Client

/-! ## Steps -/

/-- Where `pthread_cond_broadcast` on the condition variable of entry `e` puts a thread. -/
def AppPC.wake (e : Nat) : AppPC → AppPC
  | .waiting w e' => if e' = e then .woken w e' else .waiting w e'
  | pc => pc

/-- What `mcs_write_command` comes to for a caller that compares its value with -1. -/
def writeRequest (t : MCSTables) (pktIn : MCSPacket) (fd : WriteFd) : Sent :=
  if (mcsWriteCommand t pktIn fd).1 ≠ -1 then .written else .failed

inductive ClientAct
  | sendSync (i : Nat) (pktIn : MCSPacket)
  | sendAsync (i : Nat) (pktIn : MCSPacket)
  | waitAsync (i e : Nat)
  | checkAsync (i e : Nat)
  | pendingPacketFree (i e : Nat)
  /-- thread `i` goes on; `fd` is what the socket does, should it write -/
  | step (i : Nat) (fd : WriteFd)
  /-- `pthread_cond_wait` returns without a broadcast -/
  | spurious (i : Nat)
  /-- the reader has read an answer and got `pending_list_lock` -/
  | answer (pkt : MCSPacket)
  /-- the reader has got `pp_lock`, stores the answer and gives both locks back -/
  | store

namespace Client

/-- A call of `sdb_send_sync` or `sdb_send_async` up to the end of `add_pending_id`. -/
def send (s : Client) (i : Nat) (sync : Bool) (pktIn : MCSPacket) : Client :=
  (s.addPendingId pktIn.id).goto i (.added sync pktIn s.allocated)

/-- The end of `pthread_cond_wait`, with `pp_lock`, and what follows up to giving it back. -/
def resume (s : Client) (i : Nat) (w : Waiter) (e : Nat) (p : SDBPendingPacket) : Client :=
  match w with
  | .sendSync pktIn => s.goto i (.done pktIn e p.ppPkt)
  | .waitAsync => s.goto i .idle

def storeAnswer (s : Client) (e : Nat) (n : PacketPtr) (p : SDBPendingPacket) : Client :=
  { s with
    heap := Function.update s.heap e (some { p with ppPkt := some n, ppValid := true })
    pc := fun i => (s.pc i).wake e
    reader := none }

/-- The next step of an application thread inside the library. -/
def step (t : MCSTables) (s : Client) (i : Nat) (fd : WriteFd) : Option Client :=
  match s.pc i with
  | .idle => none
  | .added false pktIn e =>
      -- `sdb_send_async` returns, whatever the write has returned
      some ((s.mark e (writeRequest t pktIn fd)).goto i .idle)
  | .added true pktIn e =>
      match s.unlocked e with
      | none => none
      | some p => some ((s.set e { p with ppLock := some i }).goto i (.locked pktIn e))
  | .locked pktIn e =>
      if writeRequest t pktIn fd = .written then
        some ((s.mark e .written).goto i (.written pktIn e))
      else
        match s.heap e with
        | none => none
        -- the entry stays in the list
        | some p => some (((s.mark e .failed).set e { p with ppLock := none }).goto i .idle)
  | .written pktIn e =>
      match s.heap e with
      | none => none
      | some p =>
          some ((s.set e { p with ppLock := none }).goto i (.waiting (.sendSync pktIn) e))
  | .waiting _ _ => none
  | .woken w e =>
      match s.unlocked e with
      | none => none
      -- neither function looks at `pp_valid` here
      | some p => some (s.resume i w e p)
  | .done pktIn _ _ =>
      if s.reader.isSome then none else some ((s.deletePendingId pktIn.id).goto i .idle)

def act (t : MCSTables) (s : Client) : ClientAct → Option Client
  | .sendSync i pktIn =>
      match s.pc i, s.reader with
      | .idle, none => some (s.send i true pktIn)
      | _, _ => none
  | .sendAsync i pktIn =>
      match s.pc i, s.reader with
      | .idle, none => some (s.send i false pktIn)
      | _, _ => none
  | .waitAsync i e =>
      match s.pc i, s.unlocked e with
      | .idle, some p => if p.ppValid then some s else some (s.goto i (.waiting .waitAsync e))
      | _, _ => none
  | .checkAsync i e =>
      match s.pc i, s.unlocked e with
      | .idle, some _ => some s
      | _, _ => none
  | .pendingPacketFree i e =>
      match s.pc i, s.heap e, s.reader with
      | .idle, some p, none => some (s.deletePendingId p.ppId)
      | _, _, _ => none
  | .step i fd => s.step t i fd
  | .spurious i =>
      match s.pc i with
      | .waiting w e => some (s.goto i (.woken w e))
      | _ => none
  | .answer pkt =>
      match s.reader with
      | some _ => none
      | none =>
          let received := s.received ++ [pkt]
          match s.getPendingPacketId pkt.id with
          | some e => some { s with received := received, reader := some (e, s.received.length) }
          | none =>
              let replies := s.replies ++ [mcsErrPacket pkt ecmdfault]
              some { s with received := received, replies := replies }
  | .store =>
      match s.reader with
      | none => none
      | some (e, n) =>
          match s.unlocked e with
          | none => none
          | some p => some (s.storeAnswer e n p)

def run (t : MCSTables) (s : Client) (acts : List ClientAct) : Option Client :=
  acts.foldlM (act t) s

end Client

/-! ## What a step can do -/

inductive Effect (t : MCSTables) (s : Client) (a : ClientAct) : Client → Prop
  /-- `sdb_check_async`, and `sdb_wait_async` for an entry that is valid -/
  | quiet : (∀ i e, a = .waitAsync i e → ∃ p, s.heap e = some p ∧ p.ppValid = true) → Effect t s a s
  | add (i : Nat) (sync : Bool) (pktIn : MCSPacket) : s.pc i = .idle → s.reader = none →
      a = (if sync then .sendSync i pktIn else .sendAsync i pktIn) →
      Effect t s a (s.send i sync pktIn)
  | writeAsync (i : Nat) (pktIn : MCSPacket) (e : Nat) (fd : WriteFd) :
      s.pc i = .added false pktIn e →
      Effect t s a ((s.mark e (writeRequest t pktIn fd)).goto i .idle)
  | lock (i : Nat) (pktIn : MCSPacket) (e : Nat) (p : SDBPendingPacket) :
      s.pc i = .added true pktIn e → s.unlocked e = some p →
      Effect t s a ((s.set e { p with ppLock := some i }).goto i (.locked pktIn e))
  | write (i : Nat) (pktIn : MCSPacket) (e : Nat) : s.pc i = .locked pktIn e →
      Effect t s a ((s.mark e .written).goto i (.written pktIn e))
  | writeFails (i : Nat) (pktIn : MCSPacket) (e : Nat) (p : SDBPendingPacket) :
      s.pc i = .locked pktIn e → s.heap e = some p →
      Effect t s a (((s.mark e .failed).set e { p with ppLock := none }).goto i .idle)
  | wait (i : Nat) (pktIn : MCSPacket) (e : Nat) (p : SDBPendingPacket) :
      s.pc i = .written pktIn e → s.heap e = some p →
      Effect t s a ((s.set e { p with ppLock := none }).goto i (.waiting (.sendSync pktIn) e))
  | waitAsync (i e : Nat) (p : SDBPendingPacket) : s.pc i = .idle → s.unlocked e = some p →
      p.ppValid = false → Effect t s a (s.goto i (.waiting .waitAsync e))
  | spurious (i : Nat) (w : Waiter) (e : Nat) : s.pc i = .waiting w e →
      Effect t s a (s.goto i (.woken w e))
  | resume (i : Nat) (fd : WriteFd) (w : Waiter) (e : Nat) (p : SDBPendingPacket) :
      a = .step i fd → s.pc i = .woken w e → s.unlocked e = some p →
      Effect t s a (s.resume i w e p)
  | finish (i : Nat) (pktIn : MCSPacket) (e : Nat) (pktOut : Option PacketPtr) :
      s.pc i = .done pktIn e pktOut → s.reader = none →
      Effect t s a ((s.deletePendingId pktIn.id).goto i .idle)
  | free (i e : Nat) (p : SDBPendingPacket) : s.pc i = .idle → s.heap e = some p →
      s.reader = none → Effect t s a (s.deletePendingId p.ppId)
  | answer (pkt : MCSPacket) (e : Nat) : a = .answer pkt → s.reader = none →
      s.getPendingPacketId pkt.id = some e →
      Effect t s a
        { s with received := s.received ++ [pkt], reader := some (e, s.received.length) }
  | unexpected (pkt : MCSPacket) : s.reader = none → s.getPendingPacketId pkt.id = none →
      Effect t s a
        { s with
          received := s.received ++ [pkt]
          replies := s.replies ++ [mcsErrPacket pkt ecmdfault] }
  | store (e : Nat) (n : PacketPtr) (p : SDBPendingPacket) : a = .store →
      s.reader = some (e, n) → s.unlocked e = some p → Effect t s a (s.storeAnswer e n p)

section Inversion

variable {t : MCSTables} {s s' : Client} {a : ClientAct} {i : Nat} {fd : WriteFd}

theorem unlocked_eq_some_iff {e : Nat} {p : SDBPendingPacket} :
    s.unlocked e = some p ↔ s.heap e = some p ∧ p.ppLock = none := by
  simp [Client.unlocked, Option.filter_eq_some_iff]

theorem step_effect (h : s.step t i fd = some s') : Effect t s (.step i fd) s' := by
  unfold Client.step at h
  cases hpc : s.pc i with
  | idle => simp [hpc] at h
  | added sync pktIn e =>
      cases sync with
      | false =>
          simp only [hpc, Option.some.injEq] at h
          exact h ▸ .writeAsync i pktIn e fd hpc
      | true =>
          cases hp : s.unlocked e with
          | none => simp [hpc, hp] at h
          | some p =>
              simp only [hpc, hp, Option.some.injEq] at h
              exact h ▸ .lock i pktIn e p hpc hp
  | locked pktIn e =>
      simp only [hpc] at h
      split_ifs at h
      · cases h
        exact .write i pktIn e hpc
      · cases hp : s.heap e with
        | none => simp [hp] at h
        | some p =>
            simp only [hp, Option.some.injEq] at h
            exact h ▸ .writeFails i pktIn e p hpc hp
  | written pktIn e =>
      cases hp : s.heap e with
      | none => simp [hpc, hp] at h
      | some p =>
          simp only [hpc, hp, Option.some.injEq] at h
          exact h ▸ .wait i pktIn e p hpc hp
  | waiting w e => simp [hpc] at h
  | woken w e =>
      cases hp : s.unlocked e with
      | none => simp [hpc, hp] at h
      | some p =>
          simp only [hpc, hp, Option.some.injEq] at h
          exact h ▸ .resume i fd w e p rfl hpc hp
  | done pktIn e pktOut =>
      simp only [hpc] at h
      split_ifs at h with hreader
      cases h
      exact .finish i pktIn e pktOut hpc (by simpa using hreader)

/-- Everything the threads of a client can do. -/
theorem act_effect (h : s.act t a = some s') : Effect t s a s' := by
  cases a with
  | step i fd => exact step_effect h
  | sendSync i pktIn =>
      simp only [Client.act] at h
      split at h
      · next hpc hreader =>
        cases h
        exact .add i true pktIn hpc hreader rfl
      · cases h
  | sendAsync i pktIn =>
      simp only [Client.act] at h
      split at h
      · next hpc hreader =>
        cases h
        exact .add i false pktIn hpc hreader rfl
      · cases h
  | waitAsync i e =>
      simp only [Client.act] at h
      split at h
      · next p hpc hp =>
        split_ifs at h with hvalid
        · cases h
          refine .quiet fun j e' heq => ?_
          cases heq
          exact ⟨p, (unlocked_eq_some_iff.1 hp).1, hvalid⟩
        · cases h
          exact .waitAsync i e p hpc hp (by simpa using hvalid)
      · cases h
  | checkAsync i e =>
      simp only [Client.act] at h
      split at h
      · cases h
        exact .quiet (by simp)
      · cases h
  | pendingPacketFree i e =>
      simp only [Client.act] at h
      split at h
      · next p hpc hp hreader =>
        cases h
        exact .free i e p hpc hp hreader
      · cases h
  | spurious i =>
      simp only [Client.act] at h
      split at h
      · next w e hpc =>
        cases h
        exact .spurious i w e hpc
      · cases h
  | answer pkt =>
      simp only [Client.act] at h
      split at h
      · cases h
      · next hreader =>
        split at h
        · next e he =>
          cases h
          exact .answer pkt e rfl hreader he
        · next hnone =>
          cases h
          exact .unexpected pkt hreader hnone
  | store =>
      simp only [Client.act] at h
      split at h
      · cases h
      · next e n hreader =>
        split at h
        · cases h
        · next p hp =>
          cases h
          exact .store e n p rfl hreader hp

end Inversion

/-! ## Entries and their callers -/

theorem getPendingPacketId_eq_some {s : Client} {pktId : UInt32} {e : Nat}
    (h : s.getPendingPacketId pktId = some e) : ∃ p, s.heap e = some p ∧ p.ppId = pktId := by
  have hmatch := List.find?_some h
  cases hp : s.heap e with
  | none => simp [hp] at hmatch
  | some p => exact ⟨p, rfl, by simpa [hp] using hmatch⟩

/-- The entries after a call has added one. -/
theorem heap_send {s : Client} {i : Nat} {sync : Bool} {pktIn : MCSPacket} {e : Nat}
    {p : SDBPendingPacket} (h : (s.send i sync pktIn).heap e = some p) :
    (e = s.allocated ∧ p = newPending pktIn.id) ∨ (e ≠ s.allocated ∧ s.heap e = some p) := by
  by_cases he : e = s.allocated
  · left
    refine ⟨he, ?_⟩
    simpa [Client.send, Client.goto, Client.addPendingId, he, eq_comm] using h
  · right
    exact ⟨he, by simpa [Client.send, Client.goto, Client.addPendingId, he] using h⟩

/-- The entries after one of them has changed. -/
theorem heap_set {s : Client} {e e' : Nat} {p p' : SDBPendingPacket}
    (h : (s.set e p).heap e' = some p') : (e' = e ∧ p' = p) ∨ (e' ≠ e ∧ s.heap e' = some p') := by
  by_cases he : e' = e
  · left
    refine ⟨he, ?_⟩
    simpa [Client.set, he, eq_comm] using h
  · right
    exact ⟨he, by simpa [Client.set, he] using h⟩

/-- The entries after the reader has stored an answer. -/
theorem heap_storeAnswer {s : Client} {e e' : Nat} {n : PacketPtr} {p p' : SDBPendingPacket}
    (h : (s.storeAnswer e n p).heap e' = some p') :
    (e' = e ∧ p' = { p with ppPkt := some n, ppValid := true }) ∨
      (e' ≠ e ∧ s.heap e' = some p') :=
  heap_set h

theorem writeRequest_ne_unwritten (t : MCSTables) (pktIn : MCSPacket) (fd : WriteFd) :
    writeRequest t pktIn fd ≠ .unwritten := by
  unfold writeRequest
  split_ifs <;> simp

section Sending

variable {s : Client} {i j e : Nat} {sync : Bool} {pktIn : MCSPacket}

theorem pc_send_of_ne (h : j ≠ i) : (s.send i sync pktIn).pc j = s.pc j :=
  Function.update_of_ne h ..

theorem sent_send_of_ne (h : e ≠ s.allocated) : (s.send i sync pktIn).sent e = s.sent e :=
  Function.update_of_ne h ..

theorem since_send_of_ne (h : e ≠ s.allocated) : (s.send i sync pktIn).since e = s.since e :=
  Function.update_of_ne h ..

end Sending

section Frames

variable (s : Client) (pktId : UInt32)

@[simp] theorem deletePendingId_pc : (s.deletePendingId pktId).pc = s.pc := by
  unfold Client.deletePendingId
  split <;> rfl

@[simp] theorem deletePendingId_allocated : (s.deletePendingId pktId).allocated = s.allocated := by
  unfold Client.deletePendingId
  split <;> rfl

@[simp] theorem deletePendingId_reader : (s.deletePendingId pktId).reader = s.reader := by
  unfold Client.deletePendingId
  split <;> rfl

@[simp] theorem deletePendingId_received : (s.deletePendingId pktId).received = s.received := by
  unfold Client.deletePendingId
  split <;> rfl

@[simp] theorem deletePendingId_sent : (s.deletePendingId pktId).sent = s.sent := by
  unfold Client.deletePendingId
  split <;> rfl

@[simp] theorem deletePendingId_since : (s.deletePendingId pktId).since = s.since := by
  unfold Client.deletePendingId
  split <;> rfl

/-- The entries that are left are as they were. -/
theorem heap_of_deletePendingId {e : Nat} {p : SDBPendingPacket}
    (h : (s.deletePendingId pktId).heap e = some p) : s.heap e = some p := by
  unfold Client.deletePendingId at h
  split at h
  · exact h
  · next e' _ =>
    by_cases he : e = e'
    · simp [he] at h
    · simpa [he] using h

end Frames

/-- The call of `sdb_send_sync` or `sdb_send_async` that a thread is in, up to the end of its wait:
the packet and its entry. -/
def AppPC.request : AppPC → Option (MCSPacket × Nat)
  | .added _ pktIn e => some (pktIn, e)
  | .locked pktIn e => some (pktIn, e)
  | .written pktIn e => some (pktIn, e)
  | .waiting (.sendSync pktIn) e => some (pktIn, e)
  | .woken (.sendSync pktIn) e => some (pktIn, e)
  | _ => none

def AppPC.owns (pc : AppPC) : Option Nat := pc.request.map Prod.snd

/-- No two threads are in calls with the same entry. -/
structure OwnInv (s : Client) : Prop where
  old : ∀ {i e}, (s.pc i).owns = some e → e < s.allocated
  alone : ∀ {i j e}, (s.pc i).owns = some e → (s.pc j).owns = some e → i = j

theorem ownInv_init : OwnInv Client.init where
  old := by
    intro i e h
    cases h
  alone := by
    intro i j e h
    cases h

section Ownership

variable {t : MCSTables} {s s' : Client} {a : ClientAct} {i : Nat} {pc' : AppPC}

/-- A thread goes on with its entry, or leaves it. -/
theorem OwnInv.move (h : OwnInv s) (hpc : s'.pc = Function.update s.pc i pc')
    (hown : pc'.owns = none ∨ pc'.owns = (s.pc i).owns) (halloc : s'.allocated = s.allocated) :
    OwnInv s' := by
  have hsub : ∀ {j e}, (s'.pc j).owns = some e → (s.pc j).owns = some e := by
    intro j e hj
    rw [hpc] at hj
    by_cases hji : j = i
    · subst hji
      rw [Function.update_self] at hj
      rcases hown with hnone | hsame
      · simp [hnone] at hj
      · exact hsame ▸ hj
    · simpa [hji] using hj
  exact ⟨fun hj => halloc ▸ h.old (hsub hj), fun hj hk => h.alone (hsub hj) (hsub hk)⟩

theorem request_wake (e : Nat) (pc : AppPC) : (pc.wake e).request = pc.request := by
  cases pc with
  | waiting w e' =>
      by_cases he : e' = e
      · cases w <;> simp [AppPC.wake, he, AppPC.request]
      · simp [AppPC.wake, he]
  | _ => rfl

theorem owns_wake (e : Nat) (pc : AppPC) : (pc.wake e).owns = pc.owns := by
  rw [AppPC.owns, request_wake, AppPC.owns]

/-- Who is in a call after another one has begun. -/
theorem request_send {sync : Bool} {pktIn pkt : MCSPacket} {j e : Nat}
    (h : ((s.send i sync pktIn).pc j).request = some (pkt, e)) :
    (j = i ∧ pkt = pktIn ∧ e = s.allocated) ∨ (j ≠ i ∧ (s.pc j).request = some (pkt, e)) := by
  by_cases hji : j = i
  · subst hji
    left
    simpa [Client.send, Client.goto, AppPC.request, eq_comm] using h
  · right
    exact ⟨hji, pc_send_of_ne hji ▸ h⟩

/-- A new call gets an entry of its own. -/
theorem OwnInv.send (h : OwnInv s) (i : Nat) (sync : Bool) (pktIn : MCSPacket) :
    OwnInv (s.send i sync pktIn) := by
  have hcases : ∀ {j e}, ((s.send i sync pktIn).pc j).owns = some e →
      (j = i ∧ e = s.allocated) ∨ (j ≠ i ∧ (s.pc j).owns = some e) := by
    intro j e hj
    rcases Option.map_eq_some_iff.1 hj with ⟨⟨pkt, _⟩, hreq, rfl⟩
    rcases request_send hreq with ⟨rfl, _, rfl⟩ | ⟨hji, hold⟩
    · exact Or.inl ⟨rfl, rfl⟩
    · exact Or.inr ⟨hji, by simp [AppPC.owns, hold]⟩
  refine ⟨fun {j e} hj => ?_, fun {j k e} hj hk => ?_⟩
  · rcases hcases hj with ⟨_, rfl⟩ | ⟨_, hold⟩
    · exact Nat.lt_succ_self _
    · exact Nat.lt_succ_of_lt (h.old hold)
  · rcases hcases hj with ⟨rfl, rfl⟩ | ⟨_, hold⟩
    · rcases hcases hk with ⟨rfl, _⟩ | ⟨_, hold⟩
      · rfl
      · exact absurd (h.old hold) (Nat.lt_irrefl _)
    · rcases hcases hk with ⟨rfl, rfl⟩ | ⟨_, hold'⟩
      · exact absurd (h.old hold) (Nat.lt_irrefl _)
      · exact h.alone hold hold'

theorem Effect.ownInv (heff : Effect t s a s') (h : OwnInv s) : OwnInv s' := by
  cases heff with
  | quiet _ => exact h
  | add i sync pktIn _ _ _ => exact h.send i sync pktIn
  | writeAsync i pktIn e fd _ => exact h.move rfl (Or.inl rfl) rfl
  | lock i pktIn e p hpc _ => exact h.move rfl (Or.inr (congrArg AppPC.owns hpc).symm) rfl
  | write i pktIn e hpc => exact h.move rfl (Or.inr (congrArg AppPC.owns hpc).symm) rfl
  | writeFails i pktIn e p _ _ => exact h.move rfl (Or.inl rfl) rfl
  | wait i pktIn e p hpc _ => exact h.move rfl (Or.inr (congrArg AppPC.owns hpc).symm) rfl
  | waitAsync i e p _ _ _ => exact h.move rfl (Or.inl rfl) rfl
  | spurious i w e hpc =>
      refine h.move rfl (Or.inr ?_) rfl
      cases w <;> simp [hpc, AppPC.owns, AppPC.request]
  | resume i fd w e p _ _ _ =>
      cases w with
      | sendSync pktIn => exact h.move rfl (Or.inl rfl) rfl
      | waitAsync => exact h.move rfl (Or.inl rfl) rfl
  | finish i pktIn e pktOut _ _ =>
      exact h.move (i := i) (by simp [Client.goto]; rfl) (Or.inl rfl) (by simp [Client.goto])
  | free i e p _ _ _ => exact ⟨fun hj => by simpa using h.old (by simpa using hj), fun hj hk =>
      h.alone (by simpa using hj) (by simpa using hk)⟩
  | answer pkt e _ _ _ => exact ⟨h.old, h.alone⟩
  | unexpected pkt _ _ => exact ⟨h.old, h.alone⟩
  | store e n p _ _ _ =>
      refine ⟨fun {j e'} hj => h.old (i := j) ?_, fun {j k e'} hj hk => h.alone (e := e') ?_ ?_⟩
      · rwa [← owns_wake e]
      · rwa [← owns_wake e]
      · rwa [← owns_wake e]

end Ownership

end LibSDB
end AbsPlatform
