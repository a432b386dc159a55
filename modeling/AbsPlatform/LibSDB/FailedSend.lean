import AbsPlatform.LibSDB.Pending
import AbsPlatform.MCS.CommandSet

/-!
# FailedSend — requests that could not be written

The four functions that send a packet, each as one call: `add_pending_id` comes first, and then
`mcs_write_command` may fail.  The entry is linked by then and none of the four takes it out again,
so that it stands in the list as if its request had been sent.
-/

namespace AbsPlatform
namespace LibSDB

open MCS

/-! ## The calls -/

/-- How a call ends, with the client after it. -/
inductive SendOutcome
  | returned (ret : Int) (c : Client)
  /-- the packet has been written and the call is in `pthread_cond_wait` -/
  | waits (c : Client)

/-- The functions that send a packet. -/
inductive SendFunction
  | sync
  | syncAndFree
  | async
  | asyncAndFree

namespace Client

variable (t : MCSTables) (c : Client) (pktIn : MCSPacket) (fd : WriteFd)

def sdbSendSync : SendOutcome :=
  let queueElem := c.allocated
  let c := c.addPendingId pktIn.id
  if (mcsWriteCommand t pktIn fd).1 ≠ -1 then
    .waits (c.mark queueElem .written)
  else
    .returned (-1) (c.mark queueElem .failed)

/-- `mcs_free(pkt_in)` at the end does not touch the list. -/
def sdbSendSyncAndFree : SendOutcome := sdbSendSync t c pktIn fd

def sdbSendAsync : SendOutcome :=
  let queueElem := c.allocated
  let c := c.addPendingId pktIn.id
  .returned (mcsWriteCommand t pktIn fd).1 (c.mark queueElem (writeRequest t pktIn fd))

/-- `mcs_free(pkt_in)` at the end does not touch the list. -/
def sdbSendAsyncAndFree : SendOutcome := sdbSendAsync t c pktIn fd

/-- The identifiers in the list, from `pending_list_first` on. -/
def pendingIds : List UInt32 := c.pending.filterMap fun e => (c.heap e).map fun p => p.ppId

end Client

def SendFunction.call (f : SendFunction) (t : MCSTables) (c : Client) (pktIn : MCSPacket)
    (fd : WriteFd) : SendOutcome :=
  match f with
  | .sync => c.sdbSendSync t pktIn fd
  | .syncAndFree => c.sdbSendSyncAndFree t pktIn fd
  | .async => c.sdbSendAsync t pktIn fd
  | .asyncAndFree => c.sdbSendAsyncAndFree t pktIn fd

/-- The call comes back with an error and the list is as it was for `c`. -/
def LeavesNoTrace (c : Client) : SendOutcome → Prop
  | .returned ret c' => ret < 0 ∧ c'.pendingIds = c.pendingIds
  | .waits _ => False

/-! ## The list after a failure -/

section Failure

variable {t : MCSTables} {c : Client} {pktIn : MCSPacket} {fd : WriteFd}

/-- What all four leave behind. -/
def afterFailure (c : Client) (pktId : UInt32) : Client :=
  (c.addPendingId pktId).mark c.allocated .failed

theorem writeRequest_of_fails (h : (mcsWriteCommand t pktIn fd).1 = eundef) :
    writeRequest t pktIn fd = .failed := by
  simp [writeRequest, h, eundef]

/-- The failure is reported, and the new entry is in the list. -/
theorem call_of_fails (f : SendFunction) (c : Client)
    (h : (mcsWriteCommand t pktIn fd).1 = eundef) :
    f.call t c pktIn fd = .returned eundef (afterFailure c pktIn.id) := by
  have hsync : c.sdbSendSync t pktIn fd = .returned eundef (afterFailure c pktIn.id) := by
    simp [Client.sdbSendSync, h, eundef, afterFailure]
  have hasync : c.sdbSendAsync t pktIn fd = .returned eundef (afterFailure c pktIn.id) := by
    rw [Client.sdbSendAsync, writeRequest_of_fails h, h]
    rfl
  cases f with
  | sync => exact hsync
  | syncAndFree => exact hsync
  | async => exact hasync
  | asyncAndFree => exact hasync

/-- Whatever was in the list before, it is longer now. -/
theorem length_pendingIds_afterFailure (c : Client) (pktId : UInt32) :
    c.pendingIds.length < (afterFailure c pktId).pendingIds.length := by
  have hkept : ∀ e ∈ c.pending, ((c.heap e).map fun p => p.ppId).isSome = true →
      ((Function.update c.heap c.allocated (some (newPending pktId)) e).map
        fun p => p.ppId).isSome = true := by
    intro e _ hsome
    by_cases heq : e = c.allocated
    · simp [heq]
    · simpa [Function.update_of_ne heq] using hsome
  have hcount := List.countP_mono_left hkept
  simp only [afterFailure, Client.mark, Client.addPendingId, Client.pendingIds,
    List.filterMap_cons, Function.update_self, Option.map_some, List.length_cons,
    List.length_filterMap_eq_countP] at hcount ⊢
  exact Nat.lt_succ_of_le hcount

/-- The entry that stayed is found once more: a later request with the same identifier stands in
front of it, and when that one has been answered and deleted, the next answer goes to the entry of
the request that was never sent. -/
theorem getPendingPacketId_afterFailure (c : Client) (pktId : UInt32) :
    (((afterFailure c pktId).addPendingId pktId).deletePendingId pktId).getPendingPacketId pktId =
      some c.allocated := by
  -- the later request is the one that is found and deleted first
  have hfirst : ((afterFailure c pktId).addPendingId pktId).getPendingPacketId pktId =
      some (c.allocated + 1) := by
    simp [Client.getPendingPacketId, afterFailure, Client.mark, Client.addPendingId, newPending]
  rw [Client.deletePendingId, hfirst]
  simp [Client.getPendingPacketId, afterFailure, Client.mark, Client.addPendingId, newPending]

/-! ## The same with the other threads -/

/-- The steps of a thread whose write fails lead to the client that the call returns. -/
theorem run_sendSync_of_fails {i : Nat} (hidle : c.pc i = .idle) (hreader : c.reader = none)
    (h : (mcsWriteCommand t pktIn fd).1 = eundef) :
    Client.run t c [.sendSync i pktIn, .step i fd, .step i fd] =
      some (afterFailure c pktIn.id) := by
  have hfailed := writeRequest_of_fails h
  have hpc : Function.update c.pc i .idle = c.pc := by rw [← hidle, Function.update_eq_self]
  simp [Client.run, Client.act, Client.step, Client.send, Client.goto, Client.set, Client.mark,
    Client.unlocked, Option.filter_some, Client.addPendingId, afterFailure, newPending, hidle,
    hreader, hfailed, hpc]

theorem run_sendAsync_of_fails {i : Nat} (hidle : c.pc i = .idle) (hreader : c.reader = none)
    (h : (mcsWriteCommand t pktIn fd).1 = eundef) :
    Client.run t c [.sendAsync i pktIn, .step i fd] = some (afterFailure c pktIn.id) := by
  have hfailed := writeRequest_of_fails h
  have hpc : Function.update c.pc i .idle = c.pc := by rw [← hidle, Function.update_eq_self]
  simp [Client.run, Client.act, Client.step, Client.send, Client.goto, Client.mark,
    Client.addPendingId, afterFailure, hidle, hreader, hfailed, hpc]

end Failure

/-! ## No failure goes without a trace -/

/-- For every list and every packet whose write fails, in each of the four functions. -/
theorem failed_send_leaves_entry (t : MCSTables) (c : Client) (pktIn : MCSPacket) (fd : WriteFd)
    (f : SendFunction) (hfail : (mcsWriteCommand t pktIn fd).1 = eundef) :
    ¬ LeavesNoTrace c (f.call t c pktIn fd) := by
  rw [call_of_fails f c hfail]
  rintro ⟨_, hsame⟩
  have hlonger := length_pendingIds_afterFailure c pktIn.id
  rw [hsame] at hlonger
  exact Nat.lt_irrefl _ hlonger

/-- `QOS_START`, number 2 of the messages. -/
def qosStartRequest : MCSPacket := rawPacket 7 2 none emptyBlock emptyBlock

/-- A socket that takes nothing. -/
def brokenFd : WriteFd := fun _ => -1

theorem qosStart_failed_send :
    (mcsWriteCommand commandSet qosStartRequest brokenFd).1 = eundef ∧
      ¬ LeavesNoTrace .init (SendFunction.sync.call commandSet .init qosStartRequest brokenFd) :=
  have hfail : (mcsWriteCommand commandSet qosStartRequest brokenFd).1 = eundef := rfl
  ⟨hfail, failed_send_leaves_entry commandSet .init qosStartRequest brokenFd .sync hfail⟩

/-- The packet is in order and the socket is not; afterwards identifier 7 is in the list, and an
answer with it is taken for the answer to this request. -/
theorem qosStart_stale_entry :
    checkPacket commandSet qosStartRequest = true ∧
      Client.init.pendingIds = [] ∧
      ∀ f : SendFunction, ∃ c, f.call commandSet .init qosStartRequest brokenFd = .returned (-1) c ∧
        c.pendingIds = [7] ∧ c.getPendingPacketId 7 = some 0 := by
  refine ⟨rfl, rfl, fun f => ?_⟩
  cases f with
  | sync => exact ⟨_, rfl, rfl, rfl⟩
  | syncAndFree => exact ⟨_, rfl, rfl, rfl⟩
  | async => exact ⟨_, rfl, rfl, rfl⟩
  | asyncAndFree => exact ⟨_, rfl, rfl, rfl⟩

end LibSDB
end AbsPlatform
