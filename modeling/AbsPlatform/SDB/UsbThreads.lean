import Mathlib.Data.List.Perm.Basic
import AbsPlatform.Lib.Runs
import AbsPlatform.SDB.QueueRefinement
import AbsPlatform.SDB.UsbFraming

/-!
# UsbThreads — whom the answers of the board are sent to

The two threads of `SDB/sdb_usb.c` and the queues they share: `sdb_usb_thread_write` takes requests
from the send queue, puts them into the receive queue and writes them to the board, and
`sdb_usb_thread_read` looks in the receive queue for the request an answer belongs to, by its
identifier alone.  Requests enter the send queue the way the comment at the end of
`process_pkt_payload` says, with the priority of their module's group.

The queues are the priority lists that the linked ones implement.  The board answers any request it
has got, once, with its identifier, and an answer counts as given when the thread reads it.  Both
threads send answers with `sdb_module_write_mcs_packet`, which takes its own module from `get_info`;
these threads have none and would follow NULL there.  That is left out: the call is taken to do what
it does in the thread of a module.
-/

namespace AbsPlatform
namespace SDB

open MCS Lib

/-! ## State -/

/-- Where `sdb_usb_thread_write` is. -/
inductive UsbWriter
  | idle
  /-- `sdb_queue_pop_block` has returned -/
  | popped (p : SDBPacket)
  /-- `mcs_to_usb` has returned -/
  | encoded (p : SDBPacket) (usbPacket : List UInt8)
  /-- the request is in the receive queue; the board has not got it yet -/
  | pushed (p : SDBPacket) (usbPacket : List UInt8)

/-- What the thread is about to write to the board, with the module that has sent it. -/
def UsbWriter.unwritten : UsbWriter → List (Nat × List UInt8)
  | pushed p usbPacket => [(p.idProcess, usbPacket)]
  | _ => []

structure UsbBridge where
  /-- `sdb_usb_queue_send` -/
  send : PriorityList SDBPacket.priority
  /-- `sdb_usb_queue_receive` -/
  receive : PriorityList SDBPacket.priority
  writer : UsbWriter
  /-- what the board has got and not answered, with the module that has sent it -/
  board : List (Nat × List UInt8)
  /-- the answers `mcs_to_usb` has sent itself, and to whom -/
  refused : List (MCSPacket × Nat)
  /-- for each answer of the board, the module that has sent the request and the one the answer has
  been sent to -/
  routed : List (Nat × Option Nat)

inductive UsbAct
  /-- module `m` has a command for the board -/
  | request (m : Nat) (pkt : MCSPacket)
  /-- `sdb_usb_thread_write` goes on -/
  | write
  /-- the board answers the request at place `k`, and `sdb_usb_thread_read` reads it -/
  | answer (k : Nat) (usbPacket : List UInt8)

/-! ## Steps -/

/-- The identifier in the last byte of a packet. -/
def usbId (usbPacket : List UInt8) : UInt32 := (usbPacket.getLastD 0 >>> 1).toUInt32

/-- An answer that `usb_to_mcs` understands and that has the identifier of the request. -/
def answersWithId (request usbPacket : List UInt8) : Bool :=
  match usbToMcs usbPacket with
  | some (some response) => response.id == usbId request
  | _ => false

/-- One iteration of `sdb_usb_thread_read`: the receive queue after it, and the module the answer is
sent to. -/
def sdbUsbThreadRead (receive : PriorityList SDBPacket.priority) (responseUsb : List UInt8) :
    Option (PriorityList SDBPacket.priority × Option Nat) :=
  match usbToMcs responseUsb with
  | none => none
  | some none => some (receive, none)
  | some (some response) =>
      let r := receive.take fun p => p.pkt.id == response.id
      some (r.1, r.2.map SDBPacket.idProcess)

namespace UsbBridge

/-- After `sdb_usb_init`. -/
def init : UsbBridge where
  send := .empty
  receive := .empty
  writer := .idle
  board := []
  refused := []
  routed := []

/-- What the board has got or is about to get, and has not answered. -/
def waiting (s : UsbBridge) : List (Nat × List UInt8) := s.board ++ s.writer.unwritten

/-- `write(fd_usb, usb_packet, usb_packet_size)`. -/
def handOver (s : UsbBridge) : UsbBridge := { s with board := s.waiting, writer := .idle }

/-- The next step of `sdb_usb_thread_write`. -/
def writeStep (t : MCSTables) (s : UsbBridge) : Option UsbBridge :=
  match s.writer with
  -- on an empty queue `sdb_queue_pop_block` waits, and follows NULL when it is woken up
  | .idle => s.send.pop?.map fun r => { s with send := r.1, writer := .popped r.2 }
  | .popped p =>
      match mcsToUsb t p.pkt with
      | none => none
      | some (.bytes usbPacket) => some { s with writer := .encoded p usbPacket }
      | some (.refused response) =>
          some { s with writer := .idle, refused := s.refused ++ [(response, p.idProcess)] }
  | .encoded p usbPacket =>
      some { s with receive := s.receive.push p, writer := .pushed p usbPacket }
  | .pushed _ _ => some s.handOver

def answer (s : UsbBridge) (k : Nat) (usbPacket : List UInt8) : Option UsbBridge :=
  match s.board[k]? with
  | none => none
  | some (m, request) =>
      if answersWithId request usbPacket then
        (sdbUsbThreadRead s.receive usbPacket).map fun r =>
          { s with
            receive := r.1
            board := s.board.eraseIdx k
            routed := s.routed ++ [(m, r.2)] }
      else
        none

def act (t : MCSTables) (group : Nat → SDBGroup) (s : UsbBridge) : UsbAct → Option UsbBridge
  | .request m pkt =>
      (sdbPacketPrio (group m) pkt m).map fun p => { s with send := s.send.push p }
  | .write => s.writeStep t
  | .answer k usbPacket => s.answer k usbPacket

def run (t : MCSTables) (group : Nat → SDBGroup) (s : UsbBridge) (acts : List UsbAct) :
    Option UsbBridge :=
  acts.foldlM (act t group) s

/-! ## What is asked of them -/

/-- Every answer so far has been sent to the module that has sent the request. -/
def Right (s : UsbBridge) : Prop := ∀ r ∈ s.routed, r.2 = some r.1

/-- Answers to some of the requests, in some order. -/
def answerAll (s : UsbBridge) (answers : List (Nat × List UInt8)) : Option UsbBridge :=
  answers.foldlM (fun s a => s.answer a.1 a.2) s

/-- In whatever order the board answers the requests that wait for it, every answer is sent to the
module that has sent the request. -/
def AnswersRouted (s : UsbBridge) : Prop :=
  ∀ answers s', s.handOver.answerAll answers = some s' → s'.Right

/-- The requests of different modules in the receive queue have different identifiers. -/
def Distinct (s : UsbBridge) : Prop :=
  ∀ p ∈ s.receive.values, ∀ q ∈ s.receive.values, p.pkt.id = q.pkt.id → p.idProcess = q.idProcess

/-! ## Requests and entries -/

/-- A request, as far as answers are concerned. -/
def key (p : SDBPacket) : Nat × UInt32 := (p.idProcess, p.pkt.id)

/-- The same for a request the board has got. -/
def boardKey (r : Nat × List UInt8) : Nat × UInt32 := (r.1, usbId r.2)

/-- Each entry of the receive queue stands for a request that waits for its answer. -/
def Matched (s : UsbBridge) : Prop :=
  (s.receive.values.map key).Perm (s.waiting.map boardKey)

/-- The packet that is about to be written has the identifier of its request. -/
def EncodedRight (s : UsbBridge) : Prop :=
  ∀ p usbPacket, s.writer = .encoded p usbPacket → boardKey (p.idProcess, usbPacket) = key p

/-- Unless an answer has gone astray, queue and board agree. -/
structure Inv (s : UsbBridge) : Prop where
  encoded : s.EncodedRight
  matched : s.Right → s.Matched

theorem inv_init : Inv init where
  encoded := nofun
  matched := fun _ => List.Perm.refl _

/-- Seven bits of an identifier arrive at the board. -/
theorem usbId_shift : ∀ n < 128,
    ((UInt32.ofNat n <<< 1).toUInt8 >>> 1).toUInt32 = UInt32.ofNat n := by
  decide +kernel

theorem usbId_mcsToUsb {t : MCSTables} {pkt : MCSPacket} {usbPacket : List UInt8}
    (h : mcsToUsb t pkt = some (.bytes usbPacket)) : usbId usbPacket = pkt.id := by
  rcases mcsToUsb_iff.1 h with ⟨_, _, hid, _, entry, _, hbytes⟩
  rcases usbPacket_iff.1 hbytes with ⟨_, _, hbytes⟩
  have hlast : ∃ front, usbPacket = front ++ [(pkt.id <<< 1).toUInt8] :=
    ⟨_ :: _ :: _ :: _ :: _ :: pkt.dataBytes, hbytes⟩
  rcases hlast with ⟨front, rfl⟩
  rw [usbId, List.getLastD_concat]
  have hlt : pkt.id.toNat < 128 := Nat.lt_succ_of_le (UInt32.le_iff_toNat_le.1 hid)
  simpa using usbId_shift pkt.id.toNat hlt

/-! ## An answer -/

section Answer

variable {s s' : UsbBridge} {k m : Nat} {id : UInt32} {request usbPacket : List UInt8}

/-- After an answer with this identifier to the request at place `k`, which `m` has sent. -/
def answered (s : UsbBridge) (k m : Nat) (id : UInt32) : UsbBridge :=
  let r := s.receive.take fun p => p.pkt.id == id
  { s with
    receive := r.1
    board := s.board.eraseIdx k
    routed := s.routed ++ [(m, r.2.map SDBPacket.idProcess)] }

/-- The entry an answer is matched with. -/
def found (s : UsbBridge) (id : UInt32) : Option SDBPacket :=
  s.receive.values.find? fun p => p.pkt.id == id

theorem answer_iff :
    s.answer k usbPacket = some s' ↔
      ∃ m request, s.board[k]? = some (m, request) ∧ answersWithId request usbPacket = true ∧
        s' = s.answered k m (usbId request) := by
  unfold answer
  cases hboard : s.board[k]? with
  | none => simp
  | some r =>
      rcases r with ⟨m, request⟩
      by_cases hid : answersWithId request usbPacket = true
      · -- the thread looks for the identifier of the response, which is that of the request
        have hread : sdbUsbThreadRead s.receive usbPacket =
            some ((s.receive.take fun p => p.pkt.id == usbId request).1,
              (s.found (usbId request)).map SDBPacket.idProcess) := by
          unfold answersWithId at hid
          split at hid
          case h_1 response hresponse =>
            simp only [sdbUsbThreadRead, hresponse, ← beq_iff_eq.1 hid]
            rfl
          case h_2 => cases hid
        simp only [hid, if_true, hread, Option.map_some, Option.some.injEq]
        constructor
        · rintro rfl
          exact ⟨m, request, rfl, hid, rfl⟩
        · rintro ⟨m', request', hsame, _, rfl⟩
          cases hsame
          rfl
      · constructor
        · simp [hid]
        · rintro ⟨m', request', hsame, hid', _⟩
          cases hsame
          exact absurd hid' hid

theorem right_answered_iff :
    (s.answered k m id).Right ↔ s.Right ∧ (s.found id).map SDBPacket.idProcess = some m := by
  simp [Right, answered, found, PriorityList.take, or_imp, forall_and]

/-- The request that is answered has an entry in the queue, so one with its identifier is found. -/
theorem Matched.exists_entry (h : s.Matched) (hwaiting : (m, request) ∈ s.waiting) :
    ∃ p ∈ s.receive.values, p.idProcess = m ∧ p.pkt.id = usbId request := by
  have hkey : boardKey (m, request) ∈ s.receive.values.map key :=
    h.mem_iff.2 (List.mem_map_of_mem hwaiting)
  rcases List.mem_map.1 hkey with ⟨p, hp, hpkey⟩
  exact ⟨p, hp, congrArg Prod.fst hpkey, congrArg Prod.snd hpkey⟩

theorem Matched.found_isSome (h : s.Matched) (hwaiting : (m, request) ∈ s.waiting) :
    ∃ q, s.found (usbId request) = some q ∧ q ∈ s.receive.values ∧ q.pkt.id = usbId request := by
  rcases h.exists_entry hwaiting with ⟨p, hp, _, hid⟩
  cases hfound : s.found (usbId request) with
  | none => exact absurd (List.find?_eq_none.1 hfound p hp) (by simp [hid])
  | some q =>
      have hq : (q.pkt.id == usbId request) = true :=
        List.find?_some (p := fun p : SDBPacket => p.pkt.id == usbId request) hfound
      exact ⟨q, rfl, List.mem_of_find?_eq_some hfound, beq_iff_eq.1 hq⟩

theorem mem_waiting (h : s.board[k]? = some (m, request)) : (m, request) ∈ s.waiting :=
  List.mem_append_left _ (List.mem_of_getElem? h)

/-- An answer that is sent to the right module takes the request and an entry like it away. -/
theorem Matched.answered (h : s.Matched) (hboard : s.board[k]? = some (m, request))
    (hfound : (s.found (usbId request)).map SDBPacket.idProcess = some m) :
    (s.answered k m (usbId request)).Matched := by
  rcases h.found_isSome (mem_waiting hboard) with ⟨q, hq, _, hid⟩
  have hm : q.idProcess = m := by simpa [hq] using hfound
  have hkey : key q = boardKey (m, request) := by simp [key, boardKey, hm, hid]
  have hqueue : (s.receive.values.map key).Perm
      (key q :: (s.answered k m (usbId request)).receive.values.map key) :=
    (PriorityList.values_take_perm hq).map key
  have hlt : k < s.board.length := (List.getElem?_eq_some_iff.1 hboard).1
  have hrequests : (s.waiting.map boardKey).Perm
      (boardKey (m, request) :: (s.answered k m (usbId request)).waiting.map boardKey) := by
    have hsplit : s.board.Perm ((m, request) :: s.board.eraseIdx k) := by
      have hat : s.board[k] = (m, request) := (List.getElem?_eq_some_iff.1 hboard).2
      rw [← hat]
      exact (List.getElem_cons_eraseIdx_perm hlt).symm
    exact (hsplit.append_right s.writer.unwritten).map boardKey
  refine List.Perm.cons_inv (a := key q) ?_
  exact hqueue.symm.trans (h.trans (hkey ▸ hrequests))

/-- When the identifiers of different modules differ, the entry that is found is one of the module
that has sent the request. -/
theorem Distinct.found_eq (hdistinct : s.Distinct) (h : s.Matched)
    (hwaiting : (m, request) ∈ s.waiting) :
    (s.found (usbId request)).map SDBPacket.idProcess = some m := by
  rcases h.exists_entry hwaiting with ⟨p, hp, hpm, hpid⟩
  rcases h.found_isSome hwaiting with ⟨q, hq, hmem, hqid⟩
  have hsame : q.idProcess = p.idProcess := hdistinct q hmem p hp (hqid.trans hpid.symm)
  simp [hq, hsame, hpm]

theorem Distinct.answered (h : s.Distinct) : (s.answered k m id).Distinct := by
  have hsub : ∀ p ∈ (s.answered k m id).receive.values, p ∈ s.receive.values := by
    intro p hp
    rw [UsbBridge.answered, PriorityList.values_take] at hp
    exact List.mem_of_mem_eraseP hp
  exact fun p hp q hq hid => h p (hsub p hp) q (hsub q hq) hid

end Answer

/-! ## Runs -/

section Runs

variable {t : MCSTables} {group : Nat → SDBGroup} {s s' : UsbBridge} {a : UsbAct}

/-- At most one operation on a queue. -/
inductive QueueStep (S S' : PriorityList SDBPacket.priority) : Prop
  | same : S' = S → QueueStep S S'
  | push (p : SDBPacket) : S' = S.push p → QueueStep S S'
  | get (id : UInt32) : S' = (S.take fun p => p.pkt.id == id).1 → QueueStep S S'
  | pop (p : SDBPacket) : S.pop? = some (S', p) → QueueStep S S'

/-- What a step does.  Everything but the push and the answers leaves the receive queue, the
requests that wait and what has been routed as they are. -/
inductive UsbEffect (s s' : UsbBridge) : Prop
  | other : QueueStep s.send s'.send → s'.receive = s.receive → s'.waiting = s.waiting →
      s'.routed = s.routed → s'.EncodedRight → UsbEffect s s'
  | push (p : SDBPacket) (usbPacket : List UInt8) : s.writer = .encoded p usbPacket →
      s' = { s with receive := s.receive.push p, writer := .pushed p usbPacket } → UsbEffect s s'
  | answer (k m : Nat) (request : List UInt8) : s.board[k]? = some (m, request) →
      s' = s.answered k m (usbId request) → UsbEffect s s'

theorem act_effect (hencoded : s.EncodedRight) (h : s.act t group a = some s') :
    UsbEffect s s' := by
  cases a with
  | request m pkt =>
      rcases Option.map_eq_some_iff.1 h with ⟨p, _, rfl⟩
      exact .other (.push p rfl) rfl rfl rfl hencoded
  | answer k usbPacket =>
      rcases answer_iff.1 h with ⟨m, request, hboard, _, rfl⟩
      exact .answer k m request hboard rfl
  | write =>
      simp only [act, writeStep] at h
      cases hwriter : s.writer with
      | idle =>
          simp only [hwriter] at h
          rcases Option.map_eq_some_iff.1 h with ⟨r, hpop, rfl⟩
          exact .other (.pop r.2 hpop) rfl (by simp [waiting, hwriter, UsbWriter.unwritten]) rfl
            nofun
      | popped p =>
          simp only [hwriter] at h
          split at h
          case h_1 => cases h
          case h_2 usbPacket hbytes =>
            cases h
            refine .other (.same rfl) rfl (by simp [waiting, hwriter, UsbWriter.unwritten]) rfl ?_
            intro p' usbPacket' hsame
            cases hsame
            simp [boardKey, key, usbId_mcsToUsb hbytes]
          case h_3 response hresponse =>
            cases h
            exact .other (.same rfl) rfl (by simp [waiting, hwriter, UsbWriter.unwritten]) rfl
              nofun
      | encoded p usbPacket =>
          simp only [hwriter] at h
          cases h
          exact .push p usbPacket hwriter rfl
      | pushed p usbPacket =>
          simp only [hwriter] at h
          cases h
          exact .other (.same rfl) rfl (by simp [handOver, waiting, UsbWriter.unwritten]) rfl nofun

/-- What has been routed stays. -/
theorem UsbEffect.right (heffect : UsbEffect s s') (h : s'.Right) : s.Right := by
  cases heffect with
  | other _ _ _ hrouted => simpa [Right, hrouted] using h
  | push p usbPacket _ heq => simpa [Right, heq] using h
  | answer k m request _ heq =>
      subst heq
      exact (right_answered_iff.1 h).1

theorem UsbEffect.matched (heffect : UsbEffect s s') (hencoded : s.EncodedRight)
    (hmatched : s.Matched) (hright : s'.Right) : s'.Matched := by
  cases heffect with
  | other _ hreceive hwaiting => simpa [Matched, hreceive, hwaiting] using hmatched
  | push p usbPacket hwriter heq =>
      subst heq
      -- the new entry and the packet that is about to be written
      have hkey := hencoded p usbPacket hwriter
      have hqueue : ((s.receive.push p).values.map key).Perm
          (key p :: s.receive.values.map key) := (s.receive.values_push_perm p).map key
      have hwaiting : s.waiting = s.board := by simp [waiting, hwriter, UsbWriter.unwritten]
      rw [Matched, hwaiting] at hmatched
      refine hqueue.trans ((hmatched.cons (key p)).trans ?_)
      simp only [waiting, UsbWriter.unwritten, List.map_append, List.map_cons, List.map_nil, hkey]
      exact (List.perm_append_singleton _ _).symm
  | answer k m request hboard heq =>
      subst heq
      exact hmatched.answered hboard (right_answered_iff.1 hright).2

theorem UsbEffect.encodedRight (heffect : UsbEffect s s') (h : s.EncodedRight) :
    s'.EncodedRight := by
  cases heffect with
  | other _ _ _ _ h' => exact h'
  | push p usbPacket _ heq =>
      subst heq
      exact nofun
  | answer k m request _ heq =>
      subst heq
      exact h

theorem Inv.act (hinv : s.Inv) (h : s.act t group a = some s') : s'.Inv := by
  have heffect := act_effect hinv.encoded h
  exact ⟨heffect.encodedRight hinv.encoded, fun hright =>
    heffect.matched hinv.encoded (hinv.matched (heffect.right hright)) hright⟩

theorem inv_of_run {acts : List UsbAct} (h : init.run t group acts = some s) : s.Inv :=
  run_invariant (fun hinv hact => hinv.act hact) inv_init h

/-! ### The linked queues -/

/-- An operation on the priority list is one on the linked queue behind it. -/
theorem represented_of_spec {q : SDBQueue} {S S' : PriorityList SDBPacket.priority}
    {out : Option SDBPacket} (hq : Represents q S) (op : QueueOp) (henabled : op.Enabled q)
    (hspec : op.spec S = some (S', out)) :
    ∃ q', Represents q' S' ∧ (q' = q ∨ ∃ op out, QueueOp.exec q op = some (q', out)) := by
  rcases exec_refines hq henabled with ⟨q', S₁, out₁, hexec, hspec₁, hq'⟩
  rw [hspec] at hspec₁
  cases hspec₁
  exact ⟨q', hq', Or.inr ⟨op, out, hexec⟩⟩

/-- A list with something to pop is behind a queue with a first element. -/
theorem queueFirst_ne_none {q : SDBQueue} {S S' : PriorityList SDBPacket.priority} {p : SDBPacket}
    (hq : Represents q S) (hpop : S.pop? = some (S', p)) : q.queueFirst ≠ none := by
  rcases hq with ⟨cells, hcells, hvalues⟩
  rw [hcells.first, Ne, firstPtr_none_iff]
  rintro rfl
  simp [PriorityList.pop?, ← hvalues] at hpop

/-- The linked queue follows the list, `queueElem` being the address of the next `malloc`. -/
theorem QueueStep.represented {q : SDBQueue} {S S' : PriorityList SDBPacket.priority}
    {queueElem : Nat} (h : QueueStep S S') (hq : Represents q S)
    (hfree : q.heap queueElem = none) :
    ∃ q', Represents q' S' ∧ (q' = q ∨ ∃ op out, QueueOp.exec q op = some (q', out)) := by
  cases h with
  | same heq => exact ⟨q, heq ▸ hq, Or.inl rfl⟩
  | push p heq =>
      subst heq
      exact represented_of_spec hq (.push queueElem p) hfree rfl
  | get id heq =>
      subst heq
      exact represented_of_spec hq (.get (mcsOkPacketId id)) trivial rfl
  | pop p hpop =>
      have hspec : QueueOp.pop.spec S = some (S', some p) := by simp [QueueOp.spec, hpop]
      exact represented_of_spec hq .pop (queueFirst_ne_none hq hpop) hspec

/-- A step of the threads is at most one operation on each of the two queues of the code. -/
theorem act_represented {send receive : SDBQueue} {queueElem queueElem' : Nat}
    (hencoded : s.EncodedRight) (h : s.act t group a = some s')
    (hsend : Represents send s.send) (hfree : send.heap queueElem = none)
    (hreceive : Represents receive s.receive) (hfree' : receive.heap queueElem' = none) :
    (∃ q, Represents q s'.send ∧ (q = send ∨ ∃ op out, QueueOp.exec send op = some (q, out))) ∧
      ∃ q, Represents q s'.receive ∧
        (q = receive ∨ ∃ op out, QueueOp.exec receive op = some (q, out)) := by
  have hsteps : QueueStep s.send s'.send ∧ QueueStep s.receive s'.receive := by
    cases act_effect hencoded h with
    | other hstep hsame => exact ⟨hstep, .same hsame⟩
    | push p usbPacket _ heq =>
        subst heq
        exact ⟨.same rfl, .push p rfl⟩
    | answer k m request _ heq =>
        subst heq
        exact ⟨.same rfl, .get (usbId request) rfl⟩
  exact ⟨hsteps.1.represented hsend hfree, hsteps.2.represented hreceive hfree'⟩

/-! ### Distinct identifiers -/

/-- A step from a state with distinct identifiers sends no answer astray. -/
theorem Distinct.right_act (hdistinct : s.Distinct) (hinv : s.Inv) (hright : s.Right)
    (h : s.act t group a = some s') : s'.Right := by
  cases act_effect hinv.encoded h with
  | other _ _ _ hrouted => simpa [Right, hrouted] using hright
  | push p usbPacket _ heq => simpa [Right, heq] using hright
  | answer k m request hboard heq =>
      subst heq
      have hfound := hdistinct.found_eq (hinv.matched hright) (mem_waiting hboard)
      exact right_answered_iff.2 ⟨hright, hfound⟩

/-- Nor does any number of answers. -/
theorem Distinct.right_answerAll (hdistinct : s.Distinct) (hmatched : s.Matched)
    (hright : s.Right) {answers : List (Nat × List UInt8)} (h : s.answerAll answers = some s') :
    s'.Right := by
  have hall : s'.Distinct ∧ s'.Matched ∧ s'.Right := by
    refine run_invariant (I := fun s => s.Distinct ∧ s.Matched ∧ s.Right) ?_
      ⟨hdistinct, hmatched, hright⟩ h
    rintro s s' a ⟨hdistinct, hmatched, hright⟩ hact
    rcases answer_iff.1 hact with ⟨m, request, hboard, _, rfl⟩
    have hfound := hdistinct.found_eq hmatched (mem_waiting hboard)
    exact ⟨hdistinct.answered, hmatched.answered hboard hfound,
      right_answered_iff.2 ⟨hright, hfound⟩⟩
  exact hall.2.2

/-- The answer OK with the identifier of a request. -/
def okAnswer (request : List UInt8) : List UInt8 := [1, 1, 1, 1, 1, request.getLastD 0]

theorem answersWithId_okAnswer (request : List UInt8) :
    answersWithId request (okAnswer request) = true := by
  have hread : usbToMcs (okAnswer request) = some (some (mcsOkPacketId (usbId request))) := rfl
  simp [answersWithId, hread, mcsOkPacketId]

theorem handOver_waiting : s.handOver.waiting = s.waiting := by
  simp [handOver, waiting, UsbWriter.unwritten]

theorem Matched.handOver (h : s.Matched) : s.handOver.Matched := by
  rw [Matched, handOver_waiting]
  exact h

/-- The board answers the request of one entry, and another one is found. -/
theorem AnswersRouted.found_eq (h : s.AnswersRouted) (hmatched : s.Matched) {p first : SDBPacket}
    (hp : p ∈ s.receive.values) (hfirst : s.found p.pkt.id = some first) :
    first.idProcess = p.idProcess := by
  -- the entry stands for a request that the board gets
  have hkey : key p ∈ s.waiting.map boardKey := hmatched.mem_iff.1 (List.mem_map_of_mem hp)
  rcases List.mem_map.1 hkey with ⟨⟨m, request⟩, hwaiting, hsame⟩
  have hm : m = p.idProcess := congrArg Prod.fst hsame
  have hid : usbId request = p.pkt.id := congrArg Prod.snd hsame
  rcases List.mem_iff_getElem?.1 hwaiting with ⟨k, hk⟩
  have hanswer : s.handOver.answer k (okAnswer request) =
      some (s.handOver.answered k m (usbId request)) :=
    answer_iff.2 ⟨m, request, hk, answersWithId_okAnswer request, rfl⟩
  have hright := h [(k, okAnswer request)] (s.handOver.answered k m (usbId request))
    (by simp [answerAll, hanswer])
  have hfound : (s.found (usbId request)).map SDBPacket.idProcess = some m :=
    (right_answered_iff.1 hright).2
  simpa [hid, hfirst, hm] using hfound

/-- When two modules have the same identifier, the board can answer the one that is not found. -/
theorem AnswersRouted.distinct (h : s.AnswersRouted) (hmatched : s.Matched) : s.Distinct := by
  intro p hp q hq hid
  cases hfirst : s.found p.pkt.id with
  | none => exact absurd (List.find?_eq_none.1 hfirst p hp) (by simp)
  | some first =>
      have hfirst' : s.found q.pkt.id = some first := by rw [← hid, hfirst]
      exact (h.found_eq hmatched hp hfirst).symm.trans (h.found_eq hmatched hq hfirst')

/-- At every point of a run the answers go to the modules that have sent the requests, in whatever
order the board gives them, exactly when at every point the requests of different modules that wait
for an answer have different identifiers. -/
theorem answersRouted_iff (t : MCSTables) (group : Nat → SDBGroup) (acts : List UsbAct) :
    (∀ pre post s, acts = pre ++ post → init.run t group pre = some s → s.AnswersRouted) ↔
      ∀ pre post s, acts = pre ++ post → init.run t group pre = some s → s.Distinct := by
  constructor
  · intro h pre post s hsplit hrun
    have hrouted := h pre post s hsplit hrun
    have hright : s.Right := hrouted [] s.handOver rfl
    exact hrouted.distinct ((inv_of_run hrun).matched hright)
  · intro h pre post s hsplit hrun
    have hboth : s.Inv ∧ s.Right := by
      refine run_invariant_of (I := fun s => s.Inv ∧ s.Right) (C := fun s _ => s.Distinct)
        ?_ ⟨inv_init, by simp [Right, init]⟩ ?_ hrun
      · rintro s s' a ⟨hinv, hright⟩ hdistinct hact
        exact ⟨hinv.act hact, hdistinct.right_act hinv hright hact⟩
      · intro pre' a post' u hsplit' hrun'
        exact h pre' (a :: post' ++ post) u (by simp [hsplit, hsplit']) hrun'
    intro answers s' hanswers
    have hdistinct : s.handOver.Distinct := h pre post s hsplit hrun
    exact hdistinct.right_answerAll (hboth.1.matched hboth.2).handOver hboth.2 hanswers

/-- Two modules draw different random numbers, and the seven bits that are kept of them are the
same; the second module has the higher priority. -/
def sameIdentifier : Option (List UsbAct) := do
  let pkt ← mcsCreatePacket commandSet 5 0x20000 (byteBlock 5) emptyBlock
  let pkt' ← mcsCreatePacket commandSet 133 0x20000 (byteBlock 6) emptyBlock
  some [.request 0 pkt, .write, .write, .write, .write, .request 1 pkt', .write, .write, .write,
    .write, .answer 0 [1, 1, 1, 1, 1, 10]]

/-- The answer to the first module is sent to the second one. -/
theorem answer_sent_to_another_module :
    ∃ acts s, sameIdentifier = some acts ∧
      init.run commandSet (fun m => if m = 0 then .syscore else .app) acts = some s ∧
      s.routed = [(0, some 1)] ∧ ¬ s.Right := by
  have hrun : (sameIdentifier.any fun acts =>
      (init.run commandSet (fun m => if m = 0 then .syscore else .app) acts).any fun s =>
        s.routed = [(0, some 1)]) = true := by
    decide +kernel
  rcases (Option.any_eq_true _ _).1 hrun with ⟨acts, hacts, hrun⟩
  rcases (Option.any_eq_true _ _).1 hrun with ⟨s, hs, hrouted⟩
  have hrouted : s.routed = [(0, some 1)] := of_decide_eq_true hrouted
  refine ⟨acts, s, hacts, hs, hrouted, ?_⟩
  simp [Right, hrouted]

end Runs

end UsbBridge

end SDB
end AbsPlatform
