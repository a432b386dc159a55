import AbsPlatform.Include
import AbsPlatform.Lib.DoublyLinked

/-!
# Queue — the doubly linked queue of `SDB/sdb_queue.c`

The functions work on a heap of queue elements; `none` is a fault (a pointer that leads nowhere
has been followed) or a loop that did not end within its fuel.  The address `malloc` returns is an
argument of the push: any address that is not in use, freed ones included.  The number of elements
ever allocated is kept beside the queue and is the fuel of its loops.
-/

namespace AbsPlatform
namespace SDB

open Lib

structure SDBPacket where
  idProcess : Nat
  priority : Int
  pkt : MCSPacket
  deriving DecidableEq

/-- `sdb_packet`: the default priority is 0. -/
def sdbPacket (pkt : MCSPacket) (id : Nat) : SDBPacket where
  idProcess := id
  priority := 0
  pkt := pkt

/-- `sdb_packet_prio` for a module of this group; reading past the table is a fault. -/
def sdbPacketPrio (group : SDBGroup) (pkt : MCSPacket) (id : Nat) : Option SDBPacket :=
  (sdbGroupPriority[group.val]?).map fun priority =>
    { idProcess := id, priority := priority, pkt := pkt }

structure SDBQueue where
  heap : Heap SDBPacket
  queueFirst : Option Nat
  queueLast : Option Nat
  /-- elements allocated so far, a bound for the loops -/
  allocated : Nat

def sdbQueueInit : SDBQueue where
  heap := fun _ => none
  queueFirst := none
  queueLast := none
  allocated := 0

namespace SDBQueue

def setPrev (q : SDBQueue) (a : Nat) (p : Option Nat) : Option SDBQueue :=
  (q.heap.setPrev a p).map fun h => { q with heap := h }

def setNext (q : SDBQueue) (a : Nat) (n : Option Nat) : Option SDBQueue :=
  (q.heap.setNext a n).map fun h => { q with heap := h }

/-- `if (p == NULL) queue->queue_first = n; else p->next = n;` -/
def linkNext (q : SDBQueue) (p n : Option Nat) : Option SDBQueue :=
  match p with
  | none => some { q with queueFirst := n }
  | some a => q.setNext a n

/-- `if (n == NULL) queue->queue_last = p; else n->prev = p;` -/
def linkPrev (q : SDBQueue) (n p : Option Nat) : Option SDBQueue :=
  match n with
  | none => some { q with queueLast := p }
  | some a => q.setPrev a p

end SDBQueue

/-- `sdb_queue_delete`. -/
def sdbQueueDelete (q : SDBQueue) (queueElem : Nat) : Option SDBQueue := do
  let elem ← q.heap queueElem
  let q ← q.linkNext elem.prev elem.next
  let elem ← q.heap queueElem
  let q ← q.linkPrev elem.next elem.prev
  -- `free(queue_elem)`
  some { q with heap := q.heap.put queueElem none }

/-- The body of the loop of `sdb_queue_push_nolock`: `queue_elem` changes places with the element
`queue_tmp` in front of it. -/
def swap (q : SDBQueue) (queueElem queueTmp : Nat) : Option SDBQueue := do
  let tmp ← q.heap queueTmp
  -- the order of the assignments is that of the source; each one reads the heap as it is then
  let q ← q.setPrev queueElem tmp.prev
  let elem ← q.heap queueElem
  let q ← q.linkNext elem.prev (some queueElem)
  let elem ← q.heap queueElem
  let q ← q.setNext queueTmp elem.next
  let tmp ← q.heap queueTmp
  let q ← q.linkPrev tmp.next (some queueTmp)
  let q ← q.setPrev queueTmp (some queueElem)
  q.setNext queueElem (some queueTmp)

/-- The loop of `sdb_queue_push_nolock`. -/
def bubble : Nat → SDBQueue → Nat → Option SDBQueue
  | 0, _, _ => none
  | fuel + 1, q, queueElem =>
      match q.heap queueElem with
      | none => none
      | some elem =>
          match elem.prev with
          | none => some q
          | some queueTmp =>
              match q.heap queueTmp with
              | none => none
              | some tmp =>
                  -- strictly: elements of one priority stay in the order they came in
                  if elem.val.priority > tmp.val.priority then
                    (swap q queueElem queueTmp).bind fun q => bubble fuel q queueElem
                  else
                    some q

/-- `sdb_queue_push_nolock` up to its loop: the new element is appended. -/
def append (q : SDBQueue) (queueElem : Nat) (sdbPkt : SDBPacket) : Option SDBQueue :=
  let q : SDBQueue :=
    { q with
      heap := q.heap.put queueElem (some { val := sdbPkt, prev := none, next := none })
      allocated := q.allocated + 1 }
  match q.queueFirst with
  | none => some { q with queueFirst := some queueElem, queueLast := some queueElem }
  | some _ => do
      let q ← q.setPrev queueElem q.queueLast
      let last ← q.queueLast
      let q ← q.setNext last (some queueElem)
      some { q with queueLast := some queueElem }

/-- `sdb_queue_push_nolock`, `queue_elem` being the address `malloc` returned. -/
def sdbQueuePushNolock (q : SDBQueue) (queueElem : Nat) (sdbPkt : SDBPacket) :
    Option SDBQueue := do
  let q ← append q queueElem sdbPkt
  bubble q.allocated q queueElem

/-- The search loop of `sdb_queue_get_nolock`. -/
def search (q : SDBQueue) (id : UInt32) : Option (Option Nat) :=
  q.heap.findFrom (fun sdbPkt => sdbPkt.pkt.id == id) (q.allocated + 1) q.queueFirst

/-- `sdb_queue_get_nolock`: the queue after it and the packet it returns. -/
def sdbQueueGetNolock (q : SDBQueue) (answer : MCSPacket) :
    Option (SDBQueue × Option SDBPacket) :=
  match search q answer.id with
  | none => none
  | some none => some (q, none)
  | some (some a) => do
      let elem ← q.heap a
      let q ← sdbQueueDelete q a
      some (q, some elem.val)

/-- `sdb_queue_pop_block` on a queue that is not empty: the front element. -/
def sdbQueuePop (q : SDBQueue) : Option (SDBQueue × SDBPacket) := do
  let a ← q.queueFirst
  let elem ← q.heap a
  let q ← sdbQueueDelete q a
  some (q, elem.val)

end SDB
end AbsPlatform
