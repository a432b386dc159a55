import AbsPlatform.Lib.SinglyLinked
import AbsPlatform.MCS.Packet
import AbsPlatform.SDB.Qos

/-!
# QosBuckets — the event log as linked lists shared by threads

`register_event` and `sdb_qos_dump_module` on the cells of `qos_table`, with every thread taken
from one lock operation to the next: the part up to `pthread_mutex_lock(&ei_lock)` is a step and
the critical section is a step.  The threads are those of the modules and each one logs for its own
module, so a call is found by the number of its module.

The lists refine the table of `Qos`, and over any run every dump prints what its module logged
since its last one.
-/

namespace AbsPlatform
namespace SDB

open Lib

structure SDBQOSStoreEventIndex where
  eiFirst : Option Nat
  eiLast : Option Nat

/-- `qos_table` and the heap of events. -/
structure QOSStore where
  heap : Cells SDBQOSStoreEvent
  qosTable : Nat → SDBQOSStoreEventIndex
  /-- events linked so far, a bound for the loop -/
  linked : Nat

namespace QOSStore

def setIndex (s : QOSStore) (hash : Nat) (index : SDBQOSStoreEventIndex) : QOSStore :=
  { s with qosTable := Function.update s.qosTable hash index }

/-- The critical section of `register_event`. -/
def link (s : QOSStore) (hash storeEvent : Nat) : Option QOSStore :=
  let linked := s.linked + 1
  match (s.qosTable hash).eiLast with
  | some last =>
      match s.heap.setNext last (some storeEvent) with
      | none => none
      | some heap =>
          some ({ s with heap := heap, linked := linked }.setIndex hash
            { s.qosTable hash with eiLast := some storeEvent })
  | none =>
      some ({ s with linked := linked }.setIndex hash
        { eiFirst := some storeEvent, eiLast := some storeEvent })

/-- What the loop of `sdb_qos_dump_module` works on. -/
structure Dump where
  heap : Cells SDBQOSStoreEvent
  eiFirst : Option Nat
  oldEvent : Option Nat
  output : List UInt8

/-- The loop of `sdb_qos_dump_module`, from `event` on. -/
def dumpLoop (agent : Nat) : Nat → Dump → Option Nat → Option Dump
  | 0, _, _ => none
  | _ + 1, d, none => some d
  | fuel + 1, d, some event =>
      match d.heap event with
      | none => none
      | some cur =>
          if cur.val.seAgent = agent then
            match d.heap.redirect d.eiFirst d.oldEvent cur.next with
            | none => none
            | some (heap, first) =>
                dumpLoop agent fuel
                  { d with
                    -- `free(cur_event)`
                    heap := heap.put event none
                    eiFirst := first
                    output := d.output ++ cur.val.text }
                  cur.next
          else
            dumpLoop agent fuel { d with oldEvent := some event } cur.next

/-- The critical section of `sdb_qos_dump_module` for an agent: the store after it and the text that
has been printed. -/
def dumpModule (s : QOSStore) (agent : Nat) : Option (QOSStore × List UInt8) :=
  let hash := tableHash agent
  let first := (s.qosTable hash).eiFirst
  match dumpLoop agent (s.linked + 1)
      { heap := s.heap, eiFirst := first, oldEvent := none, output := [] } first with
  | none => none
  | some d =>
      some ({ s with heap := d.heap }.setIndex hash
        { eiFirst := d.eiFirst, eiLast := d.oldEvent }, d.output)

end QOSStore

/-! ## Threads -/

/-- Where the thread of a module is. -/
inductive QosPC
  | ready
  /-- in `register_event`, in front of the lock -/
  | registering (storeEvent : Nat)
  /-- in `sdb_qos_dump_module`, in front of the lock -/
  | dumping
  deriving DecidableEq

/-- What is logged and what is dumped, in the order of the critical sections. -/
inductive QosObs
  | registered (event : SDBQOSStoreEvent)
  | dumped (agent : Nat) (text : List UInt8)

structure QosThreads where
  store : QOSStore
  qosEnabled : Nat → Bool
  pc : Nat → QosPC
  trace : List QosObs

inductive QosAct
  | start (m : Nat)
  | stop (m : Nat)
  /-- a call of `register_event`, for which `malloc` returns an address -/
  | register (m storeEvent : Nat) (time : UInt64) (event : SDBQOSEvent) (pkt : MCSPacket)
  | link (m : Nat)
  /-- a call of `sdb_qos_dump_module` -/
  | dump (m : Nat)
  | collect (m : Nat)

namespace QosThreads

/-- After `sdb_qos_init`. -/
def init (qosEnabled : Nat → Bool) : QosThreads where
  store := { heap := fun _ => none, qosTable := fun _ => ⟨none, none⟩, linked := 0 }
  qosEnabled := qosEnabled
  pc := fun _ => .ready
  trace := []

def setPc (s : QosThreads) (m : Nat) (pc : QosPC) : QosThreads :=
  { s with pc := Function.update s.pc m pc }

/-- One step; `none` when the thread is elsewhere, or for a fault. -/
def act (s : QosThreads) : QosAct → Option QosThreads
  | .start m =>
      if s.pc m = .ready then
        some { s with qosEnabled := Function.update s.qosEnabled m true }
      else none
  | .stop m =>
      if s.pc m = .ready then
        some { s with qosEnabled := Function.update s.qosEnabled m false }
      else none
  | .register m storeEvent time event pkt =>
      if s.pc m = .ready then
        if s.qosEnabled m then
          -- `malloc` does not return memory in use
          match s.store.heap storeEvent with
          | some _ => none
          | none =>
              let stored : SDBQOSStoreEvent :=
                { seEvent := event, seData := mcsPacketToQosMcs pkt, seT := time, seAgent := m }
              let cell : Cell SDBQOSStoreEvent := { val := stored, next := none }
              let heap := s.store.heap.put storeEvent (some cell)
              some ({ s with store := { s.store with heap := heap } }.setPc m
                (.registering storeEvent))
        else
          some s
      else none
  | .link m =>
      match s.pc m with
      | .registering storeEvent =>
          match s.store.heap storeEvent, s.store.link (tableHash m) storeEvent with
          | some cell, some store =>
              let trace := s.trace ++ [QosObs.registered cell.val]
              some ({ s with store := store, trace := trace }.setPc m .ready)
          | _, _ => none
      | _ => none
  | .dump m =>
      if s.pc m = .ready then
        if s.qosEnabled m then
          some (s.setPc m .dumping)
        else
          -- `return -1`
          some s
      else none
  | .collect m =>
      match s.pc m with
      | .dumping =>
          match s.store.dumpModule m with
          | some (store, text) =>
              let trace := s.trace ++ [QosObs.dumped m text]
              some ({ s with store := store, trace := trace }.setPc m .ready)
          | none => none
      | _ => none

def run : QosThreads → List QosAct → Option QosThreads
  | s, [] => some s
  | s, a :: acts => (s.act a).bind fun s => run s acts

end QosThreads

/-- The events an agent logged since its last dump, by what happened so far. -/
def pendingEvents (trace : List QosObs) (agent : Nat) : List SDBQOSStoreEvent :=
  trace.foldl (fun events o =>
    match o with
    | .registered event => if event.seAgent = agent then events ++ [event] else events
    | .dumped m _ => if m = agent then [] else events) []

/-! ## The lists and the table -/

/-- The cells of every list. -/
abbrev Buckets := Nat → List (Nat × SDBQOSStoreEvent)

def Buckets.table (b : Buckets) : QOSTable := fun hash => (b hash).map Prod.snd

namespace QOSStore

/-- The store holds these cells, with `ei_first` and `ei_last` at the ends of each list. -/
structure Holds (s : QOSStore) (b : Buckets) : Prop where
  lists : Family s.heap (fun hash => (s.qosTable hash).eiFirst)
    (fun hash => (s.qosTable hash).eiLast) b
  count : ∀ hash, (b hash).length ≤ s.linked

theorem link_eq_redirect (s : QOSStore) (hash storeEvent : Nat) :
    s.link hash storeEvent =
      (s.heap.redirect (s.qosTable hash).eiFirst (s.qosTable hash).eiLast (some storeEvent)).map
        fun r => { s with heap := r.1, linked := s.linked + 1 }.setIndex hash
          { eiFirst := r.2, eiLast := some storeEvent } := by
  unfold link
  cases hlast : (s.qosTable hash).eiLast with
  | none => rfl
  | some last =>
      cases hset : s.heap.setNext last (some storeEvent) with
      | none => simp [Cells.redirect, hset]
      | some heap => simp [Cells.redirect, hset]

/-- Both pointers of one list are written. -/
theorem Holds.setIndex {s : QOSStore} {b : Buckets} {hash : Nat} {heap : Cells SDBQOSStoreEvent}
    {linked : Nat} {first last : Option Nat}
    (hlists : Family heap (Function.update (fun hash => (s.qosTable hash).eiFirst) hash first)
      (Function.update (fun hash => (s.qosTable hash).eiLast) hash last) b)
    (hcount : ∀ hash, (b hash).length ≤ linked) :
    ({ s with heap := heap, linked := linked }.setIndex hash
      { eiFirst := first, eiLast := last }).Holds b := by
  refine ⟨?_, hcount⟩
  have hfirst : (fun hash' => (Function.update s.qosTable hash ⟨first, last⟩ hash').eiFirst) =
      Function.update (fun hash => (s.qosTable hash).eiFirst) hash first :=
    funext fun hash' => Function.apply_update (fun _ => SDBQOSStoreEventIndex.eiFirst) _ _ _ hash'
  have hlast : (fun hash' => (Function.update s.qosTable hash ⟨first, last⟩ hash').eiLast) =
      Function.update (fun hash => (s.qosTable hash).eiLast) hash last :=
    funext fun hash' => Function.apply_update (fun _ => SDBQOSStoreEventIndex.eiLast) _ _ _ hash'
  simpa only [QOSStore.setIndex, hfirst, hlast] using hlists

/-- The critical section of `register_event` appends the event to its list. -/
theorem Holds.link {s : QOSStore} {b : Buckets} (h : s.Holds b) (hash : Nat) {a : Nat}
    {event : SDBQOSStoreEvent} (ha : s.heap a = some { val := event, next := none })
    (hnot : ∀ hash, a ∉ addrs (b hash)) :
    ∃ s', s.link hash a = some s' ∧ s'.Holds (Function.update b hash (b hash ++ [(a, event)])) ∧
      ∀ c, c ∉ addrs (b hash) → s'.heap c = s.heap c := by
  rcases h.lists.append hash ha hnot with ⟨heap, p, hredirect, hlists, hsame⟩
  rw [link_eq_redirect, hredirect]
  refine ⟨_, rfl, Holds.setIndex hlists ?_, hsame⟩
  intro hash'
  by_cases hh : hash' = hash
  · subst hh
    simpa using h.count hash'
  · simpa [hh] using Nat.le_succ_of_le (h.count hash')

/-! ## The dump -/

/-- The events of one agent in a list of cells, and the others. -/
def ofAgent (agent : Nat) (cells : List (Nat × SDBQOSStoreEvent)) :
    List (Nat × SDBQOSStoreEvent) :=
  cells.filter fun c => c.2.seAgent = agent

def notOfAgent (agent : Nat) (cells : List (Nat × SDBQOSStoreEvent)) :
    List (Nat × SDBQOSStoreEvent) :=
  cells.filter fun c => c.2.seAgent ≠ agent

/-- The loop goes over `kept ++ rest`, of which it has passed `kept`.  It prints the events of the
agent in `rest` and takes them out. -/
theorem dumpLoop_spec (agent : Nat) {rest : List (Nat × SDBQOSStoreEvent)} :
    ∀ (fuel : Nat) (d : Dump) (kept : List (Nat × SDBQOSStoreEvent)),
      Chain d.heap (kept ++ rest) none → (addrs (kept ++ rest)).Nodup →
      d.eiFirst = firstPtr (kept ++ rest) none → d.oldEvent = lastPtr none kept →
      rest.length < fuel →
      ∃ heap, dumpLoop agent fuel d (firstPtr rest none) = some
          { heap := heap
            eiFirst := firstPtr (kept ++ notOfAgent agent rest) none
            oldEvent := lastPtr none (kept ++ notOfAgent agent rest)
            output := d.output ++ (ofAgent agent rest).flatMap fun c => c.2.text } ∧
        Chain heap (kept ++ notOfAgent agent rest) none ∧
        ∀ a, a ∉ addrs (kept ++ rest) → heap a = d.heap a := by
  induction rest with
  | nil =>
      intro fuel d kept hchain _ hfirst hold hfuel
      cases fuel with
      | zero => simp at hfuel
      | succ fuel =>
          refine ⟨d.heap, ?_, by simpa [notOfAgent] using hchain, fun _ _ => rfl⟩
          simp only [List.append_nil] at hfirst
          simp [dumpLoop, notOfAgent, ofAgent, ← hold, ← hfirst]
  | cons c rest ih =>
      intro fuel d kept hchain hnodup hfirst hold hfuel
      cases fuel with
      | zero => simp at hfuel
      | succ fuel =>
          have hfuel' : rest.length < fuel := Nat.lt_of_succ_lt_succ hfuel
          have hc := (chain_append.1 hchain).2.1
          by_cases hagent : c.2.seAgent = agent
          · -- the cell is unlinked behind the kept ones
            rcases hchain.unlink hnodup with ⟨h₁, hunlink, hchain₁, hout⟩
            have hsub : (addrs (kept ++ rest)).Sublist (addrs (kept ++ c :: rest)) := by
              simp only [addrs_append, addrs_cons]
              exact (List.Sublist.refl _).append (List.sublist_cons_self _ _)
            rcases ih fuel
              { d with
                heap := h₁.put c.1 none
                eiFirst := firstPtr (kept ++ rest) none
                output := d.output ++ c.2.text }
              kept hchain₁ (hnodup.sublist hsub) rfl hold hfuel' with ⟨heap, hloop, hheap, hsame⟩
            refine ⟨heap, ?_, by simpa [notOfAgent, hagent] using hheap, ?_⟩
            · rw [← hfirst, ← hold] at hunlink
              simp only [firstPtr_cons, dumpLoop, hc, if_pos hagent, hunlink, hloop]
              simp [notOfAgent, ofAgent, hagent]
            · intro a ha
              exact (hsame a fun hmem => ha (hsub.subset hmem)).trans (hout a ha)
          · -- the cell is one more to keep
            have hstep := ih fuel { d with oldEvent := some c.1 } (kept ++ [c])
              (by simpa using hchain) (by simpa using hnodup) (by simpa using hfirst) (by simp)
              hfuel'
            simpa [dumpLoop, hc, hagent, notOfAgent, ofAgent] using hstep

/-- The text of the cells of an agent is the text of its events in the table. -/
theorem flatMap_text_ofAgent (b : Buckets) (agent : Nat) :
    ((ofAgent agent (b (tableHash agent))).flatMap fun c => c.2.text) =
      b.table.printed agent := by
  simp only [QOSTable.printed, QOSTable.eventsOf, Buckets.table, ofAgent, List.filter_map,
    List.flatMap_map]
  rfl

/-- The critical section of `sdb_qos_dump_module` prints the events of the agent and leaves the
others where they are. -/
theorem Holds.dumpModule {s : QOSStore} {b : Buckets} (h : s.Holds b) (agent : Nat) :
    ∃ s', s.dumpModule agent = some (s', b.table.printed agent) ∧
      s'.Holds (Function.update b (tableHash agent) (notOfAgent agent (b (tableHash agent)))) ∧
      ∀ a, a ∉ addrs (b (tableHash agent)) → s'.heap a = s.heap a := by
  rcases dumpLoop_spec agent (s.linked + 1)
    { heap := s.heap
      eiFirst := firstPtr (b (tableHash agent)) none
      oldEvent := none
      output := [] }
    [] (h.lists.chain _) (h.lists.nodup _) rfl rfl (Nat.lt_succ_of_le (h.count _)) with
    ⟨heap, hloop, hchain, hsame⟩
  simp only [List.nil_append] at hloop hchain hsame
  -- what is left is part of what was there
  have hsub : (notOfAgent agent (b (tableHash agent))).Sublist (b (tableHash agent)) :=
    List.filter_sublist
  have haddrs : (addrs (notOfAgent agent (b (tableHash agent)))).Sublist
      (addrs (b (tableHash agent))) := hsub.map _
  have hlists := h.lists.replace hchain ((h.lists.nodup _).sublist haddrs)
    (fun hash hh a ha => hsame a (h.lists.not_mem_of_ne hh ha))
    (fun hash hh a ha hmem => h.lists.not_mem_of_ne hh ha (haddrs.subset hmem))
  have hcount : ∀ hash, (Function.update b (tableHash agent)
      (notOfAgent agent (b (tableHash agent))) hash).length ≤ s.linked := by
    intro hash
    by_cases hh : hash = tableHash agent
    · subst hh
      simpa using hsub.length_le.trans (h.count _)
    · simpa [hh] using h.count hash
  refine ⟨_, ?_, Holds.setIndex hlists hcount, hsame⟩
  have hfirst := h.lists.first (tableHash agent)
  simp only [QOSStore.dumpModule, hfirst, hloop, flatMap_text_ofAgent]

end QOSStore

/-! ## Runs -/

theorem table_update (b : Buckets) (hash : Nat) (cells : List (Nat × SDBQOSStoreEvent)) :
    Buckets.table (Function.update b hash cells) =
      Function.update b.table hash (cells.map Prod.snd) := by
  funext hash'
  by_cases hh : hash' = hash
  · subst hh
    simp [Buckets.table]
  · simp [Buckets.table, hh]

theorem table_notOfAgent (b : Buckets) (agent : Nat) :
    Buckets.table (Function.update b (tableHash agent)
      (QOSStore.notOfAgent agent (b (tableHash agent)))) = b.table.removeEvents agent := by
  rw [table_update]
  simp only [QOSTable.removeEvents, QOSStore.notOfAgent, Buckets.table, List.filter_map]
  rfl

/-- A new event is the last one of its agent and none of another. -/
theorem eventsOf_append (table : QOSTable) (event : SDBQOSStoreEvent) (agent : Nat) :
    QOSTable.eventsOf (Function.update table (tableHash event.seAgent)
        (table (tableHash event.seAgent) ++ [event])) agent =
      if event.seAgent = agent then table.eventsOf agent ++ [event] else table.eventsOf agent := by
  by_cases hagent : event.seAgent = agent
  · subst hagent
    simp [QOSTable.eventsOf]
  · by_cases hh : tableHash agent = tableHash event.seAgent
    · simp [QOSTable.eventsOf, hh, hagent]
    · simp [QOSTable.eventsOf, hh, hagent]

theorem eventsOf_removeEvents (table : QOSTable) (m agent : Nat) :
    (table.removeEvents m).eventsOf agent = if m = agent then [] else table.eventsOf agent := by
  by_cases hagent : m = agent
  · subst hagent
    simp [QOSTable.eventsOf, QOSTable.removeEvents]
  · rw [if_neg hagent]
    by_cases hh : tableHash agent = tableHash m
    · -- what is removed from the list they share is not the agent's
      simp only [QOSTable.eventsOf, QOSTable.removeEvents, hh, Function.update_self,
        List.filter_filter]
      refine List.filter_congr ?_
      intro e _
      by_cases he : e.seAgent = agent
      · have hne : ¬ e.seAgent = m := fun h => hagent (h.symm.trans he)
        simp [he, Ne.symm hagent]
      · simp [he]
    · simp [QOSTable.eventsOf, QOSTable.removeEvents, hh]

@[simp] theorem pendingEvents_registered (trace : List QosObs) (event : SDBQOSStoreEvent)
    (agent : Nat) :
    pendingEvents (trace ++ [.registered event]) agent =
      if event.seAgent = agent then pendingEvents trace agent ++ [event]
      else pendingEvents trace agent := by
  simp [pendingEvents]

@[simp] theorem pendingEvents_dumped (trace : List QosObs) (m agent : Nat) (text : List UInt8) :
    pendingEvents (trace ++ [.dumped m text]) agent =
      if m = agent then [] else pendingEvents trace agent := by
  simp [pendingEvents]

/-- Every dump in the trace printed what its agent had logged since the one before. -/
def DumpsExact (trace : List QosObs) : Prop :=
  ∀ before m text after, trace = before ++ .dumped m text :: after →
    text = (pendingEvents before m).flatMap SDBQOSStoreEvent.text

theorem DumpsExact.append {trace : List QosObs} (h : DumpsExact trace) {o : QosObs}
    (ho : ∀ m text, o = .dumped m text →
      text = (pendingEvents trace m).flatMap SDBQOSStoreEvent.text) :
    DumpsExact (trace ++ [o]) := by
  intro before m text after heq
  rcases List.eq_nil_or_concat after with rfl | ⟨init, last, rfl⟩
  · have hlast := List.append_inj' heq rfl
    rw [← hlast.1]
    exact ho m text (List.singleton_inj.1 hlast.2)
  · -- the dump is not the last event
    have heq' : trace ++ [o] = (before ++ .dumped m text :: init) ++ [last] := by
      simpa using heq
    exact h before m text init (List.append_inj' heq' rfl).1

namespace QosThreads

/-- What holds in every state: the lists hold the events logged since the last dumps, and an event
that is not linked yet is nobody else's. -/
structure Inv (s : QosThreads) (b : Buckets) : Prop where
  holds : s.store.Holds b
  own : ∀ m a, s.pc m = .registering a →
    (∃ event, s.store.heap a = some { val := event, next := none } ∧ event.seAgent = m) ∧
      ∀ hash, a ∉ addrs (b hash)
  distinct : ∀ m m' a, s.pc m = .registering a → s.pc m' = .registering a → m = m'
  logged : ∀ agent, b.table.eventsOf agent = pendingEvents s.trace agent
  exact : DumpsExact s.trace

theorem inv_init (qosEnabled : Nat → Bool) : (init qosEnabled).Inv fun _ => [] where
  holds := ⟨Family.empty _, fun _ => Nat.le_refl 0⟩
  own := fun _ _ h => by cases h
  distinct := fun _ _ _ h => by cases h
  logged := fun _ => rfl
  exact := fun before _ _ _ h => by simp [init] at h

/-- A thread that goes elsewhere than to the lock of `register_event`. -/
theorem registering_of_setPc {s : QosThreads} {m m' a : Nat} {pc : QosPC}
    (hpc : ∀ c, pc ≠ .registering c) (h : (s.setPc m pc).pc m' = .registering a) :
    m' ≠ m ∧ s.pc m' = .registering a := by
  by_cases hm : m' = m
  · subst hm
    exact absurd (by simpa [setPc] using h) (hpc a)
  · exact ⟨hm, by simpa [setPc, hm] using h⟩

section

variable {s : QosThreads} {b : Buckets}

/-- A thread that is about to link its event can do so. -/
theorem Inv.link (h : s.Inv b) {m a : Nat} (hpc : s.pc m = .registering a) :
    ∃ s' event, s.act (.link m) = some s' ∧
      s'.Inv (Function.update b (tableHash m) (b (tableHash m) ++ [(a, event)])) := by
  rcases h.own m a hpc with ⟨⟨event, ha, hagent⟩, hnot⟩
  rcases h.holds.link (tableHash m) ha hnot with ⟨store, hlink, hholds, hsame⟩
  refine ⟨({ s with store := store, trace := s.trace ++ [.registered event] } : QosThreads).setPc m
    .ready, event, by simp only [act, hpc, ha, hlink], ?_⟩
  constructor
  case holds => exact hholds
  case own =>
    intro m' a' hpc'
    rcases registering_of_setPc (by simp) hpc' with ⟨hm, hpc'⟩
    rcases h.own m' a' hpc' with ⟨⟨event', ha', hagent'⟩, hnot'⟩
    have hne : a' ≠ a := by
      rintro rfl
      exact hm (h.distinct m' m a' hpc' hpc)
    refine ⟨⟨event', (hsame a' (hnot' _)).trans ha', hagent'⟩, ?_⟩
    intro hash
    by_cases hh : hash = tableHash m
    · subst hh
      simpa [hne] using hnot' (tableHash m)
    · simpa [hh] using hnot' hash
  case distinct =>
    intro m₁ m₂ c h₁ h₂
    exact h.distinct m₁ m₂ c (registering_of_setPc (by simp) h₁).2
      (registering_of_setPc (by simp) h₂).2
  case logged =>
    intro agent
    have happend := eventsOf_append b.table event agent
    rw [hagent] at happend
    rw [table_update, List.map_append]
    simp only [setPc, pendingEvents_registered, hagent, ← h.logged]
    exact happend
  case exact => exact h.exact.append (by simp)

/-- A thread that is about to dump can do so. -/
theorem Inv.collect (h : s.Inv b) {m : Nat} (hpc : s.pc m = .dumping) :
    ∃ s', s.act (.collect m) = some s' ∧
      s'.trace = s.trace ++ [.dumped m (b.table.printed m)] ∧
      s'.Inv (Function.update b (tableHash m) (QOSStore.notOfAgent m (b (tableHash m)))) := by
  rcases h.holds.dumpModule m with ⟨store, hdump, hholds, hsame⟩
  refine ⟨({ s with store := store, trace := s.trace ++ [.dumped m (b.table.printed m)] } :
    QosThreads).setPc m .ready, by simp only [act, hpc, hdump], rfl, ?_⟩
  constructor
  case holds => exact hholds
  case own =>
    intro m' a' hpc'
    rcases h.own m' a' (registering_of_setPc (by simp) hpc').2 with
      ⟨⟨event', ha', hagent'⟩, hnot'⟩
    refine ⟨⟨event', (hsame a' (hnot' _)).trans ha', hagent'⟩, ?_⟩
    intro hash hmem
    by_cases hh : hash = tableHash m
    · subst hh
      rw [Function.update_self] at hmem
      exact hnot' _ ((List.filter_sublist.map _).subset hmem)
    · rw [Function.update_of_ne hh] at hmem
      exact hnot' hash hmem
  case distinct =>
    intro m₁ m₂ c h₁ h₂
    exact h.distinct m₁ m₂ c (registering_of_setPc (by simp) h₁).2
      (registering_of_setPc (by simp) h₂).2
  case logged =>
    intro agent
    rw [table_notOfAgent, eventsOf_removeEvents]
    simp only [setPc, pendingEvents_dumped, h.logged]
  case exact =>
    refine h.exact.append ?_
    rintro _ _ ⟨⟩
    rw [← h.logged]
    rfl

/-- A new event is in a cell that was not in use. -/
theorem Inv.register (h : s.Inv b) {m a : Nat} (ha : s.store.heap a = none)
    {event : SDBQOSStoreEvent} (hagent : event.seAgent = m) :
    (({ s with
        store := { s.store with
          heap := s.store.heap.put a (some { val := event, next := none }) } } :
      QosThreads).setPc m (.registering a)).Inv b := by
  have hfresh : ∀ hash, a ∉ addrs (b hash) :=
    fun hash => (h.holds.lists.chain hash).not_mem_of_none ha
  have hother : ∀ c, c ≠ a →
      s.store.heap.put a (some { val := event, next := none }) c = s.store.heap c :=
    fun c hc => Cells.put_other hc _
  have hne : ∀ {m' c}, s.pc m' = .registering c → c ≠ a := by
    rintro m' c hpc rfl
    rcases h.own m' c hpc with ⟨⟨_, hc, _⟩, _⟩
    simp [ha] at hc
  constructor
  case holds => exact ⟨h.holds.lists.put hfresh _, h.holds.count⟩
  case own =>
    intro m' c hpc
    by_cases hm : m' = m
    · subst hm
      have hc : a = c := by simpa [setPc] using hpc
      subst hc
      exact ⟨⟨event, by simp [setPc], hagent⟩, hfresh⟩
    · have hpc' : s.pc m' = .registering c := by simpa [setPc, hm] using hpc
      rcases h.own m' c hpc' with ⟨⟨event', hc, hagent'⟩, hnot⟩
      exact ⟨⟨event', (hother c (hne hpc')).trans hc, hagent'⟩, hnot⟩
  case distinct =>
    intro m₁ m₂ c h₁ h₂
    by_cases hm₁ : m₁ = m
    · by_cases hm₂ : m₂ = m
      · exact hm₁.trans hm₂.symm
      · have hc : a = c := by simpa [setPc, hm₁] using h₁
        exact absurd hc.symm (hne (by simpa [setPc, hm₂] using h₂))
    · have h₁' : s.pc m₁ = .registering c := by simpa [setPc, hm₁] using h₁
      by_cases hm₂ : m₂ = m
      · have hc : a = c := by simpa [setPc, hm₂] using h₂
        exact absurd hc.symm (hne h₁')
      · exact h.distinct m₁ m₂ c h₁' (by simpa [setPc, hm₂] using h₂)
  case logged => exact h.logged
  case exact => exact h.exact

theorem Inv.dump (h : s.Inv b) (m : Nat) : (s.setPc m .dumping).Inv b where
  holds := h.holds
  own := fun m' a hpc => h.own m' a (registering_of_setPc (by simp) hpc).2
  distinct := fun m₁ m₂ c h₁ h₂ =>
    h.distinct m₁ m₂ c (registering_of_setPc (by simp) h₁).2 (registering_of_setPc (by simp) h₂).2
  logged := h.logged
  exact := h.exact

theorem Inv.setEnabled (h : s.Inv b) (qosEnabled : Nat → Bool) :
    ({ s with qosEnabled := qosEnabled } : QosThreads).Inv b :=
  ⟨h.holds, h.own, h.distinct, h.logged, h.exact⟩

theorem Inv.act (h : s.Inv b) {a : QosAct} {s' : QosThreads} (hact : s.act a = some s') :
    ∃ b', s'.Inv b' := by
  cases a with
  | start m =>
      simp only [QosThreads.act, Option.ite_none_right_eq_some, Option.some.injEq] at hact
      rcases hact with ⟨_, rfl⟩
      exact ⟨b, h.setEnabled _⟩
  | stop m =>
      simp only [QosThreads.act, Option.ite_none_right_eq_some, Option.some.injEq] at hact
      rcases hact with ⟨_, rfl⟩
      exact ⟨b, h.setEnabled _⟩
  | register m storeEvent time event pkt =>
      simp only [QosThreads.act, Option.ite_none_right_eq_some] at hact
      rcases hact with ⟨_, hact⟩
      split_ifs at hact with hen
      · cases hfree : s.store.heap storeEvent with
        | some _ => simp [hfree] at hact
        | none =>
            simp only [hfree, Option.some.injEq] at hact
            subst hact
            exact ⟨b, h.register hfree rfl⟩
      · cases hact
        exact ⟨b, h⟩
  | link m =>
      cases hpc : s.pc m with
      | registering c =>
          rcases h.link hpc with ⟨_, _, hlink, hinv⟩
          rw [hlink] at hact
          cases hact
          exact ⟨_, hinv⟩
      | ready => simp [QosThreads.act, hpc] at hact
      | dumping => simp [QosThreads.act, hpc] at hact
  | dump m =>
      simp only [QosThreads.act, Option.ite_none_right_eq_some] at hact
      rcases hact with ⟨_, hact⟩
      split_ifs at hact with hen
      · cases hact
        exact ⟨b, h.dump m⟩
      · cases hact
        exact ⟨b, h⟩
  | collect m =>
      cases hpc : s.pc m with
      | dumping =>
          rcases h.collect hpc with ⟨_, hcollect, _, hinv⟩
          rw [hcollect] at hact
          cases hact
          exact ⟨_, hinv⟩
      | ready => simp [QosThreads.act, hpc] at hact
      | registering c => simp [QosThreads.act, hpc] at hact

theorem Inv.run (h : s.Inv b) {acts : List QosAct} {s' : QosThreads}
    (hrun : s.run acts = some s') : ∃ b', s'.Inv b' := by
  induction acts generalizing s b with
  | nil =>
      cases hrun
      exact ⟨b, h⟩
  | cons a acts ih =>
      rcases Option.bind_eq_some_iff.1 hrun with ⟨mid, hact, hrest⟩
      rcases h.act hact with ⟨b', h'⟩
      exact ih h' hrest

end

end QosThreads

end SDB
end AbsPlatform
