import AbsPlatform.Lib.Runs
import AbsPlatform.SDB.QueueRefinement

/-!
# PopBlock — producers and consumers of one queue

Any number of threads call `sdb_queue_push` and `sdb_queue_pop_block` on one queue.  What a thread
does between getting `queue_lock` and giving it back is one step; `pthread_cond_wait` gives the lock
back, and the rest of the function is a step of its own.  It may return without a broadcast.

`queue_elem` is read before the wait and followed after it.  A pop that starts on an empty queue has
NULL there, whatever has been pushed when it is woken up.
-/

namespace AbsPlatform
namespace SDB

open MCS Lib

/-! ## State -/

/-- Where a thread is in `sdb_queue_pop_block`, with its variable `queue_elem`. -/
inductive Consumer
  | outside
  /-- in `pthread_cond_wait` -/
  | waiting (queueElem : Option Nat)
  /-- about to take `queue_lock` at the end of `pthread_cond_wait` -/
  | woken (queueElem : Option Nat)

/-- Where `pthread_cond_broadcast` puts a thread. -/
def Consumer.wake : Consumer → Consumer
  | .waiting queueElem => .woken queueElem
  | c => c

structure Exchange where
  queue : SDBQueue
  consumer : Nat → Consumer
  /-- a pop has followed a pointer that leads to no element -/
  faulted : Bool
  /-- how many pushes there have been -/
  pushes : Nat
  /-- for the address of an element, the number of the push that made it -/
  pushOf : Nat → Nat
  /-- what the pops have returned, with the numbers of the pushes -/
  returned : List (Nat × SDBPacket)

inductive ExchangeAct
  /-- `sdb_queue_push`, `queueElem` being the address `malloc` returned -/
  | push (queueElem : Nat) (sdbPkt : SDBPacket)
  /-- thread `i` calls `sdb_queue_pop_block` and gets the lock -/
  | pop (i : Nat)
  /-- `pthread_cond_wait` of thread `i` returns without a broadcast -/
  | spurious (i : Nat)
  /-- thread `i` gets the lock at the end of `pthread_cond_wait` -/
  | resume (i : Nat)

/-- `res = queue_elem->pkt` and `sdb_queue_delete`, for an element at an address. -/
def takeElem (q : SDBQueue) (queueElem : Nat) : Option (SDBQueue × SDBPacket) := do
  let elem ← q.heap queueElem
  let q ← sdbQueueDelete q queueElem
  some (q, elem.val)

theorem sdbQueuePop_eq (q : SDBQueue) : sdbQueuePop q = q.queueFirst.bind (takeElem q) := rfl

namespace Exchange

/-- After `sdb_queue_init`. -/
def init : Exchange where
  queue := sdbQueueInit
  consumer := fun _ => .outside
  faulted := false
  pushes := 0
  pushOf := fun _ => 0
  returned := []

def goto (s : Exchange) (i : Nat) (c : Consumer) : Exchange :=
  { s with consumer := Function.update s.consumer i c }

def crash (s : Exchange) : Exchange := { s with faulted := true }

/-- After a push that has left the queue `q`. -/
def pushed (s : Exchange) (queueElem : Nat) (q : SDBQueue) : Exchange :=
  { s with
    queue := q
    consumer := fun i => (s.consumer i).wake
    pushes := s.pushes + 1
    pushOf := Function.update s.pushOf queueElem s.pushes }

/-- After a pop of thread `i` that has left the queue `q` and returned `sdbPkt`. -/
def popped (s : Exchange) (i queueElem : Nat) (q : SDBQueue) (sdbPkt : SDBPacket) : Exchange :=
  { s with
    queue := q
    consumer := Function.update s.consumer i .outside
    returned := s.returned ++ [(s.pushOf queueElem, sdbPkt)] }

/-- The end of `sdb_queue_pop_block`, from `res = queue_elem->pkt` on. -/
def finish (s : Exchange) (i : Nat) : Option Nat → Exchange
  | none => s.crash
  | some queueElem =>
      match takeElem s.queue queueElem with
      | none => s.crash
      | some (q, sdbPkt) => s.popped i queueElem q sdbPkt

/-- A step that can be taken, unless the process has crashed. -/
def act (s : Exchange) (a : ExchangeAct) : Option Exchange :=
  if s.faulted then none else
  match a with
  | .push queueElem sdbPkt =>
      if s.queue.heap queueElem = none then
        (sdbQueuePushNolock s.queue queueElem sdbPkt).map fun q => s.pushed queueElem q
      else
        none
  | .pop i =>
      match s.consumer i with
      | .outside =>
          match s.queue.queueFirst with
          | none => some (s.goto i (.waiting none))
          | some queueElem => some (s.finish i (some queueElem))
      | _ => none
  | .spurious i =>
      match s.consumer i with
      | .waiting queueElem => some (s.goto i (.woken queueElem))
      | _ => none
  | .resume i =>
      match s.consumer i with
      | .woken queueElem => some (s.finish i queueElem)
      | _ => none

def run (s : Exchange) (acts : List ExchangeAct) : Option Exchange := acts.foldlM act s

/-! ## What is asked of it -/

/-- The packets in the queue from `queue_first` on, with the numbers of their pushes. -/
def Contents (s : Exchange) (entries : List (Nat × SDBPacket)) : Prop :=
  ∃ cells, SDB.Holds s.queue cells ∧ cells.map (fun c => (s.pushOf c.1, c.2)) = entries

/-- No pop has followed a pointer to nowhere, no push has been returned twice, and a pop that
returns next has the packet in front, which is the first of the most urgent ones, and takes exactly
that one out. -/
structure Delivering (s : Exchange) : Prop where
  sound : s.faulted = false
  once : (s.returned.map Prod.fst).Nodup
  front : ∀ a s' e, s.act a = some s' → s'.returned = s.returned ++ [e] →
    ∃ rest, s.Contents (e :: rest) ∧ (e :: rest).Pairwise (Before SDBPacket.priority) ∧
      s'.Contents rest

/-! ## The queue behind it -/

section Queue

variable {s s' : Exchange} {S : PriorityList SDBPacket.priority} {e : Nat × SDBPacket}
  {rest : List (Nat × SDBPacket)}

theorem contents_init : init.Contents [] := ⟨[], holds_init, rfl⟩

/-- A push puts its packet where the priority list puts it. -/
theorem contents_pushed (h : s.Contents S.entries) (hpushes : S.pushed = s.pushes) {queueElem : Nat}
    (hfree : s.queue.heap queueElem = none) (sdbPkt : SDBPacket) :
    ∃ q, sdbQueuePushNolock s.queue queueElem sdbPkt = some q ∧
      (s.pushed queueElem q).Contents (S.push sdbPkt).entries := by
  rcases h with ⟨cells, hcells, hentries⟩
  have hsorted : cells.Pairwise fun c d => ¬ outranks d c := by
    have hvalues := S.values_sorted
    rw [PriorityList.values, ← hentries, List.map_map] at hvalues
    exact List.pairwise_map.1 hvalues
  rcases sdbQueuePushNolock_spec hcells hsorted hfree sdbPkt with ⟨q, hpush, hq⟩
  refine ⟨q, hpush, _, hq, ?_⟩
  -- the other elements have the numbers they had
  have hother : ∀ c ∈ cells, (Function.update s.pushOf queueElem s.pushes c.1, c.2) =
      (s.pushOf c.1, c.2) := by
    intro c hc
    have hne : c.1 ≠ queueElem := by
      rintro rfl
      exact hcells.seg.not_mem_of_none hfree (List.mem_map_of_mem hc)
    rw [Function.update_of_ne hne]
  have hold : cells.map (fun c => (Function.update s.pushOf queueElem s.pushes c.1, c.2)) =
      S.entries := (List.map_congr_left hother).trans hentries
  have hrank : ∀ c ∈ cells, outranks (queueElem, sdbPkt) c ↔
      Before SDBPacket.priority (S.pushed, sdbPkt)
        (Function.update s.pushOf queueElem s.pushes c.1, c.2) := by
    intro c hc
    have hmem : (Function.update s.pushOf queueElem s.pushes c.1, c.2) ∈ S.entries := by
      rw [← hold]
      exact List.mem_map_of_mem (f := fun c => (Function.update s.pushOf queueElem s.pushes c.1,
        c.2)) hc
    rw [before_iff_of_older (S.older _ hmem)]
    exact Iff.rfl
  have hnew : (Function.update s.pushOf queueElem s.pushes queueElem, sdbPkt) =
      (S.pushed, sdbPkt) := by rw [Function.update_self, hpushes]
  have hmap := map_orderedInsert_of_iff (r := outranks) (s := Before SDBPacket.priority)
    (fun c : Nat × SDBPacket => (Function.update s.pushOf queueElem s.pushes c.1, c.2))
    (x := (queueElem, sdbPkt)) (l := cells)
    (fun c hc => by rw [hnew]; exact hrank c hc)
  rw [hold, hnew] at hmap
  exact hmap

/-- The element in front is the one that is taken. -/
theorem contents_popped (h : s.Contents (e :: rest)) (i : Nat) :
    ∃ queueElem q, s.queue.queueFirst = some queueElem ∧
      s.finish i (some queueElem) = s.popped i queueElem q e.2 ∧ s.pushOf queueElem = e.1 ∧
      (s.popped i queueElem q e.2).Contents rest := by
  rcases h with ⟨cells, hcells, hentries⟩
  cases cells with
  | nil => simp at hentries
  | cons c cells =>
      rcases List.cons.inj hentries with ⟨rfl, hrest⟩
      rcases sdbQueuePop_spec hcells with ⟨q, hpop, hq⟩
      have htake : takeElem s.queue c.1 = some (q, c.2) := by
        simpa [sdbQueuePop_eq, hcells.first] using hpop
      exact ⟨c.1, q, hcells.first, by simp [finish, htake], rfl, cells, hq, hrest⟩

theorem queueFirst_of_contents_nil (h : s.Contents []) : s.queue.queueFirst = none := by
  rcases h with ⟨cells, hcells, hentries⟩
  rw [hcells.first, List.map_eq_nil_iff.1 hentries]
  rfl

end Queue

/-! ## What a step can do -/

/-- The queue holds the packets of the priority list, their pushes and those of the packets that
have been returned are all different, and the threads that wait have found the queue empty. -/
structure Inv (s : Exchange) (S : PriorityList SDBPacket.priority) : Prop where
  contents : s.Contents S.entries
  pushes : S.pushed = s.pushes
  nodup : (s.returned.map Prod.fst ++ S.entries.map Prod.fst).Nodup
  older : ∀ r ∈ s.returned, r.1 < s.pushes
  waiting : ∀ i queueElem, s.consumer i = .waiting queueElem → queueElem = none
  woken : ∀ i queueElem, s.consumer i = .woken queueElem → queueElem = none

inductive ExchangeEffect (s : Exchange) (S : PriorityList SDBPacket.priority) :
    ExchangeAct → Exchange → Prop
  | push (queueElem : Nat) (sdbPkt : SDBPacket) (q : SDBQueue) :
      (s.pushed queueElem q).Contents (S.push sdbPkt).entries →
      ExchangeEffect s S (.push queueElem sdbPkt) (s.pushed queueElem q)
  /-- the pop of a queue that is empty -/
  | wait (i : Nat) : S.entries = [] →
      ExchangeEffect s S (.pop i) (s.goto i (.waiting none))
  /-- the pop of a queue that is not -/
  | pop (i queueElem : Nat) (q : SDBQueue) (e : Nat × SDBPacket) (rest : List (Nat × SDBPacket)) :
      S.entries = e :: rest → s.pushOf queueElem = e.1 →
      (s.popped i queueElem q e.2).Contents rest →
      ExchangeEffect s S (.pop i) (s.popped i queueElem q e.2)
  | spurious (i : Nat) : ExchangeEffect s S (.spurious i) (s.goto i (.woken none))
  /-- `queue_elem` is NULL -/
  | resume (i : Nat) : ExchangeEffect s S (.resume i) s.crash

section Steps

variable {s s' : Exchange} {S : PriorityList SDBPacket.priority} {a : ExchangeAct}

theorem act_of_faulted (h : s.faulted = true) (a : ExchangeAct) : s.act a = none := by
  simp [act, h]

theorem act_effect (hinv : s.Inv S) (h : s.act a = some s') :
    s.faulted = false ∧ ExchangeEffect s S a s' := by
  cases hfaulted : s.faulted with
  | true => simp [act_of_faulted hfaulted] at h
  | false =>
      refine ⟨rfl, ?_⟩
      simp only [act, hfaulted, Bool.false_eq_true, if_false] at h
      cases a with
      | push queueElem sdbPkt =>
          dsimp only at h
          split_ifs at h with hfree
          rcases contents_pushed hinv.contents hinv.pushes hfree sdbPkt with ⟨q, hpush, hq⟩
          simp only [hpush, Option.map_some, Option.some.injEq] at h
          subst h
          exact .push queueElem sdbPkt q hq
      | pop i =>
          dsimp only at h
          cases hpc : s.consumer i with
          | outside =>
              simp only [hpc] at h
              have hcontents := hinv.contents
              cases hentries : S.entries with
              | nil =>
                  rw [hentries] at hcontents
                  simp only [queueFirst_of_contents_nil hcontents, Option.some.injEq] at h
                  exact h ▸ .wait i hentries
              | cons e rest =>
                  rw [hentries] at hcontents
                  rcases contents_popped hcontents i with ⟨queueElem, q, hfirst, hfinish, hnum, hq⟩
                  simp only [hfirst, hfinish, Option.some.injEq] at h
                  exact h ▸ .pop i queueElem q e rest hentries hnum hq
          | waiting queueElem => simp [hpc] at h
          | woken queueElem => simp [hpc] at h
      | spurious i =>
          dsimp only at h
          cases hpc : s.consumer i with
          | outside => simp [hpc] at h
          | waiting queueElem =>
              simp only [hpc, hinv.waiting i queueElem hpc, Option.some.injEq] at h
              exact h ▸ .spurious i
          | woken queueElem => simp [hpc] at h
      | resume i =>
          dsimp only at h
          cases hpc : s.consumer i with
          | outside => simp [hpc] at h
          | waiting queueElem => simp [hpc] at h
          | woken queueElem =>
              simp only [hpc, hinv.woken i queueElem hpc, finish, Option.some.injEq] at h
              exact h ▸ .resume i

/-- A push has a number of its own. -/
theorem nodup_push {numbers : List Nat} (sdbPkt : SDBPacket)
    (h : (numbers ++ S.entries.map Prod.fst).Nodup) (hold : ∀ n ∈ numbers, n < S.pushed) :
    (numbers ++ (S.push sdbPkt).entries.map Prod.fst).Nodup := by
  have hperm : (numbers ++ (S.push sdbPkt).entries.map Prod.fst).Perm
      (S.pushed :: (numbers ++ S.entries.map Prod.fst)) := by
    have hinsert : ((S.push sdbPkt).entries.map Prod.fst).Perm
        (S.pushed :: S.entries.map Prod.fst) :=
      (List.perm_orderedInsert _ (S.pushed, sdbPkt) S.entries).map Prod.fst
    exact (hinsert.append_left numbers).trans List.perm_middle
  refine hperm.nodup_iff.2 (List.nodup_cons.2 ⟨fun hmem => ?_, h⟩)
  rcases List.mem_append.1 hmem with hmem | hmem
  · exact Nat.lt_irrefl _ (hold _ hmem)
  · rcases List.mem_map.1 hmem with ⟨e, he, hnum⟩
    exact Nat.lt_irrefl _ (hnum ▸ S.older e he)

theorem inv_init : init.Inv .empty where
  contents := contents_init
  pushes := rfl
  nodup := List.nodup_nil
  older := by simp [init]
  waiting := by simp [init]
  woken := by simp [init]

theorem Inv.goto (h : s.Inv S) {i : Nat} {c : Consumer}
    (hwaiting : ∀ queueElem, c = .waiting queueElem → queueElem = none)
    (hwoken : ∀ queueElem, c = .woken queueElem → queueElem = none) : (s.goto i c).Inv S where
  contents := h.contents
  pushes := h.pushes
  nodup := h.nodup
  older := h.older
  waiting := by
    intro j queueElem hj
    by_cases hji : j = i
    · exact hwaiting queueElem (by simpa [Exchange.goto, hji] using hj)
    · exact h.waiting j queueElem (by simpa [Exchange.goto, Function.update_of_ne hji] using hj)
  woken := by
    intro j queueElem hj
    by_cases hji : j = i
    · exact hwoken queueElem (by simpa [Exchange.goto, hji] using hj)
    · exact h.woken j queueElem (by simpa [Exchange.goto, Function.update_of_ne hji] using hj)

theorem Inv.pushed (h : s.Inv S) {queueElem : Nat} {sdbPkt : SDBPacket} {q : SDBQueue}
    (hcontents : (s.pushed queueElem q).Contents (S.push sdbPkt).entries) :
    (s.pushed queueElem q).Inv (S.push sdbPkt) where
  contents := hcontents
  pushes := congrArg Nat.succ h.pushes
  nodup := by
    refine nodup_push sdbPkt h.nodup fun n hn => ?_
    rcases List.mem_map.1 hn with ⟨r, hr, rfl⟩
    exact h.pushes.symm ▸ h.older r hr
  older := fun r hr => Nat.lt_succ_of_lt (h.older r hr)
  waiting := by
    intro i queueElem' hi
    cases hpc : s.consumer i with
    | outside => simp [Exchange.pushed, Consumer.wake, hpc] at hi
    | waiting e => simp [Exchange.pushed, Consumer.wake, hpc] at hi
    | woken e => simp [Exchange.pushed, Consumer.wake, hpc] at hi
  woken := by
    intro i queueElem' hi
    cases hpc : s.consumer i with
    | outside => simp [Exchange.pushed, Consumer.wake, hpc] at hi
    | waiting e =>
        simp only [Exchange.pushed, Consumer.wake, hpc, Consumer.woken.injEq] at hi
        exact hi ▸ h.waiting i e hpc
    | woken e =>
        simp only [Exchange.pushed, Consumer.wake, hpc, Consumer.woken.injEq] at hi
        exact hi ▸ h.woken i e hpc

theorem Inv.popped (h : s.Inv S) {i queueElem : Nat} {q : SDBQueue} {e : Nat × SDBPacket}
    {rest : List (Nat × SDBPacket)} (hentries : S.entries = e :: rest)
    (hnum : s.pushOf queueElem = e.1) (hcontents : (s.popped i queueElem q e.2).Contents rest) :
    (s.popped i queueElem q e.2).Inv S.tail := by
  have htail : S.tail.entries = rest := by simp [PriorityList.tail, hentries]
  have hpopped : (s.popped i queueElem q e.2).returned = s.returned ++ [e] := by
    rw [Exchange.popped, hnum]
  have hgoto := h.goto (i := i) (c := .outside) (by simp) (by simp)
  refine
    { contents := htail.symm ▸ hcontents
      pushes := h.pushes
      nodup := ?_
      older := ?_
      waiting := hgoto.waiting
      woken := hgoto.woken }
  · rw [hpopped, htail, List.map_append, List.append_assoc]
    have hnodup := h.nodup
    rw [hentries] at hnodup
    exact hnodup
  · intro r hr
    rw [hpopped] at hr
    rcases List.mem_append.1 hr with hr | hr
    · exact h.older r hr
    · rw [List.mem_singleton.1 hr]
      exact h.pushes ▸ S.older e (by simp [hentries])

theorem Inv.effect (h : s.Inv S) (heffect : ExchangeEffect s S a s') : ∃ S', s'.Inv S' := by
  cases heffect with
  | push queueElem sdbPkt q hcontents => exact ⟨_, h.pushed hcontents⟩
  | wait i hentries => exact ⟨S, h.goto (by simp) (by simp)⟩
  | pop i queueElem q e rest hentries hnum hcontents =>
      exact ⟨_, h.popped hentries hnum hcontents⟩
  | spurious i => exact ⟨S, h.goto (by simp) (by simp)⟩
  | resume i => exact ⟨S, ⟨h.contents, h.pushes, h.nodup, h.older, h.waiting, h.woken⟩⟩

/-- Only the end of a wait goes wrong, and it always does. -/
theorem faulted_iff (hgood : s.faulted = false) (heffect : ExchangeEffect s S a s') :
    s'.faulted = true ↔ ∃ i, a = .resume i := by
  cases heffect with
  | push queueElem sdbPkt q hcontents => simp [Exchange.pushed, hgood]
  | wait i hentries => simp [goto, hgood]
  | pop i queueElem q e rest hentries hnum hcontents => simp [Exchange.popped, hgood]
  | spurious i => simp [goto, hgood]
  | resume i => simp [crash]

/-- A pop that returns has taken the packet in front. -/
theorem front_of_effect (h : s.Inv S) (heffect : ExchangeEffect s S a s') {e : Nat × SDBPacket}
    (hreturned : s'.returned = s.returned ++ [e]) :
    ∃ rest, s.Contents (e :: rest) ∧ (e :: rest).Pairwise (Before SDBPacket.priority) ∧
      s'.Contents rest := by
  have hstill : s.returned ≠ s.returned ++ [e] := by simp
  cases heffect with
  | push queueElem sdbPkt q hcontents => exact absurd hreturned hstill
  | wait i hentries => exact absurd hreturned hstill
  | pop i queueElem q first rest hentries hnum hcontents =>
      have hfirst : e = first := by
        rw [Exchange.popped, hnum] at hreturned
        exact (List.cons.inj (List.append_cancel_left hreturned)).1.symm
      subst hfirst
      exact ⟨rest, hentries ▸ h.contents, hentries ▸ S.sorted, hcontents⟩
  | spurious i => exact absurd hreturned hstill
  | resume i => exact absurd hreturned hstill

theorem delivering_of_inv (h : s.Inv S) (hgood : s.faulted = false) : s.Delivering where
  sound := hgood
  once := (List.nodup_append.1 h.nodup).1
  front := fun _ _ _ hact hreturned => front_of_effect h (act_effect h hact).2 hreturned

end Steps

/-! ## Runs -/

/-- In every state of a run the packets are delivered as they should be, exactly when no thread that
has found the queue empty comes back from its wait. -/
theorem delivering_iff_no_resume (acts : List ExchangeAct) {s : Exchange}
    (hrun : init.run acts = some s) :
    (∀ pre post u, acts = pre ++ post → init.run pre = some u → u.Delivering) ↔
      ∀ i, ExchangeAct.resume i ∉ acts := by
  have hstep : ∀ {s s' : Exchange} {a : ExchangeAct}, (∃ S, s.Inv S) → s.act a = some s' →
      ∃ S', s'.Inv S' := by
    rintro s s' a ⟨S, hinv⟩ hact
    exact hinv.effect (act_effect hinv hact).2
  have hbad : ∀ {s s' : Exchange} {a : ExchangeAct}, (∃ S, s.Inv S) → ¬ s.faulted = true →
      s.act a = some s' → (s'.faulted = true ↔ ∃ i, a = .resume i) := by
    rintro s s' a ⟨S, hinv⟩ hgood hact
    exact faulted_iff (by simpa using hgood) (act_effect hinv hact).2
  have hnever : (∀ pre post u, acts = pre ++ post → init.run pre = some u → ¬ u.faulted = true) ↔
      ∀ pre a post u, acts = pre ++ a :: post → init.run pre = some u →
        ¬ ∃ i, a = ExchangeAct.resume i :=
    never_iff hstep hbad ⟨_, inv_init⟩ (by simp [init]) hrun
  constructor
  · intro hall i hmem
    rcases List.append_of_mem hmem with ⟨pre, post, hsplit⟩
    rcases Option.isSome_iff_exists.1 (isSome_of_run hrun hsplit) with ⟨u, hu⟩
    refine hnever.1 (fun pre' post' u' hsplit' hpre' => ?_) pre _ post u hsplit hu ⟨i, rfl⟩
    simp [(hall pre' post' u' hsplit' hpre').sound]
  · intro hnone pre post u hsplit hpre
    have hgood : ¬ u.faulted = true := by
      refine hnever.2 ?_ pre post u hsplit hpre
      rintro pre' _ post' u' hsplit' _ ⟨i, rfl⟩
      exact hnone i (by simp [hsplit'])
    rcases run_invariant (I := fun s => ∃ S, s.Inv S) hstep ⟨_, inv_init⟩ hpre with ⟨S, hinv⟩
    exact delivering_of_inv hinv (by simpa using hgood)

/-- Two packets, two consumers, and a third pop that waits. -/
def twoConsumersRun : List ExchangeAct :=
  [.push 4 ⟨0, 0, mcsOkPacketId 1⟩, .push 9 ⟨1, 7, mcsOkPacketId 2⟩, .pop 0, .pop 1, .pop 1]

theorem delivering_twoConsumersRun :
    ∃ s, init.run twoConsumersRun = some s ∧
      ∀ pre post u, twoConsumersRun = pre ++ post → init.run pre = some u → u.Delivering :=
  ⟨_, rfl, (delivering_iff_no_resume twoConsumersRun rfl).2 fun i hmem => by
    simp [twoConsumersRun] at hmem⟩

/-- A pop that starts on an empty queue, a push, and the consumer is woken up. -/
def emptyPopRun : List ExchangeAct :=
  [.pop 0, .push 4 ⟨0, 0, mcsOkPacketId 1⟩, .resume 0]

/-- The packet is in the queue, and the consumer follows NULL. -/
theorem emptyPopRun_faults :
    (init.run [.pop 0, .push 4 ⟨0, 0, mcsOkPacketId 1⟩]).any (fun u =>
        (u.queue.heap 4).any fun elem => elem.val.pkt.id = 1) = true ∧
      (init.run emptyPopRun).any (fun u => u.faulted && u.returned.isEmpty) = true ∧
      ∀ u, init.run emptyPopRun = some u → ¬ u.Delivering := by
  refine ⟨rfl, rfl, fun u hu hdelivering => ?_⟩
  have hfaulted : (init.run emptyPopRun).any (fun u => u.faulted) = true := rfl
  rw [hu] at hfaulted
  exact absurd (hdelivering.sound.symm.trans hfaulted) (by simp)

end Exchange

end SDB
end AbsPlatform
