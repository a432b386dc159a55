import AbsPlatform.Lib.AnswerRouting
import AbsPlatform.MCS.CommandSet
import AbsPlatform.SDB.Module

/-!
# Bus — runs of the bus and what its steps do

`Bus.net` is the part of the state that routing is about: the queues, the mailboxes, and the events
of the history that pass a packet on.  `Bus.replies` are the packets `process_pkt_socket` has
written to a socket itself.  For every handler a lemma says what becomes of these two; the event
log, the flags and the clock do not show in them.
-/

namespace AbsPlatform
namespace SDB

open MCS Lib

/-! ## Runs -/

inductive Action
  /-- a client sends bytes to its module's socket -/
  | client (m : Nat) (bytes : List UInt8)
  /-- the observer has seen something at a module's socket -/
  | observe (m : Nat)
  /-- a module's thread goes once through its main loop -/
  | turn (m : Nat)

def Bus.act (cfg : SDBConfig) (s : Bus) : Action → Except Stuck Bus
  | .client m bytes => .ok (s.update m fun x => { x with input := x.input ++ bytes })
  | .observe m => .ok (s.update m fun x => { x with dataSocket := true })
  -- only registered modules have a thread
  | .turn m => if m < s.sdbModuleLast then mainLoop cfg m s else .error .waiting

/-- One step, by an action from a set of allowed ones. -/
def BusStep (cfg : SDBConfig) (allowed : Action → Prop) (s s' : Bus) : Prop :=
  ∃ a, allowed a ∧ s.act cfg a = .ok s'

/-- All modules are registered, and nothing has happened yet. -/
structure Fresh (s : Bus) : Prop where
  queue : ∀ m, (s.modules m).queue = []
  mailbox : ∀ m, (s.modules m).mailbox = none
  input : ∀ m, (s.modules m).input = []
  history : s.history = []

/-- The states a run can reach. -/
def Reachable (cfg : SDBConfig) (allowed : Action → Prop) (s : Bus) : Prop :=
  ∃ s₀, Fresh s₀ ∧ Relation.ReflTransGen (BusStep cfg allowed) s₀ s

/-- An invariant of every reachable state. -/
theorem Reachable.invariant {cfg : SDBConfig} {allowed : Action → Prop} {Inv : Bus → Prop}
    (hinit : ∀ s, Fresh s → Inv s)
    (hstep : ∀ {s s'}, Inv s → BusStep cfg allowed s s' → Inv s') {s : Bus}
    (h : Reachable cfg allowed s) : Inv s := by
  rcases h with ⟨s₀, hfresh, hrun⟩
  induction hrun with
  | refl => exact hinit s₀ hfresh
  | tail _ hlast ih => exact hstep ih hlast

/-- A list of actions, one after the other. -/
def Bus.run (cfg : SDBConfig) (s : Bus) : List Action → Except Stuck Bus
  | [] => .ok s
  | a :: actions =>
      match s.act cfg a with
      | .error e => .error e
      | .ok s' => s'.run cfg actions

theorem steps_of_run {cfg : SDBConfig} {allowed : Action → Prop} {s : Bus} (actions : List Action)
    (hallowed : ∀ a ∈ actions, allowed a) {s₀ : Bus} (h : s₀.run cfg actions = .ok s) :
    Relation.ReflTransGen (BusStep cfg allowed) s₀ s := by
  induction actions generalizing s₀ with
  | nil =>
      cases h
      exact .refl
  | cons a actions ih =>
      cases hact : s₀.act cfg a with
      -- a stuck action ends the run
      | error e => simp [Bus.run, hact] at h
      | ok s₁ =>
          simp only [Bus.run, hact] at h
          have hfirst : BusStep cfg allowed s₀ s₁ := ⟨a, hallowed a (by simp), hact⟩
          exact .head hfirst (ih (fun b hb => hallowed b (by simp [hb])) h)

theorem reachable_of_run {cfg : SDBConfig} {allowed : Action → Prop} {s s₀ : Bus}
    (hfresh : Fresh s₀) (actions : List Action) (hallowed : ∀ a ∈ actions, allowed a)
    (h : s₀.run cfg actions = .ok s) : Reachable cfg allowed s :=
  ⟨s₀, hfresh, steps_of_run actions hallowed h⟩

/-! ## The shipped program -/

/-- The program as it is shipped, for one of the two data models. -/
def shippedConfig (arch : Arch) : SDBConfig where
  tables := commandSet
  arch := arch
  qosStart := 2
  qosDump := 3
  qosStop := 4
  labels := by decide
  clock := fun _ => 0

/-- A module that has just been registered. -/
def registered (name : CString) (group : SDBGroup) : SDBModule where
  name := name
  group := group
  mailbox := none
  dataSocket := false
  queue := []
  qosEnabled := true
  input := []

/-- `"core"`. -/
def coreName : CString := ⟨[99, 111, 114, 101], by simp⟩

/-- A bus with a module of the group `syscore` and the process manager. -/
def coreAndProcman : Bus where
  modules := fun m =>
    if m = 1 then registered procmanName .procman else registered coreName .syscore
  sdbModuleLast := 2
  qosTable := fun _ => []
  readings := 0
  history := []

theorem fresh_coreAndProcman : Fresh coreAndProcman := by
  -- numbers without a module stand for freshly registered ones as well
  have hmodule : ∀ m, coreAndProcman.modules m = registered procmanName .procman ∨
      coreAndProcman.modules m = registered coreName .syscore := by
    intro m
    by_cases hm : m = 1
    · exact Or.inl (if_pos hm)
    · exact Or.inr (if_neg hm)
  refine ⟨fun m => ?_, fun m => ?_, fun m => ?_, rfl⟩ <;>
    rcases hmodule m with h | h <;> rw [h] <;> rfl

/-! ## What is observed -/

/-- The events that pass a packet on. -/
def routeEvent : BusEvent → Option (RouteEvent Nat MCSPacket)
  | .socketIn m pkt => some (.heard m pkt)
  | .mailed src dst pkt => some (.moved src dst pkt)
  | .socketOut m .sdb pkt => some (.wrote m pkt)
  -- what the SDB answers by itself does not come from another module
  | .socketOut _ .socket _ => none
  | .rejected _ _ => none

/-- An entry of a queue, as far as routing is concerned. -/
def routeEntry (p : SDBPacket) : Nat × MCSPacket := (p.idProcess, p.pkt)

def Bus.net (s : Bus) : Net Nat MCSPacket where
  queue := fun m => (s.modules m).queue.map routeEntry
  box := fun m => (s.modules m).mailbox
  history := s.history.filterMap routeEvent

/-- The packet `process_pkt_socket` wrote to a module's socket in an event, if it did. -/
def replyEvent (me : Nat) : BusEvent → Option MCSPacket
  | .socketOut m .socket pkt => if m = me then some pkt else none
  | _ => none

def Bus.replies (s : Bus) (me : Nat) : List MCSPacket := s.history.filterMap (replyEvent me)

/-! ## Frames -/

section Frames

variable {cfg : SDBConfig} {me : Nat} {s : Bus} {pkt : MCSPacket} {event : SDBQOSEvent}

@[simp] theorem Bus.update_self (s : Bus) (m : Nat) (f : SDBModule → SDBModule) :
    (s.update m f).modules m = f (s.modules m) := by
  simp [Bus.update]

theorem Bus.update_of_ne {k m : Nat} (h : k ≠ m) (s : Bus) (f : SDBModule → SDBModule) :
    (s.update m f).modules k = s.modules k := by
  simp [Bus.update, h]

@[simp] theorem Bus.update_history (s : Bus) (m : Nat) (f : SDBModule → SDBModule) :
    (s.update m f).history = s.history := rfl

@[simp] theorem Bus.update_last (s : Bus) (m : Nat) (f : SDBModule → SDBModule) :
    (s.update m f).sdbModuleLast = s.sdbModuleLast := rfl

@[simp] theorem Bus.log_modules (s : Bus) (e : BusEvent) : (s.log e).modules = s.modules := rfl

@[simp] theorem Bus.log_last (s : Bus) (e : BusEvent) :
    (s.log e).sdbModuleLast = s.sdbModuleLast := rfl

@[simp] theorem Bus.log_history (s : Bus) (e : BusEvent) :
    (s.log e).history = s.history ++ [e] := rfl

@[simp] theorem registerEvent_modules :
    (registerEvent cfg me event pkt s).modules = s.modules := by
  unfold registerEvent
  split_ifs <;> rfl

@[simp] theorem registerEvent_last :
    (registerEvent cfg me event pkt s).sdbModuleLast = s.sdbModuleLast := by
  unfold registerEvent
  split_ifs <;> rfl

@[simp] theorem registerEvent_history :
    (registerEvent cfg me event pkt s).history = s.history := by
  unfold registerEvent
  split_ifs <;> rfl

/-- On a socket that takes what is written, writing succeeds when the packet passes its check. -/
theorem mcsWriteCommand_openFd_iff (t : MCSTables) (pkt : MCSPacket) :
    (mcsWriteCommand t pkt openFd).1 = 0 ↔ checkPacket t pkt = true := by
  cases hcheck : checkPacket t pkt with
  | true => simp [mcsWriteCommand_openFd hcheck]
  | false => simp [mcsWriteCommand_refused openFd hcheck, eundef]

variable {writer : Writer}

@[simp] theorem writeCommand_modules :
    (writeCommand cfg me writer pkt s).modules = s.modules := by
  unfold writeCommand
  split_ifs <;> rfl

@[simp] theorem writeCommand_last :
    (writeCommand cfg me writer pkt s).sdbModuleLast = s.sdbModuleLast := by
  unfold writeCommand
  split_ifs <;> rfl

theorem writeCommand_of_check (h : checkPacket cfg.tables pkt = true) :
    writeCommand cfg me writer pkt s = s.log (.socketOut me writer pkt) := by
  simp [writeCommand, (mcsWriteCommand_openFd_iff cfg.tables pkt).2 h]

theorem writeCommand_of_not_check (h : checkPacket cfg.tables pkt = false) :
    writeCommand cfg me writer pkt s = s := by
  have hfail : ¬ (mcsWriteCommand cfg.tables pkt openFd).1 = 0 := by
    simp [mcsWriteCommand_openFd_iff, h]
  simp [writeCommand, hfail]

end Frames

/-! ## What the parts of the handlers do to the network -/

section Net

variable {cfg : SDBConfig} {me : Nat} {s : Bus} {pkt : MCSPacket}

theorem net_congr {s s' : Bus} (hmodules : s'.modules = s.modules)
    (hhistory : s'.history = s.history) : s'.net = s.net := by
  simp [Bus.net, hmodules, hhistory]

theorem replies_congr {s s' : Bus} (h : s'.history = s.history) (me : Nat) :
    s'.replies me = s.replies me := by
  simp [Bus.replies, h]

@[simp] theorem net_registerEvent (event : SDBQOSEvent) :
    (registerEvent cfg me event pkt s).net = s.net :=
  net_congr registerEvent_modules registerEvent_history

@[simp] theorem replies_registerEvent (event : SDBQOSEvent) (k : Nat) :
    (registerEvent cfg me event pkt s).replies k = s.replies k :=
  replies_congr registerEvent_history k

@[simp] theorem replies_update (m k : Nat) (f : SDBModule → SDBModule) :
    (s.update m f).replies k = s.replies k := rfl

/-- An update of a module that leaves its queue and its mailbox alone. -/
theorem net_update {m : Nat} {f : SDBModule → SDBModule}
    (hqueue : (f (s.modules m)).queue = (s.modules m).queue)
    (hmailbox : (f (s.modules m)).mailbox = (s.modules m).mailbox) :
    (s.update m f).net = s.net := by
  have hmod : ∀ k, ((s.update m f).modules k).queue = (s.modules k).queue ∧
      ((s.update m f).modules k).mailbox = (s.modules k).mailbox := by
    intro k
    by_cases hk : k = m
    · subst hk
      simp [hqueue, hmailbox]
    · simp [Bus.update_of_ne hk]
  simp [Bus.net, hmod]

theorem net_update_queue (m : Nat) (f : SDBModule → List SDBPacket) :
    (s.update m fun x => { x with queue := f x }).net =
      { s.net with
        queue := Function.update s.net.queue m ((f (s.modules m)).map routeEntry) } := by
  have hqueue : (fun k => ((s.update m fun x => { x with queue := f x }).modules k).queue.map
      routeEntry) = Function.update s.net.queue m ((f (s.modules m)).map routeEntry) := by
    funext k
    by_cases hk : k = m
    · subst hk
      simp
    · simp [Bus.update_of_ne hk, hk, Bus.net]
  have hbox : (fun k => ((s.update m fun x => { x with queue := f x }).modules k).mailbox) =
      s.net.box := by
    funext k
    by_cases hk : k = m
    · subst hk
      simp [Bus.net]
    · simp [Bus.update_of_ne hk, Bus.net]
  simp only [Bus.net] at hqueue hbox ⊢
  simp [hqueue, hbox]

theorem net_update_mailbox (m : Nat) (box : Option (Nat × MCSPacket)) :
    (s.update m fun x => { x with mailbox := box }).net =
      { s.net with box := Function.update s.net.box m box } := by
  have hqueue : (fun k => ((s.update m fun x => { x with mailbox := box }).modules k).queue.map
      routeEntry) = s.net.queue := by
    funext k
    by_cases hk : k = m
    · subst hk
      simp [Bus.net]
    · simp [Bus.update_of_ne hk, Bus.net]
  have hbox : (fun k => ((s.update m fun x => { x with mailbox := box }).modules k).mailbox) =
      Function.update s.net.box m box := by
    funext k
    by_cases hk : k = m
    · subst hk
      simp
    · simp [Bus.update_of_ne hk, hk, Bus.net]
  simp only [Bus.net] at hqueue hbox ⊢
  simp [hqueue, hbox]

theorem net_log (e : BusEvent) :
    (s.log e).net = { s.net with history := s.net.history ++ (routeEvent e).toList } := by
  cases he : routeEvent e with
  | none => simp [Bus.net, Bus.log, List.filterMap_append, he]
  | some r => simp [Bus.net, Bus.log, List.filterMap_append, he]

theorem replies_log (e : BusEvent) (k : Nat) :
    (s.log e).replies k = s.replies k ++ (replyEvent k e).toList := by
  cases he : replyEvent k e with
  | none => simp [Bus.replies, Bus.log, List.filterMap_append, he]
  | some r => simp [Bus.replies, Bus.log, List.filterMap_append, he]

end Net

end SDB
end AbsPlatform
