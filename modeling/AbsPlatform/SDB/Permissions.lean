import AbsPlatform.MCS.CommandSet
import AbsPlatform.SDB.Effects

/-!
# Permissions — message authorisation against the configuration

The configuration of a message lists the groups that may send it and the groups that may receive
it.  `Authorised` is what the documentation makes of these lists; `Scanned` is what the loops of
`process_pkt_message` see of one of them: the first `sizeof(pointer) / sizeof(SDBGroup)` entries of
the zero-padded array, and the wildcard in front only.  `Misjudged` lists the messages for which
the difference matters.
-/

namespace AbsPlatform
namespace SDB

open MCS Lib

/-! ## The configuration -/

/-- A message command of the configuration, with at most `SDB_GROUP_MAX` groups in its lists. -/
structure MessageConfig where
  cmd : MCSCommandOptionsCommon
  destination : Option CString
  originGroups : List SDBGroup
  destinationGroups : List SDBGroup
  origin_le : originGroups.length ≤ sdbGroupMax
  destination_le : destinationGroups.length ≤ sdbGroupMax

/-- A list names a group; `any` stands for every group. -/
def Listed (groups : List SDBGroup) (group : SDBGroup) : Prop := .any ∈ groups ∨ group ∈ groups

namespace MessageConfig

/-- The entry of the table: C arrays initialised from the lists. -/
def entry (c : MessageConfig) : MCSCommandOptionsMessage where
  cmd := c.cmd
  destination := c.destination
  originGroups := groupArray c.originGroups
  destinationGroups := groupArray c.destinationGroups

/-- The destination is the name of a module. -/
def Static (c : MessageConfig) : Prop := ∃ d, c.destination = some d ∧ d.first ≠ 64

/-- The documentation: the sender's group is listed, and so is the receiver's unless the
destination is static. -/
def Authorised (c : MessageConfig) (sender receiver : SDBGroup) : Prop :=
  Listed c.originGroups sender ∧ (c.Static ∨ Listed c.destinationGroups receiver)

end MessageConfig

/-! ## What the loops see -/

/-- The group is found in the part of the padded array that is looked at. -/
def Scanned (arch : Arch) (groups : List SDBGroup) (group : SDBGroup) : Prop :=
  groups.head? = some .any ∨ group ∈ groups.take (arch.ptrSize / sizeofGroup) ∨
    (group = .syscore ∧ groups.length < arch.ptrSize / sizeofGroup)

/-- The group is not in the list, but it is the one that the padding stands for. -/
structure InPadding (arch : Arch) (groups : List SDBGroup) (group : SDBGroup) : Prop where
  group_eq : group = .syscore
  short : groups.length < arch.ptrSize / sizeofGroup
  unlisted : ¬ Listed groups group

theorem Scanned.listed {arch : Arch} {groups : List SDBGroup} {group : SDBGroup}
    (h : Scanned arch groups group) (hpadding : ¬ InPadding arch groups group) :
    Listed groups group := by
  rcases h with hany | hmem | ⟨heq, hshort⟩
  · exact Or.inl (List.mem_of_mem_head? hany)
  · exact Or.inr (List.mem_of_mem_take hmem)
  · by_contra hnot
    exact hpadding ⟨heq, hshort, hnot⟩

theorem InPadding.scanned {arch : Arch} {groups : List SDBGroup} {group : SDBGroup}
    (h : InPadding arch groups group) : Scanned arch groups group :=
  Or.inr (Or.inr ⟨h.group_eq, h.short⟩)

theorem toList_groupArray (groups : List SDBGroup) :
    (groupArray groups).toList =
      [groups.getD 0 .syscore, groups.getD 1 .syscore, groups.getD 2 .syscore,
        groups.getD 3 .syscore, groups.getD 4 .syscore] := rfl

theorem groupAllowed_groupArray_iff (arch : Arch) (groups : List SDBGroup) (group : SDBGroup) :
    groupAllowed arch (groupArray groups) group = true ↔ Scanned arch groups group := by
  -- one or two entries are looked at, so it is enough to know how the list begins
  have hlen : ∀ rest : List SDBGroup, ¬ rest.length + 1 + 1 < 2 := fun rest => by omega
  rcases groups with _ | ⟨a, _ | ⟨b, rest⟩⟩ <;> cases arch <;>
    simp [groupAllowed, scanGroups, Scanned, toList_groupArray, Arch.ptrSize, sizeofGroup,
      @eq_comm _ group, hlen]

section Decision

variable {cfg : SDBConfig} {me dst : Nat} {pkt : MCSPacket} {s : Bus} {c : MessageConfig}

/-- With both tests passed the message is sent. -/
theorem routed_iff {destination name : CString}
    (hentry : cfg.tables.messages[pkt.cmd.toNat]? = some c.entry)
    (hdest : c.destination = some destination) (hname : destName destination pkt = some name)
    (hdst : findModule s name = some dst) :
    Routed cfg me pkt s dst ↔
      Scanned cfg.arch c.originGroups (s.modules me).group ∧
        Scanned cfg.arch c.destinationGroups (s.modules dst).group := by
  constructor
  · rintro ⟨entry, _, _, hentry', horigin, _, _, _, hgroup⟩
    -- a command number has one entry, so the two tests are about the lists of `c`
    have hsame : c.entry = entry := Option.some.inj (hentry.symm.trans hentry')
    subst hsame
    exact ⟨(groupAllowed_groupArray_iff _ _ _).1 horigin,
      (groupAllowed_groupArray_iff _ _ _).1 hgroup⟩
  · rintro ⟨horigin, hgroup⟩
    exact ⟨c.entry, destination, name, hentry, (groupAllowed_groupArray_iff _ _ _).2 horigin,
      hdest, hname, hdst, (groupAllowed_groupArray_iff _ _ _).2 hgroup⟩

/-- Otherwise the sender is told that it lacks the permission. -/
theorem processPktMessage_of_not_routed {destination name : CString}
    (hentry : cfg.tables.messages[pkt.cmd.toNat]? = some c.entry)
    (hdest : c.destination = some destination) (hname : destName destination pkt = some name)
    (hdst : findModule s name = some dst) (hnot : ¬ Routed cfg me pkt s dst) :
    processPktMessage cfg me pkt s = .ok (refuse cfg me pkt eperm s) := by
  have hdest' : c.entry.destination = some destination := hdest
  -- whichever of the two loops ends without a match, the answer is the same
  cases horigin : groupAllowed cfg.arch c.entry.originGroups (s.modules me).group with
  | false => simp [processPktMessage, hentry, horigin]
  | true =>
      cases hgroup : groupAllowed cfg.arch c.entry.destinationGroups (s.modules dst).group with
      | false => simp [processPktMessage, hentry, horigin, hdest', hname, hdst, hgroup]
      | true =>
          exact absurd ⟨c.entry, destination, name, hentry, horigin, hdest', hname, hdst, hgroup⟩
            hnot

/-- A message without a destination is refused to the groups that are not found, and otherwise
carried out by the SDB. -/
theorem processPktMessage_of_null (hentry : cfg.tables.messages[pkt.cmd.toNat]? = some c.entry)
    (hdest : c.destination = none) :
    (¬ Scanned cfg.arch c.originGroups (s.modules me).group ∧
        processPktMessage cfg me pkt s = .ok (refuse cfg me pkt eperm s)) ∨
      (Scanned cfg.arch c.originGroups (s.modules me).group ∧
        processPktMessage cfg me pkt s = .ok (processSdbCommand cfg me pkt s)) := by
  have hdest' : c.entry.destination = none := hdest
  have hscan : groupAllowed cfg.arch c.entry.originGroups (s.modules me).group = true ↔
      Scanned cfg.arch c.originGroups (s.modules me).group := groupAllowed_groupArray_iff _ _ _
  cases horigin : groupAllowed cfg.arch c.entry.originGroups (s.modules me).group with
  | false =>
      refine Or.inl ⟨fun h => ?_, by simp [processPktMessage, hentry, horigin]⟩
      simp [hscan.2 h] at horigin
  | true =>
      exact Or.inr ⟨hscan.1 horigin, processPktMessage_of_forSDB ⟨c.entry, hentry, horigin, hdest'⟩⟩

/-- What leaves the network alone is not a message sent: the queue of the sender tells them
apart. -/
theorem sendMessage_ne_of_net {s' : Bus} (hnet : s'.net = s.net) :
    sendMessage cfg me pkt dst s ≠ .ok s' := by
  intro h
  have hpushed : (queuePush me pkt me s).net.queue me = s.net.queue me ++ [(me, pkt)] := by
    simp [net_queuePush]
  have hqueue : s'.net.queue me = (queuePush me pkt me s).net.queue me := by
    rcases sendMessage_cases h with ⟨_, hmailed⟩ | ⟨hsame, _⟩
    · rw [hmailed.net]
    · rw [hsame]
  rw [hnet, hpushed] at hqueue
  simp at hqueue

/-- The SDB never answers its own commands with `EPERM`. -/
theorem sdbReplies_ne_eperm {r : MCSPacket} (hr : r ∈ sdbReplies cfg me pkt s) :
    r ≠ mcsErrPacket pkt eperm := by
  rintro rfl
  -- the error codes differ, and so do the data of the error packets
  have hcodes : ∀ e, e = eundef ∨ e = ebadformat → mcsErrPacket pkt eperm ≠ mcsErrPacket pkt e := by
    rintro e he heq
    have hdata : some (intBytes eperm) = some (intBytes e) := congrArg MCSPacket.data heq
    rcases he with rfl | rfl <;> exact absurd hdata (by decide)
  have hdump : mcsErrPacket pkt eperm ∉ dumpReply cfg me pkt s := by
    intro hmem
    unfold dumpReply accepted at hmem
    split_ifs at hmem with hon hcheck
    · have htype : MCSType.err.code = MCSType.okData.code :=
        congrArg MCSPacket.type (List.mem_singleton.1 hmem)
      exact absurd htype (by decide)
    · simp at hmem
    · exact hcodes eundef (Or.inl rfl) (List.mem_singleton.1 hmem)
  unfold sdbReplies at hr
  split_ifs at hr with hstart hdumpCmd hstop
  · have htype : MCSType.err.code = MCSType.ok.code :=
      congrArg MCSPacket.type (List.mem_singleton.1 hr)
    exact absurd htype (by decide)
  · exact hdump hr
  · rcases List.mem_append.1 hr with hr | hr
    · exact hdump hr
    · exact hcodes ebadformat (Or.inr rfl) (List.mem_singleton.1 hr)
  · exact hcodes ebadformat (Or.inr rfl) (List.mem_singleton.1 hr)

end Decision

/-! ## What the documentation promises -/

/-- The message is sent exactly when the configuration authorises it; otherwise the sender gets
`EPERM`, and no queue and no mailbox changes. -/
def Enforced (cfg : SDBConfig) (me dst : Nat) (pkt : MCSPacket) (s : Bus) (c : MessageConfig) :
    Prop :=
  (processPktMessage cfg me pkt s = sendMessage cfg me pkt dst s ↔
      c.Authorised (s.modules me).group (s.modules dst).group) ∧
    (¬ c.Authorised (s.modules me).group (s.modules dst).group →
      ∃ s', processPktMessage cfg me pkt s = .ok s' ∧
        s'.replies me = s.replies me ++ [mcsErrPacket pkt eperm] ∧
        ∀ k, (s'.modules k).queue = (s.modules k).queue ∧
          (s'.modules k).mailbox = (s.modules k).mailbox)

theorem refuse_modules {cfg : SDBConfig} {me : Nat} {pkt : MCSPacket} {s : Bus} (errCode : Int) :
    (refuse cfg me pkt errCode s).modules = s.modules := by
  simp [refuse]

/-- The messages that are not treated as the configuration says. -/
inductive Misjudged (arch : Arch) (c : MessageConfig) (sender receiver : SDBGroup) : Prop
  /-- the sender is listed, but behind the entries that are looked at -/
  | senderOverlooked : c.Authorised sender receiver →
      ¬ Scanned arch c.originGroups sender → Misjudged arch c sender receiver
  /-- the receiver is listed behind these entries, or it need not be listed -/
  | receiverOverlooked : c.Authorised sender receiver →
      ¬ Scanned arch c.destinationGroups receiver → Misjudged arch c sender receiver
  /-- the sender is found in the padding only -/
  | senderInPadding : InPadding arch c.originGroups sender →
      Scanned arch c.destinationGroups receiver → Misjudged arch c sender receiver
  /-- the receiver is found in the padding only -/
  | receiverInPadding : ¬ c.Static → InPadding arch c.destinationGroups receiver →
      Scanned arch c.originGroups sender → Misjudged arch c sender receiver
  /-- there is nobody to send the message to, and the sender passes or should pass -/
  | noDestination : c.destination = none →
      c.Authorised sender receiver ∨ Scanned arch c.originGroups sender →
      Misjudged arch c sender receiver

/-- Both loops end with a group found exactly for the authorised messages, unless one of the lists
is misjudged. -/
theorem scanned_iff_authorised {arch : Arch} {c : MessageConfig} {sender receiver : SDBGroup}
    (hdest : c.destination ≠ none) :
    ((Scanned arch c.originGroups sender ∧ Scanned arch c.destinationGroups receiver) ↔
        c.Authorised sender receiver) ↔ ¬ Misjudged arch c sender receiver := by
  constructor
  · intro hiff hmis
    cases hmis with
    | senderOverlooked hauth hnot => exact hnot (hiff.2 hauth).1
    | receiverOverlooked hauth hnot => exact hnot (hiff.2 hauth).2
    | senderInPadding hpadding hreceiver =>
        exact hpadding.unlisted (hiff.1 ⟨hpadding.scanned, hreceiver⟩).1
    | receiverInPadding hstatic hpadding hsender =>
        have hauth := hiff.1 ⟨hsender, hpadding.scanned⟩
        exact hpadding.unlisted (hauth.2.resolve_left hstatic)
    | noDestination hnone _ => exact hdest hnone
  · intro hmis
    constructor
    · rintro ⟨hsender, hreceiver⟩
      -- what is found is listed, unless it is only in the padding
      refine ⟨hsender.listed fun hpadding => hmis (.senderInPadding hpadding hreceiver), ?_⟩
      by_cases hstatic : c.Static
      · exact Or.inl hstatic
      · exact Or.inr
          (hreceiver.listed fun hpadding => hmis (.receiverInPadding hstatic hpadding hsender))
    · intro hauth
      -- what is authorised is found, unless it is overlooked
      exact ⟨by_contra fun hnot => hmis (.senderOverlooked hauth hnot),
        by_contra fun hnot => hmis (.receiverOverlooked hauth hnot)⟩

section Enforcement

variable {cfg : SDBConfig} {me dst : Nat} {pkt : MCSPacket} {s : Bus} {c : MessageConfig}

/-- An `EPERM` is the whole effect of a refusal. -/
theorem refuse_eperm :
    (refuse cfg me pkt eperm s).replies me = s.replies me ++ [mcsErrPacket pkt eperm] ∧
      ∀ k, ((refuse cfg me pkt eperm s).modules k).queue = (s.modules k).queue ∧
        ((refuse cfg me pkt eperm s).modules k).mailbox = (s.modules k).mailbox :=
  ⟨(replied_refuse eperm).replies, fun k => by simp [refuse_modules]⟩

/-- A message with a destination: what the two loops find decides. -/
theorem enforced_iff_scanned {destination name : CString}
    (hentry : cfg.tables.messages[pkt.cmd.toNat]? = some c.entry)
    (hdest : c.destination = some destination) (hname : destName destination pkt = some name)
    (hfind : findModule s name = some dst) :
    Enforced cfg me dst pkt s c ↔
      ((Scanned cfg.arch c.originGroups (s.modules me).group ∧
          Scanned cfg.arch c.destinationGroups (s.modules dst).group) ↔
        c.Authorised (s.modules me).group (s.modules dst).group) := by
  -- a refusal and a message that is sent differ in the queue of the sender
  have hsent : processPktMessage cfg me pkt s = sendMessage cfg me pkt dst s ↔
      Routed cfg me pkt s dst := by
    constructor
    · intro heq
      by_contra hnot
      rw [processPktMessage_of_not_routed hentry hdest hname hfind hnot] at heq
      exact sendMessage_ne_of_net (replied_refuse eperm).net heq.symm
    · exact processPktMessage_of_routed
  unfold Enforced
  rw [hsent, routed_iff hentry hdest hname hfind]
  constructor
  · exact fun h => h.1
  · intro hiff
    refine ⟨hiff, fun hnot => ?_⟩
    rw [← hiff, ← routed_iff hentry hdest hname hfind] at hnot
    exact ⟨_, processPktMessage_of_not_routed hentry hdest hname hfind hnot, refuse_eperm⟩

/-- A message without a destination is never sent, and it is refused when its sender is not
found. -/
theorem enforced_iff_of_null (hentry : cfg.tables.messages[pkt.cmd.toNat]? = some c.entry)
    (hdest : c.destination = none) :
    Enforced cfg me dst pkt s c ↔
      ¬ (c.Authorised (s.modules me).group (s.modules dst).group ∨
        Scanned cfg.arch c.originGroups (s.modules me).group) := by
  have hnever : processPktMessage cfg me pkt s ≠ sendMessage cfg me pkt dst s := by
    intro heq
    rcases processPktMessage_of_null hentry hdest with ⟨_, hcode⟩ | ⟨_, hcode⟩
    · exact sendMessage_ne_of_net (replied_refuse eperm).net (heq.symm.trans hcode)
    · exact sendMessage_ne_of_net replied_processSdbCommand.net (heq.symm.trans hcode)
  unfold Enforced
  simp only [hnever, false_iff, not_or]
  refine and_congr_right fun hnot => ?_
  rcases processPktMessage_of_null hentry hdest with ⟨hscan, hcode⟩ | ⟨hscan, hcode⟩
  · exact iff_of_true (fun _ => ⟨_, hcode, refuse_eperm⟩) hscan
  · -- the SDB has carried the command out
    refine iff_of_false (fun h => ?_) (fun h => h hscan)
    rcases h hnot with ⟨s', hcode', hreplies, _⟩
    have hsame : s' = processSdbCommand cfg me pkt s := by
      simpa using hcode'.symm.trans hcode
    rw [hsame, replied_processSdbCommand.replies] at hreplies
    have hlist := List.append_cancel_left hreplies
    exact sdbReplies_ne_eperm (by rw [hlist]; simp) rfl

end Enforcement

/-- A message is sent, or refused with `EPERM`, as the configuration says, exactly when it is none
of those that are misjudged. -/
theorem message_enforced_iff (cfg : SDBConfig) (me dst : Nat) (pkt : MCSPacket) (s : Bus)
    (c : MessageConfig) (hentry : cfg.tables.messages[pkt.cmd.toNat]? = some c.entry)
    (hdst : ∀ destination ∈ c.destination,
      ∃ name, destName destination pkt = some name ∧ findModule s name = some dst) :
    Enforced cfg me dst pkt s c ↔
      ¬ Misjudged cfg.arch c (s.modules me).group (s.modules dst).group := by
  cases hdest : c.destination with
  | some destination =>
      rcases hdst destination hdest with ⟨name, hname, hfind⟩
      calc Enforced cfg me dst pkt s c
          ↔ ((Scanned cfg.arch c.originGroups (s.modules me).group ∧
                Scanned cfg.arch c.destinationGroups (s.modules dst).group) ↔
              c.Authorised (s.modules me).group (s.modules dst).group) :=
            enforced_iff_scanned hentry hdest hname hfind
        _ ↔ ¬ Misjudged cfg.arch c (s.modules me).group (s.modules dst).group :=
            scanned_iff_authorised (by simp [hdest])
  | none =>
      rw [enforced_iff_of_null hentry hdest]
      -- each kind says that the sender is authorised or found
      refine not_congr ⟨.noDestination hdest, fun hmis => ?_⟩
      cases hmis with
      | senderOverlooked hauth _ => exact Or.inl hauth
      | receiverOverlooked hauth _ => exact Or.inl hauth
      | senderInPadding hpadding _ => exact Or.inr hpadding.scanned
      | receiverInPadding _ _ hsender => exact Or.inr hsender
      | noDestination _ h => exact h

/-! ## The shipped configuration -/

/-- `procman_start`: `syscore` may send it, and its destination is the process manager. -/
def procmanStart : MessageConfig where
  cmd := { nargs := 0, rawData := false, responseSize := 0 }
  destination := some procmanName
  originGroups := [.syscore]
  destinationGroups := []
  origin_le := by decide
  destination_le := by decide

/-- `test`: every module may send it to every module. -/
def testCommand : MessageConfig where
  cmd := { nargs := 0, rawData := false, responseSize := 0 }
  destination := some argDestination
  originGroups := [.any]
  destinationGroups := [.any]
  origin_le := by decide
  destination_le := by decide

def procmanStartPacket : MCSPacket := rawPacket 7 5 none emptyBlock emptyBlock

def testPacket : MCSPacket := rawPacket 7 0 (some procmanName) emptyBlock emptyBlock

/-- What a client writes to send `testPacket`. -/
def testBytes : List UInt8 := (mcsWriteCommand commandSet testPacket openFd).2

theorem message_enforced_iff_test :
    Enforced (shippedConfig .lp64) 0 1 testPacket coreAndProcman testCommand := by
  refine (message_enforced_iff (shippedConfig .lp64) 0 1 testPacket coreAndProcman testCommand rfl
    (fun destination hdest => ?_)).2 fun hmis => ?_
  · cases hdest
    exact ⟨procmanName, rfl, rfl⟩
  · -- `any` is in front of both lists
    cases hmis with
    | senderOverlooked _ hnot => exact hnot (Or.inl rfl)
    | receiverOverlooked _ hnot => exact hnot (Or.inl rfl)
    | senderInPadding hpadding _ => exact hpadding.unlisted (Or.inl (by decide))
    | receiverInPadding _ hpadding _ => exact hpadding.unlisted (Or.inl (by decide))
    | noDestination hnone _ => cases hnone

/-- The process manager cannot be started: its group is looked for in an array of zeroes, although
the destination is static. -/
theorem procmanStart_refused :
    procmanStart.Authorised .syscore .procman ∧
      ∀ arch : Arch,
        processPktMessage (shippedConfig arch) 0 procmanStartPacket coreAndProcman =
            .ok (refuse (shippedConfig arch) 0 procmanStartPacket eperm coreAndProcman) ∧
          ¬ Enforced (shippedConfig arch) 0 1 procmanStartPacket coreAndProcman procmanStart := by
  have hauthorised : procmanStart.Authorised .syscore .procman :=
    ⟨Or.inr (by decide), Or.inl ⟨procmanName, rfl, by decide⟩⟩
  refine ⟨hauthorised, fun arch => ?_⟩
  have hcode : processPktMessage (shippedConfig arch) 0 procmanStartPacket coreAndProcman =
      .ok (refuse (shippedConfig arch) 0 procmanStartPacket eperm coreAndProcman) := by
    cases arch <;> rfl
  refine ⟨hcode, fun henforced => ?_⟩
  have hsent := henforced.1.2 hauthorised
  exact sendMessage_ne_of_net (replied_refuse eperm).net (hsent.symm.trans hcode)

end SDB
end AbsPlatform
