import AbsPlatform.Lib.Separated
import AbsPlatform.MCS.Frame
import AbsPlatform.SDB.Admission

/-!
# HandshakeGrammar — which first packets register a module

The data of a handshake should be `name:group` up to its first NUL, within the bytes of the packet,
with a name that fits `SDB_MODULE_NAME_SIZE` and a group of `sdb_group_conversion`.
`sdb_module_thread` looks for the separator and the terminator past the end of the data, its test of
the length never refuses a name, and it sets `mod->name` before it looks for the group: the name of
a module that is refused stays in the table.
-/

namespace AbsPlatform
namespace SDB

open Lib MCS

/-! ## The grammar -/

/-- The data says this name and this group. -/
structure Speaks (data : List UInt8) (name : CString) (group : SDBGroup) : Prop where
  text : ∃ str, (group, str) ∈ sdbGroupConversion ∧
    data.takeWhile (· ≠ 0) = name.bytes ++ 58 :: str.bytes
  separator : 58 ∉ name.bytes
  short : name.strlen ≤ sdbModuleNameSize

/-- A handshake as it should be. -/
def InGrammar (pkt : MCSPacket) (name : CString) (group : SDBGroup) : Prop :=
  pkt.type = MCSType.message.code ∧ pkt.cmd = 1 ∧
    ∃ data, pkt.data = some data ∧ Speaks data name group

/-- A module whose first packet has come to this is never found by a lookup, whatever happens in
the rest of the run. -/
def NeverAddressable (t : MCSTables) (greeting : Greeting) : Prop :=
  ∀ acts s i, Registry.init.run t acts = some s → (s.slots i).phase = .shaking →
    ∀ acts' s', (s.set i ((s.slots i).greet greeting)).run t acts' = some s' →
      ∀ dest, s'.lookup dest ≠ some (some i)

/-- The first packet is answered with `OK`, which an open descriptor gets whole, and the module has
this name and this group. -/
def Registers (t : MCSTables) (rfd : Int) (wfd : WriteFd) (input : List UInt8) (pkt : MCSPacket)
    (name : CString) (group : SDBGroup) : Prop :=
  ∃ first, firstPacket t rfd wfd input = some first ∧
    first.reply = (mcsWriteCommand t (mcsOkPacket pkt) wfd).2 ∧
    (wfd = openFd → first.reply = (Frame.ok pkt.id).bytes) ∧
    first.greeting = .accepted name group

/-- The first packet is answered with `ECONNREFUSED`, which an open descriptor gets whole, and the
module cannot be sent to. -/
def Refuses (t : MCSTables) (rfd : Int) (wfd : WriteFd) (input : List UInt8) (pkt : MCSPacket) :
    Prop :=
  ∃ first, firstPacket t rfd wfd input = some first ∧
    first.reply = (mcsWriteCommand t (mcsErrPacket pkt econnrefused) wfd).2 ∧
    (wfd = openFd → first.reply = (Frame.error pkt.id econnrefused).bytes) ∧
    NeverAddressable t first.greeting

/-! ## The string functions -/

section Strings

variable {c : UInt8} {data rest : List UInt8}

/-- A terminator that comes before every separator. -/
theorem strchr_terminated (hc : c ∉ data.takeWhile (· ≠ 0)) (h0 : 0 ∈ data) (hne : c ≠ 0) :
    strchr c data = some none := by
  induction data with
  | nil => simp at h0
  | cons b data ih =>
      by_cases hb : b = 0
      · simp [strchr, hb, Ne.symm hne]
      · have hbc : b ≠ c := by
          rintro rfl
          simp [hb] at hc
        have htail : c ∉ data.takeWhile (· ≠ 0) := by
          intro hmem
          rw [List.takeWhile_cons_of_pos (by simpa using hb)] at hc
          exact hc (List.mem_cons_of_mem b hmem)
        have hzero : 0 ∈ data := by simpa [Ne.symm hb] using h0
        simp [strchr, hb, hbc, ih htail hzero]

/-- Without either of them the search leaves the block. -/
theorem strchr_unterminated (hc : c ∉ data) (h0 : 0 ∉ data) : strchr c data = none := by
  induction data with
  | nil => rfl
  | cons b data ih =>
      have hbc : b ≠ c := fun h => hc (by simp [h])
      have hb : b ≠ 0 := fun h => h0 (by simp [h])
      have htail := ih (fun h => hc (by simp [h])) (fun h => h0 (by simp [h]))
      simp [strchr, hbc, hb, htail]

/-- Only a string with a terminator is equal to another one. -/
theorem mem_zero_of_strcmpEq {bs cs : List UInt8} (h : strcmpEq bs cs = some true) : 0 ∈ bs := by
  induction bs generalizing cs with
  | nil => simp [strcmpEq] at h
  | cons b bs ih =>
      cases cs with
      | nil =>
          have hb : b = 0 := by simpa [strcmpEq] using h
          simp [hb]
      | cons c cs =>
          simp only [strcmpEq] at h
          split_ifs at h
          · exact List.mem_cons_of_mem b (ih h)
          · simp at h

theorem mem_zero_of_findGroup {entries : List (SDBGroup × CString)} {group : SDBGroup}
    (h : findGroup rest entries = some (some group)) : 0 ∈ rest := by
  induction entries with
  | nil => simp [findGroup] at h
  | cons e entries ih =>
      rcases e with ⟨val, str⟩
      rw [findGroup] at h
      cases hcmp : strcmpEq rest str.bytes with
      | none => simp [hcmp] at h
      | some found =>
          cases found with
          | true => exact mem_zero_of_strcmpEq hcmp
          | false => exact ih (by simpa [hcmp] using h)

end Strings

/-! ## The handshake -/

section Handshake

variable {pkt : MCSPacket} {data bs rest : List UInt8} {name : CString} {group : SDBGroup}

theorem mcsCommand_eq_handshake_iff (pkt : MCSPacket) :
    mcsCommand pkt = mcsMessageSdbHandshake ↔ pkt.type = MCSType.message.code ∧ pkt.cmd = 1 := by
  constructor
  · intro h
    have hval : pkt.type.toNat <<< 2 ||| pkt.cmd.toNat = 1 := by
      rw [← toNat_mcsCommand, h]
      rfl
    -- a type other than 0 would leave a bit above the lowest one
    have hle : pkt.type.toNat <<< 2 ≤ 1 := hval ▸ Nat.left_le_or
    have htype : pkt.type.toNat = 0 := by
      rw [Nat.shiftLeft_eq] at hle
      omega
    have hcmd : pkt.cmd.toNat = 1 := by simpa [htype] using hval
    exact ⟨UInt8.toNat_inj.1 htype, UInt16.toNat_inj.1 hcmd⟩
  · rintro ⟨htype, hcmd⟩
    refine UInt32.toNat_inj.1 ?_
    rw [mcsCommand_of_message htype, hcmd]
    rfl

theorem handshake_terminated (hcmd : mcsCommand pkt = mcsMessageSdbHandshake)
    (hdata : pkt.data = some data) (hsep : 58 ∉ data.takeWhile (· ≠ 0)) (h0 : 0 ∈ data) :
    handshake pkt = some (.refused none) := by
  simp [handshake, hcmd, hdata, strchr_terminated hsep h0 (by decide)]

theorem handshake_unterminated (hcmd : mcsCommand pkt = mcsMessageSdbHandshake)
    (hdata : pkt.data = some data) (hsep : 58 ∉ data) (h0 : 0 ∉ data) : handshake pkt = none := by
  simp [handshake, hcmd, hdata, strchr_unterminated hsep h0]

/-- The text of data with a separator. -/
theorem takeWhile_append (h0 : ∀ b ∈ bs, b ≠ 0) :
    (bs ++ 58 :: rest).takeWhile (· ≠ 0) = bs ++ 58 :: rest.takeWhile (· ≠ 0) := by
  rw [List.takeWhile_append_of_pos (by simpa using h0),
    List.takeWhile_cons_of_pos (by decide)]

/-- What is in front of the first separator is the name. -/
theorem speaks_append_iff (hsep : ∀ b ∈ bs, b ≠ 58) (h0 : ∀ b ∈ bs, b ≠ 0) :
    Speaks (bs ++ 58 :: rest) name group ↔
      name = CString.ofBuffer bs ∧ (group, CString.ofBuffer rest) ∈ sdbGroupConversion ∧
        bs.length ≤ sdbModuleNameSize := by
  have hbs : (CString.ofBuffer bs).bytes = bs := CString.ofBuffer_eq_self h0
  constructor
  · rintro ⟨⟨str, hmem, htext⟩, hname, hshort⟩
    rw [takeWhile_append h0] at htext
    rcases append_cons_inj (fun h => hsep 58 h rfl) hname htext with ⟨hbytes, _, hrest⟩
    have hstr : CString.ofBuffer rest = str := CString.ext_bytes hrest
    refine ⟨CString.ext_bytes (hbytes.symm.trans hbs.symm), hstr ▸ hmem, ?_⟩
    rw [hbytes]
    exact hshort
  · rintro ⟨rfl, hmem, hshort⟩
    refine ⟨⟨_, hmem, ?_⟩, ?_, ?_⟩
    · rw [takeWhile_append h0, hbs]
      rfl
    · rw [hbs]
      exact fun h => hsep 58 h rfl
    · rw [CString.strlen, hbs]
      exact hshort

/-- No two groups have one string. -/
theorem group_unique {group' : SDBGroup} {str : CString} (h : (group, str) ∈ sdbGroupConversion)
    (h' : (group', str) ∈ sdbGroupConversion) : group = group' := by
  have hinj : ∀ e ∈ sdbGroupConversion, ∀ e' ∈ sdbGroupConversion, e.2 = e'.2 → e.1 = e'.1 := by
    decide
  exact hinj _ h _ h' rfl

/-- The group that the loop finds behind a separator, when there is a terminator. -/
theorem findGroup_eq (h0 : 0 ∈ rest) :
    findGroup rest sdbGroupConversion =
      some ((sdbGroupConversion.find? fun e => decide (CString.ofBuffer rest = e.2)).map
        Prod.fst) := by
  have hrest : rest = (CString.ofBuffer rest).bytes ++ 0 :: (rest.dropWhile (· ≠ 0)).tail :=
    eq_takeWhile_append_cons h0
  conv_lhs => rw [hrest]
  exact findGroup_terminated _ _ _

theorem find?_group_iff (str : CString) :
    (sdbGroupConversion.find? fun e => decide (str = e.2)).map Prod.fst = some group ↔
      (group, str) ∈ sdbGroupConversion := by
  constructor
  · intro h
    rcases Option.map_eq_some_iff.1 h with ⟨e, he, rfl⟩
    have hstr : str = e.2 := by simpa using List.find?_some he
    exact hstr ▸ List.mem_of_find?_eq_some he
  · intro hmem
    cases hfind : sdbGroupConversion.find? fun e => decide (str = e.2) with
    | none => exact absurd (List.find?_eq_none.1 hfind _ hmem) (by simp)
    | some e =>
        have hstr : str = e.2 := by simpa using List.find?_some hfind
        have he : (e.1, str) ∈ sdbGroupConversion := hstr ▸ List.mem_of_find?_eq_some hfind
        rw [Option.map_some, group_unique he hmem]

/-- A module is accepted for a terminated text with a group that is known, whatever the length of
its name. -/
theorem handshake_append_iff (hcmd : mcsCommand pkt = mcsMessageSdbHandshake)
    (hdata : pkt.data = some (bs ++ 58 :: rest)) (hsep : ∀ b ∈ bs, b ≠ 58)
    (h0 : ∀ b ∈ bs, b ≠ 0) :
    handshake pkt = some (.accepted name group) ↔
      name = CString.ofBuffer bs ∧ 0 ∈ rest ∧
        (group, CString.ofBuffer rest) ∈ sdbGroupConversion := by
  rw [handshake_append hcmd hdata hsep h0, ← find?_group_iff]
  constructor
  · intro h
    rcases Option.map_eq_some_iff.1 h with ⟨found, hfound, hgreeting⟩
    cases found with
    | none => simp at hgreeting
    | some group' =>
        cases hgreeting
        have hzero := mem_zero_of_findGroup hfound
        rw [findGroup_eq hzero, Option.some.injEq] at hfound
        exact ⟨rfl, hzero, hfound⟩
  · rintro ⟨rfl, hzero, hfound⟩
    rw [findGroup_eq hzero, hfound]
    rfl

/-- With a separator the name is set before the group is looked at, so no such module is refused
without a trace. -/
theorem handshake_append_ne (hcmd : mcsCommand pkt = mcsMessageSdbHandshake)
    (hdata : pkt.data = some (bs ++ 58 :: rest)) (hsep : ∀ b ∈ bs, b ≠ 58)
    (h0 : ∀ b ∈ bs, b ≠ 0) : handshake pkt ≠ some (.refused none) := by
  rw [handshake_append hcmd hdata hsep h0]
  intro h
  rcases Option.map_eq_some_iff.1 h with ⟨found, _, hgreeting⟩
  cases found with
  | none => simp at hgreeting
  | some group' => simp at hgreeting

theorem inGrammar_iff (hcmd : mcsCommand pkt = mcsMessageSdbHandshake)
    (hdata : pkt.data = some data) : InGrammar pkt name group ↔ Speaks data name group := by
  rcases (mcsCommand_eq_handshake_iff pkt).1 hcmd with ⟨htype, hnum⟩
  simp [InGrammar, htype, hnum, hdata]

/-- The parser does with this data what the grammar says, and leaves no name behind when it
refuses. -/
def Parses (pkt : MCSPacket) (data : List UInt8) : Prop :=
  (∀ name group, handshake pkt = some (.accepted name group) ↔ Speaks data name group) ∧
    ((∀ name group, ¬ Speaks data name group) → handshake pkt = some (.refused none))

/-- With a separator only what is in the grammar is parsed. -/
theorem parses_append_iff (hcmd : mcsCommand pkt = mcsMessageSdbHandshake)
    (hdata : pkt.data = some (bs ++ 58 :: rest)) (hsep : ∀ b ∈ bs, b ≠ 58)
    (h0 : ∀ b ∈ bs, b ≠ 0) :
    Parses pkt (bs ++ 58 :: rest) ↔
      0 ∈ rest ∧ ∃ name group, Speaks (bs ++ 58 :: rest) name group := by
  have hne := handshake_append_ne hcmd hdata hsep h0
  simp only [Parses, handshake_append_iff hcmd hdata hsep h0]
  constructor
  · rintro ⟨haccepted, hrefused⟩
    -- the module is not refused without a trace, so it speaks the grammar
    have hspeaks : ∃ name group, Speaks (bs ++ 58 :: rest) name group := by
      by_contra hnot
      exact hne (hrefused fun name group hin => hnot ⟨name, group, hin⟩)
    rcases hspeaks with ⟨name, group, hin⟩
    exact ⟨((haccepted name group).2 hin).2.1, name, group, hin⟩
  · rintro ⟨hterm, name, group, hin⟩
    have hshort := ((speaks_append_iff hsep h0).1 hin).2.2
    refine ⟨fun name' group' => ?_, fun hnot => absurd hin (hnot name group)⟩
    simp [speaks_append_iff hsep h0, hterm, hshort]

/-- Without a separator the parser needs a terminator. -/
theorem parses_iff_terminated (hcmd : mcsCommand pkt = mcsMessageSdbHandshake)
    (hdata : pkt.data = some data) (hsep : 58 ∉ data.takeWhile (· ≠ 0)) :
    Parses pkt data ↔ 0 ∈ data := by
  have hsilent : ∀ name group, ¬ Speaks data name group := by
    rintro name group ⟨⟨str, _, htext⟩, _, _⟩
    exact hsep (by rw [htext]; simp)
  by_cases hterm : 0 ∈ data
  · have hrefused := handshake_terminated hcmd hdata hsep hterm
    refine iff_of_true ⟨fun name group => ?_, fun _ => hrefused⟩ hterm
    exact iff_of_false (by simp [hrefused]) (hsilent name group)
  · -- the whole block is text, and the search leaves it
    have htext : data.takeWhile (· ≠ 0) = data :=
      List.takeWhile_eq_self_iff.2 fun b hb => by
        simpa using fun h : b = 0 => hterm (h ▸ hb)
    have hnone := handshake_unterminated hcmd hdata (htext ▸ hsep) hterm
    refine iff_of_false (fun h => ?_) hterm
    simpa [hnone] using h.2 hsilent

theorem parses_iff (hcmd : mcsCommand pkt = mcsMessageSdbHandshake)
    (hdata : pkt.data = some data) :
    Parses pkt data ↔
      0 ∈ data ∧ (58 ∉ data.takeWhile (· ≠ 0) ∨ ∃ name group, Speaks data name group) := by
  by_cases hcolon : 58 ∈ data.takeWhile (· ≠ 0)
  · rcases exists_append_cons_of_mem_takeWhile hcolon with ⟨bs, rest, rfl, hfirst, htext⟩
    have hsep : ∀ b ∈ bs, b ≠ 58 := fun b hb hb' => hfirst (hb' ▸ hb)
    have h0 : ∀ b ∈ bs, b ≠ 0 := by simpa using htext
    have hzero : 0 ∈ bs ++ 58 :: rest ↔ 0 ∈ rest := by
      have hnot : 0 ∉ bs := fun h => h0 0 h rfl
      simp [hnot]
    rw [parses_append_iff hcmd hdata hsep h0, hzero, or_iff_right (not_not.2 hcolon)]
  · rw [parses_iff_terminated hcmd hdata hcolon]
    exact (and_iff_left (.inl hcolon)).symm

/-- The packets with which the parser does what the grammar says. -/
theorem handshake_meets_iff (pkt : MCSPacket) :
    ((∀ name group, handshake pkt = some (.accepted name group) ↔ InGrammar pkt name group) ∧
        ((∀ name group, ¬ InGrammar pkt name group) → handshake pkt = some (.refused none))) ↔
      (pkt.type = MCSType.message.code ∧ pkt.cmd = 1 →
        ∃ data, pkt.data = some data ∧ 0 ∈ data ∧
          (58 ∉ data.takeWhile (· ≠ 0) ∨ ∃ name group, Speaks data name group)) := by
  by_cases hcmd : mcsCommand pkt = mcsMessageSdbHandshake
  · rw [← mcsCommand_eq_handshake_iff, forall_prop_of_true hcmd]
    cases hdata : pkt.data with
    | none =>
        -- `strchr` of NULL
        have hnone : handshake pkt = none := by simp [handshake, hcmd, hdata]
        have hnot : ∀ name group, ¬ InGrammar pkt name group := by simp [InGrammar, hdata]
        refine iff_of_false (fun h => ?_) (by simp)
        simpa [hnone] using h.2 hnot
    | some data =>
        simp only [inGrammar_iff hcmd hdata, Option.some.injEq, exists_eq_left']
        exact parses_iff hcmd hdata
  · have hrefused : handshake pkt = some (.refused none) := by simp [handshake, hcmd]
    have hnot : ¬ (pkt.type = MCSType.message.code ∧ pkt.cmd = 1) := by
      rwa [← mcsCommand_eq_handshake_iff]
    refine iff_of_true ⟨fun name group => ?_, fun _ => hrefused⟩ (fun h => absurd h hnot)
    exact iff_of_false (by simp [hrefused]) fun h => hnot ⟨h.1, h.2.1⟩

end Handshake

/-! ## The table of modules -/

section Table

variable {t : MCSTables} {s s' : Registry} {a : RegistryAct} {i : Nat}

/-- A slot has no name before its first packet. -/
def Registry.Unnamed (s : Registry) : Prop :=
  ∀ i, (s.slots i).phase = .unused ∨ (s.slots i).phase = .orphaned ∨
    (s.slots i).phase = .created ∨ (s.slots i).phase = .shaking → (s.slots i).name = none

/-- A module that has been refused before it had a name. -/
def Registry.Gone (s : Registry) (i : Nat) : Prop :=
  (s.slots i).name = none ∧ ((s.slots i).phase = .refused ∨ (s.slots i).phase = .exited)

theorem unnamed_set (h : s.Unnamed) {slot : Slot}
    (hslot : slot.phase = .unused ∨ slot.phase = .orphaned ∨ slot.phase = .created ∨
      slot.phase = .shaking → slot.name = none) : (s.set i slot).Unnamed := by
  intro j
  by_cases hj : j = i
  · rw [hj, Registry.set_slots_self]
    exact hslot
  · rw [Registry.set_slots_of_ne s slot hj]
    exact h j

theorem unnamed_act (h : s.Unnamed) (hinv : s.Inv) (hact : s.act t a = some s') : s'.Unnamed := by
  cases act_effect hact with
  | accept fd _ _ => exact h
  | store id fd created hd =>
      -- the slot is as static storage starts
      have hzero : (s.slots id).name = none := by rw [(hinv.director id fd hd).2.1]; rfl
      exact unnamed_set h fun _ => hzero
  | start i hphase => exact unnamed_set h fun _ => h i (by simp [hphase])
  | receive i input greeting hphase =>
      refine unnamed_set h fun hslot => ?_
      rcases greeting with _ | (_ | name) | ⟨name, group⟩ <;> simp [Slot.greet] at hslot
  | finish i hphase => exact unnamed_set h fun hslot => by simp at hslot
  | leave i hphase => exact unnamed_set (s := s.clean i) h fun hslot => by simp at hslot
  | lookup i dest _ => exact h
  | observe => exact h

theorem unnamed_of_run {acts : List RegistryAct} (h : Registry.init.run t acts = some s) :
    s.Unnamed := by
  have hboth : s.Inv ∧ s.Unnamed :=
    run_invariant (I := fun s => s.Inv ∧ s.Unnamed)
      (fun hs hact => ⟨hs.1.act hact, unnamed_act hs.2 hs.1 hact⟩)
      ⟨Registry.inv_init, fun _ _ => rfl⟩ h
  exact hboth.2

/-- Another slot is written, or the slot in the phase `p`. -/
theorem gone_set (h : s.Gone i) {j : Nat} {slot : Slot} {p : Phase} (hj : (s.slots j).phase = p)
    (hp : p ≠ .refused ∧ p ≠ .exited) : (s.set j slot).Gone i := by
  have hne : i ≠ j := by
    rintro rfl
    rcases h.2 with hphase | hphase
    · exact hp.1 (hj.symm.trans hphase)
    · exact hp.2 (hj.symm.trans hphase)
  unfold Registry.Gone
  rw [Registry.set_slots_of_ne s slot hne]
  exact h

theorem gone_act (h : s.Gone i) (hinv : s.Inv) (hact : s.act t a = some s') : s'.Gone i := by
  cases act_effect hact with
  | accept fd _ _ => exact h
  | store id fd created hd =>
      have hphase : (s.slots id).phase = .unused := by rw [(hinv.director id fd hd).2.1]; rfl
      exact gone_set h hphase (by decide)
  | start j hphase => exact gone_set h hphase (by decide)
  | receive j input greeting hphase => exact gone_set h hphase (by decide)
  | finish j hphase => exact gone_set h hphase (by decide)
  | leave j hphase =>
      unfold Registry.Gone
      by_cases hj : i = j
      · subst hj
        rw [Registry.set_slots_self]
        exact ⟨h.1, .inr rfl⟩
      · rw [Registry.set_slots_of_ne _ _ hj]
        exact h
  | lookup j dest _ => exact h
  | observe => exact h

/-- A lookup finds a slot by its name. -/
theorem name_of_lookupFrom {slots : Nat → Slot} {dest : CString} {n j : Nat}
    (h : Registry.lookupFrom slots dest n j = some (some i)) : (slots i).name = some dest := by
  induction n generalizing j with
  | zero => cases h
  | succ n ih =>
      simp only [Registry.lookupFrom] at h
      cases hname : (slots j).name with
      | none => simp [hname] at h
      | some name =>
          by_cases hdest : dest = name
          · simp only [hname, if_pos hdest, Option.some.injEq] at h
            rw [← h, hname, hdest]
          · simp only [hname, if_neg hdest] at h
            exact ih h

/-- A lookup of the first name in the table finds it. -/
theorem lookup_first {dest : CString} (hname : (s.slots 0).name = some dest) (hlast : 0 < s.last) :
    s.lookup dest = some (some 0) := by
  rcases Nat.exists_eq_add_one.2 hlast with ⟨n, hn⟩
  simp [Registry.lookup, hn, Registry.lookupFrom, hname]

/-- One client that has connected and not sent anything. -/
def oneShaking : List RegistryAct := [.accept 3, .store true, .start 0]

/-- Exactly the modules whose name has not been set cannot be found. -/
theorem neverAddressable_iff (t : MCSTables) (greeting : Greeting) :
    NeverAddressable t greeting ↔ greeting = .unreadable ∨ greeting = .refused none := by
  constructor
  · intro h
    -- in a table with one slot a lookup finds any name that is there
    have hone := h oneShaking _ 0 rfl rfl [] _ rfl
    rcases greeting with _ | (_ | name) | ⟨name, group⟩
    · exact .inl rfl
    · exact .inr rfl
    · exact absurd (lookup_first rfl Nat.zero_lt_one) (hone name)
    · exact absurd (lookup_first rfl Nat.zero_lt_one) (hone name)
  · intro hgreeting acts s i hrun hphase acts' s' hrun' dest hfound
    have hinv := Registry.inv_of_run hrun
    have hnone : (s.slots i).name = none := unnamed_of_run hrun i (by simp [hphase])
    have hgone : (s.set i ((s.slots i).greet greeting)).Gone i := by
      unfold Registry.Gone
      rw [Registry.set_slots_self]
      rcases hgreeting with rfl | rfl
      · exact ⟨hnone, .inl rfl⟩
      · exact ⟨hnone, .inl rfl⟩
    have hset := hinv.advance (advances_greet hphase greeting)
      (consistent_greet (hinv.consistent i) hphase greeting)
    have hlast : s'.Inv ∧ s'.Gone i :=
      run_invariant (I := fun s => s.Inv ∧ s.Gone i)
        (fun hs hact => ⟨hs.1.act hact, gone_act hs.2 hs.1 hact⟩) ⟨hset, hgone⟩ hrun'
    have hname := name_of_lookupFrom hfound
    rw [hlast.2.1] at hname
    cases hname

end Table

/-! ## The first packet of a connection -/

section First

variable {t : MCSTables} {rfd : Int} {wfd : WriteFd} {input : List UInt8} {pkt : MCSPacket}

/-- `unreadable` is for packets that could not be read. -/
theorem handshake_ne_unreadable (pkt : MCSPacket) : handshake pkt ≠ some .unreadable := by
  intro h
  rw [handshake] at h
  split_ifs at h
  · cases h
  · cases hdata : pkt.data with
    | none => simp [hdata] at h
    | some data =>
        simp only [hdata] at h
        rcases hsep : strchr 58 data with _ | _ | colon
        · simp [hsep] at h
        · simp [hsep] at h
        · simp only [hsep, splitHandshake_eq] at h
          rcases Option.map_eq_some_iff.1 h with ⟨_ | group, _, hgreeting⟩
          · cases hgreeting
          · cases hgreeting

theorem firstPacket_of_read (hread : (mcsReadCommand t rfd wfd input).pkt = some pkt) :
    firstPacket t rfd wfd input =
      (handshake pkt).map fun greeting =>
        { greeting := greeting
          rest := (mcsReadCommand t rfd wfd input).rest
          reply :=
            match greeting with
            | .accepted _ _ => (mcsWriteCommand t (mcsOkPacket pkt) wfd).2
            | _ => (mcsWriteCommand t (mcsErrPacket pkt econnrefused) wfd).2 } := by
  simp only [firstPacket, hread]
  rcases handshake pkt with _ | (_ | _ | ⟨name, group⟩) <;> rfl

theorem mcsWriteCommand_mcsOkPacket (t : MCSTables) (pkt : MCSPacket) :
    (mcsWriteCommand t (mcsOkPacket pkt) openFd).2 = (Frame.ok pkt.id).bytes := by
  rw [mcsOkPacket, mcsWriteCommand_openFd (checkPacket_mcsOkPacketId t pkt.id),
    rawBytes_mcsOkPacketId]

theorem mcsWriteCommand_mcsErrPacket (t : MCSTables) (pkt : MCSPacket) (code : Int) :
    (mcsWriteCommand t (mcsErrPacket pkt code) openFd).2 = (Frame.error pkt.id code).bytes := by
  rw [mcsErrPacket, mcsWriteCommand_openFd (checkPacket_mcsErrPacketId t pkt.id code),
    rawBytes_mcsErrPacketId]

theorem registers_iff (hread : (mcsReadCommand t rfd wfd input).pkt = some pkt) (name : CString)
    (group : SDBGroup) :
    Registers t rfd wfd input pkt name group ↔ handshake pkt = some (.accepted name group) := by
  simp only [Registers, firstPacket_of_read hread]
  constructor
  · rintro ⟨first, hfirst, _, _, hgreeting⟩
    rcases Option.map_eq_some_iff.1 hfirst with ⟨greeting, hshake, rfl⟩
    exact hshake.trans (congrArg some hgreeting)
  · intro hshake
    refine ⟨_, by rw [hshake]; rfl, rfl, ?_, rfl⟩
    rintro rfl
    exact mcsWriteCommand_mcsOkPacket t pkt

theorem refuses_iff (hread : (mcsReadCommand t rfd wfd input).pkt = some pkt) :
    Refuses t rfd wfd input pkt ↔ handshake pkt = some (.refused none) := by
  simp only [Refuses, firstPacket_of_read hread, neverAddressable_iff]
  constructor
  · rintro ⟨first, hfirst, _, _, hgreeting⟩
    rcases Option.map_eq_some_iff.1 hfirst with ⟨greeting, hshake, rfl⟩
    rcases hgreeting with rfl | rfl
    · exact absurd hshake (handshake_ne_unreadable pkt)
    · exact hshake
  · intro hshake
    refine ⟨_, by rw [hshake]; rfl, rfl, ?_, .inr rfl⟩
    rintro rfl
    exact mcsWriteCommand_mcsErrPacket t pkt econnrefused

/-- The first packets of a connection with which `sdb_module_thread` does what the grammar says:
all of them without the handshake command, and handshakes with a terminator in their data that have
no separator or are in the grammar. -/
theorem handshake_grammar_iff (t : MCSTables) (rfd : Int) (wfd : WriteFd) (input : List UInt8)
    (pkt : MCSPacket) (hread : (mcsReadCommand t rfd wfd input).pkt = some pkt) :
    ((∀ name group, Registers t rfd wfd input pkt name group ↔ InGrammar pkt name group) ∧
        ((∀ name group, ¬ InGrammar pkt name group) → Refuses t rfd wfd input pkt)) ↔
      (pkt.type = MCSType.message.code ∧ pkt.cmd = 1 →
        ∃ data, pkt.data = some data ∧ 0 ∈ data ∧
          (58 ∉ data.takeWhile (· ≠ 0) ∨ ∃ name group, Speaks data name group)) := by
  simp only [registers_iff hread, refuses_iff hread]
  exact handshake_meets_iff pkt

end First

/-- The bytes of a handshake with fewer than 256 bytes of data. -/
def handshakeBytes (data : List UInt8) : List UInt8 :=
  [7, 0, 0, 0, 0, 1, 0, UInt8.ofNat data.length, 0] ++ data

/-- The first packet of a connection is a handshake with this data. -/
def Shakes (data : List UInt8) (pkt : MCSPacket) : Prop :=
  (mcsReadCommand commandSet 3 openFd (handshakeBytes data)).pkt = some pkt ∧
    pkt.type = MCSType.message.code ∧ pkt.cmd = 1 ∧ pkt.data = some data

theorem exists_shakes (data : List UInt8)
    (h : (mcsReadCommand commandSet 3 openFd (handshakeBytes data)).pkt.any (fun pkt =>
      pkt.type = MCSType.message.code ∧ pkt.cmd = 1 ∧ pkt.data = some data) = true) :
    ∃ pkt, Shakes data pkt := by
  rcases (Option.any_eq_true _ _).1 h with ⟨pkt, hread, hfields⟩
  exact ⟨pkt, hread, of_decide_eq_true hfields⟩

/-- `"core:app"`. -/
def coreText : List UInt8 := [99, 111, 114, 101] ++ 58 :: [97, 112, 112, 0]

/-- `"elevenbytes:app"`. -/
def longText : List UInt8 :=
  [101, 108, 101, 118, 101, 110, 98, 121, 116, 101, 115] ++ 58 :: [97, 112, 112, 0]

/-- `"x:bad"`, with a group that does not exist. -/
def badText : List UInt8 := [120] ++ 58 :: [98, 97, 100, 0]

/-- `"core:app"` without its terminator. -/
def cutText : List UInt8 := [99, 111, 114, 101] ++ 58 :: [97, 112, 112]

theorem handshake_grammar_core :
    ∃ pkt, Shakes coreText pkt ∧ InGrammar pkt (CString.ofBuffer [99, 111, 114, 101]) .app ∧
      ∀ name group, Registers commandSet 3 openFd (handshakeBytes coreText) pkt name group ↔
        InGrammar pkt name group := by
  rcases exists_shakes coreText (by decide +kernel) with ⟨pkt, hread, htype, hcmd, hdata⟩
  have hspeaks : Speaks coreText (CString.ofBuffer [99, 111, 114, 101]) .app :=
    (speaks_append_iff (by simp) (by simp)).2 ⟨rfl, by decide, by decide⟩
  refine ⟨pkt, ⟨hread, htype, hcmd, hdata⟩, ⟨htype, hcmd, _, hdata, hspeaks⟩, ?_⟩
  exact ((handshake_grammar_iff commandSet 3 openFd _ pkt hread).2 fun _ =>
    ⟨_, hdata, by decide, .inr ⟨_, _, hspeaks⟩⟩).1

/-- A name of eleven bytes is registered; a module of a group that does not exist is refused and
can be found under its name; text that ends with the data is read past its end. -/
theorem handshakes_outside_grammar :
    (∃ pkt, Shakes longText pkt ∧ (∀ name group, ¬ InGrammar pkt name group) ∧
      Registers commandSet 3 openFd (handshakeBytes longText) pkt
        (CString.ofBuffer [101, 108, 101, 118, 101, 110, 98, 121, 116, 101, 115]) .app) ∧
    (∃ pkt, Shakes badText pkt ∧ (∀ name group, ¬ InGrammar pkt name group) ∧
      ¬ Refuses commandSet 3 openFd (handshakeBytes badText) pkt) ∧
    ∃ pkt, Shakes cutText pkt ∧ InGrammar pkt (CString.ofBuffer [99, 111, 114, 101]) .app ∧
      firstPacket commandSet 3 openFd (handshakeBytes cutText) = none := by
  refine ⟨?_, ?_, ?_⟩
  · rcases exists_shakes longText (by decide +kernel) with ⟨pkt, hread, htype, hnum, hdata⟩
    have hcmd := (mcsCommand_eq_handshake_iff pkt).2 ⟨htype, hnum⟩
    refine ⟨pkt, ⟨hread, htype, hnum, hdata⟩, fun name group hin => ?_, ?_⟩
    · have hspeaks := (inGrammar_iff hcmd hdata).1 hin
      have hshort := ((speaks_append_iff (by simp) (by simp)).1 hspeaks).2.2
      exact absurd hshort (by decide)
    · refine (registers_iff hread _ _).2 ?_
      exact (handshake_append_iff hcmd hdata (by simp) (by simp)).2
        ⟨rfl, by decide, by decide⟩
  · rcases exists_shakes badText (by decide +kernel) with ⟨pkt, hread, htype, hnum, hdata⟩
    have hcmd := (mcsCommand_eq_handshake_iff pkt).2 ⟨htype, hnum⟩
    refine ⟨pkt, ⟨hread, htype, hnum, hdata⟩, fun name group hin => ?_, fun hrefused => ?_⟩
    · have hspeaks := (inGrammar_iff hcmd hdata).1 hin
      have hmem := ((speaks_append_iff (by simp) (by simp)).1 hspeaks).2.1
      have hunknown : ∀ e ∈ sdbGroupConversion, e.2 ≠ CString.ofBuffer [98, 97, 100, 0] := by
        decide
      exact hunknown _ hmem rfl
    · exact handshake_append_ne hcmd hdata (by simp) (by simp) ((refuses_iff hread).1 hrefused)
  · rcases exists_shakes cutText (by decide +kernel) with ⟨pkt, hread, htype, hnum, hdata⟩
    have hcmd := (mcsCommand_eq_handshake_iff pkt).2 ⟨htype, hnum⟩
    have hspeaks : Speaks cutText (CString.ofBuffer [99, 111, 114, 101]) .app :=
      (speaks_append_iff (by simp) (by simp)).2 ⟨rfl, by decide, by decide⟩
    refine ⟨pkt, ⟨hread, htype, hnum, hdata⟩, ⟨htype, hnum, _, hdata, hspeaks⟩, ?_⟩
    have hfault : handshake pkt = none := by
      rw [handshake_append hcmd hdata (by simp) (by simp)]
      rfl
    rw [firstPacket_of_read hread, hfault]
    rfl

end SDB
end AbsPlatform
