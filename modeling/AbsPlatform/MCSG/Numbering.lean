import AbsPlatform.MCS.Packet
import AbsPlatform.MCSG.Commands

/-!
# Numbering — the generator and the runtime agree on command numbers

The lists of the generator are the commands of each type in the order of the file, and the value of
a command in the enumeration is its type and its place among the commands of this type.
`mcs_create_packet` takes the value apart again, and the place is the index of the table.
-/

namespace AbsPlatform
namespace MCSG

open Lib MCS

/-! ## What the configuration says -/

namespace CJSON

/-- The `type` member of a command. -/
def typeField (c : CJSON) : Option CString := c.child[mcsgCommandTypeField]?.bind valuestring

/-- The `name` member of a command. -/
def nameField (c : CJSON) : Option CString := c.child[0]?.bind valuestring

end CJSON

/-- The commands of a type, in the order of the file. -/
def ofType (t : MCSType) (cmds : List CJSON) : List CJSON :=
  cmds.filter fun c => c.typeField = some (typeName t)

/-- The enumerator of a command that comes after some others. -/
def enumerator (before : List CJSON) (t : MCSType) (name : CString) : MCSGEnum where
  name := (enumPrefix t).strcat name.strToUpper
  value := typeDec t + (ofType t before).length

theorem mcsgTypeIdentifier_of_typeField {c : CJSON} {t : MCSType} (ht : t.isCommand = true)
    (h : c.typeField = some (typeName t)) : mcsgTypeIdentifier c = some t := by
  rcases Option.bind_eq_some_iff.1 h with ⟨subitem, hitem, hname⟩
  cases t with
  | message => simp [mcsgTypeIdentifier, hitem, hname]
  | state =>
      have h₁ : ¬ typeName .state = typeName .message := by decide
      simp [mcsgTypeIdentifier, hitem, hname, h₁]
  | payload =>
      have h₁ : ¬ typeName .payload = typeName .message := by decide
      have h₂ : ¬ typeName .payload = typeName .state := by decide
      simp [mcsgTypeIdentifier, hitem, hname, h₁, h₂]
  | ok => cases ht
  | okData => cases ht
  | err => cases ht

/-- A command has one type. -/
theorem type_unique {c : CJSON} {t u : MCSType} (ht : t.isCommand = true) (hu : u.isCommand = true)
    (hct : c.typeField = some (typeName t)) (hcu : c.typeField = some (typeName u)) : t = u := by
  apply Option.some.inj
  calc some t = mcsgTypeIdentifier c := (mcsgTypeIdentifier_of_typeField ht hct).symm
    _ = some u := mcsgTypeIdentifier_of_typeField hu hcu

/-! ## Ranks -/

theorem ofType_append (t : MCSType) (l₁ l₂ : List CJSON) :
    ofType t (l₁ ++ l₂) = ofType t l₁ ++ ofType t l₂ := List.filter_append ..

theorem ofType_cons_self {t : MCSType} {c : CJSON} (h : c.typeField = some (typeName t))
    (cmds : List CJSON) : ofType t (c :: cmds) = c :: ofType t cmds := by
  simp [ofType, h]

theorem ofType_snoc {t u : MCSType} (ht : t.isCommand = true) (hu : u.isCommand = true) {c : CJSON}
    (h : c.typeField = some (typeName t)) (cmds : List CJSON) :
    ofType u (cmds ++ [c]) = if u = t then ofType u cmds ++ [c] else ofType u cmds := by
  rw [ofType_append]
  split_ifs with hut
  · subst hut
    rw [ofType_cons_self h]
    rfl
  · have hne : ¬ c.typeField = some (typeName u) := fun hcu => hut (type_unique hu ht hcu h)
    simp [ofType, hne]

/-- The list of a type around one of its commands. -/
theorem ofType_split {cmds : List CJSON} {i : Nat} {c : CJSON} {t : MCSType}
    (h : cmds[i]? = some c) (ht : c.typeField = some (typeName t)) :
    ofType t cmds = ofType t (cmds.take i) ++ c :: ofType t (cmds.drop (i + 1)) := by
  rcases List.getElem?_eq_some_iff.1 h with ⟨hi, rfl⟩
  calc ofType t cmds = ofType t (cmds.take i ++ cmds.drop i) := by rw [List.take_append_drop]
    _ = ofType t (cmds.take i) ++ ofType t (cmds[i] :: cmds.drop (i + 1)) := by
        rw [ofType_append, List.drop_eq_getElem_cons hi]
    _ = _ := by rw [ofType_cons_self ht]

/-- A command stands in the list of its type after those that come before it in the file. -/
theorem ofType_getElem? {cmds : List CJSON} {i : Nat} {c : CJSON} {t : MCSType}
    (h : cmds[i]? = some c) (ht : c.typeField = some (typeName t)) :
    (ofType t cmds)[(ofType t (cmds.take i)).length]? = some c := by
  rw [ofType_split h ht]
  simp

theorem rank_lt {cmds : List CJSON} {i : Nat} {c : CJSON} {t : MCSType}
    (h : cmds[i]? = some c) (ht : c.typeField = some (typeName t)) :
    (ofType t (cmds.take i)).length < (ofType t cmds).length :=
  (List.getElem?_eq_some_iff.1 (ofType_getElem? h ht)).1

/-- Later commands of a type have higher ranks. -/
theorem rank_lt_rank {cmds : List CJSON} {i j : Nat} (hij : i < j) {c : CJSON} {t : MCSType}
    (h : cmds[i]? = some c) (ht : c.typeField = some (typeName t)) :
    (ofType t (cmds.take i)).length < (ofType t (cmds.take j)).length := by
  have hi : (cmds.take j)[i]? = some c := by
    rw [List.getElem?_take_of_lt hij]
    exact h
  have htake : (cmds.take j).take i = cmds.take i := by
    rw [List.take_take, Nat.min_eq_left hij.le]
  simpa [htake] using rank_lt hi ht

/-! ## Values -/

theorem typeDec_eq {t : MCSType} (ht : t.isCommand = true) : typeDec t = 65536 * t.code.toNat := by
  cases t <;> first | rfl | cases ht

theorem toNat_typeDec {t : MCSType} (ht : t.isCommand = true) {k : Nat} (hk : k < 65536) :
    (UInt32.ofNat (typeDec t + k)).toNat = 65536 * t.code.toNat + k := by
  have hcode : t.code.toNat < 256 := t.code.toNat_lt
  rw [typeDec_eq ht]
  exact UInt32.toNat_ofNat_of_lt (show 65536 * t.code.toNat + k < 2 ^ 32 by omega)

/-- The type of a packet is the type the value was made from. -/
theorem commandType_typeDec {t : MCSType} (ht : t.isCommand = true) {k : Nat} (hk : k < 65536) :
    commandType (UInt32.ofNat (typeDec t + k)) = t.code := by
  have hcode : t.code.toNat < 16 := by
    cases t <;> first | decide | cases ht
  apply UInt8.toNat_inj.1
  calc (commandType (UInt32.ofNat (typeDec t + k))).toNat
      = (65536 * t.code.toNat + k &&& 0xF0000) >>> 16 % 256 := by
        rw [commandType, UInt32.toNat_toUInt8, UInt32.toNat_shiftRight, UInt32.toNat_and,
          toNat_typeDec ht hk]
        rfl
    _ = (65536 * t.code.toNat + k) / 65536 % 16 % 256 := by
        rw [Nat.shiftRight_and_distrib, Nat.shiftRight_eq_div_pow]
        exact congrArg (· % 256) (Nat.and_two_pow_sub_one_eq_mod _ 4)
    _ = t.code.toNat := by omega

/-- The number of a packet is the place of the command. -/
theorem commandNumber_typeDec {t : MCSType} (ht : t.isCommand = true) {k : Nat} (hk : k < 65536) :
    (commandNumber (UInt32.ofNat (typeDec t + k))).toNat = k := by
  calc (commandNumber (UInt32.ofNat (typeDec t + k))).toNat
      = (65536 * t.code.toNat + k &&& 2 ^ 16 - 1) % 65536 := by
        rw [commandNumber, UInt32.toNat_toUInt16, UInt32.toNat_and, toNat_typeDec ht hk]
        rfl
    _ = (65536 * t.code.toNat + k) % 2 ^ 16 % 65536 := by rw [Nat.and_two_pow_sub_one_eq_mod]
    _ = k := by omega

/-! ## The enumeration -/

/-- One enumerator for each command, in the order of the file. -/
structure Numbered (cmds : List CJSON) (enums : List MCSGEnum) : Prop where
  length : enums.length = cmds.length
  entry : ∀ i c, cmds[i]? = some c → ∃ t name, t.isCommand = true ∧
    c.typeField = some (typeName t) ∧ c.nameField = some name ∧
      enums[i]? = some (enumerator (cmds.take i) t name)

theorem Numbered.snoc {cmds : List CJSON} {enums : List MCSGEnum} (h : Numbered cmds enums)
    {c : CJSON} {t : MCSType} {name : CString} (ht : t.isCommand = true)
    (htype : c.typeField = some (typeName t)) (hname : c.nameField = some name) :
    Numbered (cmds ++ [c]) (enums ++ [enumerator cmds t name]) := by
  refine ⟨by simp [h.length], ?_⟩
  intro i d hd
  rcases Nat.lt_or_ge i cmds.length with hi | hi
  · -- an earlier command keeps its enumerator
    rw [List.getElem?_append_left hi] at hd
    rcases h.entry i d hd with ⟨u, nm, hu, hdu, hdn, hes⟩
    refine ⟨u, nm, hu, hdu, hdn, ?_⟩
    rw [List.take_append_of_le_length hi.le,
      List.getElem?_append_left (by simpa [h.length] using hi)]
    exact hes
  · have hi' : i = cmds.length := by
      have hlt := (List.getElem?_eq_some_iff.1 hd).1
      rw [List.length_append, List.length_singleton] at hlt
      omega
    subst hi'
    have hcd : c = d := by simpa using hd
    subst hcd
    refine ⟨t, name, ht, htype, hname, ?_⟩
    simp [← h.length]

/-- The values are all different when no type has too many commands. -/
theorem Numbered.nodup_values {cmds : List CJSON} {enums : List MCSGEnum}
    (h : Numbered cmds enums)
    (hfew : ∀ t, t.isCommand = true → (ofType t cmds).length < 65536) :
    (enums.map MCSGEnum.value).Nodup := by
  rw [List.nodup_iff_getElem?_ne_getElem?]
  intro i j hij hj heq
  have hj' : j < cmds.length := by simpa [h.length] using hj
  have hci := List.getElem?_eq_getElem (hij.trans hj')
  have hcj := List.getElem?_eq_getElem hj'
  rcases h.entry i _ hci with ⟨t, _, ht, htype, _, hi⟩
  rcases h.entry j _ hcj with ⟨u, _, hu, hutype, _, hjn⟩
  have hvalues : typeDec t + (ofType t (cmds.take i)).length =
      typeDec u + (ofType u (cmds.take j)).length := by
    rw [List.getElem?_map, List.getElem?_map, hi, hjn] at heq
    simpa [enumerator] using heq
  -- equal values have equal types, and within a type the ranks go up
  have htu : t = u := by
    apply MCSType.code_injective
    calc t.code = commandType (UInt32.ofNat (typeDec t + (ofType t (cmds.take i)).length)) :=
          (commandType_typeDec ht ((rank_lt hci htype).trans (hfew t ht))).symm
      _ = u.code := by
          rw [hvalues]
          exact commandType_typeDec hu ((rank_lt hcj hutype).trans (hfew u hu))
  subst htu
  have hranks := rank_lt_rank hij hci htype
  omega

/-! ## The lists while they grow -/

/-- The lists are linked, in cells that have been handed out. -/
structure Linked (malloc : Malloc) (l : MCSGCommandList) (b : MCSType → List (Nat × CJSON))
    (es : List (Nat × MCSGEnum)) : Prop where
  lists : Family l.commands (fun t => (l.sublists t).first) (fun t => (l.sublists t).temp) b
  enums : Family l.enumCells (fun _ : Unit => l.enums) (fun _ => l.tempEnum) (fun _ => es)
  nodes : ∀ t, ∀ a ∈ addrs (b t), ∃ k < 2 * l.read, a = malloc.addr k
  entries : ∀ a ∈ addrs es, ∃ k < 2 * l.read, a = malloc.addr k

theorem linked_empty (malloc : Malloc) : Linked malloc emptyCommandList (fun _ => []) [] where
  lists := Family.empty _
  enums := Family.empty _
  nodes := fun _ _ h => absurd h (by simp)
  entries := fun _ h => absurd h (by simp)

/-- The commands `done` have been read: the lists hold them by type and the enumeration in order. -/
structure Reads (malloc : Malloc) (l : MCSGCommandList) (done : List CJSON)
    (b : MCSType → List (Nat × CJSON)) (es : List (Nat × MCSGEnum)) : Prop
    extends Linked malloc l b es where
  values : ∀ t, t.isCommand = true → (b t).map Prod.snd = ofType t done
  counts : ∀ t, t.isCommand = true → (l.sublists t).count = (ofType t done).length
  read : l.read = done.length
  numbered : Numbered done (es.map Prod.snd)

theorem reads_empty (malloc : Malloc) :
    Reads malloc emptyCommandList [] (fun _ => []) [] where
  toLinked := linked_empty malloc
  values := fun _ _ => rfl
  counts := fun _ _ => rfl
  read := rfl
  numbered := ⟨rfl, fun _ _ h => absurd h (by simp)⟩

section

variable {α : Type} {malloc : Malloc} {cells : List (Nat × α)} {n m k : Nat}

/-- `malloc` does not hand out an address twice. -/
theorem Malloc.fresh (hcells : ∀ a ∈ addrs cells, ∃ j < n, a = malloc.addr j) (hk : n ≤ k) :
    malloc.addr k ∉ addrs cells := by
  intro hmem
  rcases hcells _ hmem with ⟨j, hj, heq⟩
  have hkj := malloc.injective heq
  omega

theorem Malloc.handedOut_mono (hcells : ∀ a ∈ addrs cells, ∃ j < n, a = malloc.addr j)
    (hle : n ≤ m) : ∀ a ∈ addrs cells, ∃ j < m, a = malloc.addr j := by
  intro a ha
  rcases hcells a ha with ⟨j, hj, rfl⟩
  exact ⟨j, hj.trans_le hle, rfl⟩

/-- A cell that is appended is at an address that has been handed out as well. -/
theorem Malloc.handedOut_snoc (hcells : ∀ a ∈ addrs cells, ∃ j < n, a = malloc.addr j)
    (hle : n ≤ m) (hk : k < m) (v : α) :
    ∀ a ∈ addrs (cells ++ [(malloc.addr k, v)]), ∃ j < m, a = malloc.addr j := by
  intro a ha
  have hold : a ∈ addrs cells ∨ a = malloc.addr k := by simpa using ha
  rcases hold with hold | rfl
  · exact Malloc.handedOut_mono hcells hle a hold
  · exact ⟨k, hk, rfl⟩

end

section

variable {malloc : Malloc} {l : MCSGCommandList} {done : List CJSON}
  {b : MCSType → List (Nat × CJSON)} {es : List (Nat × MCSGEnum)}

/-- A command with a name can be added to the list of any type. -/
theorem Linked.add (h : Linked malloc l b es) {c : CJSON} {name : CString} (t : MCSType)
    (hname : c.nameField = some name) :
    ∃ l', l.add malloc t c = some l' ∧
      Linked malloc l' (Function.update b t (b t ++ [(malloc.addr (2 * l.read), c)]))
        (es ++ [(malloc.addr (2 * l.read + 1),
          { name := (enumPrefix t).strcat name.strToUpper
            value := typeDec t + (l.sublists t).count })]) ∧
      l'.read = l.read + 1 ∧
      ∀ u, (l'.sublists u).count = (l.sublists u).count + if u = t then 1 else 0 := by
  -- the two new cells
  have hnode := fun u => Malloc.fresh (h.nodes u) (Nat.le_refl (2 * l.read))
  have hentry := Malloc.fresh h.entries (Nat.le_succ (2 * l.read))
  have hlists₁ := h.lists.put hnode (some { val := c, next := none })
  have henums₁ := h.enums.put (fun _ => hentry)
    (some
      { val :=
          { name := (enumPrefix t).strcat name.strToUpper
            value := typeDec t + (l.sublists t).count }
        next := none })
  rcases hlists₁.append t (Cells.put_same _ _ _) hnode with ⟨commands, first, hlink, hlists, _⟩
  rcases henums₁.append () (Cells.put_same _ _ _) (fun _ => hentry) with
    ⟨enumCells, enums, helink, henums, _⟩
  rw [← hlists₁.link_eq_redirect t] at hlink
  rw [← henums₁.link_eq_redirect ()] at helink
  rcases Option.bind_eq_some_iff.1 hname with ⟨item, hitem, hitemName⟩
  refine ⟨
    { commands := commands
      enumCells := enumCells
      sublists := Function.update l.sublists t
        { first := first
          temp := some (malloc.addr (2 * l.read))
          count := (l.sublists t).count + 1 }
      enums := enums
      tempEnum := some (malloc.addr (2 * l.read + 1))
      read := l.read + 1 }, ?_, ?_, rfl, ?_⟩
  · simp [MCSGCommandList.add, hlink, hitem, hitemName, helink]
  · constructor
    case lists =>
      have hfirst := funext fun u => Function.apply_update (fun _ => Sublist.first) l.sublists t
        ⟨first, some (malloc.addr (2 * l.read)), (l.sublists t).count + 1⟩ u
      have htemp := funext fun u => Function.apply_update (fun _ => Sublist.temp) l.sublists t
        ⟨first, some (malloc.addr (2 * l.read)), (l.sublists t).count + 1⟩ u
      simpa only [hfirst, htemp] using hlists
    case enums =>
      simp only [Function.update_eq_const_of_subsingleton] at henums
      exact henums
    case nodes =>
      intro u
      by_cases hut : u = t
      · subst hut
        rw [Function.update_self]
        exact Malloc.handedOut_snoc (h.nodes u) (by dsimp only; omega) (by dsimp only; omega) c
      · rw [Function.update_of_ne hut]
        exact Malloc.handedOut_mono (h.nodes u) (by dsimp only; omega)
    case entries =>
      exact Malloc.handedOut_snoc h.entries (by dsimp only; omega) (by dsimp only; omega) _
  · intro u
    by_cases hut : u = t
    · simp [hut]
    · simp [hut]

theorem Reads.add (h : Reads malloc l done b es) {c : CJSON} {t : MCSType} {name : CString}
    (ht : t.isCommand = true) (htype : c.typeField = some (typeName t))
    (hname : c.nameField = some name) :
    ∃ l' b' es', l.add malloc t c = some l' ∧ Reads malloc l' (done ++ [c]) b' es' := by
  rcases h.toLinked.add t hname with ⟨l', hadd, hlinked, hread, hcounts⟩
  have hvalues : ∀ u, u.isCommand = true →
      (Function.update b t (b t ++ [(malloc.addr (2 * l.read), c)]) u).map Prod.snd =
        ofType u (done ++ [c]) := by
    intro u hu
    rw [ofType_snoc ht hu htype]
    split_ifs with hut
    · subst hut
      simp [h.values u hu]
    · simpa [hut] using h.values u hu
  have hcounts' : ∀ u, u.isCommand = true →
      (l'.sublists u).count = (ofType u (done ++ [c])).length := by
    intro u hu
    rw [hcounts, ofType_snoc ht hu htype, h.counts u hu]
    split_ifs with hut
    · simp
    · rfl
  have hnumbered := h.numbered.snoc ht htype hname
  rw [enumerator, ← h.counts t ht] at hnumbered
  exact ⟨l', _, _, hadd,
    { toLinked := hlinked
      values := hvalues
      counts := hcounts'
      read := by simp [hread, h.read]
      numbered := by simpa using hnumbered }⟩

/-- The loop over the commands: each one has a type and a name. -/
theorem Reads.readCommands (h : Reads malloc l done b es) {cmds : List CJSON}
    (hcmds : ∀ c ∈ cmds, ∃ t name, t.isCommand = true ∧ c.typeField = some (typeName t) ∧
      c.nameField = some name) :
    ∃ l' b' es', readCommands malloc l cmds = some l' ∧
      Reads malloc l' (done ++ cmds) b' es' := by
  induction cmds generalizing l done b es with
  | nil => exact ⟨l, b, es, rfl, by simpa using h⟩
  | cons c cmds ih =>
      rcases hcmds c (by simp) with ⟨t, name, ht, htype, hname⟩
      rcases h.add ht htype hname with ⟨l₁, b₁, es₁, hadd, h₁⟩
      rcases ih h₁ (fun d hd => hcmds d (by simp [hd])) with ⟨l', b', es', hread, h'⟩
      refine ⟨l', b', es', ?_, by simpa using h'⟩
      simp only [MCSG.readCommands, mcsgTypeIdentifier_of_typeField ht htype, hadd, hread]

end

/-! ## The printed tables -/

section

variable {α : Type} (translate : CJSON → Option α) {h : Cells CJSON}

/-- A table that has been printed has one entry for each cell, and its size is their number. -/
theorem translateFrom_spec {cells : List (Nat × CJSON)} (hchain : Chain h cells none)
    (hne : cells ≠ []) {fuel size n : Nat} {entries : List α}
    (hsome : translateFrom translate fuel h (firstPtr cells none) size = some (entries, n)) :
    n + 1 = size + cells.length ∧ entries.length = cells.length ∧
      ∀ k : Nat, entries[k]? = (cells.map Prod.snd)[k]?.bind translate := by
  induction cells generalizing fuel size entries with
  | nil => exact absurd rfl hne
  | cons c cells ih =>
      cases fuel with
      | zero => cases hsome
      | succ fuel =>
          simp only [firstPtr_cons, translateFrom, hchain.1, Option.bind_eq_bind,
            Option.bind_some] at hsome
          rcases Option.bind_eq_some_iff.1 hsome with ⟨entry, hentry, hrest⟩
          cases cells with
          | nil =>
              cases hrest
              refine ⟨by simp, rfl, ?_⟩
              intro k
              cases k <;> simp [hentry]
          | cons d cells =>
              simp only [firstPtr_cons, Option.bind_eq_some_iff] at hrest
              rcases hrest with ⟨⟨rest, m⟩, hrec, heq⟩
              cases heq
              rcases ih hchain.2 (by simp) hrec with ⟨hm, hlen, hget⟩
              refine ⟨by simp at hm ⊢; omega, by simp [hlen], ?_⟩
              intro k
              cases k with
              | zero => simp [hentry]
              | succ k => simpa using hget k

/-- Nothing stops the printing of entries that can be translated. -/
theorem translateFrom_isSome {cells : List (Nat × CJSON)} (hchain : Chain h cells none)
    (hne : cells ≠ []) {fuel : Nat} (hfuel : cells.length ≤ fuel) (size : Nat)
    (hcells : ∀ c ∈ cells, (translate c.2).isSome = true) :
    (translateFrom translate fuel h (firstPtr cells none) size).isSome = true := by
  induction cells generalizing fuel size with
  | nil => exact absurd rfl hne
  | cons c cells ih =>
      cases fuel with
      | zero => simp at hfuel
      | succ fuel =>
          rcases Option.isSome_iff_exists.1 (hcells c (by simp)) with ⟨entry, hentry⟩
          cases cells with
          | nil => simp [translateFrom, hchain.1, hentry]
          | cons d cells =>
              have hrest := ih hchain.2 (by simp) (Nat.le_of_succ_le_succ hfuel) (size + 1)
                (fun e he => hcells e (by simp [he]))
              rcases Option.isSome_iff_exists.1 hrest with ⟨r, hr⟩
              simp only [firstPtr_cons] at hr
              simp [translateFrom, hchain.1, hentry, hr]

end

section

variable {malloc : Malloc} {l : MCSGCommandList} {cmds : List CJSON}
  {b : MCSType → List (Nat × CJSON)} {es : List (Nat × MCSGEnum)} {t : MCSType}

theorem Reads.ne_nil (h : Reads malloc l cmds b es) (ht : t.isCommand = true)
    (hne : ofType t cmds ≠ []) : b t ≠ [] := by
  intro hnil
  apply hne
  rw [← h.values t ht, hnil]
  rfl

theorem Reads.length_le (h : Reads malloc l cmds b es) (ht : t.isCommand = true) :
    (b t).length ≤ l.read := by
  calc (b t).length = ((b t).map Prod.snd).length := (List.length_map _).symm
    _ = (ofType t cmds).length := by rw [h.values t ht]
    _ ≤ cmds.length := List.length_filter_le _ _
    _ = l.read := h.read.symm

theorem Reads.walk (h : Reads malloc l cmds b es) (ht : t.isCommand = true)
    (hne : ofType t cmds ≠ []) :
    l.commands.walk l.read (l.sublists t).first = some (ofType t cmds) := by
  have hfirst := h.lists.first t
  simp only [hfirst]
  rw [(h.lists.chain t).walk (h.ne_nil ht hne) (h.length_le ht), h.values t ht]

theorem Reads.walk_enums (h : Reads malloc l cmds b es) (hne : cmds ≠ []) :
    l.enumCells.walk l.read l.enums = some (es.map Prod.snd) := by
  have hlen : es.length = cmds.length := by simpa using h.numbered.length
  have hes : es ≠ [] := by
    rintro rfl
    exact hne (List.length_eq_zero_iff.1 hlen.symm)
  have hfirst := h.enums.first ()
  simp only [hfirst]
  exact (h.enums.chain ()).walk hes (by rw [hlen, h.read])

/-- The table of a type: its size, and the entry at the place of each command. -/
theorem Reads.table (h : Reads malloc l cmds b es) (ht : t.isCommand = true)
    (hne : ofType t cmds ≠ []) {α : Type} {translate : CJSON → Option α} {r : List α × Nat}
    (hr : translateFrom translate l.read l.commands (l.sublists t).first 1 = some r) :
    r.2 = (ofType t cmds).length ∧ r.1.length = (ofType t cmds).length ∧
      ∀ k : Nat, r.1[k]? = (ofType t cmds)[k]?.bind translate := by
  have hfirst := h.lists.first t
  simp only [hfirst] at hr
  rcases translateFrom_spec translate (h.lists.chain t) (h.ne_nil ht hne) hr with
    ⟨hn, hcount, hget⟩
  have hlen : (b t).length = (ofType t cmds).length := by
    rw [← h.values t ht, List.length_map]
  rw [h.values t ht] at hget
  exact ⟨by omega, hcount.trans hlen, hget⟩

/-- There is no table without a first command. -/
theorem Reads.ofType_ne_nil (h : Reads malloc l cmds b es) (ht : t.isCommand = true) {α : Type}
    {translate : CJSON → Option α} {r : List α × Nat}
    (hr : translateFrom translate l.read l.commands (l.sublists t).first 1 = some r) :
    ofType t cmds ≠ [] := by
  intro hnil
  have hcells : b t = [] := by
    rw [← h.values t ht] at hnil
    exact List.map_eq_nil_iff.1 hnil
  have hfirst : (l.sublists t).first = none := by
    have hchain := h.lists.first t
    rwa [hcells] at hchain
  rw [hfirst] at hr
  cases hread : l.read with
  | zero => simp [hread, translateFrom] at hr
  | succ n => simp [hread, translateFrom] at hr

theorem Reads.table_isSome (h : Reads malloc l cmds b es) (ht : t.isCommand = true)
    (hne : ofType t cmds ≠ []) {α : Type} {translate : CJSON → Option α}
    (hcmds : ∀ c ∈ cmds, c.typeField = some (typeName t) → (translate c).isSome = true) :
    (translateFrom translate l.read l.commands (l.sublists t).first 1).isSome = true := by
  have hfirst := h.lists.first t
  simp only [hfirst]
  refine translateFrom_isSome translate (h.lists.chain t) (h.ne_nil ht hne) (h.length_le ht) 1 ?_
  intro c hc
  have hmem : c.2 ∈ ofType t cmds := by
    rw [← h.values t ht]
    exact List.mem_map_of_mem hc
  rcases List.mem_filter.1 hmem with ⟨hin, htype⟩
  exact hcmds c.2 hin (by simpa using htype)

end

theorem mcsgCommandsTranslator_eq_some {l : MCSGCommandList} {header : Header}
    (h : mcsgCommandsTranslator l = some header) :
    l.enumCells.walk l.read l.enums = some header.enums ∧
    translateFrom mcsgMessageTranslator l.read l.commands (l.sublists .message).first 1 =
      some (header.messages, header.messageListSize) ∧
    translateFrom mcsgStateTranslator l.read l.commands (l.sublists .state).first 1 =
      some (header.states, header.stateListSize) ∧
    translateFrom mcsgPayloadTranslator l.read l.commands (l.sublists .payload).first 1 =
      some (header.payloads, header.payloadListSize) := by
  simp only [mcsgCommandsTranslator, Option.bind_eq_bind, Option.bind_eq_some_iff,
    Option.some.injEq] at h
  rcases h with ⟨enums, henums, ms, hms, ss, hss, ps, hps, rfl⟩
  exact ⟨henums, hms, hss, hps⟩

/-- The translator for the type of a command gets through it. -/
structure Translatable (c : CJSON) : Prop where
  message : c.typeField = some (typeName .message) → (mcsgMessageTranslator c).isSome = true
  state : c.typeField = some (typeName .state) → (mcsgStateTranslator c).isSome = true
  payload : c.typeField = some (typeName .payload) → (mcsgPayloadTranslator c).isSome = true

section

variable {malloc : Malloc} {l : MCSGCommandList} {cmds : List CJSON}
  {b : MCSType → List (Nat × CJSON)} {es : List (Nat × MCSGEnum)}

/-- With commands of each type there is a first command. -/
theorem ne_nil_of_ofType (hall : ∀ t, t.isCommand = true → ofType t cmds ≠ []) : cmds ≠ [] := by
  rintro rfl
  exact hall .message rfl rfl

/-- Nothing stops the printing. -/
theorem Reads.isSome_translator (h : Reads malloc l cmds b es)
    (hall : ∀ t, t.isCommand = true → ofType t cmds ≠ []) (htrans : ∀ c ∈ cmds, Translatable c) :
    (mcsgCommandsTranslator l).isSome = true := by
  rcases Option.isSome_iff_exists.1
    (h.table_isSome rfl (hall .message rfl) fun c hc => (htrans c hc).message) with ⟨ms, hms⟩
  rcases Option.isSome_iff_exists.1
    (h.table_isSome rfl (hall .state rfl) fun c hc => (htrans c hc).state) with ⟨ss, hss⟩
  rcases Option.isSome_iff_exists.1
    (h.table_isSome rfl (hall .payload rfl) fun c hc => (htrans c hc).payload) with ⟨ps, hps⟩
  simp [mcsgCommandsTranslator, h.walk_enums (ne_nil_of_ofType hall), hms, hss, hps]

end

/-! ## The result -/

/-- A configuration with these commands. -/
def Configuration (json : CJSON) (cmds : List CJSON) : Prop :=
  ∃ list rest, json.child = list :: rest ∧ list.child = cmds

theorem Configuration.reads {json : CJSON} {cmds : List CJSON} (hjson : Configuration json cmds)
    (malloc : Malloc) (hne : cmds ≠ [])
    (hcmds : ∀ c ∈ cmds, ∃ t name, t.isCommand = true ∧ c.typeField = some (typeName t) ∧
      c.nameField = some name) :
    ∃ l b es, mcsgCommandsReader malloc json = some l ∧ Reads malloc l cmds b es := by
  rcases hjson with ⟨list, others, hlist, rfl⟩
  rcases (reads_empty malloc).readCommands hcmds with ⟨l, b, es, hread, h⟩
  refine ⟨l, b, es, ?_, h⟩
  cases hcs : list.child with
  | nil => exact absurd hcs hne
  | cons c cs =>
      rw [hcs] at hread
      simp [mcsgCommandsReader, hlist, hcs, hread]

/-- What the reader leaves and what is printed from it, for a configuration with commands of each
type. -/
theorem generator_numbering (malloc : Malloc) (json : CJSON) (cmds : List CJSON)
    (hjson : Configuration json cmds)
    (hcmds : ∀ c ∈ cmds, ∃ t name, t.isCommand = true ∧ c.typeField = some (typeName t) ∧
      c.nameField = some name)
    (hall : ∀ t, t.isCommand = true → ofType t cmds ≠ [])
    (hfew : ∀ t, t.isCommand = true → (ofType t cmds).length < 65536) :
    ∃ l enums, mcsgCommandsReader malloc json = some l ∧
      (∀ t, t.isCommand = true →
        l.commands.walk l.read (l.sublists t).first = some (ofType t cmds)) ∧
      l.enumCells.walk l.read l.enums = some enums ∧ enums.length = cmds.length ∧
      (enums.map MCSGEnum.value).Nodup ∧
      ((∀ c ∈ cmds, Translatable c) → (mcsgCommandsTranslator l).isSome = true) ∧
      (∀ header, mcsgCommandsTranslator l = some header →
        header.enums = enums ∧ header.messageListSize = (ofType .message cmds).length ∧
        header.stateListSize = (ofType .state cmds).length ∧
        header.payloadListSize = (ofType .payload cmds).length) ∧
      ∀ i c, cmds[i]? = some c → ∃ t name, t.isCommand = true ∧
        c.typeField = some (typeName t) ∧ c.nameField = some name ∧
        enums[i]? = some (enumerator (cmds.take i) t name) ∧
        ∃ k, (ofType t cmds)[k]? = some c ∧
          commandType (UInt32.ofNat (enumerator (cmds.take i) t name).value) = t.code ∧
          (commandNumber (UInt32.ofNat (enumerator (cmds.take i) t name).value)).toNat = k ∧
          ∀ header, mcsgCommandsTranslator l = some header →
            (t = .message → header.messages[k]? = mcsgMessageTranslator c) ∧
            (t = .state → header.states[k]? = mcsgStateTranslator c) ∧
            (t = .payload → header.payloads[k]? = mcsgPayloadTranslator c) := by
  have hne := ne_nil_of_ofType hall
  rcases hjson.reads malloc hne hcmds with ⟨l, b, es, hread, h⟩
  have hm := hall .message rfl
  have hs := hall .state rfl
  have hp := hall .payload rfl
  refine ⟨l, es.map Prod.snd, hread, fun t ht => h.walk ht (hall t ht), h.walk_enums hne,
    h.numbered.length, h.numbered.nodup_values hfew, h.isSome_translator hall, ?_, ?_⟩
  · intro header hheader
    rcases mcsgCommandsTranslator_eq_some hheader with ⟨henums, hms, hss, hps⟩
    refine ⟨?_, (h.table rfl hm hms).1, (h.table rfl hs hss).1, (h.table rfl hp hps).1⟩
    exact Option.some.inj (henums.symm.trans (h.walk_enums hne))
  · intro i c hc
    rcases h.numbered.entry i c hc with ⟨t, name, ht, htype, hname, hentry⟩
    have hrank := ofType_getElem? hc htype
    have hsmall := (rank_lt hc htype).trans (hfew t ht)
    refine ⟨t, name, ht, htype, hname, hentry, _, hrank, commandType_typeDec ht hsmall,
      commandNumber_typeDec ht hsmall, ?_⟩
    intro header hheader
    rcases mcsgCommandsTranslator_eq_some hheader with ⟨_, hms, hss, hps⟩
    refine ⟨?_, ?_, ?_⟩
    · rintro rfl
      rw [(h.table rfl hm hms).2.2, hrank]
      rfl
    · rintro rfl
      rw [(h.table rfl hs hss).2.2, hrank]
      rfl
    · rintro rfl
      rw [(h.table rfl hp hps).2.2, hrank]
      rfl

/-- A command with a name of one letter, for each type. -/
def shortCommand (name : UInt8) (hname : name ≠ 0) (t : MCSType) (config : List CJSON) : CJSON :=
  .parseObject none
    [.parseString none ⟨[name], by simpa using hname⟩, .parseString none ⟨[], CString.noNul_nil⟩,
      .parseNumber none 0, .parseBool none false, .parseString none (typeName t),
      .parseObject none config]

/-- A configuration with two messages, a state and a payload. -/
def shortCommands : List CJSON :=
  [shortCommand 97 (by decide) .message
      [.parseNull none, .parseArray none [], .parseArray none [], .parseNumber none 0],
    shortCommand 98 (by decide) .payload
      [.parseString none ⟨[48], by simp⟩, .parseString none ⟨[48], by simp⟩,
        .parseString none ⟨[], CString.noNul_nil⟩, .parseNull none, .parseNumber none 1],
    shortCommand 99 (by decide) .message
      [.parseNull none, .parseArray none [], .parseArray none [], .parseNumber none 0],
    shortCommand 100 (by decide) .state
      [.parseString none ⟨[102], by simp⟩, .parseNumber none 1,
        .parseString none ⟨[], CString.noNul_nil⟩, .parseString none ⟨[75], by simp⟩,
        .parseNull none, .parseArray none []]]

theorem shortCommands_fields : ∀ c ∈ shortCommands, ∃ t name, t.isCommand = true ∧
    c.typeField = some (typeName t) ∧ c.nameField = some name := by
  simp only [shortCommands, List.forall_mem_cons, List.not_mem_nil, false_imp_iff, implies_true,
    and_true]
  exact ⟨⟨.message, _, rfl, rfl, rfl⟩, ⟨.payload, _, rfl, rfl, rfl⟩, ⟨.message, _, rfl, rfl, rfl⟩,
    ⟨.state, _, rfl, rfl, rfl⟩⟩

theorem shortCommands_numbering :
    ∃ l enums, mcsgCommandsReader ⟨id, Function.injective_id⟩
        (.parseObject none [.parseArray none shortCommands]) = some l ∧
      l.enumCells.walk l.read l.enums = some enums ∧ (enums.map MCSGEnum.value).Nodup ∧
      (enums[2]?).map MCSGEnum.value = some 1 := by
  have hlen : ∀ t : MCSType, t.isCommand = true →
      0 < (ofType t shortCommands).length ∧ (ofType t shortCommands).length < 65536 := by
    intro t ht
    cases t <;> first | decide | cases ht
  rcases generator_numbering ⟨id, Function.injective_id⟩
    (.parseObject none [.parseArray none shortCommands]) shortCommands ⟨_, _, rfl, rfl⟩
    shortCommands_fields
    (fun t ht => List.ne_nil_of_length_pos (hlen t ht).1) (fun t ht => (hlen t ht).2) with
    ⟨l, enums, hread, _, hwalk, _, hnodup, _, _, hentries⟩
  refine ⟨l, enums, hread, hwalk, hnodup, ?_⟩
  rcases hentries 2 _ rfl with ⟨t, name, ht, htype, _, hentry, _⟩
  have htm : t = .message := type_unique ht rfl htype rfl
  subst htm
  rw [hentry]
  change some (typeDec .message + (ofType .message (shortCommands.take 2)).length) = some 1
  decide

end MCSG
end AbsPlatform
