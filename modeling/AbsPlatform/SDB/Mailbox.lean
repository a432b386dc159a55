import AbsPlatform.Lib.LittleEndian
import AbsPlatform.Lib.Region
import AbsPlatform.MCS.RoundTrip
import AbsPlatform.SDB.Module

/-!
# Mailbox — a packet in the region of a module

`sdb_module_write_mcs_packet` lays a packet out in the region of another module: the sender's
number, the structure, and behind it the destination, the arguments and the data, with the pointers
of the structure set to where these are now.  `sdb_module_read_mcs_packet` follows the pointers.
What it returns is the packet that was written.
-/

namespace AbsPlatform
namespace SDB

open MCS Lib

/-! ## The structure in memory -/

/-- The bytes of a pointer. -/
def pointerBytes (arch : Arch) (p : Nat) : List UInt8 := leBytes arch.ptrSize p

/-- The values of the pointers in a packet, as far as they are not NULL. -/
structure Pointers where
  args : Nat
  dest : Nat
  data : Nat

/-- `pkt->dest`. -/
def destPointer (pkt : MCSPacket) (ptrs : Pointers) : Nat :=
  match pkt.dest with
  | none => 0
  | some _ => ptrs.dest

/-- The bytes of an `MCSPacket`, with zeroes for its padding. -/
def structBytes (arch : Arch) (pkt : MCSPacket) (ptrs : Pointers) : List UInt8 :=
  bytes32 pkt.id ++ (leBytes 4 pkt.type.toNat ++ (bytes16 pkt.cmd ++ (bytes16 pkt.nargs ++
    (List.replicate (arch.ptrSize - 4) 0 ++ (pointerBytes arch ptrs.args ++
      (pointerBytes arch (destPointer pkt ptrs) ++ (bytes16 pkt.dataSize ++
        (List.replicate (arch.ptrSize - 2) 0 ++ pointerBytes arch ptrs.data))))))))

/-- The offsets in the region: the sender's number is in front of the structure. -/
def posPkt : Nat := 4

def posArgs (arch : Arch) : Nat := posPkt + 8 + arch.ptrSize

def posDest (arch : Arch) : Nat := posPkt + 8 + 2 * arch.ptrSize

def posDataSize (arch : Arch) : Nat := posPkt + 8 + 3 * arch.ptrSize

def posData (arch : Arch) : Nat := posPkt + 8 + 4 * arch.ptrSize

/-- Where the parts of variable length begin. -/
def posParts (arch : Arch) : Nat := posPkt + sizeofPacket arch

/-! ## Writing -/

/-- The bytes behind a pointer with their count: nothing for none, and a fault at NULL. -/
def blockBytes (count : UInt16) (p : Option (List UInt8)) : Option (Option (List UInt8)) :=
  if count = 0 then some none else p.map some

/-- The bytes of `dest` with its terminator. -/
def destBytes (pkt : MCSPacket) : Option (List UInt8) := pkt.dest.map fun d => d.bytes ++ [0]

/-- A part behind the structure: its bytes go to `pos`, and the pointer at `field` is set to them.
`base` is the address of the region. -/
def putPart (arch : Arch) (base field : Nat) (part : Option (List UInt8))
    (at' : Region sdbModuleDataSize × Nat) : Option (Region sdbModuleDataSize × Nat) :=
  match part with
  | none => some at'
  | some bytes => do
      let data ← at'.1.write at'.2 bytes
      let data ← data.write field (pointerBytes arch (base + at'.2))
      some (data, at'.2 + bytes.length)

/-- What `sdb_module_write_mcs_packet` puts into the region at the address `base`.  The pointers
`ptrs` of the packet come with the structure, and stay there when nothing is behind them. -/
def writePacket (arch : Arch) (base sender : Nat) (pkt : MCSPacket) (ptrs : Pointers)
    (data : Region sdbModuleDataSize) : Option (Region sdbModuleDataSize) := do
  let data ← data.write 0 (leBytes 4 sender)
  let data ← data.write posPkt (structBytes arch pkt ptrs)
  let args ← blockBytes pkt.nargs pkt.args
  let block ← blockBytes pkt.dataSize pkt.data
  let at' ← putPart arch base (posDest arch) (destBytes pkt) (data, posParts arch)
  let at' ← putPart arch base (posArgs arch) args at'
  let at' ← putPart arch base (posData arch) block at'
  some at'.1

/-! ## Reading -/

/-- Where in the region a pointer leads to. -/
def pointee (base p : Nat) : Option Nat := if base ≤ p then some (p - base) else none

/-- `abs_malloccpy(p, count)`, unless there is nothing to copy.  A pointer without bytes behind it
is left as it is, and nobody follows it. -/
def readBlock (base : Nat) (count : UInt16) (p : Nat) (data : Region sdbModuleDataSize) :
    Option { block : Option (List UInt8) // ∀ bs ∈ block, bs.length = count.toNat } :=
  if count = 0 then
    some ⟨none, length_of_mem_none count⟩
  else do
    let pos ← pointee base p
    let bs ← data.read pos count.toNat
    some ⟨some bs.1, length_of_mem_some bs⟩

/-- `abs_malloccpy(p, strlen(p) + 1)`, unless `p` is NULL. -/
def readDest (base p : Nat) (data : Region sdbModuleDataSize) : Option (Option CString) :=
  if p = 0 then
    some none
  else do
    let pos ← pointee base p
    let bs ← data.readString pos
    some (some (CString.ofBuffer bs))

/-- The copies of what the pointers of a structure lead to. -/
def readParts (base : Nat) (id : UInt32) (type : UInt8) (cmd nargs dataSize : UInt16)
    (ptrs : Pointers) (data : Region sdbModuleDataSize) : Option MCSPacket := do
  let dest ← readDest base ptrs.dest data
  let args ← readBlock base nargs ptrs.args data
  let block ← readBlock base dataSize ptrs.data data
  some
    { id := id
      type := type
      cmd := cmd
      nargs := nargs
      args := args.1
      dest := dest
      dataSize := dataSize
      data := block.1
      args_len := args.2
      data_len := block.2 }

/-- The sender's number and what `sdb_module_read_mcs_packet` makes of the region at the address
`base`. -/
def readPacket (arch : Arch) (base : Nat) (data : Region sdbModuleDataSize) :
    Option (Nat × MCSPacket) := do
  let sender ← data.read 0 4
  let id ← data.read posPkt 4
  let type ← data.read (posPkt + 4) 4
  let cmd ← data.read (posPkt + 8) 2
  let nargs ← data.read (posPkt + 10) 2
  let args ← data.read (posArgs arch) arch.ptrSize
  let dest ← data.read (posDest arch) arch.ptrSize
  let dataSize ← data.read (posDataSize arch) 2
  let block ← data.read (posData arch) arch.ptrSize
  let pkt ← readParts base (word32 id.1) (UInt8.ofNat (leValue type.1)) (word16 cmd.1)
    (word16 nargs.1) (word16 dataSize.1)
    { args := leValue args.1, dest := leValue dest.1, data := leValue block.1 } data
  some (leValue sender.1, pkt)

/-! ## What a region holds -/

/-- The pointer `p` at `field`, and the part it leads to, which lies between `lo` and `hi`. -/
structure Linked (arch : Arch) (base field lo hi p : Nat) (part : Option (List UInt8))
    (data : Region sdbModuleDataSize) : Prop where
  pointer : data.Holds field (pointerBytes arch p)
  part : ∀ bs ∈ part, ∃ pos, p = base + pos ∧ lo ≤ pos ∧ pos + bs.length ≤ hi ∧ data.Holds pos bs

/-- The region holds the fixed fields of a packet and its sender's number. -/
structure Fields (arch : Arch) (sender : Nat) (pkt : MCSPacket) (data : Region sdbModuleDataSize) :
    Prop where
  sender : data.Holds 0 (leBytes 4 sender)
  id : data.Holds posPkt (bytes32 pkt.id)
  type : data.Holds (posPkt + 4) (leBytes 4 pkt.type.toNat)
  cmd : data.Holds (posPkt + 8) (bytes16 pkt.cmd)
  nargs : data.Holds (posPkt + 10) (bytes16 pkt.nargs)
  dataSize : data.Holds (posDataSize arch) (bytes16 pkt.dataSize)

section Layout

variable {arch : Arch} {base sender field lo hi pos p : Nat} {pkt : MCSPacket} {ptrs : Pointers}
  {data data' : Region sdbModuleDataSize} {part : Option (List UInt8)}

theorem sizeofPacket_eq (arch : Arch) : sizeofPacket arch = 8 + 5 * arch.ptrSize := by
  cases arch <;> rfl

theorem four_le_ptrSize (arch : Arch) : 4 ≤ arch.ptrSize := by
  cases arch <;> decide

@[simp] theorem length_pointerBytes (arch : Arch) (p : Nat) :
    (pointerBytes arch p).length = arch.ptrSize := by
  simp [pointerBytes]

theorem length_structBytes (arch : Arch) (pkt : MCSPacket) (ptrs : Pointers) :
    (structBytes arch pkt ptrs).length = sizeofPacket arch := by
  have hptr := four_le_ptrSize arch
  simp only [structBytes, List.length_append, length_bytes32, length_leBytes, length_bytes16,
    List.length_replicate, length_pointerBytes, sizeofPacket_eq]
  omega

/-- The structure, field by field. -/
theorem holds_structBytes (hsender : data.Holds 0 (leBytes 4 sender))
    (h : data.Holds posPkt (structBytes arch pkt ptrs)) :
    Fields arch sender pkt data ∧ data.Holds (posArgs arch) (pointerBytes arch ptrs.args) ∧
      data.Holds (posDest arch) (pointerBytes arch (destPointer pkt ptrs)) ∧
      data.Holds (posData arch) (pointerBytes arch ptrs.data) := by
  have hptr := four_le_ptrSize arch
  simp only [structBytes, Region.holds_append_iff, length_bytes32, length_leBytes, length_bytes16,
    List.length_replicate, length_pointerBytes, posPkt] at h
  -- the two blanks are the padding in front of `args` and `data`
  rcases h with ⟨hid, htype, hcmd, hnargs, _, hargs, hdest, hsize, _, hdata⟩
  refine ⟨⟨hsender, hid, htype, hcmd, hnargs, ?_⟩, ?_, ?_, ?_⟩
  · have hpos : posDataSize arch = 4 + 4 + 4 + 2 + 2 + (arch.ptrSize - 4) + arch.ptrSize +
        arch.ptrSize := by
      simp only [posDataSize, posPkt]
      omega
    exact hpos ▸ hsize
  · have hpos : posArgs arch = 4 + 4 + 4 + 2 + 2 + (arch.ptrSize - 4) := by
      simp only [posArgs, posPkt]
      omega
    exact hpos ▸ hargs
  · have hpos : posDest arch = 4 + 4 + 4 + 2 + 2 + (arch.ptrSize - 4) + arch.ptrSize := by
      simp only [posDest, posPkt]
      omega
    exact hpos ▸ hdest
  · have hpos : posData arch = 4 + 4 + 4 + 2 + 2 + (arch.ptrSize - 4) + arch.ptrSize +
        arch.ptrSize + 2 + (arch.ptrSize - 2) := by
      simp only [posData, posPkt]
      omega
    exact hpos ▸ hdata

/-- Adding a part changes only the pointer to it and what is not in use yet. -/
structure Kept (arch : Arch) (field pos : Nat) (data data' : Region sdbModuleDataSize) : Prop where
  holds : ∀ {q : Nat} {bs : List UInt8}, data.Holds q bs → q + bs.length ≤ pos →
    q + bs.length ≤ field ∨ field + arch.ptrSize ≤ q → data'.Holds q bs

theorem putPart_spec (base pos : Nat) (part : Option (List UInt8))
    (hp : data.Holds field (pointerBytes arch p)) (hfield : field + arch.ptrSize ≤ pos)
    (hfits : pos + (part.getD []).length ≤ sdbModuleDataSize) :
    ∃ data' p', putPart arch base field part (data, pos) =
        some (data', pos + (part.getD []).length) ∧
      Linked arch base field pos (pos + (part.getD []).length) p' part data' ∧
      (part = none → p' = p) ∧ Kept arch field pos data data' := by
  cases part with
  | none =>
      exact ⟨data, p, rfl, ⟨hp, by simp⟩, fun _ => rfl, ⟨fun hholds _ _ => hholds⟩⟩
  | some bytes =>
      -- two writes: the bytes of the part, and the pointer to them
      rcases data.exists_write (show pos + bytes.length ≤ sdbModuleDataSize from hfits) with
        ⟨data₁, hpart⟩
      have hbound : field + (pointerBytes arch (base + pos)).length ≤ sdbModuleDataSize := by
        simpa using hp.bound
      rcases data₁.exists_write hbound with ⟨data₂, hpointer⟩
      have hbytes : data₁.Holds pos bytes := Region.holds_write hpart
      refine ⟨data₂, base + pos, by simp [putPart, hpart, hpointer],
        ⟨Region.holds_write hpointer, ?_⟩, by simp, ⟨fun {q bs} hholds hbelow hapart => ?_⟩⟩
      · -- the pointer is in front of the part
        rintro bs ⟨⟩
        exact ⟨pos, rfl, Nat.le_refl _, Nat.le_refl _, hbytes.write hpointer (by simp; omega)⟩
      · exact (hholds.write hpart (Or.inl hbelow)).write hpointer (by simpa using hapart)

/-- A part that is there stays, with its pointer, when another one is added behind it. -/
theorem Linked.keep {field' : Nat} (h : Linked arch base field lo hi p part data)
    (hkept : Kept arch field' pos data data') (hhi : hi ≤ pos) (hlo : field' + arch.ptrSize ≤ lo)
    (hfield : field + arch.ptrSize ≤ pos)
    (hapart : field + arch.ptrSize ≤ field' ∨ field' + arch.ptrSize ≤ field) :
    Linked arch base field lo hi p part data' where
  pointer := hkept.holds h.pointer (by simpa using hfield) (by simpa using hapart)
  part := by
    intro bs hbs
    rcases h.part bs hbs with ⟨q, hq, hge, hle, hholds⟩
    exact ⟨q, hq, hge, hle, hkept.holds hholds (by omega) (Or.inr (by omega))⟩

/-- The fixed fields stay when a part is added behind the structure. -/
theorem Fields.keep (h : Fields arch sender pkt data) (hkept : Kept arch field pos data data')
    (hpos : posParts arch ≤ pos)
    (hfield : field = posArgs arch ∨ field = posDest arch ∨ field = posData arch) :
    Fields arch sender pkt data' := by
  have hptr := four_le_ptrSize arch
  have hsize := sizeofPacket_eq arch
  have hkeep : ∀ {q : Nat} {bs : List UInt8}, data.Holds q bs →
      q + bs.length ≤ posPkt + 12 ∨ (q = posDataSize arch ∧ bs.length = 2) → data'.Holds q bs := by
    intro q bs hholds hwhere
    -- every fixed field ends before the pointers begin, or lies between two of them
    simp only [posArgs, posDest, posData, posDataSize, posParts, posPkt] at *
    exact hkept.holds hholds (by omega) (by omega)
  exact
    { sender := hkeep h.sender (by simp [posPkt])
      id := hkeep h.id (by simp)
      type := hkeep h.type (by simp)
      cmd := hkeep h.cmd (by simp)
      nargs := hkeep h.nargs (by simp)
      dataSize := hkeep h.dataSize (by simp) }

/-- The region holds a packet and its sender's number, with all pointers into the region. -/
structure Holding (arch : Arch) (base sender : Nat) (pkt : MCSPacket)
    (data : Region sdbModuleDataSize) : Prop where
  fields : Fields arch sender pkt data
  dest : ∃ lo hi p, Linked arch base (posDest arch) lo hi p (destBytes pkt) data ∧
    (pkt.dest = none → p = 0)
  args : ∃ lo hi p part, blockBytes pkt.nargs pkt.args = some part ∧
    Linked arch base (posArgs arch) lo hi p part data
  data : ∃ lo hi p part, blockBytes pkt.dataSize pkt.data = some part ∧
    Linked arch base (posData arch) lo hi p part data

/-- An empty block has the same bytes as no block. -/
theorem getD_blockBytes {count : UInt16} {ptr : Option (List UInt8)}
    (hlen : ∀ bs ∈ ptr, bs.length = count.toNat) (h : blockBytes count ptr = some part) :
    part.getD [] = ptr.getD [] := by
  unfold blockBytes at h
  split_ifs at h with hzero
  · cases h
    cases hptr : ptr with
    | none => rfl
    | some bs =>
        -- a pointer with a count of zero is not followed, and there is nothing behind it
        have hbs : bs.length = 0 := by simpa [hzero] using hlen bs (by simp [hptr])
        simp [List.length_eq_zero_iff.1 hbs]
  · cases hptr : ptr with
    | none => simp [hptr] at h
    | some bs =>
        simp only [hptr, Option.map_some, Option.some.injEq] at h
        simp [← h]

theorem length_blockBytes {count : UInt16} {ptr : Option (List UInt8)}
    (hlen : ∀ bs ∈ ptr, bs.length = count.toNat) (h : blockBytes count ptr = some part) :
    (part.getD []).length = count.toNat := by
  unfold blockBytes at h
  split_ifs at h with hzero
  · cases h
    simp [hzero]
  · cases hptr : ptr with
    | none => simp [hptr] at h
    | some bs =>
        simp only [hptr, Option.map_some, Option.some.injEq] at h
        subst h
        exact hlen bs (by simp [hptr])

theorem regionBytes_eq (arch : Arch) (pkt : MCSPacket) :
    regionBytes arch pkt = posParts arch + ((destBytes pkt).getD []).length + pkt.nargs.toNat +
      pkt.dataSize.toNat := by
  cases hdest : pkt.dest <;> simp [regionBytes, destBytes, hdest, posParts, posPkt, CString.strlen]

/-- A packet that fits is laid out completely. -/
theorem writePacket_spec {args block : Option (List UInt8)} (base sender : Nat) (ptrs : Pointers)
    (data : Region sdbModuleDataSize) (hfits : regionBytes arch pkt ≤ sdbModuleDataSize)
    (hargs : blockBytes pkt.nargs pkt.args = some args)
    (hblock : blockBytes pkt.dataSize pkt.data = some block) :
    ∃ data', writePacket arch base sender pkt ptrs data = some data' ∧
      Holding arch base sender pkt data' := by
  have hptr := four_le_ptrSize arch
  have hsize := sizeofPacket_eq arch
  have hpos : posArgs arch + arch.ptrSize ≤ posDest arch ∧
      posDest arch + arch.ptrSize ≤ posData arch ∧ posData arch + arch.ptrSize ≤ posParts arch := by
    simp only [posArgs, posDest, posData, posParts]
    omega
  have hargsLen := length_blockBytes pkt.args_len hargs
  have hblockLen := length_blockBytes pkt.data_len hblock
  rw [regionBytes_eq, ← hargsLen, ← hblockLen] at hfits
  -- the sender's number and the structure
  rcases data.exists_write (show 0 + (leBytes 4 sender).length ≤ sdbModuleDataSize by
    simp [sdbModuleDataSize]) with ⟨data₁, hw₁⟩
  rcases data₁.exists_write (show posPkt + (structBytes arch pkt ptrs).length ≤ sdbModuleDataSize by
    rw [length_structBytes]
    simp only [posParts] at hfits
    omega) with ⟨data₂, hw₂⟩
  have hsender : data₂.Holds 0 (leBytes 4 sender) :=
    (Region.holds_write hw₁).write hw₂ (by simp [posPkt])
  rcases holds_structBytes hsender (Region.holds_write hw₂) with ⟨hfields, hpa, hpd, hpb⟩
  -- the three parts behind it, each of which leaves alone what is there already
  rcases putPart_spec base (posParts arch) (destBytes pkt) hpd (by omega) (by omega) with
    ⟨data₃, p₃, hput₃, hdest₃, hnull, hkept₃⟩
  rcases putPart_spec base _ args (hkept₃.holds hpa (by simp; omega) (by simp; omega)) (by omega)
    (show posParts arch + ((destBytes pkt).getD []).length + _ ≤ _ by omega) with
    ⟨data₄, p₄, hput₄, hargs₄, _, hkept₄⟩
  have hpb₃ := hkept₃.holds hpb (by simp; omega) (by simp; omega)
  rcases putPart_spec base _ block (hkept₄.holds hpb₃ (by simp; omega) (by simp; omega)) (by omega)
    (show posParts arch + ((destBytes pkt).getD []).length + (args.getD []).length + _ ≤ _ by
      omega) with ⟨data₅, p₅, hput₅, hblock₅, _, hkept₅⟩
  refine ⟨data₅, by simp [writePacket, hw₁, hw₂, hargs, hblock, hput₃, hput₄, hput₅], ?_⟩
  -- what has been written stays to the end
  have hfields₃ := hfields.keep hkept₃ (Nat.le_refl _) (by simp)
  have hfields₄ := hfields₃.keep hkept₄ (by omega) (by simp)
  have hdest₄ := hdest₃.keep hkept₄ (Nat.le_refl _) (by omega) (by omega) (by omega)
  exact
    { fields := hfields₄.keep hkept₅ (by omega) (by simp)
      dest := ⟨_, _, p₃, hdest₄.keep hkept₅ (by omega) (by omega) (by omega) (by omega),
        fun hnone => (hnull (by simp [destBytes, hnone])).trans (by simp [destPointer, hnone])⟩
      args := ⟨_, _, p₄, args, hargs, hargs₄.keep hkept₅ (Nat.le_refl _) (by omega) (by omega)
        (by omega)⟩
      data := ⟨_, _, p₅, block, hblock, hblock₅⟩ }

/-- What a copy that has come to its end has left behind. -/
theorem holding_of_writePacket (hfits : regionBytes arch pkt ≤ sdbModuleDataSize)
    (h : writePacket arch base sender pkt ptrs data = some data') :
    Holding arch base sender pkt data' := by
  -- without bytes behind a pointer that has a count there is no copy
  have hparts : ∃ args block, blockBytes pkt.nargs pkt.args = some args ∧
      blockBytes pkt.dataSize pkt.data = some block := by
    simp only [writePacket, Option.bind_eq_bind, Option.bind_eq_some_iff] at h
    rcases h with ⟨_, _, _, _, args, hargs, block, hblock, _⟩
    exact ⟨args, block, hargs, hblock⟩
  rcases hparts with ⟨args, block, hargs, hblock⟩
  rcases writePacket_spec base sender ptrs data hfits hargs hblock with ⟨data₁, hwrite, hholding⟩
  have hsame : data₁ = data' := Option.some.inj (hwrite.symm.trans h)
  exact hsame ▸ hholding

/-! ## Reading what was written -/

theorem leValue_pointerBytes {q : Nat} (h : q < 256 ^ arch.ptrSize) :
    leValue (pointerBytes arch q) = q := by
  rw [pointerBytes, leValue_leBytes, Nat.mod_eq_of_lt h]

theorem pointee_add (base q : Nat) : pointee base (base + q) = some q := by
  simp [pointee]

/-- A part is found again through its pointer. -/
theorem Linked.readBlock {count : UInt16} {ptr : Option (List UInt8)}
    (h : Linked arch base field lo hi p part data)
    (hend : base + sdbModuleDataSize ≤ 256 ^ arch.ptrSize)
    (hlen : ∀ bs ∈ ptr, bs.length = count.toNat) (hpart : blockBytes count ptr = some part) :
    ∃ hpart', readBlock base count (leValue (pointerBytes arch p)) data = some ⟨part, hpart'⟩ := by
  unfold blockBytes at hpart
  unfold SDB.readBlock
  split_ifs at hpart ⊢ with hzero
  · cases hpart
    exact ⟨by simp, rfl⟩
  · cases hptr : ptr with
    | none => simp [hptr] at hpart
    | some bs =>
        simp only [hptr, Option.map_some, Option.some.injEq] at hpart
        subst hpart
        rcases h.part bs rfl with ⟨q, rfl, _, _, hholds⟩
        have hbs : bs.length = count.toNat := hlen bs (by simp [hptr])
        -- there is a byte behind the pointer, so it is inside the address space
        have hpos : 0 < bs.length := by
          rw [hbs]
          exact Nat.pos_of_ne_zero fun hz => hzero (UInt16.toNat_inj.1 hz)
        have hbound := hholds.bound
        refine ⟨by simpa using hbs, ?_⟩
        rw [leValue_pointerBytes (by omega), pointee_add]
        simp [hholds.read hbs]

theorem Linked.readDest (h : Linked arch base field lo hi p (destBytes pkt) data) (hbase : 0 < base)
    (hend : base + sdbModuleDataSize ≤ 256 ^ arch.ptrSize) (hnull : pkt.dest = none → p = 0) :
    readDest base (leValue (pointerBytes arch p)) data = some pkt.dest := by
  unfold SDB.readDest
  cases hdest : pkt.dest with
  | none =>
      rw [hnull hdest, leValue_pointerBytes (Nat.pow_pos (by decide))]
      simp
  | some d =>
      rcases h.part (d.bytes ++ [0]) (by simp [destBytes, hdest]) with ⟨q, rfl, _, _, hholds⟩
      have hbound := hholds.bound
      simp only [List.length_append, List.length_singleton] at hbound
      rw [leValue_pointerBytes (by omega), if_neg (by omega), pointee_add]
      simp [hholds.readString d.noNul, CString.ofBuffer_bytes]

/-- What is read from the region is the sender's number and the packet. -/
theorem Holding.readPacket (h : Holding arch base sender pkt data) (hsender : sender < 2 ^ 32)
    (hbase : 0 < base) (hend : base + sdbModuleDataSize ≤ 256 ^ arch.ptrSize) :
    ∃ q, readPacket arch base data = some (sender, q) ∧ SamePacket pkt q := by
  rcases h.dest with ⟨_, _, pd, hdest, hnull⟩
  rcases h.args with ⟨_, _, pa, args, hargs, hlinkedArgs⟩
  rcases h.data with ⟨_, _, pb, block, hblock, hlinkedBlock⟩
  rcases hlinkedArgs.readBlock hend pkt.args_len hargs with ⟨hargsLen, hreadArgs⟩
  rcases hlinkedBlock.readBlock hend pkt.data_len hblock with ⟨hblockLen, hreadBlock⟩
  have hreadDest := hdest.readDest hbase hend hnull
  have hsenderValue : leValue (leBytes 4 sender) = sender := by
    rw [leValue_leBytes, Nat.mod_eq_of_lt (by simpa using hsender)]
  have htype : UInt8.ofNat (leValue (leBytes 4 pkt.type.toNat)) = pkt.type := by
    have hlt : pkt.type.toNat < 256 ^ 4 := Nat.lt_of_lt_of_le pkt.type.toNat_lt (by decide)
    rw [leValue_leBytes, Nat.mod_eq_of_lt hlt, UInt8.ofNat_toNat]
  have hparts : readParts base pkt.id pkt.type pkt.cmd pkt.nargs pkt.dataSize
      { args := leValue (pointerBytes arch pa)
        dest := leValue (pointerBytes arch pd)
        data := leValue (pointerBytes arch pb) } data =
      some { pkt with
        args := args, data := block, args_len := hargsLen, data_len := hblockLen } := by
    simp [readParts, hreadDest, hreadArgs, hreadBlock]
  refine ⟨{ pkt with args := args, data := block, args_len := hargsLen, data_len := hblockLen },
    ?_, ?_⟩
  · simp only [SDB.readPacket, h.fields.sender.read (length_leBytes 4 _),
      h.fields.id.read (length_bytes32 _), h.fields.type.read (length_leBytes 4 _),
      h.fields.cmd.read (length_bytes16 _), h.fields.nargs.read (length_bytes16 _),
      hlinkedArgs.pointer.read (length_pointerBytes _ _),
      hdest.pointer.read (length_pointerBytes _ _), h.fields.dataSize.read (length_bytes16 _),
      hlinkedBlock.pointer.read (length_pointerBytes _ _), Option.bind_eq_bind, Option.bind_some,
      word32_bytes32, word16_bytes16, htype, hsenderValue, hparts]
  · exact
      { id := rfl
        type := rfl
        cmd := rfl
        nargs := rfl
        args := getD_blockBytes pkt.args_len hargs
        dest := rfl
        dataSize := rfl
        data := getD_blockBytes pkt.data_len hblock }

end Layout

end SDB
end AbsPlatform
