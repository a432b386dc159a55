import AbsPlatform.SDB.Effects
import AbsPlatform.SDB.Mailbox

/-!
# RegionSize — the size test in front of the region

`sdb_module_write_mcs_packet` tests a sum of three sizes and copies five parts.  The model here is
for any `sizeof(MCSPacket)`; at the two layouts of the structure it agrees with `regionBytes`,
`TooLarge` and `writePacket`.
-/

namespace AbsPlatform
namespace SDB

open MCS Lib

/-! ## The test and the copies -/

/-- `sizeof(*pkt) + pkt->nargs + pkt->data_size <= SDB_MODULE_DATA_SIZE`. -/
def PassesSizeTest (sizeofPkt : Nat) (pkt : MCSPacket) : Prop :=
  sizeofPkt + pkt.nargs.toNat + pkt.dataSize.toNat ≤ sdbModuleDataSize

instance (sizeofPkt : Nat) (pkt : MCSPacket) : Decidable (PassesSizeTest sizeofPkt pkt) :=
  inferInstanceAs (Decidable (_ ≤ _))

/-- A `memcpy` into the region. -/
structure RegionCopy where
  pos : Nat
  size : Nat

/-- Each part goes to where the one in front of it ends. -/
def copiesFrom (pos : Nat) : List Nat → List RegionCopy
  | [] => []
  | size :: sizes => { pos := pos, size := size } :: copiesFrom (pos + size) sizes

/-- `strlen(pkt->dest) + 1`, or nothing for NULL. -/
def destSizes (pkt : MCSPacket) : List Nat := (pkt.dest.map fun d => d.strlen + 1).toList

/-- The parts in the order of the source: the sender's number, the structure, and what is behind
the pointers. -/
def partSizes (sizeofPkt : Nat) (pkt : MCSPacket) : List Nat :=
  [4, sizeofPkt] ++ destSizes pkt ++ (if pkt.nargs ≠ 0 then [pkt.nargs.toNat] else []) ++
    if pkt.dataSize ≠ 0 then [pkt.dataSize.toNat] else []

def regionCopies (sizeofPkt : Nat) (pkt : MCSPacket) : List RegionCopy :=
  copiesFrom 0 (partSizes sizeofPkt pkt)

/-- All the bytes that are copied. -/
def copiedBytes (sizeofPkt : Nat) (pkt : MCSPacket) : Nat :=
  ((regionCopies sizeofPkt pkt).map fun c => c.size).sum

/-! ## What is copied -/

theorem map_size_copiesFrom (pos : Nat) (sizes : List Nat) :
    (copiesFrom pos sizes).map (fun c => c.size) = sizes := by
  induction sizes generalizing pos with
  | nil => rfl
  | cons size sizes ih => simp [copiesFrom, ih]

/-- The copies stay inside a region exactly when all the bytes together fit into it. -/
theorem forall_copiesFrom_iff {pos bound : Nat} {sizes : List Nat} (h : pos ≤ bound) :
    (∀ c ∈ copiesFrom pos sizes, c.pos + c.size ≤ bound) ↔ pos + sizes.sum ≤ bound := by
  induction sizes generalizing pos with
  | nil => simpa [copiesFrom] using h
  | cons size sizes ih =>
      simp only [copiesFrom, List.forall_mem_cons, List.sum_cons]
      constructor
      · rintro ⟨hfirst, hrest⟩
        have htail := (ih hfirst).1 hrest
        omega
      · intro htotal
        have hfirst : pos + size ≤ bound := by omega
        exact ⟨hfirst, (ih hfirst).2 (by omega)⟩

/-- A part of no bytes may as well be copied. -/
theorem sum_ite_ne_zero (n : UInt16) : (if n ≠ 0 then [n.toNat] else []).sum = n.toNat := by
  split_ifs with h
  · simp
  · simp [not_not.1 h]

theorem copiedBytes_eq (sizeofPkt : Nat) (pkt : MCSPacket) :
    copiedBytes sizeofPkt pkt =
      4 + sizeofPkt + (destSizes pkt).sum + pkt.nargs.toNat + pkt.dataSize.toNat := by
  unfold copiedBytes regionCopies
  rw [map_size_copiesFrom]
  simp only [partSizes, List.sum_append, sum_ite_ne_zero, List.sum_cons, List.sum_nil]
  omega

/-- No copy leaves the region when the total fits, and otherwise one does. -/
theorem forall_regionCopies_iff (sizeofPkt : Nat) (pkt : MCSPacket) :
    (∀ c ∈ regionCopies sizeofPkt pkt, c.pos + c.size ≤ sdbModuleDataSize) ↔
      copiedBytes sizeofPkt pkt ≤ sdbModuleDataSize := by
  have hcopied : copiedBytes sizeofPkt pkt = (partSizes sizeofPkt pkt).sum := by
    rw [copiedBytes, regionCopies, map_size_copiesFrom]
  rw [hcopied, regionCopies, forall_copiesFrom_iff (Nat.zero_le sdbModuleDataSize), Nat.zero_add]

/-! ## The layouts of the structure -/

section Layouts

variable {arch : Arch} {pkt : MCSPacket}

theorem sum_destSizes (pkt : MCSPacket) :
    (destSizes pkt).sum = ((destBytes pkt).getD []).length := by
  cases hdest : pkt.dest <;> simp [destSizes, destBytes, hdest, CString.strlen]

theorem copiedBytes_sizeofPacket (arch : Arch) (pkt : MCSPacket) :
    copiedBytes (sizeofPacket arch) pkt = regionBytes arch pkt := by
  rw [copiedBytes_eq, sum_destSizes, regionBytes_eq, posParts, posPkt]

theorem passesSizeTest_iff_not_tooLarge :
    PassesSizeTest (sizeofPacket arch) pkt ↔ ¬ TooLarge arch pkt := by
  simp [PassesSizeTest, TooLarge]

/-- A part that has been put ends inside the region. -/
theorem end_of_putPart {base field : Nat} {part : Option (List UInt8)}
    {at₀ at₁ : Region sdbModuleDataSize × Nat} (hstart : at₀.2 ≤ sdbModuleDataSize)
    (h : putPart arch base field part at₀ = some at₁) :
    at₁.2 = at₀.2 + (part.getD []).length ∧ at₁.2 ≤ sdbModuleDataSize := by
  cases part with
  | none =>
      cases h
      exact ⟨rfl, hstart⟩
  | some bytes =>
      simp only [putPart, Option.bind_eq_bind, Option.bind_eq_some_iff, Option.some.injEq] at h
      rcases h with ⟨data, hwrite, _, _, rfl⟩
      exact ⟨rfl, Region.write_bound hwrite⟩

/-- The copies come to their end exactly when the bytes fit. -/
theorem isSome_writePacket_iff {args block : Option (List UInt8)} (base sender : Nat)
    (ptrs : Pointers) (data : Region sdbModuleDataSize)
    (hargs : blockBytes pkt.nargs pkt.args = some args)
    (hblock : blockBytes pkt.dataSize pkt.data = some block) :
    (writePacket arch base sender pkt ptrs data).isSome ↔
      copiedBytes (sizeofPacket arch) pkt ≤ sdbModuleDataSize := by
  rw [copiedBytes_sizeofPacket]
  constructor
  · intro h
    rcases Option.isSome_iff_exists.1 h with ⟨data', hdata'⟩
    simp only [writePacket, hargs, hblock, Option.bind_eq_bind, Option.bind_some,
      Option.bind_eq_some_iff] at hdata'
    rcases hdata' with ⟨data₁, _, data₂, hstruct, at₁, hdest, at₂, hat₂, at₃, hat₃, _⟩
    -- the position moves on by the length of each part
    have hparts : posParts arch ≤ sdbModuleDataSize := by
      simpa [posParts, length_structBytes] using Region.write_bound hstruct
    rcases end_of_putPart hparts hdest with ⟨h₁, hle₁⟩
    rcases end_of_putPart hle₁ hat₂ with ⟨h₂, hle₂⟩
    rcases end_of_putPart hle₂ hat₃ with ⟨h₃, hle₃⟩
    rw [regionBytes_eq, ← length_blockBytes pkt.args_len hargs,
      ← length_blockBytes pkt.data_len hblock]
    omega
  · intro hfits
    rcases writePacket_spec base sender ptrs data hfits hargs hblock with ⟨data', hdata', _⟩
    simp [hdata']

end Layouts

/-! ## The test against the copies -/

/-- The test is enough except for packets that come as near to the end of the region as the sizes it
leaves out, of the sender's number and of the destination with its terminator. -/
theorem copiedBytes_le_of_test_iff (sizeofPkt : Nat) (pkt : MCSPacket) :
    (PassesSizeTest sizeofPkt pkt → copiedBytes sizeofPkt pkt ≤ sdbModuleDataSize) ↔
      sizeofPkt + pkt.nargs.toNat + pkt.dataSize.toNat + (4 + (destSizes pkt).sum) ≤
          sdbModuleDataSize ∨
        sdbModuleDataSize < sizeofPkt + pkt.nargs.toNat + pkt.dataSize.toNat := by
  rw [copiedBytes_eq]
  unfold PassesSizeTest
  constructor
  · intro h
    by_cases hpass : sizeofPkt + pkt.nargs.toNat + pkt.dataSize.toNat ≤ sdbModuleDataSize
    · have hfits := h hpass
      exact Or.inl (by omega)
    · exact Or.inr (by omega)
  · rintro (hfits | hrefused) hpass
    · omega
    · exact absurd hpass (Nat.not_le.2 hrefused)

/-- An answer with 976 bytes, in the layout with eight-byte pointers. -/
theorem sizeTest_insufficient :
    ∃ pkt : MCSPacket, pkt.dest = none ∧ pkt.nargs = 0 ∧ pkt.dataSize = 976 ∧
      PassesSizeTest (sizeofPacket .lp64) pkt ∧
      copiedBytes (sizeofPacket .lp64) pkt = sdbModuleDataSize + 4 := by
  have hsize : ∀ bytes : List UInt8, bytes.length = 976 →
      (mcsOkPacketDataId 7 bytes).dataSize = 976 := by
    intro bytes hbytes
    simp [mcsOkPacketDataId, hbytes]
  have hdata := hsize (List.replicate 976 0) List.length_replicate
  refine ⟨mcsOkPacketDataId 7 (List.replicate 976 0), rfl, rfl, hdata, ?_, ?_⟩
  · rw [PassesSizeTest, hdata]
    decide
  · rw [copiedBytes_eq, hdata]
    rfl

end SDB
end AbsPlatform
