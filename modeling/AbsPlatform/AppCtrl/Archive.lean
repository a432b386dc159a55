import AbsPlatform.Include
import AbsPlatform.AppCtrl.Inflate
import AbsPlatform.Lib.LittleEndian
import AbsPlatform.Lib.Placed

/-!
# Archive — the manifest of an application package

`jzReadLocalFileHeader` and `jzReadData` of `junzip.c`, and `getManifestFromAPK`, which reads one
local header after the other until it comes to the one of `AndroidManifest.xml`.  A file that is
open for reading is the list of the bytes that are left of it.  The decompression of zlib is a
parameter.

The contents of a file are not skipped before the next header is read.  An archive gives its
manifest exactly if all the files in front of it are empty (`getManifestFromAPK_iff`).
-/

namespace AbsPlatform
namespace AppCtrl

open Lib

/-! ## junzip.h -/

structure JZLocalFileHeader where
  signature : UInt32
  versionNeededToExtract : UInt16
  generalPurposeBitFlag : UInt16
  compressionMethod : UInt16
  lastModFileTime : UInt16
  lastModFileDate : UInt16
  crc32 : UInt32
  compressedSize : UInt32
  uncompressedSize : UInt32
  fileNameLength : UInt16
  extraFieldLength : UInt16

structure JZFileHeader where
  compressionMethod : UInt16
  lastModFileTime : UInt16
  lastModFileDate : UInt16
  crc32 : UInt32
  compressedSize : UInt32
  uncompressedSize : UInt32
  offset : UInt32
  deriving DecidableEq

def jzBufferSize : Nat := 65536

namespace JZLocalFileHeader

/-- The packed structure in memory. -/
def bytes (h : JZLocalFileHeader) : List UInt8 :=
  bytes32 h.signature ++ bytes16 h.versionNeededToExtract ++ bytes16 h.generalPurposeBitFlag ++
    bytes16 h.compressionMethod ++ bytes16 h.lastModFileTime ++ bytes16 h.lastModFileDate ++
    bytes32 h.crc32 ++ bytes32 h.compressedSize ++ bytes32 h.uncompressedSize ++
    bytes16 h.fileNameLength ++ bytes16 h.extraFieldLength

def ofBytes (bs : List UInt8) : JZLocalFileHeader where
  signature := word32 (bs.take 4)
  versionNeededToExtract := word16 ((bs.drop 4).take 2)
  generalPurposeBitFlag := word16 ((bs.drop 6).take 2)
  compressionMethod := word16 ((bs.drop 8).take 2)
  lastModFileTime := word16 ((bs.drop 10).take 2)
  lastModFileDate := word16 ((bs.drop 12).take 2)
  crc32 := word32 ((bs.drop 14).take 4)
  compressedSize := word32 ((bs.drop 18).take 4)
  uncompressedSize := word32 ((bs.drop 22).take 4)
  fileNameLength := word16 ((bs.drop 26).take 2)
  extraFieldLength := word16 ((bs.drop 28).take 2)

/-- `memcpy(header, &localHeader.compressionMethod, sizeof(JZFileHeader))`, with the offset 0. -/
def toFileHeader (h : JZLocalFileHeader) : JZFileHeader where
  compressionMethod := h.compressionMethod
  lastModFileTime := h.lastModFileTime
  lastModFileDate := h.lastModFileDate
  crc32 := h.crc32
  compressedSize := h.compressedSize
  uncompressedSize := h.uncompressedSize
  offset := 0

end JZLocalFileHeader

/-! ## junzip.c -/

def localSignature : UInt32 := 0x04034B50

/-- `fread` of `n` bytes, which fails if there are fewer. -/
def fread (n : Nat) (zip : List UInt8) : Option (List UInt8 × List UInt8) :=
  if zip.length < n then none else some (zip.take n, zip.drop n)

/-- `jzReadLocalFileHeader`: the header, the name and the file behind them; `none` for `Z_ERRNO`.
One may seek behind the end of the file. -/
def jzReadLocalFileHeader (zip : List UInt8) (len : Nat) :
    Option (JZFileHeader × List UInt8 × List UInt8) := do
  let (struct, zip) ← fread 30 zip
  let h := JZLocalFileHeader.ofBytes struct
  if h.signature ≠ localSignature then none
  else do
    let (filename, zip) ←
      if len ≠ 0 then
        if h.fileNameLength.toNat ≥ len then none else fread h.fileNameLength.toNat zip
      else
        some ([], zip.drop h.fileNameLength.toNat)
    let zip := if h.extraFieldLength ≠ 0 then zip.drop h.extraFieldLength.toNat else zip
    if h.compressionMethod = 0 ∧ h.compressedSize ≠ h.uncompressedSize then none
    else some (h.toFileHeader, filename, zip)

section

variable {σ : Type} (z : Zlib σ)

/-- How much of the file the loop of `jzReadData` reads.  A negative number is a large one when it
is compared with the size of the buffer. -/
def chunkLength (compressedLeft : Int) : Nat :=
  if 0 ≤ compressedLeft ∧ compressedLeft ≤ jzBufferSize then compressedLeft.toNat else jzBufferSize

/-- The loop of `jzReadData`, with the bytes it has written.  Each turn reads from the file, so it
has at most as many of them as the file has bytes. -/
def inflateLoop : (turns : Nat) → σ → (zip : List UInt8) → (compressedLeft : Int) →
    (uncompressedLeft : Nat) → (ret : ZRet) → (bytes : List UInt8) → ZRet × List UInt8
  | 0, _, _, _, _, _, bytes => (.errno, bytes)
  | turns + 1, s, zip, compressedLeft, uncompressedLeft, ret, bytes =>
      if compressedLeft ≠ 0 ∧ uncompressedLeft ≠ 0 ∧ ret ≠ .streamEnd then
        let chunk := zip.take (chunkLength compressedLeft)
        if chunk = [] then (.errno, bytes)
        else
          let r := z.inflate s chunk uncompressedLeft
          match r.ret with
          | .streamError => (.streamError, bytes ++ r.out)
          | .needDict | .dataError => (.dataError, bytes ++ r.out)
          | .memError => (.memError, bytes ++ r.out)
          | ret => inflateLoop turns r.state (zip.drop chunk.length)
              (compressedLeft - chunk.length - r.left) (uncompressedLeft - r.out.length) ret
              (bytes ++ r.out)
      else
        (.ok, bytes)

/-- `jzReadData`, with the bytes it writes to the buffer. -/
def jzReadData (zip : List UInt8) (header : JZFileHeader) : ZRet × List UInt8 :=
  if header.compressionMethod = 0 then
    match fread header.uncompressedSize.toNat zip with
    | none => (.errno, zip)
    | some (data, _) => (.ok, data)
  else if header.compressionMethod = 8 then
    match z.inflateInit with
    | .error ret => (ret, [])
    | .ok s =>
        inflateLoop z (zip.length + 1) s zip header.compressedSize.toNat
          header.uncompressedSize.toNat .ok []
  else
    (.errno, [])

/-! ## app_ctrl_assets.c -/

/-- `"AndroidManifest.xml"`. -/
def androidManifest : CString :=
  CString.ofBuffer [65, 110, 100, 114, 111, 105, 100, 77, 97, 110, 105, 102, 101, 115, 116, 46, 120,
    109, 108]

/-- The loop of `getManifestFromAPK`.  Each turn reads a header. -/
def findManifest : (turns : Nat) → (apk : List UInt8) → Option (JZFileHeader × List UInt8)
  | 0, _ => none
  | turns + 1, apk => do
      let (header, filename, apk) ← jzReadLocalFileHeader apk 1024
      if CString.ofBuffer filename = androidManifest then some (header, apk)
      else findManifest turns apk

/-- `getManifestFromAPK`: the block that `manifest` points to, as long as the size that is returned;
`none` where it returns 0 and leaves `manifest` as it is.  There is no file for `none`. -/
def getManifestFromAPK (malloc : Nat → Option (List UInt8)) (apk : Option (List UInt8)) :
    Option (List UInt8) := do
  let apk ← apk
  let (header, apk) ← findManifest (apk.length + 1) apk
  let block ← malloc header.uncompressedSize.toNat
  match jzReadData z apk header with
  | (.ok, data) => some (data ++ block.drop data.length)
  | _ => none

end

/-! ## Archives -/

/-- A file of an archive. -/
structure Entry where
  versionNeededToExtract : UInt16
  generalPurposeBitFlag : UInt16
  compressionMethod : UInt16
  lastModFileTime : UInt16
  lastModFileDate : UInt16
  crc32 : UInt32
  compressedSize : UInt32
  uncompressedSize : UInt32
  name : List UInt8
  extra : List UInt8
  data : List UInt8

namespace Entry

def localHeader (e : Entry) : JZLocalFileHeader where
  signature := localSignature
  versionNeededToExtract := e.versionNeededToExtract
  generalPurposeBitFlag := e.generalPurposeBitFlag
  compressionMethod := e.compressionMethod
  lastModFileTime := e.lastModFileTime
  lastModFileDate := e.lastModFileDate
  crc32 := e.crc32
  compressedSize := e.compressedSize
  uncompressedSize := e.uncompressedSize
  fileNameLength := UInt16.ofNat e.name.length
  extraFieldLength := UInt16.ofNat e.extra.length

def bytes (e : Entry) : List UInt8 := e.localHeader.bytes ++ e.name ++ e.extra ++ e.data

/-- The lengths fit, and a file that is stored as it is has one size. -/
structure Valid (e : Entry) : Prop where
  name : e.name.length < 1024
  extra : e.extra.length < 65536
  stored : e.compressionMethod = 0 → e.compressedSize = e.uncompressedSize

end Entry

/-- The files in front of the manifest, the manifest, and the rest of the archive. -/
structure Archive where
  before : List Entry
  manifest : Entry
  behind : List UInt8

namespace Archive

def bytes (a : Archive) : List UInt8 :=
  a.before.flatMap Entry.bytes ++ (a.manifest.bytes ++ a.behind)

/-- Only the manifest has its name, and no contents in front of it look like a header. -/
structure Valid (a : Archive) : Prop where
  entries : ∀ e ∈ a.before, e.Valid
  manifest : a.manifest.Valid
  names : ∀ e ∈ a.before, CString.ofBuffer e.name ≠ androidManifest
  name : CString.ofBuffer a.manifest.name = androidManifest
  contents : ∀ e ∈ a.before, ¬ bytes32 localSignature <+: e.data

end Archive

/-! ## Headers -/

theorem ofBytes_bytes (h : JZLocalFileHeader) : JZLocalFileHeader.ofBytes h.bytes = h := by
  simp [JZLocalFileHeader.ofBytes, JZLocalFileHeader.bytes, List.drop_append,
    List.drop_of_length_le, List.take_of_length_le]

theorem length_header (h : JZLocalFileHeader) : h.bytes.length = 30 := by
  simp [JZLocalFileHeader.bytes]

theorem fread_append {xs : List UInt8} {n : Nat} (h : xs.length = n) (zip : List UInt8) :
    fread n (xs ++ zip) = some (xs, zip) := by
  subst h
  simp [fread]

/-- A header is read, and the file is at the contents then. -/
theorem jzReadLocalFileHeader_entry {e : Entry} (h : e.Valid) (zip : List UInt8) :
    jzReadLocalFileHeader (e.bytes ++ zip) 1024 =
      some (e.localHeader.toFileHeader, e.name, e.data ++ zip) := by
  have hname : (UInt16.ofNat e.name.length).toNat = e.name.length := by
    have := h.name
    rw [UInt16.toNat_ofNat']
    exact Nat.mod_eq_of_lt (by omega)
  have hextra : (UInt16.ofNat e.extra.length).toNat = e.extra.length := by
    rw [UInt16.toNat_ofNat']
    exact Nat.mod_eq_of_lt h.extra
  have hskip : (if UInt16.ofNat e.extra.length ≠ 0 then
      (e.extra ++ (e.data ++ zip)).drop (UInt16.ofNat e.extra.length).toNat
      else e.extra ++ (e.data ++ zip)) = e.data ++ zip := by
    split_ifs with hzero
    · rw [hextra, List.drop_left]
    · have hempty : e.extra.length = 0 := by
        rw [← hextra, not_not.1 hzero]
        rfl
      rw [List.length_eq_zero_iff.1 hempty, List.nil_append]
  have hsizes : ¬ (e.compressionMethod = 0 ∧ e.compressedSize ≠ e.uncompressedSize) :=
    fun hbad => hbad.2 (h.stored hbad.1)
  have hbytes :
      e.bytes ++ zip = e.localHeader.bytes ++ (e.name ++ (e.extra ++ (e.data ++ zip))) := by
    simp [Entry.bytes]
  rw [hbytes, jzReadLocalFileHeader, fread_append (length_header _)]
  simp only [Option.bind_eq_bind, Option.bind_some, ofBytes_bytes, Entry.localHeader, ne_eq,
    not_true_eq_false, if_false, hname, ge_iff_le, Nat.not_le.2 h.name,
    fread_append (rfl : e.name.length = e.name.length), if_neg hsizes] at hskip ⊢
  rw [if_pos (by decide), hskip]

/-- Without the signature there is no header. -/
theorem jzReadLocalFileHeader_of_no_signature {zip : List UInt8}
    (h : ¬ bytes32 localSignature <+: zip) (len : Nat) : jzReadLocalFileHeader zip len = none := by
  by_cases hshort : zip.length < 30
  · rw [jzReadLocalFileHeader, fread, if_pos hshort]
    rfl
  · have hsignature : (JZLocalFileHeader.ofBytes (zip.take 30)).signature ≠ localSignature := by
      intro heq
      have hfour : (zip.take 4).length = 4 := by
        rw [List.length_take]
        omega
      have htake : (zip.take 30).take 4 = zip.take 4 := by simp [List.take_take]
      have hword : word32 (zip.take 4) = localSignature := by
        rw [← heq, JZLocalFileHeader.ofBytes, htake]
      refine h ?_
      rw [← hword, bytes32_word32 hfour]
      exact List.take_prefix 4 zip
    rw [jzReadLocalFileHeader, fread, if_neg hshort]
    simp only [Option.bind_eq_bind, Option.bind_some, if_pos hsignature]

theorem signature_first (e : Entry) : bytes32 localSignature <+: e.bytes := by
  refine ⟨e.localHeader.bytes.drop 4 ++ e.name ++ e.extra ++ e.data, ?_⟩
  simp [Entry.bytes, JZLocalFileHeader.bytes, Entry.localHeader]

/-- The signature does not overlap with itself. -/
theorem no_signature_append {data zip : List UInt8} (hne : data ≠ [])
    (hdata : ¬ bytes32 localSignature <+: data) (hzip : bytes32 localSignature <+: zip) :
    ¬ bytes32 localSignature <+: data ++ zip := by
  have hbytes : bytes32 localSignature = [80, 75, 3, 4] := by decide
  rw [hbytes] at hdata hzip ⊢
  rcases hzip with ⟨rest, rfl⟩
  match data with
  | [] => exact absurd rfl hne
  | [a] => simp
  | [a, b] => simp
  | [a, b, c] => simp
  | a :: b :: c :: d :: data => simpa using hdata

theorem Entry.bytes_ne_nil (e : Entry) : e.bytes ≠ [] := by
  intro hnil
  have hlen := (signature_first e).length_le
  simp [hnil] at hlen

/-! ## The search -/

theorem findManifest_archive {a : Archive} (h : a.Valid) {turns : Nat}
    (hturns : a.before.length < turns) :
    findManifest turns a.bytes =
      if ∀ e ∈ a.before, e.data = [] then
        some (a.manifest.localHeader.toFileHeader, a.manifest.data ++ a.behind)
      else none := by
  obtain ⟨before, manifest, behind⟩ := a
  have hmanifest : manifest.Valid := h.manifest
  have hname : CString.ofBuffer manifest.name = androidManifest := h.name
  have hnames : ∀ e ∈ before, CString.ofBuffer e.name ≠ androidManifest := h.names
  have hentries : ∀ e ∈ before, e.Valid := h.entries
  have hcontents : ∀ e ∈ before, ¬ bytes32 localSignature <+: e.data := h.contents
  clear h
  simp only [Archive.bytes] at hturns ⊢
  induction before generalizing turns with
  | nil =>
      obtain ⟨turns, rfl⟩ := Nat.exists_eq_succ_of_ne_zero (by omega : turns ≠ 0)
      rw [List.flatMap_nil, List.nil_append, Nat.succ_eq_add_one, findManifest,
        jzReadLocalFileHeader_entry hmanifest]
      simp [hname]
  | cons e before ih =>
      obtain ⟨turns, rfl⟩ := Nat.exists_eq_succ_of_ne_zero (by omega : turns ≠ 0)
      simp only [List.forall_mem_cons] at hnames hentries hcontents
      have hrest := ih (Nat.lt_of_succ_lt_succ hturns) hnames.2 hentries.2 hcontents.2
      rw [List.flatMap_cons, List.append_assoc, Nat.succ_eq_add_one, findManifest,
        jzReadLocalFileHeader_entry hentries.1]
      simp only [Option.bind_eq_bind, Option.bind_some, if_neg hnames.1, List.forall_mem_cons]
      by_cases hempty : e.data = []
      · simp only [hempty, List.nil_append, true_and]
        exact hrest
      · -- the contents are taken for a header
        have hnext : bytes32 localSignature <+:
            before.flatMap Entry.bytes ++ (manifest.bytes ++ behind) := by
          cases before with
          | nil =>
              rw [List.flatMap_nil, List.nil_append]
              exact (signature_first manifest).trans (List.prefix_append _ _)
          | cons f before =>
              rw [List.flatMap_cons, List.append_assoc]
              exact (signature_first f).trans (List.prefix_append _ _)
        rw [if_neg fun hall => hempty hall.1]
        cases turns with
        | zero => rfl
        | succ turns =>
            rw [findManifest, jzReadLocalFileHeader_of_no_signature
              (no_signature_append hempty hcontents.1 hnext)]
            rfl

/-! ## Contents -/

section

variable {σ : Type} {z : Zlib σ} {R : σ → List UInt8 → List UInt8 → Prop} {data plain : List UInt8}

/-- Once everything has been written, the loop ends. -/
theorem inflateLoop_done (turns : Nat) (s : σ) (zip : List UInt8) (compressedLeft : Int)
    (ret : ZRet) (bytes : List UInt8) :
    inflateLoop z (turns + 1) s zip compressedLeft 0 ret bytes = (.ok, bytes) := by
  rw [inflateLoop, if_neg (by simp)]

/-- The piece that is read next. -/
theorem exists_chunk {todo : List UInt8} (htodo : todo ≠ []) (behind : List UInt8) :
    ∃ xs rest, todo = xs ++ rest ∧ xs ≠ [] ∧
      (todo ++ behind).take (chunkLength todo.length) = xs := by
  refine ⟨todo.take jzBufferSize, todo.drop jzBufferSize, (List.take_append_drop _ _).symm, ?_, ?_⟩
  · simp [htodo, jzBufferSize]
  · unfold chunkLength
    split_ifs with hsmall
    · rw [Int.toNat_natCast, List.take_left, List.take_of_length_le (by omega)]
    · rw [List.take_append_of_le_length (by omega)]

/-- The loop, from a state in which `todo` is left to be read and `out` to be written. -/
theorem inflateLoop_eq (h : z.Decodes data plain R) {turns : Nat} {s : σ} {todo out : List UInt8}
    (hstate : R s todo out) (behind bytes : List UInt8) (hturns : todo.length < turns) :
    inflateLoop z turns s (todo ++ behind) todo.length out.length .ok bytes =
      (.ok, bytes ++ out) := by
  induction turns generalizing s todo out bytes with
  | zero => omega
  | succ turns ih =>
      by_cases hout : out = []
      · subst hout
        rw [List.append_nil]
        exact inflateLoop_done turns s _ _ _ _
      · have htodo : todo ≠ [] := by
          rintro rfl
          exact hout (h.finished hstate)
        have hlen := List.length_pos_iff.2 htodo
        have houtlen := List.length_pos_iff.2 hout
        rcases exists_chunk htodo behind with ⟨xs, rest, hsplit, hxs, hchunk⟩
        rw [inflateLoop, if_pos ⟨by omega, by omega, by decide⟩]
        simp only [hchunk, if_neg hxs]
        have hdrop : (todo ++ behind).drop xs.length = rest ++ behind := by
          rw [hsplit, List.append_assoc, List.drop_left]
        rw [hsplit] at hstate
        have hxslen := List.length_pos_iff.2 hxs
        have hsum : todo.length = xs.length + rest.length := by rw [hsplit, List.length_append]
        rcases h.piece hxs hout hstate with ⟨hret, hleft, out', hout', hnext⟩ | ⟨hret, hall⟩
        · have hloop := ih hnext (bytes ++ (z.inflate s xs out.length).out) (by omega)
          have hcount : out.length - (z.inflate s xs out.length).out.length = out'.length := by
            have hlength := congrArg List.length hout'
            rw [List.length_append] at hlength
            omega
          have hcompressed : (todo.length : Int) - xs.length - (0 : Nat) = rest.length := by omega
          rw [hret]
          simp only [hdrop, hleft, hcount, hcompressed, hloop]
          rw [List.append_assoc, ← hout']
        · obtain ⟨turns, rfl⟩ := Nat.exists_eq_succ_of_ne_zero (by omega : turns ≠ 0)
          -- with either return value the loop ends, since nothing is left to write
          rcases hret with hret | hret
          · rw [hret]
            simp only [hall, Nat.sub_self]
            exact inflateLoop_done turns _ _ _ _ _
          · rw [hret]
            simp only [hall, Nat.sub_self]
            exact inflateLoop_done turns _ _ _ _ _

/-- The contents of a file: stored as they are, or compressed. -/
inductive Entry.Holds (z : Zlib σ) (e : Entry) (plain : List UInt8) : Prop
  | stored : e.compressionMethod = 0 → e.uncompressedSize.toNat = plain.length → e.data = plain →
      Entry.Holds z e plain
  | deflated (R : σ → List UInt8 → List UInt8 → Prop) : e.compressionMethod = 8 →
      e.compressedSize.toNat = e.data.length → e.uncompressedSize.toNat = plain.length →
      z.Decodes e.data plain R → Entry.Holds z e plain

theorem Entry.Holds.size {e : Entry} (h : e.Holds z plain) :
    e.uncompressedSize.toNat = plain.length := by
  cases h with
  | stored _ hsize _ => exact hsize
  | deflated _ _ _ hsize _ => exact hsize

theorem jzReadData_entry {e : Entry} (h : e.Holds z plain) (behind : List UInt8) :
    jzReadData z (e.data ++ behind) e.localHeader.toFileHeader = (.ok, plain) := by
  cases h with
  | stored hmethod hsize hdata =>
      have hzero : e.localHeader.toFileHeader.compressionMethod = 0 := hmethod
      have hread : fread e.localHeader.toFileHeader.uncompressedSize.toNat (e.data ++ behind) =
          some (plain, behind) := by
        rw [hdata]
        exact fread_append hsize.symm behind
      rw [jzReadData, if_pos hzero, hread]
  | deflated R hmethod hcompressed hsize hdecodes =>
      have hmethod' : e.localHeader.toFileHeader.compressionMethod = 8 := hmethod
      have hne : ¬ e.localHeader.toFileHeader.compressionMethod = 0 := by
        rw [hmethod']
        decide
      rcases hdecodes.init with ⟨s, hs, hstate⟩
      have hturns : e.data.length < (e.data ++ behind).length + 1 := by
        rw [List.length_append]
        omega
      have hloop := inflateLoop_eq hdecodes hstate behind [] hturns
      have hsizes : e.localHeader.toFileHeader.compressedSize.toNat = e.data.length ∧
          e.localHeader.toFileHeader.uncompressedSize.toNat = plain.length := ⟨hcompressed, hsize⟩
      rw [jzReadData, if_neg hne, if_pos hmethod', hs]
      simp only [hsizes.1, hsizes.2]
      rw [hloop, List.nil_append]

/-- The manifest of an archive is found exactly if there is nothing in the files in front of it. -/
theorem manifest_of_archive {a : Archive} (h : a.Valid) (hplain : a.manifest.Holds z plain)
    {malloc : Nat → Option (List UInt8)} {block : List UInt8}
    (hmalloc : malloc plain.length = some block) (hblock : block.length = plain.length) :
    getManifestFromAPK z malloc (some a.bytes) =
      if ∀ e ∈ a.before, e.data = [] then some plain else none := by
  have hturns : a.before.length < a.bytes.length + 1 := by
    have hlen := length_le_flatMap Entry.bytes_ne_nil a.before
    rw [Archive.bytes, List.length_append]
    omega
  have hfind := findManifest_archive h hturns
  have hsize :
      a.manifest.localHeader.toFileHeader.uncompressedSize.toNat = plain.length := hplain.size
  rw [getManifestFromAPK, Option.bind_eq_bind, Option.bind_some, hfind]
  by_cases hempty : ∀ e ∈ a.before, e.data = []
  · rw [if_pos hempty, if_pos hempty]
    simp only [Option.bind_eq_bind, Option.bind_some, hsize, hmalloc, jzReadData_entry hplain]
    rw [List.drop_of_length_le (by omega), List.append_nil]
  · rw [if_neg hempty, if_neg hempty]
    rfl

end

/-- An archive gives its manifest, stored or compressed, exactly if all the files in front of it are
empty. -/
theorem getManifestFromAPK_iff {σ : Type} (z : Zlib σ) (malloc : Nat → Option (List UInt8))
    (a : Archive) (h : a.Valid) (plain block : List UInt8) (hplain : a.manifest.Holds z plain)
    (hmalloc : malloc plain.length = some block) (hblock : block.length = plain.length) :
    (getManifestFromAPK z malloc (some a.bytes) = some plain ↔ ∀ e ∈ a.before, e.data = []) ∧
      (getManifestFromAPK z malloc (some a.bytes) = none ↔ ∃ e ∈ a.before, e.data ≠ []) := by
  have hsome := manifest_of_archive h hplain hmalloc hblock
  by_cases hempty : ∀ e ∈ a.before, e.data = []
  · rw [hsome, if_pos hempty]
    refine ⟨iff_of_true rfl hempty, iff_of_false nofun ?_⟩
    rintro ⟨e, he, hne⟩
    exact hne (hempty e he)
  · rw [hsome, if_neg hempty]
    refine ⟨iff_of_false nofun hempty, iff_of_true rfl ?_⟩
    simpa using hempty

/-- A file with this name and these contents, stored as they are. -/
def storedEntry (name contents : List UInt8) : Entry where
  versionNeededToExtract := 20
  generalPurposeBitFlag := 0
  compressionMethod := 0
  lastModFileTime := 0
  lastModFileDate := 0
  crc32 := 0
  compressedSize := UInt32.ofNat contents.length
  uncompressedSize := UInt32.ofNat contents.length
  name := name
  extra := []
  data := contents

/-- The same file compressed to a single block. -/
def deflatedEntry (name contents : List UInt8) : Entry :=
  { storedEntry name contents with
    compressionMethod := 8
    compressedSize := UInt32.ofNat (storedBlock contents).length
    data := storedBlock contents }

theorem deflatedEntry_holds (name : List UInt8) {contents : List UInt8}
    (h : contents.length < 65536) : (deflatedEntry name contents).Holds stored contents := by
  have hsize : ∀ xs : List UInt8, xs.length < 4294967296 →
      (UInt32.ofNat xs.length).toNat = xs.length := by
    intro xs hxs
    rw [UInt32.toNat_ofNat']
    exact Nat.mod_eq_of_lt hxs
  have hblock : (storedBlock contents).length = contents.length + 5 := by
    simp only [storedBlock, List.length_append, List.length_cons, length_bytes16]
    omega
  exact .deflated _ rfl (hsize _ (by omega)) (hsize _ (by omega))
    (stored_decodes (header_gives_storedBlock h))

/-- A file `META-INF/` with these contents, and then the manifest. -/
def twoFiles (contents plain : List UInt8) : Archive where
  before := [storedEntry [77, 69, 84, 65, 45, 73, 78, 70, 47] contents]
  manifest := deflatedEntry androidManifest.bytes plain
  behind := []

theorem twoFiles_valid {contents : List UInt8} (h : ¬ bytes32 localSignature <+: contents)
    (plain : List UInt8) : (twoFiles contents plain).Valid where
  entries := by
    intro e he
    rw [List.mem_singleton.1 he]
    exact ⟨(by decide : 9 < 1024), Nat.zero_lt_succ _, fun _ => rfl⟩
  manifest :=
    { name := (by decide : androidManifest.bytes.length < 1024)
      extra := Nat.zero_lt_succ _
      stored := fun hstored => absurd (show (8 : UInt16) = 0 from hstored) (by decide) }
  names := by
    intro e he
    rw [List.mem_singleton.1 he]
    show CString.ofBuffer [77, 69, 84, 65, 45, 73, 78, 70, 47] ≠ androidManifest
    decide
  name := CString.ofBuffer_bytes androidManifest
  contents := by
    intro e he
    rw [List.mem_singleton.1 he]
    exact h

/-- `malloc` gives zeros. -/
def zeroed (n : Nat) : Option (List UInt8) := some (List.replicate n 0)

/-- The manifest behind an empty file is found, and the one behind a byte is not. -/
theorem getManifestFromAPK_twoFiles :
    storedBlock [1, 2, 3] = [1, 3, 0, 252, 255, 1, 2, 3] ∧
    getManifestFromAPK stored zeroed (some (twoFiles [] [1, 2, 3]).bytes) = some [1, 2, 3] ∧
    getManifestFromAPK stored zeroed (some (twoFiles [7] [1, 2, 3]).bytes) = none := by
  have hholds (contents : List UInt8) :
      (twoFiles contents [1, 2, 3]).manifest.Holds stored [1, 2, 3] :=
    deflatedEntry_holds _ (by decide)
  refine ⟨by decide, ?_, ?_⟩
  · refine (getManifestFromAPK_iff stored zeroed _ (twoFiles_valid (by decide) _) [1, 2, 3]
      [0, 0, 0] (hholds []) rfl rfl).1.2 ?_
    simp [twoFiles, storedEntry]
  · refine (getManifestFromAPK_iff stored zeroed _ (twoFiles_valid (by decide) _) [1, 2, 3]
      [0, 0, 0] (hholds [7]) rfl rfl).2.2 ?_
    simp [twoFiles, storedEntry]

end AppCtrl
end AbsPlatform
