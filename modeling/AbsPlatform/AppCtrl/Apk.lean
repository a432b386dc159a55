import AbsPlatform.AppCtrl.Archive
import AbsPlatform.AppCtrl.Labels
import AbsPlatform.AppCtrl.Launch

/-!
# Apk — launching an application from its package

`app_launch` from the bytes of the package on: the manifest of the archive, its text, the
permissions in it, and the table of those in use.

`app_launch` does not look at the size that `getManifestFromAPK` returns.  A package whose manifest
is not found is launched as one that asks for nothing (`appLaunch_archive`).
-/

namespace AbsPlatform
namespace AppCtrl

open Lib CompiledXml

theorem nil_short : ([] : List UInt8).length < 2147483648 := by decide

/-- What `getPermissionsFromManifest` gets from `app_launch`.  Nothing is read of a manifest whose
size is 0, or negative as an `int`. -/
def extracted (data : Option (List UInt8)) : Manifest :=
  match data with
  | none => ⟨[], nil_short⟩
  | some bytes => if h : bytes.length < 2147483648 then ⟨bytes, h⟩ else ⟨[], nil_short⟩

section

variable {σ : Type} (z : Zlib σ) (malloc : Nat → Option (List UInt8)) (block : CString)
  (files : CString → Option (List UInt8))

/-- The first two calls of `app_launch`, where they read inside the manifest; `block` is what is in
the block that the text of the manifest is appended to. -/
def apkPermissions (filename : CString) : Option (List CString) :=
  let manifest := extracted (getManifestFromAPK z malloc (files filename))
  (getPermissionsFromManifest manifest block).value

/-- `app_launch`. -/
def launch (table : Table) (filename : CString) : Option (Table × Int) := do
  let found ← apkPermissions z malloc block files filename
  some (appLaunch (fun _ => found) table filename)

end

/-- A manifest of size 0 leaves what is in the block. -/
theorem getPermissionsFromManifest_nil {block : CString} (hblock : 60 ∉ block.bytes) :
    (getPermissionsFromManifest ⟨[], nil_short⟩ block).value = some [] := by
  have hmatches : collectMatches maxMatches block.bytes = [] := collectMatches_of_notMem hblock
  have htext : (Manifest.decompressXML ⟨[], nil_short⟩ block).value = some block.bytes := rfl
  rw [getPermissionsFromManifest, Checked.value_bind, htext, Option.bind_some, Checked.value_pure,
    hmatches]

/-- A package whose manifest stands behind empty files only is launched if none of the first five
permissions it asks for is in use.  Any other package is launched at once, whatever it asks for and
whoever holds it, and nothing is recorded. -/
theorem appLaunch_archive {σ : Type} (z : Zlib σ) (malloc : Nat → Option (List UInt8))
    (block : CString) (files : CString → Option (List UInt8)) (filename : CString) (a : Archive)
    (c : CompiledXml) (hfile : files filename = some a.bytes) (ha : a.Valid) (hc : c.Valid)
    (hmanifest : a.manifest.Holds z c.bytes) (hclean : ∀ tag ∈ c.document, tag.Clean)
    (fresh : List UInt8) (hmalloc : malloc c.bytes.length = some fresh)
    (hfresh : fresh.length = c.bytes.length) (hblock : 60 ∉ block.bytes) (table : Table) :
    launch z malloc block files table filename =
      some (if ∀ e ∈ a.before, e.data = [] then
        appLaunch (fun _ => (c.document.filterMap Tag.label).take 5) table filename
      else (table, 0)) := by
  have hfound := manifest_of_archive ha hmanifest hmalloc hfresh
  rw [launch, apkPermissions, hfile, hfound]
  by_cases hempty : ∀ e ∈ a.before, e.data = []
  · have hextracted : extracted (some c.bytes) = hc.file := dif_pos hc.length_lt
    rw [if_pos hempty, if_pos hempty, hextracted,
      getPermissionsFromManifest_compiled hc hclean hblock]
    rfl
  · rw [if_neg hempty, if_neg hempty]
    simp only [extracted]
    rw [getPermissionsFromManifest_nil hblock]
    rfl

/-- `gps`. -/
def gps : CString := CString.ofBuffer [103, 112, 115]

/-- Someone holds `gps`. -/
def gpsInUse : Table := {{ insertedRow with permissionName := gps }}

/-- With `gps` in use, a package that asks for it is refused if the file in front of its manifest is
empty, and launched if there is a byte in it. -/
theorem appLaunch_gpsXml :
    launch stored zeroed (CString.ofBuffer []) (fun _ => some (twoFiles [] gpsXml.bytes).bytes)
      gpsInUse appRelease = some (gpsInUse, -1) ∧
    launch stored zeroed (CString.ofBuffer []) (fun _ => some (twoFiles [7] gpsXml.bytes).bytes)
      gpsInUse appRelease = some (gpsInUse, 0) := by
  have hclean : ∀ tag ∈ gpsXml.document, tag.Clean := by decide +kernel
  have hholds (contents : List UInt8) :
      (twoFiles contents gpsXml.bytes).manifest.Holds stored gpsXml.bytes :=
    deflatedEntry_holds _ (by decide +kernel)
  constructor
  · rw [appLaunch_archive stored zeroed _ _ appRelease (twoFiles [] gpsXml.bytes) gpsXml rfl
      (twoFiles_valid (by decide) _) gpsXml_valid (hholds []) hclean _ rfl List.length_replicate
      (by decide) gpsInUse, if_pos (by simp [twoFiles, storedEntry])]
    have hlabels : (gpsXml.document.filterMap Tag.label).take 5 = [gps] := by decide +kernel
    rw [hlabels]
    decide
  · rw [appLaunch_archive stored zeroed _ _ appRelease (twoFiles [7] gpsXml.bytes) gpsXml rfl
      (twoFiles_valid (by decide) _) gpsXml_valid (hholds [7]) hclean _ rfl List.length_replicate
      (by decide) gpsInUse, if_neg (by simp [twoFiles, storedEntry])]

end AppCtrl
end AbsPlatform
