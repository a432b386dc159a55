import Mathlib.Data.Multiset.Filter
import AbsPlatform.Include

/-!
# Launch — the permissions of running applications

`app_launch` and `app_exit` of `Libraries/app_ctrl/app_ctrl.c`, with the queries of
`app_ctrl_assets.c`.  The table `PERMISSIONS` is a multiset of rows, and the permissions in the
manifest of an application are a function of its file name.  Every query succeeds.

A permission is held while a row names it.  Over whole sequences of calls: what an application that
was launched holds until it exits, and whom it keeps from being launched.
-/

namespace AbsPlatform
namespace AppCtrl

/-! ## The table -/

/-- A row of `PERMISSIONS`. -/
structure Row where
  permissionName : CString
  applicationName : CString
  initTime : Int
  expiringTime : Int
  deriving DecidableEq

abbrev Table := Multiset Row

/-- `digital_write`. -/
def digitalWrite : CString :=
  CString.ofBuffer [100, 105, 103, 105, 116, 97, 108, 95, 119, 114, 105, 116, 101]

/-- `app-release.apk`. -/
def appRelease : CString :=
  CString.ofBuffer [97, 112, 112, 45, 114, 101, 108, 101, 97, 115, 101, 46, 97, 112, 107]

/-- The values in the text of the query. -/
def insertedRow : Row where
  permissionName := digitalWrite
  applicationName := appRelease
  initTime := 1
  expiringTime := 1

/-- The name is printed, and the row does not depend on it. -/
def addPermissionDb (table : Table) (_permissionName : CString) : Table := insertedRow ::ₘ table

/-- The first step of the query gives a row, or it is done when no row is selected. -/
def findPermissionDb (table : Table) (permissionName : CString) : Int :=
  let selected := table.filter fun row => row.permissionName = permissionName
  if selected.card = 0 then 1 else 0

def deleteApplicationPermissionsdB (table : Table) (appName : CString) : Table :=
  table.filter fun row => row.applicationName ≠ appName

/-! ## app_ctrl.c -/

section

variable (permissions : CString → List CString)

def appLaunch (table : Table) (filename : CString) : Table × Int :=
  let found := permissions filename
  if found.any fun permission => findPermissionDb table permission = 0 then (table, -1)
  else (found.foldl addPermissionDb table, 0)

/-- The permissions of the manifest are read here as well, for nothing. -/
def appExit (table : Table) (filename : CString) : Table × Int :=
  (deleteApplicationPermissionsdB table filename, 0)

inductive Call
  | launch (filename : CString)
  | exit (filename : CString)
  deriving DecidableEq

def Call.run (table : Table) : Call → Table × Int
  | launch filename => appLaunch permissions table filename
  | exit filename => appExit table filename

/-- The table after a sequence of calls. -/
def tableAfter (table : Table) (calls : List Call) : Table :=
  calls.foldl (fun table call => (call.run permissions table).1) table

end

/-- A permission is recorded as held by an application. -/
def Table.Records (table : Table) (permission application : CString) : Prop :=
  ∃ row ∈ table, row.permissionName = permission ∧ row.applicationName = application

/-- Some application holds the permission. -/
def Table.Held (table : Table) (permission : CString) : Prop :=
  ∃ application, table.Records permission application

section

variable {permissions : CString → List CString} {table : Table} {f p : CString}

theorem findPermissionDb_eq_zero_iff : findPermissionDb table p = 0 ↔ table.Held p := by
  have hselected : findPermissionDb table p = 0 ↔
      (table.filter fun row => row.permissionName = p) ≠ 0 := by
    unfold findPermissionDb
    dsimp only
    split_ifs with h
    · simp [Multiset.card_eq_zero.1 h]
    · simp [mt Multiset.card_eq_zero.2 h]
  rw [hselected]
  constructor
  · intro h
    rcases Multiset.exists_mem_of_ne_zero h with ⟨row, hrow⟩
    rcases Multiset.mem_filter.1 hrow with ⟨hrow, hp⟩
    exact ⟨row.applicationName, row, hrow, hp, rfl⟩
  · rintro ⟨_, row, hrow, hp, _⟩ hzero
    exact Multiset.notMem_zero row (hzero ▸ Multiset.mem_filter.2 ⟨hrow, hp⟩)

theorem appLaunch_of_held (h : ∃ p ∈ permissions f, table.Held p) :
    appLaunch permissions table f = (table, -1) := by
  rcases h with ⟨p, hp, hheld⟩
  refine if_pos (List.any_eq_true.2 ⟨p, hp, ?_⟩)
  simpa using findPermissionDb_eq_zero_iff.2 hheld

theorem appLaunch_of_not_held (h : ∀ p ∈ permissions f, ¬ table.Held p) :
    appLaunch permissions table f = ((permissions f).foldl addPermissionDb table, 0) := by
  refine if_neg ?_
  rw [List.any_eq_true]
  rintro ⟨p, hp, hfound⟩
  exact h p hp (findPermissionDb_eq_zero_iff.1 (by simpa using hfound))

/-- A launch succeeds exactly when nothing of what is requested is held. -/
theorem appLaunch_eq_zero_iff :
    (appLaunch permissions table f).2 = 0 ↔ ∀ p ∈ permissions f, ¬ table.Held p := by
  constructor
  · intro h p hp hheld
    rw [appLaunch_of_held ⟨p, hp, hheld⟩] at h
    simp at h
  · intro h
    rw [appLaunch_of_not_held h]

theorem mem_foldl_addPermissionDb {found : List CString} {row : Row} :
    row ∈ found.foldl addPermissionDb table ↔
      row ∈ table ∨ (found ≠ [] ∧ row = insertedRow) := by
  induction found generalizing table with
  | nil => simp
  | cons p found ih =>
      rw [List.foldl_cons, ih, addPermissionDb, Multiset.mem_cons]
      by_cases hrow : row = insertedRow
      · simp [hrow]
      · simp [hrow]

/-- No call but the exit of an application takes a row of it away. -/
theorem mem_run {call : Call} {row : Row} (hrow : row ∈ table)
    (hcall : call ≠ .exit row.applicationName) : row ∈ (call.run permissions table).1 := by
  cases call with
  | exit g =>
      refine Multiset.mem_filter.2 ⟨hrow, ?_⟩
      rintro rfl
      exact hcall rfl
  | launch g =>
      by_cases h : ∃ p ∈ permissions g, table.Held p
      · rw [Call.run, appLaunch_of_held h]
        exact hrow
      · rw [Call.run, appLaunch_of_not_held (by simpa using h)]
        exact mem_foldl_addPermissionDb.2 (.inl hrow)

/-- The same over a sequence of calls. -/
theorem mem_tableAfter {calls : List Call} {row : Row} (hrow : row ∈ table)
    (hcalls : .exit row.applicationName ∉ calls) : row ∈ tableAfter permissions table calls := by
  induction calls generalizing table with
  | nil => exact hrow
  | cons call calls ih =>
      rw [List.mem_cons, not_or] at hcalls
      exact ih (mem_run hrow (Ne.symm hcalls.1)) hcalls.2

theorem tableAfter_cons (table : Table) (call : Call) (calls : List Call) :
    tableAfter permissions table (call :: calls) =
      tableAfter permissions (call.run permissions table).1 calls :=
  rfl

theorem tableAfter_append (table : Table) (calls calls' : List Call) :
    tableAfter permissions table (calls ++ calls') =
      tableAfter permissions (tableAfter permissions table calls) calls' :=
  List.foldl_append ..

end

/-! ## Exclusion -/

/-- What the permissions are for, along a sequence of calls. -/
structure Exclusive (permissions : CString → List CString) (table : Table) (calls : List Call) :
    Prop where
  /-- what an application requests is recorded from its launch to its exit -/
  recorded : ∀ pre f mid post, calls = pre ++ .launch f :: (mid ++ post) →
    (appLaunch permissions (tableAfter permissions table pre) f).2 = 0 → .exit f ∉ mid →
    ∀ p ∈ permissions f,
      (tableAfter permissions table (pre ++ .launch f :: mid)).Records p f
  /-- no application is launched meanwhile that requests the same -/
  excluded : ∀ pre f mid g post, calls = pre ++ .launch f :: (mid ++ .launch g :: post) →
    (appLaunch permissions (tableAfter permissions table pre) f).2 = 0 → .exit f ∉ mid →
    (∃ p ∈ permissions f, p ∈ permissions g) →
    appLaunch permissions (tableAfter permissions table (pre ++ .launch f :: mid)) g =
      (tableAfter permissions table (pre ++ .launch f :: mid), -1)
  /-- nor is one that requests what is recorded -/
  refused : ∀ pre g post, calls = pre ++ .launch g :: post →
    (∃ p ∈ permissions g, (tableAfter permissions table pre).Held p) →
    appLaunch permissions (tableAfter permissions table pre) g =
      (tableAfter permissions table pre, -1)
  /-- an exit removes the rows of its application -/
  exits : ∀ pre f post, calls = pre ++ .exit f :: post →
    tableAfter permissions table (pre ++ [.exit f]) =
      (tableAfter permissions table pre).filter fun row => row.applicationName ≠ f

/-- A launch that leaves the right rows: of an application that requests nothing, one that is
refused, or one for which the inserted row is right. -/
def Recordable (permissions : CString → List CString) (table : Table) (f : CString) : Prop :=
  permissions f = [] ∨ (∃ p ∈ permissions f, table.Held p) ∨
    (f = appRelease ∧ ∀ p ∈ permissions f, p = digitalWrite)

section

variable {permissions : CString → List CString} {table : Table} {f : CString}

theorem records_appLaunch_iff (hzero : (appLaunch permissions table f).2 = 0) :
    (∀ p ∈ permissions f, (appLaunch permissions table f).1.Records p f) ↔
      Recordable permissions table f := by
  have hfree := appLaunch_eq_zero_iff.1 hzero
  rw [appLaunch_of_not_held hfree]
  constructor
  · intro h
    -- what is not held has no row before, so its row is the one that is inserted
    have hnew : ∀ p ∈ permissions f, f = appRelease ∧ p = digitalWrite := by
      intro p hp
      rcases h p hp with ⟨row, hrow, rfl, rfl⟩
      rcases mem_foldl_addPermissionDb.1 hrow with hold | ⟨_, rfl⟩
      · exact absurd ⟨_, row, hold, rfl, rfl⟩ (hfree _ hp)
      · exact ⟨rfl, rfl⟩
    cases hlist : permissions f with
    | nil => exact .inl hlist
    | cons p rest =>
        refine .inr (.inr ⟨(hnew p (by simp [hlist])).1, fun q hq => (hnew q hq).2⟩)
  · rintro (hnil | ⟨p, hp, hheld⟩ | ⟨rfl, hall⟩) q hq
    · simp [hnil] at hq
    · exact absurd hheld (hfree p hp)
    · refine ⟨insertedRow, mem_foldl_addPermissionDb.2 (.inr ⟨?_, rfl⟩), (hall q hq).symm, rfl⟩
      exact List.ne_nil_of_mem hq

end

/-- Permissions are exclusive along a sequence of calls exactly when every launch in it is of an
application without permissions, is refused, or is one of `app-release.apk` that requests nothing
but `digital_write`. -/
theorem exclusive_iff (permissions : CString → List CString) (table : Table) (calls : List Call) :
    Exclusive permissions table calls ↔
      ∀ pre f post, calls = pre ++ .launch f :: post →
        Recordable permissions (tableAfter permissions table pre) f := by
  constructor
  · intro h pre f post hsplit
    by_cases hheld : ∃ p ∈ permissions f, (tableAfter permissions table pre).Held p
    · exact .inr (.inl hheld)
    · have hzero := appLaunch_eq_zero_iff.2 (by simpa using hheld)
      refine (records_appLaunch_iff hzero).1 fun p hp => ?_
      have hrecords := h.recorded pre f [] post hsplit hzero (by simp) p hp
      rw [tableAfter_append] at hrecords
      exact hrecords
  · intro h
    have hrecorded : ∀ pre f mid post, calls = pre ++ .launch f :: (mid ++ post) →
        (appLaunch permissions (tableAfter permissions table pre) f).2 = 0 → .exit f ∉ mid →
        ∀ p ∈ permissions f,
          (tableAfter permissions table (pre ++ .launch f :: mid)).Records p f := by
      intro pre f mid post hsplit hzero hmid p hp
      rcases (records_appLaunch_iff hzero).2 (h pre f (mid ++ post) hsplit) p hp with
        ⟨row, hrow, hpermission, rfl⟩
      refine ⟨row, ?_, hpermission, rfl⟩
      rw [tableAfter_append, tableAfter_cons]
      exact mem_tableAfter hrow hmid
    refine ⟨hrecorded, ?_, ?_, ?_⟩
    · intro pre f mid g post hsplit hzero hmid hshared
      rcases hshared with ⟨p, hf, hg⟩
      exact appLaunch_of_held ⟨p, hg, f, hrecorded pre f mid _ hsplit hzero hmid p hf⟩
    · intro pre g post _ hheld
      exact appLaunch_of_held hheld
    · intro pre f post _
      exact tableAfter_append ..

/-- `a.apk` and `b.apk` both request `gps`. -/
def gpsPermissions (filename : CString) : List CString :=
  if filename = CString.ofBuffer [97, 46, 97, 112, 107] ∨
      filename = CString.ofBuffer [98, 46, 97, 112, 107] then
    [CString.ofBuffer [103, 112, 115]]
  else []

/-- Both are launched, `gps` is recorded for neither, and the exit of `a.apk` removes nothing. -/
theorem launch_shared_permission :
    let a := CString.ofBuffer [97, 46, 97, 112, 107]
    let b := CString.ofBuffer [98, 46, 97, 112, 107]
    appLaunch gpsPermissions 0 a = ({insertedRow}, 0) ∧
      appLaunch gpsPermissions {insertedRow} b = ({insertedRow, insertedRow}, 0) ∧
      appExit {insertedRow, insertedRow} a = ({insertedRow, insertedRow}, 0) := by
  decide +kernel

end AppCtrl
end AbsPlatform
