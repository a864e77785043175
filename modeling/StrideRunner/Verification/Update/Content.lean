import StrideRunner.Verification.Update.Invariant

/-! # The rows after a successful update

The command announces the full dump under `--all-instances` and downloads the partial one. -/

namespace StrideRunner

open Library InstanceDataDB

/-- The rows that an update keeps because it merges. -/
def keptRow (opts : UpdateOpts) (old : Option InstanceData) (did : DId) : Option Bytes :=
  if opts.replaceAll then none else old.bind (·.lookup did)

/-- The rows the flags ask for; `requested` are the rows of the dump `instances_name`. -/
def expectedRow (opts : UpdateOpts) (old : Option InstanceData) (requested : InstanceData)
    (did : DId) : Option Bytes :=
  match old with
  | none => requested.lookup did
  | some rows =>
      if opts.updateInstanceData then
        if opts.replaceAll then requested.lookup did
        else (rows.lookup did).or (requested.lookup did)
      else rows.lookup did

/-- The file is a database whose rows are those of `row`. -/
def HoldsRows (sqlite : Bytes → DbContent) (file : Option DbFile) (row : DId → Option Bytes) :
    Prop :=
  ∃ rows, file.map (·.content sqlite) = some (.table rows) ∧ ∀ did, rows.lookup did = row did

variable {sqlite : Bytes → DbContent} {server : Server} {opts : UpdateOpts}
  {metadata instances : Option DbFile} {actions : List UpdateAction} {s : UpdateState}
  {old : Option InstanceData} {partialRows requested : InstanceData}

theorem HoldsRows.congr {file : Option DbFile} {row row' : DId → Option Bytes}
    (h : HoldsRows sqlite file row) : HoldsRows sqlite file row' ↔ ∀ did, row did = row' did := by
  obtain ⟨rows, hcontent, hrows⟩ := h
  constructor
  · rintro ⟨rows', hcontent', hrows'⟩ did
    cases hcontent.symm.trans hcontent'
    rw [← hrows did, hrows' did]
  · intro heq
    exact ⟨rows, hcontent, fun did => (hrows did).trans (heq did)⟩

theorem insertSelect_table {target download : DbFile} {rows rows' : InstanceData}
    (htarget : target.content sqlite = .table rows)
    (hdownload : download.content sqlite = .table rows') :
    insertSelect sqlite target download =
      .ok (.committed (UniqueTable.merge rows (UniqueTable.rows rows'))) := by
  unfold insertSelect
  rw [htarget, hdownload]

/-- On two databases the merge of the files is the merge of the tables. -/
theorem addFromFile_eq_addFromDbFile (fault : MergeFault) {target download : DbFile}
    {rows rows' : InstanceData} (htarget : target.content sqlite = .table rows)
    (hdownload : download.content sqlite = .table rows') :
    (addFromFile sqlite fault target download).1 =
        (addFromDbFile fault false rows (UniqueTable.rows rows')).1 ∧
      (addFromFile sqlite fault target download).2.content sqlite =
        .table (addFromDbFile fault false rows (UniqueTable.rows rows')).2.2 := by
  unfold addFromFile addFromDbFile
  rw [insertSelect_table htarget hdownload]
  cases fault with
  | none => exact ⟨rfl, rfl⟩
  | attach error => exact ⟨rfl, htarget⟩
  | insert error => exact ⟨rfl, htarget⟩
  | detach error => exact ⟨rfl, rfl⟩

/-- The downloaded rows are those of the partial dump, whatever the flags say. -/
theorem holdsRows_of_updated {file : Option DbFile} {dump : Bytes}
    (hold : instances.map (·.content sqlite) = old.map .table)
    (hdump : sqlite dump = .table partialRows)
    (h : Updated sqlite dump opts instances file) :
    HoldsRows sqlite file (expectedRow opts old partialRows) := by
  cases instances with
  | none =>
      cases old with
      | some rows => cases hold
      | none =>
          cases h
          exact ⟨partialRows, congrArg some hdump, fun _ => rfl⟩
  | some target =>
      cases old with
      | none => cases hold
      | some rows =>
          have htarget : target.content sqlite = .table rows := Option.some.inj hold
          have hdownload : (DbFile.bytes dump).content sqlite = .table partialRows := hdump
          simp only [Updated] at h
          split at h
          · rename_i hupdate
            split at h
            · rename_i hreplace
              rw [h]
              refine ⟨partialRows, congrArg some hdump, ?_⟩
              intro did
              simp [expectedRow, hupdate, hreplace]
            · rename_i hreplace
              obtain ⟨merged, hmerged, rfl⟩ := h
              cases (insertSelect_table htarget hdownload).symm.trans hmerged
              refine ⟨_, rfl, ?_⟩
              intro did
              simp [expectedRow, hupdate, hreplace, UniqueTable.lookup_merge_rows]
          · rename_i hupdate
            rw [h]
            refine ⟨rows, congrArg some htarget, ?_⟩
            intro did
            simp [expectedRow, hupdate]

theorem option_or_inj {α : Type} {kept x y : Option α} :
    kept.or x = kept.or y ↔ (kept = none → x = y) := by
  cases kept with
  | none => simp
  | some value => simp

theorem expectedRow_of_all (hall : opts.allInstances = true) (did : DId) :
    expectedRow opts.implied old requested did =
      (keptRow opts old did).or (requested.lookup did) := by
  cases old with
  | none => simp [expectedRow, keptRow]
  | some rows =>
      by_cases hreplace : opts.replaceAll = true
      · simp [expectedRow, keptRow, UpdateOpts.implied, hall, hreplace]
      · simp [expectedRow, keptRow, UpdateOpts.implied, hall, hreplace]

/-- An update gives the requested rows exactly if the full dump is not asked for, or has the same
rows as the partial one wherever no old row is kept. -/
theorem update_content_iff (hold : instances.map (·.content sqlite) = old.map .table)
    (hdownloaded : sqlite (server DB_PARTIAL_INSTANCES) = .table partialRows)
    (hrequested : sqlite (server opts.instancesName) = .table requested)
    (hrun : exec (updateStep sqlite server opts.implied) actions (.begin metadata instances) =
      some s) (hok : s.point = .returned (.ok ())) :
    HoldsRows sqlite s.instances (expectedRow opts.implied old requested) ↔
      (opts.allInstances = true → ∀ did, keptRow opts old did = none →
        partialRows.lookup did = requested.lookup did) := by
  have hrows := holdsRows_of_updated hold hdownloaded (updated_of_run hrun hok)
  rw [hrows.congr]
  by_cases hall : opts.allInstances = true
  · simp only [expectedRow_of_all hall, option_or_inj, hall, true_implies]
  · have hname : opts.instancesName = DB_PARTIAL_INSTANCES := by
      simp [UpdateOpts.instancesName, hall]
    rw [hname, hdownloaded] at hrequested
    cases hrequested
    simp [hall]

/-! ## Runs on fixed inputs -/

/-- The server offers one small instance in the partial dump and a second one in the full dump. -/
def smallDumps : Server := fun name => if name = DB_FULL_INSTANCES then [2] else [1]

def partialDump : InstanceData := AList.insert ⟨1⟩ [112] ∅

def fullDump : InstanceData := AList.insert ⟨2⟩ [112, 112] partialDump

def smallSqlite (content : Bytes) : DbContent :=
  if content = [1] then .table partialDump
  else if content = [2] then .table fullDump
  else if content = [] then .noTable
  else .malformed

/-- Both downloads succeed; there is no local file. -/
def firstUpdate : List UpdateAction :=
  [.main, .main, .main, .metadata (.respond [[1]]), .instances (.respond [[1]]),
    .instances .create, .metadata .create, .instances .receive, .metadata .receive,
    .instances .close, .metadata .close, .main, .main]

theorem update_content_iff_first :
    ∃ s, exec (updateStep smallSqlite smallDumps (UpdateOpts.implied ⟨true, false, false⟩))
        firstUpdate (.begin none none) = some s ∧
      (HoldsRows smallSqlite s.instances
          (expectedRow (UpdateOpts.implied ⟨true, false, false⟩) none fullDump) ↔
        (true = true → ∀ did, keptRow ⟨true, false, false⟩ none did = none →
          partialDump.lookup did = fullDump.lookup did)) := by
  have hrun : exec (updateStep smallSqlite smallDumps (UpdateOpts.implied ⟨true, false, false⟩))
      firstUpdate (.begin none none) = some _ := rfl
  exact ⟨_, hrun, update_content_iff rfl rfl rfl hrun rfl⟩

/-- Under `--all-instances` the second instance is missing. -/
theorem all_instances_downloads_partial :
    ∃ s, exec (updateStep smallSqlite smallDumps (UpdateOpts.implied ⟨true, false, false⟩))
        firstUpdate (.begin none none) = some s ∧ s.point = .returned (.ok ()) ∧
      ¬ HoldsRows smallSqlite s.instances
        (expectedRow (UpdateOpts.implied ⟨true, false, false⟩) none fullDump) := by
  refine ⟨_, rfl, rfl, ?_⟩
  rintro ⟨rows, hcontent, hrows⟩
  cases hcontent
  exact absurd (hrows ⟨2⟩) (by decide)

end StrideRunner
