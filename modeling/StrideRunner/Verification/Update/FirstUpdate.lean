import StrideRunner.Verification.Update.Leftovers

/-! # The first successful update

The instance data is to be downloaded automatically by the first update. It is there afterwards if
the commands before have spared `instances.db`, and may be missing otherwise. -/

namespace StrideRunner

open Library InstanceDataDB

/-- Every row of the dump is a row of the file. -/
def Provides (sqlite : Bytes → DbContent) (rows : InstanceData) (file : Option DbFile) : Prop :=
  ∀ did data, rows.lookup did = some data → localRow sqlite file did = some data

variable {sqlite : Bytes → DbContent} {server : Server} {opts : UpdateOpts}
  {rows : InstanceData} {actions : List UpdateAction}

theorem provides_iff_of_content {file : DbFile} {found : InstanceData}
    (hcontent : file.content sqlite = .table found) :
    Provides sqlite rows (some file) ↔ UniqueTable.Extends rows found := by
  simp only [Provides, localRow, Option.bind_some, hcontent]
  exact Iff.rfl

theorem not_provides_of_row_eq_none {file : DbFile}
    (hrow : ∀ did, (file.content sqlite).row did = none)
    (hoffered : ∃ did data, rows.lookup did = some data) :
    ¬ Provides sqlite rows (some file) := by
  intro hprovides
  obtain ⟨did, data, hdata⟩ := hoffered
  have hfound := hprovides did data hdata
  simp only [localRow, Option.bind_some, hrow] at hfound
  cases hfound

/-- A plain update, which leaves the file alone, provides the rows exactly if the file has them. -/
theorem provides_iff_suits {file : DbFile} (hupdate : ¬ opts.implied.updateInstanceData = true)
    (hoffered : ∃ did data, rows.lookup did = some data) :
    Provides sqlite rows (some file) ↔ (file.content sqlite).Suits opts rows := by
  cases hcontent : file.content sqlite with
  | malformed =>
      refine iff_of_false (not_provides_of_row_eq_none ?_ hoffered) id
      exact fun did => congrArg (·.row did) hcontent
  | noTable =>
      refine iff_of_false (not_provides_of_row_eq_none ?_ hoffered) id
      exact fun did => congrArg (·.row did) hcontent
  | table old =>
      rw [provides_iff_of_content hcontent]
      simp only [DbContent.Suits, RowsSuit, hupdate]
      exact Iff.rfl

/-- A merge provides the rows exactly if the table is there and none of its rows is in the way. -/
theorem provides_merged_iff_suits {file merged : DbFile} {dump : Bytes}
    (hupdate : opts.implied.updateInstanceData = true) (hdump : sqlite dump = .table rows)
    (hoffered : ∃ did data, rows.lookup did = some data)
    (hmerged : insertSelect sqlite file (.bytes dump) = .ok merged) :
    Provides sqlite rows (some merged) ↔ (file.content sqlite).Suits opts rows := by
  have hdownload : (DbFile.bytes dump).content sqlite = .table rows := hdump
  cases hcontent : file.content sqlite with
  | malformed => simp [insertSelect, hcontent] at hmerged
  | noTable =>
      simp only [insertSelect, hcontent, hdownload, Except.ok.injEq] at hmerged
      subst hmerged
      refine iff_of_false (not_provides_of_row_eq_none ?_ hoffered) id
      exact fun did => congrArg (·.row did) hcontent
  | table old =>
      cases (insertSelect_table hcontent hdownload).symm.trans hmerged
      rw [provides_iff_of_content (show DbFile.content sqlite (.committed _) = .table _ from rfl),
        UniqueTable.extends_merge_rows_iff]
      simp only [DbContent.Suits, RowsSuit, hupdate, if_true]

/-- A successful update provides the rows exactly when it replaces the file, or finds none or one
that suits it. -/
theorem provides_iff_of_updated {before after : Option DbFile} {dump : Bytes}
    (hdump : sqlite dump = .table rows) (hoffered : ∃ did data, rows.lookup did = some data)
    (h : Updated sqlite dump opts.implied before after) :
    Provides sqlite rows after ↔ opts.replaceAll = true ∨ SuitsUpdate sqlite opts rows before := by
  have hdownload : (DbFile.bytes dump).content sqlite = .table rows := hdump
  have hnew : Provides sqlite rows (some (.bytes dump)) :=
    (provides_iff_of_content hdownload).mpr (UniqueTable.Extends.refl rows)
  cases before with
  | none =>
      rw [h]
      exact iff_of_true hnew (Or.inr suitsUpdate_none)
  | some file =>
      rw [suitsUpdate_some]
      simp only [Updated] at h
      split at h
      · rename_i hupdate
        split at h
        · rename_i hreplace
          rw [h]
          exact iff_of_true hnew (Or.inl hreplace)
        · rename_i hmerge
          have hmerge : opts.replaceAll ≠ true := hmerge
          obtain ⟨merged, hmerged, rfl⟩ := h
          rw [provides_merged_iff_suits hupdate hdump hoffered hmerged, or_iff_right hmerge]
      · rename_i hupdate
        have hkeep : opts.replaceAll ≠ true := by
          intro hreplace
          exact hupdate (by simp [UpdateOpts.implied, hreplace])
        rw [h, provides_iff_suits hupdate hoffered, or_iff_right hkeep]

/-- The history, in which any command may have ended anywhere, leads from a directory without
`.stride` to `directory`, where an update returns `Ok`. -/
structure SuccessfulUpdate (sqlite : Bytes → DbContent) (history : List CommandRun)
    (server : Server) (opts : UpdateOpts) (actions : List UpdateAction)
    (directory : StrideDirectory) (s : UpdateState) : Prop where
  reached : exec (commandStep sqlite) history .fresh = some directory
  run : exec (updateStep sqlite server opts.implied) actions
    (.begin directory.metadata directory.instances) = some s
  ok : s.point = .returned (.ok ())

/-- No update of the history has returned `Ok`. -/
structure FirstSuccess (sqlite : Bytes → DbContent) (history : List CommandRun) (server : Server)
    (opts : UpdateOpts) (actions : List UpdateAction) (directory : StrideDirectory)
    (s : UpdateState) : Prop
    extends SuccessfulUpdate sqlite history server opts actions directory s where
  first : ∀ before after server' opts' actions' directory' s',
    history = before ++ .update server' opts' actions' :: after →
    exec (commandStep sqlite) before .fresh = some directory' →
    exec (updateStep sqlite server' opts'.implied) actions'
      (.begin directory'.metadata directory'.instances) = some s' →
    s'.point ≠ .returned (.ok ())

/-- After a history that spares the file a successful update, the first or a later one, provides
every row of the partial dump; one that replaces the file does so after any history. -/
theorem update_provides {history : List CommandRun} {directory : StrideDirectory}
    {s : UpdateState} (hupdate : SuccessfulUpdate sqlite history server opts actions directory s)
    (hdump : sqlite (server DB_PARTIAL_INSTANCES) = .table rows)
    (hspares : opts.replaceAll = true ∨ SparesInstances sqlite opts rows history) :
    Provides sqlite rows s.instances := by
  have hready : opts.replaceAll = true ∨ SuitsUpdate sqlite opts rows directory.instances :=
    hspares.imp id fun hspares => suits_of_history hspares hupdate.reached
  have hupdated := updated_of_run hupdate.run hupdate.ok
  intro did data hdata
  exact (provides_iff_of_updated hdump ⟨did, data, hdata⟩ hupdated).mpr hready did data hdata

/-! ## Histories on fixed inputs -/

/-- The metadata is missing, so an import ends before it opens the instance data. -/
def failedImport : List SessionAction := [.proceed]

/-- The process is stopped when the instance data is complete and the metadata is not. -/
def stoppedUpdate : List UpdateAction :=
  [.main, .main, .main, .instances (.respond [[1]]), .instances .create, .instances .receive,
    .instances .close]

/-- An update of the metadata alone. -/
def metadataUpdate : List UpdateAction :=
  [.main, .main, .metadata (.respond [[1]]), .metadata .create, .metadata .receive,
    .metadata .close, .main]

theorem update_provides_stoppedUpdate :
    ∃ directory s, SuccessfulUpdate smallSqlite [.session .importSolution failedImport,
        .update smallDumps ⟨false, false, false⟩ stoppedUpdate] smallDumps ⟨false, false, false⟩
        metadataUpdate directory s ∧ Provides smallSqlite partialDump s.instances := by
  have hupdate : SuccessfulUpdate smallSqlite [.session .importSolution failedImport,
      .update smallDumps ⟨false, false, false⟩ stoppedUpdate] smallDumps ⟨false, false, false⟩
      metadataUpdate _ _ := ⟨rfl, rfl, rfl⟩
  refine ⟨_, _, hupdate, update_provides hupdate rfl (Or.inr ⟨[], _, _, rfl, rfl, Or.inl rfl, ?_⟩)⟩
  refine ⟨⟨⟨trivial, fun _ _ => trivial⟩, ?_⟩, ?_⟩
  · rintro _ ⟨⟩
    simp
  rintro _ ⟨⟩
  refine ⟨⟨?_, ?_⟩, fun _ _ => trivial⟩
  · refine ⟨trivial, ?_⟩
    rintro _ ⟨⟩
    refine ⟨trivial, ?_⟩
    rintro _ ⟨⟩
    refine ⟨trivial, ?_⟩
    rintro _ ⟨⟩
    refine ⟨trivial, ?_⟩
    rintro _ ⟨⟩
    refine ⟨fun _ _ _ => UniqueTable.Extends.refl partialDump, ?_⟩
    rintro _ ⟨⟩
    refine ⟨trivial, ?_⟩
    rintro _ ⟨⟩
    exact ⟨trivial, fun _ _ => trivial⟩
  · rintro _ ⟨⟩ ⟨_, _, ⟨⟩, hexposed⟩
    exact hexposed

theorem firstSuccess_of_session {command : SessionCommand} {sessionActions : List SessionAction}
    {directory : StrideDirectory} {s : UpdateState}
    (hreached : exec (commandStep sqlite) [.session command sessionActions] .fresh =
      some directory)
    (hrun : exec (updateStep sqlite server opts.implied) actions
      (.begin directory.metadata directory.instances) = some s)
    (hok : s.point = .returned (.ok ())) :
    FirstSuccess sqlite [.session command sessionActions] server opts actions directory s := by
  refine ⟨⟨hreached, hrun, hok⟩, ?_⟩
  intro before after server' opts' actions' directory' s' hhistory
  have hmem : CommandRun.update server' opts' actions' ∈
      [CommandRun.session command sessionActions] := by simp [hhistory]
  simp at hmem

/-- A run without metadata creates the file and its table before it fails. -/
def failedRun : List SessionAction := [.proceed, .proceed, .proceed]

/-- The stream of the instance data breaks after the file has been created. -/
def failedUpdate : List UpdateAction :=
  [.main, .main, .main, .instances (.respond [[1]]), .instances .create,
    .instances (.fail (.message "error decoding response body") []), .main, .main]

/-- An update that merges the partial dump. -/
def mergingUpdate : List UpdateAction :=
  [.main, .main, .main, .metadata (.respond [[1]]), .metadata .create, .metadata .receive,
    .metadata .close, .instances (.respond [[1]]), .instances .create, .instances .receive,
    .instances .close, .main, .main, .merge .none, .main]

theorem firstSuccess_of_failedUpdate {directory : StrideDirectory} {s : UpdateState}
    (hreached : exec (commandStep smallSqlite)
      [.update smallDumps ⟨false, false, false⟩ failedUpdate] .fresh = some directory)
    (hrun : exec (updateStep smallSqlite smallDumps opts.implied) actions
      (.begin directory.metadata directory.instances) = some s)
    (hok : s.point = .returned (.ok ())) :
    FirstSuccess smallSqlite [.update smallDumps ⟨false, false, false⟩ failedUpdate] smallDumps
      opts actions directory s := by
  refine ⟨⟨hreached, hrun, hok⟩, ?_⟩
  intro before after server' opts' actions' directory' s' hhistory hbefore hrun'
  cases before with
  | nil =>
      cases hhistory
      cases hbefore
      cases hrun'
      simp
  | cons command before => simp at hhistory

/-- The history is followed by the first successful update, and a row is missing. -/
def MissesRows (history : List CommandRun) (opts : UpdateOpts) (actions : List UpdateAction) :
    Prop :=
  ∃ directory s, FirstSuccess smallSqlite history smallDumps opts actions directory s ∧
    ¬ Provides smallSqlite partialDump s.instances

theorem not_provides_of_localRow {file : Option DbFile}
    (hrow : localRow smallSqlite file ⟨1⟩ = none) : ¬ Provides smallSqlite partialDump file := by
  intro hprovides
  have hsome := hprovides ⟨1⟩ [112] (by decide)
  rw [hrow] at hsome
  cases hsome

/-- An earlier `run`, and an interrupted download, make the first successful update skip the
download; a merge into what is left of the download adds nothing. -/
theorem first_update_misses_rows :
    MissesRows [.session .run failedRun] ⟨false, false, false⟩ metadataUpdate ∧
      MissesRows [.update smallDumps ⟨false, false, false⟩ failedUpdate] ⟨false, false, false⟩
        metadataUpdate ∧
      MissesRows [.update smallDumps ⟨false, false, false⟩ failedUpdate] ⟨false, true, false⟩
        mergingUpdate := by
  refine ⟨⟨_, _, firstSuccess_of_session rfl rfl rfl, ?_⟩,
    ⟨_, _, firstSuccess_of_failedUpdate rfl rfl rfl, ?_⟩,
    ⟨_, _, firstSuccess_of_failedUpdate rfl rfl rfl, ?_⟩⟩
  · exact not_provides_of_localRow rfl
  · exact not_provides_of_localRow rfl
  · exact not_provides_of_localRow rfl

end StrideRunner
