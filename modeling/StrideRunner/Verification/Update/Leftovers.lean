import StrideRunner.Model.Commands.History
import StrideRunner.Verification.Cache.Agreement
import StrideRunner.Verification.Update.Content

/-! # What earlier commands leave for an update

`update` decides by the existence of `instances.db` whether to download the instance data. Other
commands create the file before they fail, and a download that breaks off leaves one, so it takes
commands that spare the file for a later update to find it missing or suited. -/

namespace StrideRunner

open Library InstanceDataDB

def DbContent.row : DbContent → DId → Option Bytes
  | .table rows, did => rows.lookup did
  | .noTable, _ => none
  | .malformed, _ => none

/-- The row of the file, if it is a database that has one. -/
def localRow (sqlite : Bytes → DbContent) (file : Option DbFile) (did : DId) : Option Bytes :=
  file.bind fun file => (file.content sqlite).row did

/-- What may be there when an update that offers `rows` begins. A plain update takes it for the
instance data; one that downloads adds the rows that are missing. -/
def RowsSuit (opts : UpdateOpts) (rows old : InstanceData) : Prop :=
  if opts.implied.updateInstanceData then UniqueTable.Agrees rows old
  else UniqueTable.Extends rows old

def DbContent.Suits (opts : UpdateOpts) (rows : InstanceData) : DbContent → Prop
  | .table old => RowsSuit opts rows old
  | .noTable => False
  | .malformed => False

/-- The file is missing or suits the update. -/
def SuitsUpdate (sqlite : Bytes → DbContent) (opts : UpdateOpts) (rows : InstanceData)
    (file : Option DbFile) : Prop :=
  ∀ found, file = some found → (found.content sqlite).Suits opts rows

/-- A row that is new to the file is not in the way of one that the update will add. -/
def MayAdd (sqlite : Bytes → DbContent) (opts : UpdateOpts) (rows : InstanceData)
    (file : Option DbFile) (did : DId) (data : Bytes) : Prop :=
  opts.implied.updateInstanceData = true → localRow sqlite file did = none →
    ∀ data', rows.lookup did = some data' → data = data'

/-- `run`, `export-instance` and `import-solution` do not create the file for a plain update, and
store no row that the update offers otherwise. -/
def SessionSpares (sqlite : Bytes → DbContent) (opts : UpdateOpts) (rows : InstanceData) :
    SessionAction → Session → Prop
  | .proceed, ⟨directory, .openInstances :: _⟩ =>
      directory.instances.isSome ∨ opts.implied.updateInstanceData = true
  | .store did data, session =>
      MayAdd sqlite opts rows session.directory.instances did (encodeUtf8 data)
  | _, _ => True

/-- A direct download of the instance data has created the file, and chunks are still to come. -/
def UpdateState.Incomplete (s : UpdateState) : Prop :=
  ∃ deleted phase, s.point = .download (.direct deleted) phase ∧ phase.Exposed True

/-- An earlier update creates the file for a dump that suits the later one, does not fail before
its last chunk, and merges no row that the later update offers otherwise. -/
def UpdateSpares (sqlite : Bytes → DbContent) (server : Server) (opts : UpdateOpts)
    (rows : InstanceData) (action : UpdateAction) (s : UpdateState) : Prop :=
  match action with
  | .instances .create => ∀ deleted phase, s.point = .download (.direct deleted) phase →
      (sqlite (server DB_PARTIAL_INSTANCES)).Suits opts rows
  | .instances (.fail _ _) => ¬ s.Incomplete
  | .merge _ => ∀ did data, (sqlite (server DB_PARTIAL_INSTANCES)).row did = some data →
      MayAdd sqlite opts rows s.instances did data
  | _ => True

/-- Each step of the command spares the file, and the command does not end in between: before the
table of a new file is created, or before the last chunk of a direct download. -/
def CommandRun.Spares (sqlite : Bytes → DbContent) (opts : UpdateOpts) (rows : InstanceData) :
    CommandRun → StrideDirectory → Prop
  | .session command actions, directory =>
      EveryStep (sessionStep sqlite) (SessionSpares sqlite opts rows) actions
          ⟨directory, command.script⟩ ∧
        ∀ session, exec (sessionStep sqlite) actions ⟨directory, command.script⟩ = some session →
          session.script.head? ≠ some .createTable
  | .update server earlier actions, directory =>
      EveryStep (updateStep sqlite server earlier.implied) (UpdateSpares sqlite server opts rows)
          actions (.begin directory.metadata directory.instances) ∧
        ∀ s, exec (updateStep sqlite server earlier.implied) actions
          (.begin directory.metadata directory.instances) = some s → ¬ s.Incomplete

/-- The command is an `update -r` that comes to its download. -/
def CommandRun.Deletes (sqlite : Bytes → DbContent) : CommandRun → StrideDirectory → Prop
  | .session _ _, _ => False
  | .update server earlier actions, directory => earlier.replaceAll = true ∧
      ∃ before after s, actions = before ++ .main :: after ∧
        exec (updateStep sqlite server earlier.implied) before
          (.begin directory.metadata directory.instances) = some s ∧ s.point = .prepare

/-- Every command since the beginning, or since one that deletes the file, spares it. -/
def SparesInstances (sqlite : Bytes → DbContent) (opts : UpdateOpts) (rows : InstanceData)
    (history : List CommandRun) : Prop :=
  ∃ before after directory, history = before ++ after ∧
    exec (commandStep sqlite) before .fresh = some directory ∧
    (before = [] ∨ ∃ command rest, after = command :: rest ∧ command.Deletes sqlite directory) ∧
    EveryStep (commandStep sqlite) (CommandRun.Spares sqlite opts rows) after directory

variable {sqlite : Bytes → DbContent} {server : Server} {opts earlier : UpdateOpts}
  {rows : InstanceData}

/-! ## Rows that are added -/

theorem DbContent.Suits.exists_table {content : DbContent} (h : content.Suits opts rows) :
    ∃ old, content = .table old := by
  cases content with
  | malformed => exact h.elim
  | noTable => exact h.elim
  | table old => exact ⟨old, rfl⟩

theorem suitsUpdate_none : SuitsUpdate sqlite opts rows none := by
  rintro found ⟨⟩

theorem suitsUpdate_some {file : DbFile} :
    SuitsUpdate sqlite opts rows (some file) ↔ (file.content sqlite).Suits opts rows := by
  simp [SuitsUpdate]

theorem RowsSuit.insertNew {old new : InstanceData} {file : DbFile} {did : DId} {data : Bytes}
    (hcontent : file.content sqlite = .table old)
    (hsuits : RowsSuit opts rows old) (hadd : MayAdd sqlite opts rows (some file) did data)
    (hinsert : UniqueTable.insertNew did data old = some new) : RowsSuit opts rows new := by
  have hnew : localRow sqlite (some file) did = none := by
    simp only [localRow, Option.bind_some, hcontent]
    exact (UniqueTable.lookup_insertNew hinsert).1
  unfold RowsSuit at hsuits ⊢
  split at hsuits
  · rename_i hupdate
    rw [if_pos hupdate]
    exact hsuits.insertNew (hadd hupdate hnew) hinsert
  · rename_i hupdate
    rw [if_neg hupdate]
    exact hsuits.trans (UniqueTable.extends_insertNew hinsert)

theorem RowsSuit.merge {old added : InstanceData} {file : DbFile}
    (hcontent : file.content sqlite = .table old)
    (hsuits : RowsSuit opts rows old)
    (hadd : ∀ did data, added.lookup did = some data →
      MayAdd sqlite opts rows (some file) did data) :
    RowsSuit opts rows (UniqueTable.merge old added.rows) := by
  unfold RowsSuit at hsuits ⊢
  split at hsuits
  · rename_i hupdate
    rw [if_pos hupdate]
    refine hsuits.merge ?_
    intro did data data' hnew hdata hdata'
    refine hadd did data' hdata' hupdate ?_ data hdata
    simp only [localRow, Option.bind_some, hcontent]
    exact hnew
  · rename_i hupdate
    rw [if_neg hupdate]
    exact hsuits.trans (UniqueTable.extends_merge old _)

theorem suitsUpdate_storeInFile {file : DbFile} {did : DId} {data : List Char}
    (hsuits : SuitsUpdate sqlite opts rows (some file))
    (hadd : MayAdd sqlite opts rows (some file) did (encodeUtf8 data)) :
    SuitsUpdate sqlite opts rows (some (storeInFile sqlite file did data)) := by
  rw [suitsUpdate_some] at hsuits
  obtain ⟨old, hcontent⟩ := hsuits.exists_table
  obtain ⟨new, hresult, hinsert⟩ | ⟨error, hresult⟩ := insertIntoDb_cases none old did data
  · simp only [storeInFile, hcontent, hresult, suitsUpdate_some]
    rw [hcontent] at hsuits
    exact RowsSuit.insertNew hcontent hsuits hadd hinsert
  · simp only [storeInFile, hcontent, hresult, suitsUpdate_some]
    rw [hcontent] at hsuits
    exact hsuits

theorem suitsUpdate_addFromFile {target : DbFile} {dump : Bytes} (fault : MergeFault)
    (hsuits : SuitsUpdate sqlite opts rows (some target))
    (hadd : ∀ did data, (sqlite dump).row did = some data →
      MayAdd sqlite opts rows (some target) did data) :
    SuitsUpdate sqlite opts rows (some (addFromFile sqlite fault target (.bytes dump)).2) := by
  have hmerge : ∀ merged, insertSelect sqlite target (.bytes dump) = .ok merged →
      SuitsUpdate sqlite opts rows (some merged) := by
    intro merged hmerged
    rw [suitsUpdate_some] at hsuits ⊢
    obtain ⟨old, hcontent⟩ := hsuits.exists_table
    rw [hcontent] at hsuits
    have hdownload : (DbFile.bytes dump).content sqlite = sqlite dump := rfl
    cases hdump : sqlite dump with
    | malformed => simp [insertSelect, hcontent, hdownload, hdump] at hmerged
    | noTable => simp [insertSelect, hcontent, hdownload, hdump] at hmerged
    | table added =>
        rw [hdump] at hdownload
        cases (insertSelect_table hcontent hdownload).symm.trans hmerged
        rw [hdump] at hadd
        exact RowsSuit.merge hcontent hsuits hadd
  obtain ⟨error, hresult⟩ | ⟨merged, hmerged, hresult | ⟨error, hresult⟩⟩ :=
    addFromFile_cases sqlite fault target (.bytes dump)
  · rw [hresult]
    exact hsuits
  · rw [hresult]
    exact hmerge merged hmerged
  · rw [hresult]
    exact hmerge merged hmerged

/-! ## Sessions -/

/-- A new file is open only between its creation and that of its table. -/
structure SessionInvariant (sqlite : Bytes → DbContent) (opts : UpdateOpts) (rows : InstanceData)
    (session : Session) : Prop where
  tables : .createTable ∉ session.script.tail
  creates : session.script.head? = some .createTable → opts.implied.updateInstanceData = true
  suits : session.script.head? ≠ some .createTable →
    SuitsUpdate sqlite opts rows session.directory.instances

theorem sessionInvariant_start {directory : StrideDirectory} (command : SessionCommand)
    (hsuits : SuitsUpdate sqlite opts rows directory.instances) :
    SessionInvariant sqlite opts rows ⟨directory, command.script⟩ := by
  refine ⟨?_, ?_, fun _ => hsuits⟩
  · cases command <;> simp [SessionCommand.script]
  · cases command <;> simp [SessionCommand.script]

/-- The script goes on with the operations that it has listed. -/
theorem SessionInvariant.next {session : Session} {directory : StrideDirectory}
    {script : List SessionOp} (hinv : SessionInvariant sqlite opts rows session)
    (hscript : session.script.tail = script)
    (hsuits : SuitsUpdate sqlite opts rows directory.instances) :
    SessionInvariant sqlite opts rows ⟨directory, script⟩ := by
  have htables := hinv.tables
  rw [hscript] at htables
  refine ⟨fun hmem => htables (List.mem_of_mem_tail hmem), ?_, fun _ => hsuits⟩
  intro hhead
  exact (htables (List.mem_of_mem_head? hhead)).elim

theorem sessionStep_invariant {action : SessionAction} {session next : Session}
    (hspares : SessionSpares sqlite opts rows action session)
    (hinv : SessionInvariant sqlite opts rows session)
    (h : sessionStep sqlite action session = some next) :
    SessionInvariant sqlite opts rows next := by
  unfold sessionStep at h
  split at h
  · rename_i directory script
    have hsuits := hinv.suits (by simp)
    split at h
    · cases h
      exact hinv.next rfl hsuits
    · rename_i hmissing
      cases h
      refine ⟨hinv.tables, fun _ => ?_, ?_⟩
      · rcases hspares with hpresent | hupdate
        · rw [hmissing] at hpresent
          cases hpresent
        · exact hupdate
      · intro hhead
        exact (hhead rfl).elim
  · cases h
    refine hinv.next rfl ?_
    rw [suitsUpdate_some]
    simp only [DbFile.content, DbContent.Suits, RowsSuit, hinv.creates rfl, if_true]
    exact UniqueTable.Agrees.empty rows
  · rename_i directory script
    have hsuits := hinv.suits (by simp)
    split at h
    · cases h
      exact hinv.next rfl hsuits
    · cases h
      exact ⟨by simp, by simp, fun _ => hsuits⟩
  · rename_i did data directory
    have hsuits := hinv.suits (by simp)
    cases h
    refine ⟨hinv.tables, hinv.creates, fun _ => ?_⟩
    cases hinstances : directory.instances with
    | none => exact suitsUpdate_none
    | some file =>
        simp only [SessionSpares, hinstances] at hspares
        simp only [hinstances] at hsuits
        exact suitsUpdate_storeInFile hsuits hspares
  · cases h

/-! ## Updates -/

/-- An update before the one that is to provide the rows. -/
structure UpdateLeaves (sqlite : Bytes → DbContent) (server : Server) (opts : UpdateOpts)
    (rows : InstanceData) (s : UpdateState) : Prop where
  dump : ∀ deleted chunks, s.point = .download (.direct deleted) (.receive chunks) →
    (sqlite (server DB_PARTIAL_INSTANCES)).Suits opts rows
  suits : ¬ s.Incomplete → SuitsUpdate sqlite opts rows s.instances

variable {metadata instances : Option DbFile} {s t : UpdateState}

theorem incomplete_of_point {deleted : Bool} {chunk : Bytes} {chunks : List Bytes}
    (hpoint : s.point = .download (.direct deleted) (.receive (chunk :: chunks))) :
    s.Incomplete :=
  ⟨deleted, _, hpoint, trivial⟩

theorem not_incomplete {point : UpdatePoint} (hpoint : s.point = point)
    (h : ∀ deleted phase, point ≠ .download (.direct deleted) phase) : ¬ s.Incomplete := by
  rintro ⟨deleted, phase, hpoint', _⟩
  exact h deleted phase (hpoint.symm.trans hpoint')

theorem not_incomplete_of_phase {target : DownloadTarget} {phase : DownloadPhase}
    (hpoint : s.point = .download target phase) (h : ¬ phase.Exposed True) : ¬ s.Incomplete := by
  rintro ⟨deleted, phase', hpoint', hexposed⟩
  cases hpoint.symm.trans hpoint'
  exact h hexposed

/-- A step that leaves the file alone, and does not receive chunks of it. -/
theorem UpdateLeaves.keep (hs : UpdateLeaves sqlite server opts rows s)
    (hcomplete : ¬ s.Incomplete) (hinstances : t.instances = s.instances)
    (hpoint : ∀ deleted chunks, t.point ≠ .download (.direct deleted) (.receive chunks)) :
    UpdateLeaves sqlite server opts rows t := by
  refine ⟨fun deleted chunks h => (hpoint deleted chunks h).elim, fun _ => ?_⟩
  rw [hinstances]
  exact hs.suits hcomplete

/-- The main task leaves the file alone or deletes it. -/
theorem mainStep_instances
    (hinv : UpdateInvariant sqlite server earlier False metadata instances s)
    (h : s.mainStep earlier = some t) :
    ¬ s.Incomplete ∧ (t.instances = s.instances ∨ t.instances = none) ∧
      ∀ deleted chunks, t.point ≠ .download (.direct deleted) (.receive chunks) := by
  have hinstances := hinv.point
  cases hpoint : s.point with
  | start =>
      simp only [UpdateState.mainStep, hpoint] at h
      cases h
      exact ⟨not_incomplete hpoint (by simp), Or.inl rfl, by simp⟩
  | checkInstances =>
      simp only [UpdateState.mainStep, hpoint] at h
      refine ⟨not_incomplete hpoint (by simp), ?_⟩
      split at h
      · cases h
        exact ⟨Or.inl rfl, by simp⟩
      · cases h
        exact ⟨Or.inl rfl, by simp⟩
  | prepare =>
      simp only [UpdateState.mainStep, hpoint, Option.some.injEq] at h
      subst h
      refine ⟨not_incomplete hpoint (by simp), ?_⟩
      unfold UpdateState.prepareStep
      simp only
      split
      · exact ⟨Or.inr rfl, by simp⟩
      · exact ⟨Or.inl rfl, by simp⟩
  | download target phase =>
      obtain ⟨rfl, rfl⟩ | ⟨error, rfl, rfl⟩ := mainStep_of_download hpoint h
      · refine ⟨not_incomplete_of_phase hpoint id, Or.inl rfl, ?_⟩
        cases target <;> simp [afterDownload]
      · exact ⟨not_incomplete_of_phase hpoint id, Or.inl rfl, by simp⟩
  | openTarget =>
      simp only [InstancesInvariant, hpoint] at hinstances
      simp only [UpdateState.mainStep, hpoint] at h
      refine ⟨not_incomplete hpoint (by simp), ?_⟩
      split at h
      · cases h
        exact ⟨Or.inl rfl, by simp⟩
      · rename_i hmissing
        have hpresent := hinstances.2.1.present
        rw [← hinstances.1, hmissing] at hpresent
        cases hpresent
  | merge =>
      simp only [UpdateState.mainStep, hpoint] at h
      cases h
  | awaitMetadata =>
      refine ⟨not_incomplete hpoint (by simp), ?_⟩
      obtain rfl | ⟨error, rfl⟩ := mainStep_of_awaitMetadata hpoint h
      · exact ⟨Or.inl rfl, by simp⟩
      · exact ⟨Or.inl rfl, by simp⟩
  | unwind error =>
      simp only [UpdateState.mainStep, hpoint] at h
      cases h
      exact ⟨not_incomplete hpoint (by simp), Or.inl rfl, by simp⟩
  | returned outcome =>
      simp only [UpdateState.mainStep, hpoint] at h
      cases h

/-- A direct download that has received everything has the bytes of the dump. -/
theorem suits_of_received {deleted : Bool} {chunks : List Bytes}
    (hinv : UpdateInvariant sqlite server earlier False metadata instances s)
    (hpoint : s.point = .download (.direct deleted) (.receive chunks))
    (hdump : (sqlite (server DB_PARTIAL_INSTANCES)).Suits opts rows)
    (hcomplete : ¬ s.Incomplete) : SuitsUpdate sqlite opts rows s.instances := by
  have hinstances := hinv.point
  simp only [InstancesInvariant, hpoint] at hinstances
  obtain ⟨_, _, content, hfile, hcontent⟩ := hinstances
  cases chunks with
  | cons chunk chunks => exact (hcomplete (incomplete_of_point hpoint)).elim
  | nil =>
      rw [List.flatten_nil, List.append_nil] at hcontent
      rw [hfile, hcontent, suitsUpdate_some]
      exact hdump

theorem instancesStep_leaves {action : DownloadAction}
    (hspares : UpdateSpares sqlite server opts rows (.instances action) s)
    (hinv : UpdateInvariant sqlite server earlier False metadata instances t)
    (hs : UpdateLeaves sqlite server opts rows s)
    (h : s.instancesStep server action = some t) : UpdateLeaves sqlite server opts rows t := by
  unfold UpdateState.instancesStep at h
  split at h
  · rename_i deleted phase hpoint
    obtain ⟨⟨phase', file'⟩, hstep, rfl⟩ := Option.map_eq_some_iff.mp h
    unfold downloadStep at hstep
    split at hstep
    · split at hstep
      · cases hstep
        exact hs.keep (not_incomplete_of_phase hpoint (not_not_intro trivial)) rfl (by simp)
      · cases hstep
    · cases hstep
      have hdump := hspares deleted _ hpoint
      exact ⟨fun _ _ _ => hdump, suits_of_received hinv rfl hdump⟩
    · cases hstep
      have hdump := hs.dump deleted _ hpoint
      exact ⟨fun _ _ _ => hdump, suits_of_received hinv rfl hdump⟩
    · cases hstep
      exact hs.keep (not_incomplete_of_phase hpoint id) rfl (by simp)
    · cases hstep
      exact hs.keep hspares rfl (by simp)
    · cases hstep
      exact hs.keep hspares rfl (by simp)
    · cases hstep
      exact hs.keep hspares rfl (by simp)
    · exact (hspares (incomplete_of_point hpoint)).elim
    · cases hstep
  · rename_i name phase hpoint
    obtain ⟨⟨phase', file'⟩, hstep, rfl⟩ := Option.map_eq_some_iff.mp h
    exact hs.keep (not_incomplete hpoint (by simp)) rfl (by simp)
  · cases h

theorem mergeStep_leaves {fault : MergeFault}
    (hspares : UpdateSpares sqlite server opts rows (.merge fault) s)
    (hinv : UpdateInvariant sqlite server earlier False metadata instances s)
    (hs : UpdateLeaves sqlite server opts rows s)
    (h : s.mergeStep sqlite fault = some t) : UpdateLeaves sqlite server opts rows t := by
  have hinstances := hinv.point
  unfold UpdateState.mergeStep at h
  split at h
  · rename_i target download hpoint htarget hdownload
    simp only [InstancesInvariant, hpoint] at hinstances
    cases hdownload.symm.trans hinstances.2.2
    have hsuits := hs.suits (not_incomplete hpoint (by simp))
    simp only [UpdateSpares, htarget] at hspares
    rw [htarget] at hsuits
    have hmerged := suitsUpdate_addFromFile fault hsuits hspares
    simp only at h
    split at h
    · cases h
      exact ⟨by simp, fun _ => hmerged⟩
    · cases h
      exact ⟨by simp, fun _ => hmerged⟩
    · cases h
      exact ⟨by simp, fun _ => hmerged⟩
  · cases h

theorem failStep_leaves {error : AnyhowError} (hs : UpdateLeaves sqlite server opts rows s)
    (h : s.failStep error = some t) : UpdateLeaves sqlite server opts rows t := by
  unfold UpdateState.failStep at h
  split at h
  · rename_i hpoint
    cases h
    exact hs.keep (not_incomplete hpoint (by simp)) rfl (by simp)
  · rename_i hpoint
    cases h
    exact hs.keep (not_incomplete hpoint (by simp)) rfl (by simp)
  · rename_i hpoint
    cases h
    exact hs.keep (not_incomplete hpoint (by simp)) rfl (by simp)
  · cases h

theorem updateStep_leaves {action : UpdateAction}
    (hspares : UpdateSpares sqlite server opts rows action s)
    (hinv : UpdateInvariant sqlite server earlier False metadata instances s)
    (hs : UpdateLeaves sqlite server opts rows s)
    (h : updateStep sqlite server earlier action s = some t) :
    UpdateLeaves sqlite server opts rows t := by
  cases action with
  | main =>
      obtain ⟨hcomplete, hsame | hdeleted, hpoint⟩ := mainStep_instances hinv h
      · exact hs.keep hcomplete hsame hpoint
      · refine ⟨fun deleted chunks h => (hpoint deleted chunks h).elim, fun _ => ?_⟩
        rw [hdeleted]
        exact suitsUpdate_none
  | merge fault => exact mergeStep_leaves hspares hinv hs h
  | instances action =>
      have hinv' := updateStep_invariant (fun hfalse => hfalse.elim) hinv h
      exact instancesStep_leaves hspares hinv' hs h
  | metadata action =>
      obtain ⟨phase, file, _, rfl⟩ := metadataStep_eq_some h
      exact ⟨hs.dump, hs.suits⟩
  | fail error => exact failStep_leaves hs h

/-- From a state whose file suits the later update, a part of an earlier one that spares the file
leads to such states. -/
theorem updateLeaves_of_exec {actions : List UpdateAction}
    (hspares : EveryStep (updateStep sqlite server earlier) (UpdateSpares sqlite server opts rows)
      actions s)
    (hinv : UpdateInvariant sqlite server earlier False metadata instances s)
    (hs : UpdateLeaves sqlite server opts rows s)
    (hrun : exec (updateStep sqlite server earlier) actions s = some t) :
    UpdateLeaves sqlite server opts rows t := by
  have hstep : ∀ action s t, UpdateSpares sqlite server opts rows action s →
      UpdateInvariant sqlite server earlier False metadata instances s ∧
        UpdateLeaves sqlite server opts rows s →
      updateStep sqlite server earlier action s = some t →
      UpdateInvariant sqlite server earlier False metadata instances t ∧
        UpdateLeaves sqlite server opts rows t :=
    fun _ _ _ ha h hstep => ⟨updateStep_invariant (fun hfalse => hfalse.elim) h.1 hstep,
      updateStep_leaves ha h.1 h.2 hstep⟩
  exact (exec_invariant_of_guard hstep hspares hrun ⟨hinv, hs⟩).2

/-- Deleting the file makes up for everything before. -/
theorem updateLeaves_prepared (hpoint : s.point = .prepare) (hreplace : earlier.replaceAll = true)
    (h : updateStep sqlite server earlier .main s = some t) :
    UpdateLeaves sqlite server opts rows t := by
  simp only [updateStep, UpdateState.mainStep, hpoint, Option.some.injEq,
    UpdateState.prepareStep, hreplace, Bool.true_or, if_true] at h
  subst h
  exact ⟨by simp, fun _ => suitsUpdate_none⟩

/-! ## Histories -/

theorem commandStep_suits {command : CommandRun} {directory next : StrideDirectory}
    (hspares : command.Spares sqlite opts rows directory)
    (hsuits : SuitsUpdate sqlite opts rows directory.instances)
    (h : commandStep sqlite command directory = some next) :
    SuitsUpdate sqlite opts rows next.instances := by
  cases command with
  | session command actions =>
      obtain ⟨hsteps, hend⟩ := hspares
      obtain ⟨session, hrun, rfl⟩ := Option.map_eq_some_iff.mp h
      have hinv := exec_invariant_of_guard (fun _ _ _ ha hs hstep =>
        sessionStep_invariant ha hs hstep) hsteps hrun (sessionInvariant_start command hsuits)
      exact hinv.suits (hend session hrun)
  | update server earlier actions =>
      obtain ⟨hsteps, hend⟩ := hspares
      obtain ⟨s, hrun, rfl⟩ := Option.map_eq_some_iff.mp h
      have hstart : UpdateLeaves sqlite server opts rows
          (.begin directory.metadata directory.instances) :=
        ⟨fun _ _ hpoint => (nomatch hpoint), fun _ => hsuits⟩
      exact (updateLeaves_of_exec hsteps updateInvariant_begin hstart hrun).suits (hend s hrun)

theorem suits_of_deletes {command : CommandRun} {directory next : StrideDirectory}
    (hdeletes : command.Deletes sqlite directory)
    (hspares : command.Spares sqlite opts rows directory)
    (h : commandStep sqlite command directory = some next) :
    SuitsUpdate sqlite opts rows next.instances := by
  cases command with
  | session command actions => exact hdeletes.elim
  | update server earlier actions =>
      obtain ⟨hsteps, hend⟩ := hspares
      obtain ⟨hreplace, before, after, mid, rfl, hbefore, hpoint⟩ := hdeletes
      obtain ⟨s, hrun, rfl⟩ := Option.map_eq_some_iff.mp h
      obtain ⟨mid', hmid, hafter⟩ := exec_append_eq_some.mp hrun
      cases hbefore.symm.trans hmid
      obtain ⟨prepared, hprepared, hrest⟩ := exec_cons_eq_some.mp hafter
      have hinv : UpdateInvariant sqlite server earlier.implied False directory.metadata
          directory.instances prepared :=
        updateInvariant_of_run (everyStep_of_forall (fun _ _ hfalse => hfalse.elim) _ _)
          (exec_append_eq_some.mpr
            ⟨mid, hbefore, exec_cons_eq_some.mpr ⟨prepared, hprepared, exec_nil prepared⟩⟩)
      have hsteps' := (hsteps.of_append hbefore).2 prepared hprepared
      have hreplaces : earlier.implied.replaceAll = true := hreplace
      have hleaves : UpdateLeaves sqlite server opts rows prepared :=
        updateLeaves_prepared hpoint hreplaces hprepared
      exact (updateLeaves_of_exec hsteps' hinv hleaves hrest).suits (hend s hrun)

/-- A history that spares the file leaves it missing or suited to the update. -/
theorem suits_of_history {history : List CommandRun} {directory : StrideDirectory}
    (hspares : SparesInstances sqlite opts rows history)
    (hreached : exec (commandStep sqlite) history .fresh = some directory) :
    SuitsUpdate sqlite opts rows directory.instances := by
  obtain ⟨before, after, middle, rfl, hbefore, hstart, hafter⟩ := hspares
  obtain ⟨middle', hmiddle, hrun⟩ := exec_append_eq_some.mp hreached
  cases hbefore.symm.trans hmiddle
  have hstep : ∀ command directory next, command.Spares sqlite opts rows directory →
      SuitsUpdate sqlite opts rows directory.instances →
      commandStep sqlite command directory = some next →
      SuitsUpdate sqlite opts rows next.instances :=
    fun _ _ _ hspares hsuits h => commandStep_suits hspares hsuits h
  rcases hstart with rfl | ⟨command, rest, rfl, hdeletes⟩
  · cases hbefore
    exact exec_invariant_of_guard hstep hafter hrun suitsUpdate_none
  · obtain ⟨next, hnext, hrest⟩ := exec_cons_eq_some.mp hrun
    exact exec_invariant_of_guard hstep (hafter.2 next hnext) hrest
      (suits_of_deletes hdeletes hafter.1 hnext)

end StrideRunner
