import StrideRunner.Model.Commands.Update
import StrideRunner.Verification.Update.Download

/-! # The two databases during an update

Each step of the main task, and of the metadata task, changes only its own database. What the
command makes of the instance data is `Updated`; on the way there the old file may be exposed. -/

namespace StrideRunner

open Library InstanceDataDB

/-- What a successful update makes of `instances.db`. -/
def Updated (sqlite : Bytes → DbContent) (dump : Bytes) (opts : UpdateOpts) :
    Option DbFile → Option DbFile → Prop
  | none, file => file = some (.bytes dump)
  | some old, file =>
      if opts.updateInstanceData then
        if opts.replaceAll then file = some (.bytes dump)
        else ∃ merged, insertSelect sqlite old (.bytes dump) = .ok merged ∧ file = some merged
      else file = some old

/-- The old file, the new dump, or the complete merge of the two. -/
def IntactInstances (sqlite : Bytes → DbContent) (dump : Bytes) (old file : Option DbFile) :
    Prop :=
  file = old ∨ file = some (.bytes dump) ∨
    ∃ target merged, old = some target ∧
      insertSelect sqlite target (.bytes dump) = .ok merged ∧ file = some merged

/-- The old file or the new dump. -/
def IntactMetadata (dump : Bytes) (old file : Option DbFile) : Prop :=
  file = old ∨ file = some (.bytes dump)

variable {sqlite : Bytes → DbContent} {server : Server} {opts : UpdateOpts}
  {metadata instances : Option DbFile} {guarded : Prop} {s t : UpdateState}

theorem Updated.intact {dump : Bytes} {old file : Option DbFile}
    (h : Updated sqlite dump opts old file) : IntactInstances sqlite dump old file := by
  cases old with
  | none => exact Or.inr (Or.inl h)
  | some target =>
      simp only [Updated] at h
      split at h
      · split at h
        · exact Or.inr (Or.inl h)
        · obtain ⟨merged, hmerged, hfile⟩ := h
          exact Or.inr (Or.inr ⟨target, merged, rfl, hmerged, hfile⟩)
      · exact Or.inl h

/-- `update` goes on with a merge. -/
structure Merges (opts : UpdateOpts) (old : Option DbFile) : Prop where
  present : old.isSome
  updates : opts.updateInstanceData = true
  keeps : opts.replaceAll = false

/-- `instances.db` at each point of the main task; `old` is what it was. -/
def InstancesInvariant (sqlite : Bytes → DbContent) (dump : Bytes) (opts : UpdateOpts)
    (guarded : Prop) (old : Option DbFile) (s : UpdateState) : Prop :=
  match s.point with
  | .start => s.instances = old
  | .checkInstances => s.instances = old
  | .prepare => s.instances = old ∧ (old = none ∨ opts.updateInstanceData = true)
  | .download (.direct deleted) phase => deleted = old.isSome ∧
      (deleted = true → opts.updateInstanceData = true ∧ opts.replaceAll = true) ∧
      DownloadInvariant guarded (deleted = false) dump none phase s.instances
  | .download (.temporary _) phase => s.instances = old ∧ Merges opts old ∧
      ∃ before, DownloadInvariant False True dump before phase s.temporary
  | .openTarget => s.instances = old ∧ Merges opts old ∧ s.temporary = some (.bytes dump)
  | .merge => s.instances = old ∧ Merges opts old ∧ s.temporary = some (.bytes dump)
  | .awaitMetadata => Updated sqlite dump opts old s.instances
  | .unwind _ => guarded → IntactInstances sqlite dump old s.instances
  | .returned (.ok ()) => Updated sqlite dump opts old s.instances
  | .returned _ => guarded → IntactInstances sqlite dump old s.instances

/-- What holds in each state of an update that found `metadata` and `instances`. -/
structure UpdateInvariant (sqlite : Bytes → DbContent) (server : Server) (opts : UpdateOpts)
    (guarded : Prop) (metadata instances : Option DbFile) (s : UpdateState) : Prop where
  task : DownloadInvariant guarded True (server DB_META) metadata s.metadataTask s.metadata
  point : InstancesInvariant sqlite (server DB_PARTIAL_INSTANCES) opts guarded instances s
  returnedErr : ∀ error, s.point = .returned (.err error) → guarded →
    ¬ s.metadataTask.Exposed True

/-- The files that a failure would damage are not exposed when something fails, nor does the
metadata task expose its file when the command has already returned an error. -/
def FailsSafely (action : UpdateAction) (s : UpdateState) : Prop :=
  match action with
  | .metadata (.fail _ _) => ¬ s.metadataTask.Exposed True
  | .metadata .create => ∀ error chunks, s.point = .returned (.err error) →
      s.metadataTask = .create chunks → ¬ (DownloadPhase.receive chunks).Exposed True
  | .instances (.fail _ _) => ∀ deleted phase, s.point = .download (.direct deleted) phase →
      ¬ phase.Exposed (deleted = false)
  | .main => ∀ error, s.point = .unwind error → ¬ s.metadataTask.Exposed True
  | _ => True

theorem updateInvariant_begin :
    UpdateInvariant sqlite server opts guarded metadata instances
      (.begin metadata instances) := by
  refine ⟨rfl, rfl, ?_⟩
  intro error hreturned
  cases hreturned

/-! ## The metadata task -/

theorem metadataStep_eq_some {action : DownloadAction}
    (h : s.metadataStep server action = some t) :
    ∃ phase file,
      downloadStep (server DB_META) action s.metadataTask s.metadata = some (phase, file) ∧
      t = { s with metadata := file, metadataTask := phase } := by
  unfold UpdateState.metadataStep at h
  split at h
  · cases h
  · obtain ⟨⟨phase, file⟩, hstep, rfl⟩ := Option.map_eq_some_iff.mp h
    exact ⟨phase, file, hstep, rfl⟩

theorem metadataStep_invariant {action : DownloadAction}
    (hguard : guarded → FailsSafely (.metadata action) s)
    (hinv : UpdateInvariant sqlite server opts guarded metadata instances s)
    (h : s.metadataStep server action = some t) :
    UpdateInvariant sqlite server opts guarded metadata instances t := by
  obtain ⟨phase, file, hstep, rfl⟩ := metadataStep_eq_some h
  refine ⟨?_, hinv.point, ?_⟩
  · refine downloadStep_invariant ?_ hinv.task hstep
    rintro hguarded error written rfl
    exact hguard hguarded
  · intro error hpoint hguarded
    -- the detached task goes on, but it does not create its file any more
    refine downloadStep_not_exposed trivial ?_ (hinv.returnedErr error hpoint hguarded) hstep
    rintro chunks rfl hphase
    exact hguard hguarded error chunks hpoint hphase

/-! ## The main task -/

/-- A step of the main task within the command. -/
theorem UpdateInvariant.advance
    (hinv : UpdateInvariant sqlite server opts guarded metadata instances s)
    (hmetadata : t.metadata = s.metadata) (htask : t.metadataTask = s.metadataTask)
    (hpoint : ∀ error, t.point ≠ .returned (.err error))
    (hinstances : InstancesInvariant sqlite (server DB_PARTIAL_INSTANCES) opts guarded instances
      t) :
    UpdateInvariant sqlite server opts guarded metadata instances t := by
  refine ⟨?_, hinstances, ?_⟩
  · rw [hmetadata, htask]
    exact hinv.task
  · intro error hreturned
    exact (hpoint error hreturned).elim

theorem instancesStep_invariant {action : DownloadAction}
    (hguard : guarded → FailsSafely (.instances action) s)
    (hinv : UpdateInvariant sqlite server opts guarded metadata instances s)
    (h : s.instancesStep server action = some t) :
    UpdateInvariant sqlite server opts guarded metadata instances t := by
  have hinstances := hinv.point
  unfold UpdateState.instancesStep at h
  split at h
  · rename_i deleted phase hpoint
    obtain ⟨⟨phase', file'⟩, hstep, rfl⟩ := Option.map_eq_some_iff.mp h
    simp only [InstancesInvariant, hpoint] at hinstances
    obtain ⟨hdeleted, hflags, hdownload⟩ := hinstances
    refine hinv.advance rfl rfl (by simp) ⟨hdeleted, hflags, ?_⟩
    refine downloadStep_invariant ?_ hdownload hstep
    rintro hguarded error written rfl
    exact hguard hguarded deleted phase hpoint
  · rename_i name phase hpoint
    obtain ⟨⟨phase', file'⟩, hstep, rfl⟩ := Option.map_eq_some_iff.mp h
    simp only [InstancesInvariant, hpoint] at hinstances
    obtain ⟨hold, hmerges, before, hdownload⟩ := hinstances
    refine hinv.advance rfl rfl (by simp) ⟨hold, hmerges, before, ?_⟩
    exact downloadStep_invariant (fun hfalse => hfalse.elim) hdownload hstep
  · cases h

theorem prepareStep_invariant (hpoint : s.point = .prepare)
    (hinv : UpdateInvariant sqlite server opts guarded metadata instances s) :
    UpdateInvariant sqlite server opts guarded metadata instances (s.prepareStep opts) := by
  have hinstances := hinv.point
  simp only [InstancesInvariant, hpoint] at hinstances
  obtain ⟨hold, hupdates⟩ := hinstances
  have hupdate : s.instances.isSome = true → opts.updateInstanceData = true := by
    intro hsome
    rcases hupdates with hnone | hupdate
    · rw [hold, hnone] at hsome
      cases hsome
    · exact hupdate
  unfold UpdateState.prepareStep
  simp only
  split
  · rename_i hdirect
    refine hinv.advance rfl rfl (by simp) ⟨by rw [hold], ?_, rfl⟩
    intro hsome
    rw [hsome] at hdirect
    exact ⟨hupdate hsome, by simpa using hdirect⟩
  · rename_i hmerge
    simp only [Bool.or_eq_true, Bool.not_eq_true', not_or, Bool.not_eq_true,
      Bool.not_eq_false] at hmerge
    exact hinv.advance rfl rfl (by simp)
      ⟨hold, ⟨hold ▸ hmerge.2, hupdate hmerge.2, hmerge.1⟩, s.temporary, rfl⟩

def afterDownload : DownloadTarget → UpdatePoint
  | .direct _ => .awaitMetadata
  | .temporary _ => .openTarget

/-- The main task waits for the download of the instance data to end. -/
theorem mainStep_of_download {target : DownloadTarget} {phase : DownloadPhase}
    (hpoint : s.point = .download target phase) (h : s.mainStep opts = some t) :
    phase = .finished ∧ t = { s with point := afterDownload target } ∨
      ∃ error, phase = .failed error ∧ t = { s with point := .unwind error } := by
  cases phase with
  | finished =>
      refine Or.inl ⟨rfl, ?_⟩
      cases target with
      | direct deleted =>
          simp only [UpdateState.mainStep, hpoint, Option.some.injEq] at h
          exact h.symm
      | temporary name =>
          simp only [UpdateState.mainStep, hpoint, Option.some.injEq] at h
          exact h.symm
  | failed error =>
      simp only [UpdateState.mainStep, hpoint, Option.some.injEq] at h
      exact Or.inr ⟨error, rfl, h.symm⟩
  | request =>
      simp only [UpdateState.mainStep, hpoint] at h
      cases h
  | create chunks =>
      simp only [UpdateState.mainStep, hpoint] at h
      cases h
  | receive chunks =>
      simp only [UpdateState.mainStep, hpoint] at h
      cases h

/-- The main task waits for the metadata task to end. -/
theorem mainStep_of_awaitMetadata (hpoint : s.point = .awaitMetadata)
    (h : s.mainStep opts = some t) :
    t = { s with point := .returned (.ok ()) } ∨
      ∃ error, t = { s with point := .unwind error } := by
  simp only [UpdateState.mainStep, hpoint] at h
  split at h
  · cases h
    exact Or.inl rfl
  · rename_i error htask
    cases h
    exact Or.inr ⟨error, rfl⟩
  · cases h

theorem updated_of_not_needed {dump : Bytes} {old : Option DbFile}
    (hneeded : ¬ (old.isNone || opts.updateInstanceData) = true) :
    Updated sqlite dump opts old old := by
  simp only [Bool.or_eq_true, not_or, Bool.not_eq_true] at hneeded
  cases old with
  | none => simp at hneeded
  | some file => simp [Updated, hneeded.2]

/-- A finished direct download of instance data over what was there before. -/
theorem updated_of_direct {dump : Bytes} {old file : Option DbFile} {deleted : Bool}
    (h : deleted = old.isSome ∧
      (deleted = true → opts.updateInstanceData = true ∧ opts.replaceAll = true) ∧
      DownloadInvariant guarded (deleted = false) dump none .finished file) :
    Updated sqlite dump opts old file := by
  obtain ⟨hdeleted, hflags, hfile⟩ := h
  cases old with
  | none => exact hfile
  | some target =>
      obtain ⟨hupdate, hreplace⟩ := hflags hdeleted
      simp only [Updated, hupdate, hreplace, if_true]
      exact hfile

/-- A failed direct download that was not exposed. -/
theorem intact_of_direct {dump : Bytes} {old file : Option DbFile} {deleted : Bool}
    {error : AnyhowError}
    (h : deleted = old.isSome ∧
      (deleted = true → opts.updateInstanceData = true ∧ opts.replaceAll = true) ∧
      DownloadInvariant guarded (deleted = false) dump none (.failed error) file) :
    guarded → IntactInstances sqlite dump old file := by
  obtain ⟨hdeleted, _, hfile⟩ := h
  intro hguarded
  rcases hfile hguarded with ⟨hkept, rfl⟩ | hdump
  · rw [hkept] at hdeleted
    exact Or.inl (Option.not_isSome_iff_eq_none.mp (by simp [← hdeleted])).symm
  · exact Or.inr (Or.inl hdump)

theorem mainStep_invariant (hguard : guarded → FailsSafely .main s)
    (hinv : UpdateInvariant sqlite server opts guarded metadata instances s)
    (h : s.mainStep opts = some t) :
    UpdateInvariant sqlite server opts guarded metadata instances t := by
  have hinstances := hinv.point
  cases hpoint : s.point with
  | start =>
      simp only [UpdateState.mainStep, hpoint] at h
      simp only [InstancesInvariant, hpoint] at hinstances
      cases h
      exact hinv.advance rfl rfl (by simp) hinstances
  | checkInstances =>
      simp only [UpdateState.mainStep, hpoint] at h
      simp only [InstancesInvariant, hpoint] at hinstances
      split at h
      · rename_i hneeded
        cases h
        refine hinv.advance rfl rfl (by simp) ⟨hinstances, ?_⟩
        simpa [hinstances] using hneeded
      · rename_i hneeded
        cases h
        rw [hinstances] at hneeded
        refine hinv.advance rfl rfl (by simp) ?_
        simp only [InstancesInvariant, hinstances]
        exact updated_of_not_needed hneeded
  | prepare =>
      simp only [UpdateState.mainStep, hpoint, Option.some.injEq] at h
      subst h
      exact prepareStep_invariant hpoint hinv
  | download target phase =>
      simp only [InstancesInvariant, hpoint] at hinstances
      cases target with
      | direct deleted =>
          obtain ⟨rfl, rfl⟩ | ⟨error, rfl, rfl⟩ := mainStep_of_download hpoint h
          · exact hinv.advance rfl rfl (by simp [afterDownload]) (updated_of_direct hinstances)
          · exact hinv.advance rfl rfl (by simp) (intact_of_direct hinstances)
      | temporary name =>
          obtain ⟨hold, hmerges, before, hdownload⟩ := hinstances
          obtain ⟨rfl, rfl⟩ | ⟨error, rfl, rfl⟩ := mainStep_of_download hpoint h
          · exact hinv.advance rfl rfl (by simp [afterDownload]) ⟨hold, hmerges, hdownload⟩
          · exact hinv.advance rfl rfl (by simp) (fun _ => Or.inl hold)
  | openTarget =>
      simp only [InstancesInvariant, hpoint] at hinstances
      simp only [UpdateState.mainStep, hpoint] at h
      split at h
      · cases h
        exact hinv.advance rfl rfl (by simp) hinstances
      · rename_i hmissing
        have hpresent := hinstances.2.1.present
        rw [← hinstances.1, hmissing] at hpresent
        cases hpresent
  | merge =>
      simp only [UpdateState.mainStep, hpoint] at h
      cases h
  | awaitMetadata =>
      simp only [InstancesInvariant, hpoint] at hinstances
      obtain rfl | ⟨error, rfl⟩ := mainStep_of_awaitMetadata hpoint h
      · exact hinv.advance rfl rfl (by simp) hinstances
      · exact hinv.advance rfl rfl (by simp) (fun _ => hinstances.intact)
  | unwind error =>
      simp only [InstancesInvariant, hpoint] at hinstances
      simp only [UpdateState.mainStep, hpoint, Option.some.injEq] at h
      subst h
      refine ⟨hinv.task, hinstances, ?_⟩
      intro error' _ hguarded
      exact hguard hguarded error hpoint
  | returned outcome =>
      simp only [UpdateState.mainStep, hpoint] at h
      cases h

/-- A merge fails with the old target or a complete one, and succeeds with a complete one. -/
theorem addFromFile_cases (sqlite : Bytes → DbContent) (fault : MergeFault)
    (target download : DbFile) :
    (∃ error, addFromFile sqlite fault target download = (.err error, target)) ∨
      ∃ merged, insertSelect sqlite target download = .ok merged ∧
        (addFromFile sqlite fault target download = (.ok (), merged) ∨
          ∃ error, addFromFile sqlite fault target download = (.err error, merged)) := by
  unfold addFromFile
  cases fault with
  | attach error => exact Or.inl ⟨error, rfl⟩
  | insert error => exact Or.inl ⟨error, rfl⟩
  | none =>
      cases hmerged : insertSelect sqlite target download with
      | error error => exact Or.inl ⟨error, rfl⟩
      | ok merged => exact Or.inr ⟨merged, rfl, Or.inl rfl⟩
  | detach error =>
      cases hmerged : insertSelect sqlite target download with
      | error error' => exact Or.inl ⟨error', rfl⟩
      | ok merged => exact Or.inr ⟨merged, rfl, Or.inr ⟨error, rfl⟩⟩

theorem mergeStep_invariant {fault : MergeFault}
    (hinv : UpdateInvariant sqlite server opts guarded metadata instances s)
    (h : s.mergeStep sqlite fault = some t) :
    UpdateInvariant sqlite server opts guarded metadata instances t := by
  have hinstances := hinv.point
  unfold UpdateState.mergeStep at h
  split at h
  · rename_i target download hpoint htarget hdownload
    simp only [InstancesInvariant, hpoint] at hinstances
    obtain ⟨hold, hmerges, htemporary⟩ := hinstances
    rw [htarget] at hold
    cases hdownload.symm.trans htemporary
    obtain ⟨error, hresult⟩ | ⟨merged, hmerged, hresult | ⟨error, hresult⟩⟩ :=
      addFromFile_cases sqlite fault target (.bytes (server DB_PARTIAL_INSTANCES))
    · simp only [hresult, Option.some.injEq] at h
      subst h
      exact hinv.advance rfl rfl (by simp) (fun _ => Or.inl hold)
    · simp only [hresult, Option.some.injEq] at h
      subst h
      refine hinv.advance rfl rfl (by simp) ?_
      simp only [InstancesInvariant, ← hold, Updated, hmerges.updates, hmerges.keeps, if_true]
      exact ⟨merged, hmerged, rfl⟩
    · simp only [hresult, Option.some.injEq] at h
      subst h
      exact hinv.advance rfl rfl (by simp)
        (fun _ => Or.inr (Or.inr ⟨target, merged, hold.symm, hmerged, rfl⟩))
  · cases h

theorem failStep_invariant {error : AnyhowError}
    (hinv : UpdateInvariant sqlite server opts guarded metadata instances s)
    (h : s.failStep error = some t) :
    UpdateInvariant sqlite server opts guarded metadata instances t := by
  have hinstances := hinv.point
  unfold UpdateState.failStep at h
  split at h
  · rename_i hpoint
    simp only [InstancesInvariant, hpoint] at hinstances
    cases h
    exact hinv.advance rfl rfl (by simp) (fun _ => Or.inl hinstances)
  · rename_i hpoint
    simp only [InstancesInvariant, hpoint] at hinstances
    cases h
    exact hinv.advance rfl rfl (by simp) (fun _ => Or.inl hinstances.1)
  · rename_i hpoint
    simp only [InstancesInvariant, hpoint] at hinstances
    cases h
    exact hinv.advance rfl rfl (by simp) (fun _ => Or.inl hinstances.1)
  · cases h

/-! ## Runs -/

theorem updateStep_invariant {action : UpdateAction} (hguard : guarded → FailsSafely action s)
    (hinv : UpdateInvariant sqlite server opts guarded metadata instances s)
    (h : updateStep sqlite server opts action s = some t) :
    UpdateInvariant sqlite server opts guarded metadata instances t := by
  cases action with
  | main => exact mainStep_invariant hguard hinv h
  | merge fault => exact mergeStep_invariant hinv h
  | instances action => exact instancesStep_invariant hguard hinv h
  | metadata action => exact metadataStep_invariant hguard hinv h
  | fail error => exact failStep_invariant hinv h

/-- Every state of an update satisfies the invariant; a guarded one if the guard holds. -/
theorem updateInvariant_of_run {actions : List UpdateAction}
    (hguard : EveryStep (updateStep sqlite server opts)
      (fun action s => guarded → FailsSafely action s) actions (.begin metadata instances))
    (hrun : exec (updateStep sqlite server opts) actions (.begin metadata instances) = some s) :
    UpdateInvariant sqlite server opts guarded metadata instances s :=
  exec_invariant_of_guard (fun _ _ _ ha hs hstep => updateStep_invariant ha hs hstep) hguard hrun
    updateInvariant_begin

/-- What a successful update leaves behind. -/
theorem updated_of_run {actions : List UpdateAction}
    (hrun : exec (updateStep sqlite server opts) actions (.begin metadata instances) = some s)
    (hok : s.point = .returned (.ok ())) :
    Updated sqlite (server DB_PARTIAL_INSTANCES) opts instances s.instances := by
  have hinv : UpdateInvariant sqlite server opts False metadata instances s :=
    updateInvariant_of_run (everyStep_of_forall (fun _ _ hfalse => hfalse.elim) _ _) hrun
  have hinstances := hinv.point
  simp only [InstancesInvariant, hok] at hinstances
  exact hinstances

end StrideRunner
