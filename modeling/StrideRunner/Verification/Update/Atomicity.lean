import StrideRunner.Verification.Update.Content

/-! # Failing updates

A direct download truncates, or deletes, the old file before the new one is complete. An update
that fails in between leaves neither; the merge through a temporary file does not have this gap. -/

namespace StrideRunner

open Library InstanceDataDB

variable {sqlite : Bytes → DbContent} {server : Server} {opts : UpdateOpts}
  {metadata instances : Option DbFile} {actions : List UpdateAction} {s : UpdateState}
  {error : AnyhowError}

/-- When no step fails while a file is exposed, or exposes one after the command has failed, a
failing update leaves each file as it was or complete, and the detached task keeps it so. -/
theorem update_atomic
    (hsafely : EveryStep (updateStep sqlite server opts) FailsSafely actions
      (.begin metadata instances))
    (hrun : exec (updateStep sqlite server opts) actions (.begin metadata instances) = some s)
    (herr : s.point = .returned (.err error)) :
    IntactMetadata (server DB_META) metadata s.metadata ∧
      IntactInstances sqlite (server DB_PARTIAL_INSTANCES) instances s.instances := by
  have hinv : UpdateInvariant sqlite server opts True metadata instances s :=
    updateInvariant_of_run (hsafely.imp fun _ _ h _ => h) hrun
  constructor
  · have hexposed := hinv.returnedErr error herr trivial
    exact (hinv.task.intact trivial hexposed).imp And.right id
  · have hinstances := hinv.point
    simp only [InstancesInvariant, herr] at hinstances
    exact hinstances trivial

/-! ## Runs on fixed inputs -/

def noRoute : AnyhowError := .message "error sending request"

def oldMetadata : Option DbFile := some (.bytes [9])

def oldInstances : Option DbFile := some (.committed ∅)

/-- The request for the metadata fails. -/
def refusedActions : List UpdateAction :=
  [.main, .main, .metadata (.fail noRoute []), .main, .main]

theorem update_atomic_refused :
    ∃ s, exec (updateStep smallSqlite smallDumps ⟨false, false, false⟩) refusedActions
        (.begin oldMetadata oldInstances) = some s ∧
      IntactMetadata (smallDumps DB_META) oldMetadata s.metadata ∧
      IntactInstances smallSqlite (smallDumps DB_PARTIAL_INSTANCES) oldInstances s.instances := by
  have hrun : exec (updateStep smallSqlite smallDumps ⟨false, false, false⟩) refusedActions
      (.begin oldMetadata oldInstances) = some _ := rfl
  refine ⟨_, hrun, update_atomic ?_ hrun rfl⟩
  -- the request fails before the file is created, and nothing is exposed when main unwinds
  refine ⟨?_, ?_⟩
  · rintro _ ⟨⟩
  rintro _ ⟨⟩
  refine ⟨?_, ?_⟩
  · rintro _ ⟨⟩
  rintro _ ⟨⟩
  refine ⟨not_not_intro trivial, ?_⟩
  rintro _ ⟨⟩
  refine ⟨?_, ?_⟩
  · rintro _ ⟨⟩
  rintro _ ⟨⟩
  refine ⟨?_, fun _ _ => trivial⟩
  rintro _ _ ⟨⟩

/-- The run fails and leaves a file that is neither the old one nor complete. -/
def Damages (server : Server) (opts : UpdateOpts) (actions : List UpdateAction) : Prop :=
  ∃ s error, exec (updateStep smallSqlite server opts) actions
      (.begin oldMetadata oldInstances) = some s ∧ s.point = .returned (.err error) ∧
    ¬ (IntactMetadata (server DB_META) oldMetadata s.metadata ∧
      IntactInstances smallSqlite (server DB_PARTIAL_INSTANCES) oldInstances s.instances)

def longDump : Server := fun _ => [1, 2]

/-- The stream of the metadata breaks after its first chunk. -/
def brokenStream : List UpdateAction :=
  [.main, .main, .metadata (.respond [[1], [2]]), .metadata .create, .metadata .receive,
    .metadata (.fail noRoute []), .main, .main]

/-- The old instance data is deleted before the request for the new one fails. -/
def refusedReplacement : List UpdateAction :=
  [.main, .main, .main, .instances (.fail noRoute []), .main, .main]

/-- The request for the instance data fails while the metadata is being downloaded. -/
def refusedMerge : List UpdateAction :=
  [.main, .main, .main, .metadata (.respond [[1], [2]]), .metadata .create, .metadata .receive,
    .instances (.fail noRoute []), .main, .main]

/-- The command has failed when the detached task receives the first chunk of the metadata. -/
def detachedDownload : List UpdateAction :=
  [.main, .main, .main, .instances (.fail noRoute []), .main, .main,
    .metadata (.respond [[1], [2]]), .metadata .create, .metadata .receive]

theorem not_intactMetadata_truncated :
    ¬ IntactMetadata [1, 2] oldMetadata (some (.bytes [1])) := by
  simp [IntactMetadata, oldMetadata]

theorem not_intactInstances_missing :
    ¬ IntactInstances smallSqlite [1, 2] oldInstances none := by
  simp [IntactInstances, oldInstances]

theorem failing_update_damages :
    Damages longDump (UpdateOpts.implied ⟨false, false, false⟩) brokenStream ∧
      Damages longDump (UpdateOpts.implied ⟨false, false, true⟩) refusedReplacement ∧
      Damages longDump (UpdateOpts.implied ⟨false, true, false⟩) refusedMerge ∧
      Damages longDump (UpdateOpts.implied ⟨false, true, false⟩) detachedDownload := by
  refine ⟨⟨_, noRoute, rfl, rfl, ?_⟩, ⟨_, noRoute, rfl, rfl, ?_⟩, ⟨_, noRoute, rfl, rfl, ?_⟩,
    ⟨_, noRoute, rfl, rfl, ?_⟩⟩
  · exact fun hintact => not_intactMetadata_truncated hintact.1
  · exact fun hintact => not_intactInstances_missing hintact.2
  · exact fun hintact => not_intactMetadata_truncated hintact.1
  · exact fun hintact => not_intactMetadata_truncated hintact.1

end StrideRunner
