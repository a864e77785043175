import StrideRunner.Model.Utils.SolverExecutor

/-! # What a system call of an executor does

The step function is inverted once; the footprint, the refinement and the bound on the number of
steps are read off its rules. -/

namespace StrideRunner

namespace SolverExecutor

variable {profile : BuildProfile} {solver : Bytes → SolverRun} {self : SolverExecutor}
  {fs fs' : FileSystem} {state state' : ExecutorState}

/-- The phases of `delete_files` that remove a file, with the name and what comes next. -/
inductive Removes : ExecutorPhase → String → (ExecutorState → ExecutorState) → Prop where
  | stdin : Removes .removeStdin PATH_STDIN (·.goto .removeStdout)
  | stdout : Removes .removeStdout PATH_STDOUT (·.goto .removeStderr)
  | stderr : Removes .removeStderr PATH_STDERR (·.finish (.ok ()))

/-- The rules of `proceedStep`. -/
inductive Proceeds (profile : BuildProfile) (solver : Bytes → SolverRun) (self : SolverExecutor)
    (fs : FileSystem) (state : ExecutorState) : FileSystem → ExecutorState → Prop where
  | writeStdin (hphase : state.phase = .writeStdin) :
      Proceeds profile solver self fs state
        (fs.write (self.filename PATH_STDIN) (encodeUtf8 self.instanceData))
        (state.goto .openStdin)
  | openStdin (opened : Bytes) (hphase : state.phase = .openStdin)
      (hfile : fs (self.filename PATH_STDIN) = some opened) :
      Proceeds profile solver self fs state fs (state.goto (.createStdout opened))
  | openStdinMissing (hphase : state.phase = .openStdin)
      (hfile : fs (self.filename PATH_STDIN) = none) :
      Proceeds profile solver self fs state fs
        (state.answer (.err ⟨some "Open STDIN", FileSystem.notFound⟩))
  | createStdout (opened : Bytes) (hphase : state.phase = .createStdout opened) :
      Proceeds profile solver self fs state (fs.write (self.filename PATH_STDOUT) [])
        (state.goto (.createStderr opened))
  | createStderr (opened : Bytes) (hphase : state.phase = .createStderr opened) :
      Proceeds profile solver self fs state (fs.write (self.filename PATH_STDERR) [])
        (state.goto (.spawn opened))
  | spawn (opened stdin : Bytes) (hphase : state.phase = .spawn opened)
      (hstdin : stdin = (fs (self.filename PATH_STDIN)).getD opened) :
      Proceeds profile solver self fs state fs
        (state.goto (.solving (solver stdin).output (solver stdin).code))
  | solve (piece : Stream × Bytes) (output : List (Stream × Bytes)) (code : ChildExitCode)
      (hphase : state.phase = .solving (piece :: output) code) :
      Proceeds profile solver self fs state
        (fs.append (self.filename piece.1.path) piece.2) (state.goto (.solving output code))
  | wait (code : ChildExitCode) (hphase : state.phase = .solving [] code) :
      Proceeds profile solver self fs state fs (state.goto (.verifying code))
  | verify (code : ChildExitCode) (hphase : state.phase = .verifying code) :
      Proceeds profile solver self fs state fs
        (state.answer ((self.judge profile code fs).mapErr fun error => ⟨none, error⟩))
  | remove (suffix : String) (next : ExecutorState → ExecutorState)
      (hphase : Removes state.phase suffix next)
      (hfile : (fs (self.filename suffix)).isSome) :
      Proceeds profile solver self fs state (fs.remove (self.filename suffix)) (next state)
  | removeMissing (suffix : String) (next : ExecutorState → ExecutorState)
      (hphase : Removes state.phase suffix next) (hfile : fs (self.filename suffix) = none) :
      Proceeds profile solver self fs state fs
        (state.finish (.err ⟨none, FileSystem.notFound⟩))

theorem Removes.proceeds {suffix : String} {next : ExecutorState → ExecutorState}
    (hphase : Removes state.phase suffix next)
    (h : self.removeStep suffix next fs state = (fs', state')) :
    Proceeds profile solver self fs state fs' state' := by
  unfold removeStep FileSystem.removeFile at h
  cases hfile : fs (self.filename suffix) with
  | some content =>
      simp only [hfile] at h
      cases h
      exact .remove suffix next hphase (by simp [hfile])
  | none =>
      simp only [hfile] at h
      cases h
      exact .removeMissing suffix next hphase hfile

theorem Removes.proceedStep_eq {suffix : String} {next : ExecutorState → ExecutorState}
    (h : Removes state.phase suffix next) :
    self.proceedStep profile solver fs state = some (self.removeStep suffix next fs state) := by
  generalize hphase : state.phase = phase at h
  cases h with
  | stdin => simp only [proceedStep, hphase]
  | stdout => simp only [proceedStep, hphase]
  | stderr => simp only [proceedStep, hphase]

theorem removeStep_of_isSome {suffix : String} {next : ExecutorState → ExecutorState}
    (hfile : (fs (self.filename suffix)).isSome) :
    self.removeStep suffix next fs state = (fs.remove (self.filename suffix), next state) := by
  obtain ⟨content, hcontent⟩ := Option.isSome_iff_exists.mp hfile
  simp [removeStep, FileSystem.removeFile, hcontent]

theorem removeStep_of_missing {suffix : String} {next : ExecutorState → ExecutorState}
    (hfile : fs (self.filename suffix) = none) :
    self.removeStep suffix next fs state =
      (fs, state.finish (.err ⟨none, FileSystem.notFound⟩)) := by
  simp [removeStep, FileSystem.removeFile, hfile]

/-- Every step follows one of the rules. -/
theorem proceeds_of_proceedStep
    (h : self.proceedStep profile solver fs state = some (fs', state')) :
    Proceeds profile solver self fs state fs' state' := by
  cases hphase : state.phase with
  | writeStdin =>
      simp only [proceedStep, hphase] at h
      cases h
      exact .writeStdin hphase
  | openStdin =>
      simp only [proceedStep, hphase, FileSystem.read] at h
      cases hfile : fs (self.filename PATH_STDIN) with
      | some opened =>
          simp only [hfile] at h
          cases h
          exact .openStdin opened hphase hfile
      | none =>
          simp only [hfile] at h
          cases h
          exact .openStdinMissing hphase hfile
  | createStdout opened =>
      simp only [proceedStep, hphase] at h
      cases h
      exact .createStdout opened hphase
  | createStderr opened =>
      simp only [proceedStep, hphase] at h
      cases h
      exact .createStderr opened hphase
  | spawn opened =>
      simp only [proceedStep, hphase] at h
      cases h
      exact .spawn opened _ hphase rfl
  | solving output code =>
      cases output with
      | nil =>
          simp only [proceedStep, hphase] at h
          cases h
          exact .wait code hphase
      | cons piece output =>
          simp only [proceedStep, hphase] at h
          cases h
          exact .solve piece output code hphase
  | verifying code =>
      simp only [proceedStep, hphase] at h
      cases h
      exact .verify code hphase
  | returned =>
      simp only [proceedStep, hphase] at h
      cases h
  | removeStdin =>
      simp only [proceedStep, hphase, Option.some.injEq] at h
      exact Removes.proceeds (hphase ▸ .stdin) h
  | removeStdout =>
      simp only [proceedStep, hphase, Option.some.injEq] at h
      exact Removes.proceeds (hphase ▸ .stdout) h
  | removeStderr =>
      simp only [proceedStep, hphase, Option.some.injEq] at h
      exact Removes.proceeds (hphase ▸ .stderr) h
  | deleted =>
      simp only [proceedStep, hphase] at h
      cases h

/-- Every rule is a step. -/
theorem Proceeds.proceedStep_eq (h : Proceeds profile solver self fs state fs' state') :
    self.proceedStep profile solver fs state = some (fs', state') := by
  cases h with
  | writeStdin hphase => simp only [proceedStep, hphase]
  | openStdin opened hphase hfile => simp only [proceedStep, hphase, FileSystem.read, hfile]
  | openStdinMissing hphase hfile => simp only [proceedStep, hphase, FileSystem.read, hfile]
  | createStdout opened hphase => simp only [proceedStep, hphase]
  | createStderr opened hphase => simp only [proceedStep, hphase]
  | spawn opened stdin hphase hstdin =>
      subst hstdin
      simp only [proceedStep, hphase]
  | solve piece output code hphase => simp only [proceedStep, hphase]
  | wait code hphase => simp only [proceedStep, hphase]
  | verify code hphase => simp only [proceedStep, hphase]
  | remove suffix next hphase hfile =>
      rw [hphase.proceedStep_eq, removeStep_of_isSome hfile]
  | removeMissing suffix next hphase hfile =>
      rw [hphase.proceedStep_eq, removeStep_of_missing hfile]

/-- The system calls that `run` still has to make; `total` is the length of the output. -/
def remaining (total : ℕ) : ExecutorPhase → ℕ
  | .writeStdin => total + 7
  | .openStdin => total + 6
  | .createStdout _ => total + 5
  | .createStderr _ => total + 4
  | .spawn _ => total + 3
  | .solving output _ => output.length + 2
  | .verifying _ => 1
  | .returned => 0
  | .removeStdin => 0
  | .removeStdout => 0
  | .removeStderr => 0
  | .deleted => 0

theorem Removes.remaining_eq {phase : ExecutorPhase} {suffix : String}
    {next : ExecutorState → ExecutorState} (h : Removes phase suffix next) (total : ℕ) :
    remaining total phase = 0 := by
  cases h with
  | stdin => rfl
  | stdout => rfl
  | stderr => rfl

theorem Removes.remaining_next {phase : ExecutorPhase} {suffix : String}
    {next : ExecutorState → ExecutorState} (h : Removes phase suffix next) (total : ℕ) :
    remaining total (next state).phase = 0 := by
  cases h with
  | stdin => rfl
  | stdout => rfl
  | stderr => rfl

/-- A failing system call ends `run`, or `delete_files`, with an error. -/
theorem failStep_cases {error : IoError} {left : Option Bytes}
    (h : self.failStep error left fs state = some (fs', state')) :
    (fs' = fs ∨ ∃ content, fs' = fs.write (self.filename PATH_STDIN) content) ∧
      ((∀ total, 0 < remaining total state.phase) ∧
          (∃ context, state' = state.answer (.err ⟨context, error⟩)) ∨
        (∀ total, remaining total state.phase = 0) ∧
          state' = state.finish (.err ⟨none, error⟩)) := by
  cases hphase : state.phase with
  | writeStdin =>
      simp only [failStep, hphase, Option.some.injEq, Prod.mk.injEq] at h
      obtain ⟨rfl, rfl⟩ := h
      refine ⟨?_, Or.inl ⟨by simp [remaining], none, rfl⟩⟩
      cases left with
      | none => exact Or.inl rfl
      | some content => exact Or.inr ⟨content, rfl⟩
  | openStdin =>
      simp only [failStep, hphase] at h
      cases h
      exact ⟨Or.inl rfl, Or.inl ⟨by simp [remaining], _, rfl⟩⟩
  | createStdout opened =>
      simp only [failStep, hphase] at h
      cases h
      exact ⟨Or.inl rfl, Or.inl ⟨by simp [remaining], _, rfl⟩⟩
  | createStderr opened =>
      simp only [failStep, hphase] at h
      cases h
      exact ⟨Or.inl rfl, Or.inl ⟨by simp [remaining], _, rfl⟩⟩
  | spawn opened =>
      simp only [failStep, hphase] at h
      cases h
      exact ⟨Or.inl rfl, Or.inl ⟨by simp [remaining], _, rfl⟩⟩
  | solving output code =>
      cases output with
      | nil =>
          simp only [failStep, hphase] at h
          cases h
          exact ⟨Or.inl rfl, Or.inl ⟨by simp [remaining], _, rfl⟩⟩
      | cons piece output =>
          simp only [failStep, hphase] at h
          cases h
  | verifying code =>
      simp only [failStep, hphase] at h
      cases h
      exact ⟨Or.inl rfl, Or.inl ⟨by simp [remaining], _, rfl⟩⟩
  | returned =>
      simp only [failStep, hphase] at h
      cases h
  | removeStdin =>
      simp only [failStep, hphase] at h
      cases h
      exact ⟨Or.inl rfl, Or.inr ⟨fun _ => rfl, rfl⟩⟩
  | removeStdout =>
      simp only [failStep, hphase] at h
      cases h
      exact ⟨Or.inl rfl, Or.inr ⟨fun _ => rfl, rfl⟩⟩
  | removeStderr =>
      simp only [failStep, hphase] at h
      cases h
      exact ⟨Or.inl rfl, Or.inr ⟨fun _ => rfl, rfl⟩⟩
  | deleted =>
      simp only [failStep, hphase] at h
      cases h

/-- Files are deleted after a run that returned `Ok`. -/
theorem deleteStep_cases (h : self.deleteStep fs state = some (fs', state')) :
    state.phase = .returned ∧ (∃ value, state.result = some (.ok value)) ∧ fs' = fs ∧
      state' = state.goto
        (if (fs (self.filename PATH_STDIN)).isSome then .removeStdin else .removeStdout) := by
  unfold deleteStep at h
  split at h
  · rename_i value hphase hresult
    refine ⟨hphase, ⟨value, hresult⟩, ?_⟩
    split at h
    · rename_i hexists
      cases h
      rw [if_pos hexists]
      exact ⟨rfl, rfl⟩
    · rename_i hmissing
      cases h
      rw [if_neg hmissing]
      exact ⟨rfl, rfl⟩
  · cases h

/-! ## The steps of a deletion -/

/-- The files that `delete_files` may still have to remove. -/
def removalsLeft : ExecutorPhase → ℕ
  | .removeStdin => 3
  | .removeStdout => 2
  | .removeStderr => 1
  | _ => 0

theorem removalsLeft_le (phase : ExecutorPhase) : removalsLeft phase ≤ 3 := by
  cases phase <;> simp [removalsLeft]

theorem exists_removes (h : 0 < removalsLeft state.phase) :
    ∃ suffix next, Removes state.phase suffix next := by
  generalize state.phase = phase at h
  cases phase with
  | removeStdin => exact ⟨_, _, .stdin⟩
  | removeStdout => exact ⟨_, _, .stdout⟩
  | removeStderr => exact ⟨_, _, .stderr⟩
  | _ => simp [removalsLeft] at h

/-- `delete_files` has been called: it has files left to remove, or it has returned. -/
def Deleting (state : ExecutorState) : Prop :=
  0 < removalsLeft state.phase ∨ state.phase = .deleted ∧ state.deletion.isSome

theorem deleting_finish (deletion : Outcome ExecutorError Unit) :
    Deleting (state.finish deletion) :=
  Or.inr ⟨rfl, rfl⟩

theorem Removes.deleting_next {suffix : String} {next : ExecutorState → ExecutorState}
    (h : Removes state.phase suffix next) :
    Deleting (next state) ∧ removalsLeft (next state).phase < removalsLeft state.phase := by
  generalize state.phase = phase at h
  cases h with
  | stdin => exact ⟨Or.inl (by simp [ExecutorState.goto, removalsLeft]), by
      simp [ExecutorState.goto, removalsLeft]⟩
  | stdout => exact ⟨Or.inl (by simp [ExecutorState.goto, removalsLeft]), by
      simp [ExecutorState.goto, removalsLeft]⟩
  | stderr => exact ⟨deleting_finish _, by simp [ExecutorState.finish, removalsLeft]⟩

/-- A call of `delete_files` begins with the first file that is there. -/
theorem deleting_of_deleteStep (h : self.deleteStep fs state = some (fs', state')) :
    Deleting state' := by
  obtain ⟨_, _, _, rfl⟩ := deleteStep_cases h
  simp only [Deleting, ExecutorState.goto]
  split
  · exact Or.inl (by simp [removalsLeft])
  · exact Or.inl (by simp [removalsLeft])

/-- Each step of a deletion removes a file or is the last one. -/
theorem executorStep_deleting {a : ExecutorAction} (hs : Deleting state)
    (h : executorStep profile solver self a (fs, state) = some (fs', state')) :
    Deleting state' ∧ removalsLeft state'.phase < removalsLeft state.phase := by
  obtain hpositive | ⟨hdeleted, _⟩ := hs
  · obtain ⟨suffix, next, hremoves⟩ := exists_removes hpositive
    cases a with
    | proceed =>
        have hstep : self.proceedStep profile solver fs state = some (fs', state') := h
        rw [hremoves.proceedStep_eq] at hstep
        cases hfile : fs (self.filename suffix) with
        | some content =>
            rw [removeStep_of_isSome (by simp [hfile])] at hstep
            cases hstep
            exact hremoves.deleting_next
        | none =>
            rw [removeStep_of_missing hfile] at hstep
            cases hstep
            exact ⟨deleting_finish _, hpositive⟩
    | fail error left =>
        obtain ⟨_, ⟨hrunning, _⟩ | ⟨_, rfl⟩⟩ := failStep_cases h
        · exact absurd (hrunning 0) (by simp [hremoves.remaining_eq])
        · exact ⟨deleting_finish _, hpositive⟩
    | deleteFiles =>
        obtain ⟨hreturned, _⟩ := deleteStep_cases h
        simp [hreturned, removalsLeft] at hpositive
  · cases a with
    | proceed => simp [executorStep, proceedStep, hdeleted] at h
    | fail error left => simp [executorStep, failStep, hdeleted] at h
    | deleteFiles => simp [executorStep, deleteStep, hdeleted] at h

/-- A deletion that has not returned can make its next system call. -/
theorem proceedStep_isSome_of_deleting (hs : Deleting state) (hpending : state.deletion = none) :
    (self.proceedStep profile solver fs state).isSome := by
  obtain hpositive | ⟨_, hdone⟩ := hs
  · obtain ⟨suffix, next, hremoves⟩ := exists_removes hpositive
    rw [hremoves.proceedStep_eq]
    rfl
  · simp [hpending] at hdone

/-- After a run that returned `Ok` the files can be deleted. -/
theorem deleteStep_isSome {value : SolverResult} (hphase : state.phase = .returned)
    (hresult : state.result = some (.ok value)) : (self.deleteStep fs state).isSome := by
  simp only [deleteStep, hphase, hresult]
  split
  · rfl
  · rfl

end SolverExecutor

end StrideRunner
