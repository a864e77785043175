import StrideRunner.Verification.Executor.Files

/-! # The system calls of an executor refine `run`

Alone, an executor that goes through its system calls one at a time ends where `run` does,
whatever the file system held before. -/

namespace StrideRunner

open Library

namespace SolverExecutor

variable {profile : BuildProfile} {solver : Bytes → SolverRun} {self : SolverExecutor}
  {fs fs' base : FileSystem} {state state' : ExecutorState}

/-! ## The stages of `run` -/

/-- The solver's input. -/
def stdin (self : SolverExecutor) : Bytes := encodeUtf8 self.instanceData

/-- The file system when the solver is spawned. -/
def created (self : SolverExecutor) (fs : FileSystem) : FileSystem :=
  ((fs.write (self.filename PATH_STDIN) self.stdin).write (self.filename PATH_STDOUT) []).write
    (self.filename PATH_STDERR) []

def appendPiece (self : SolverExecutor) (fs : FileSystem) (piece : Stream × Bytes) : FileSystem :=
  fs.append (self.filename piece.1.path) piece.2

def written (self : SolverExecutor) (output : List (Stream × Bytes)) (fs : FileSystem) :
    FileSystem :=
  output.foldl self.appendPiece (self.created fs)

theorem filename_ne {suffix suffix' : String} (h : suffix ≠ suffix') :
    self.filename suffix ≠ self.filename suffix' :=
  fun heq => h (filename_inj rfl heq).2

theorem created_stdin : self.created base (self.filename PATH_STDIN) = some self.stdin := by
  have hout : self.filename PATH_STDIN ≠ self.filename PATH_STDOUT := filename_ne (by decide)
  have herr : self.filename PATH_STDIN ≠ self.filename PATH_STDERR := filename_ne (by decide)
  simp [created, FileSystem.write, hout, herr]

theorem created_stdout : self.created base (self.filename PATH_STDOUT) = some [] := by
  have herr : self.filename PATH_STDOUT ≠ self.filename PATH_STDERR := filename_ne (by decide)
  simp [created, FileSystem.write, herr]

theorem created_stderr : self.created base (self.filename PATH_STDERR) = some [] := by
  simp [created, FileSystem.write]

theorem run_eq : self.run profile solver base =
    ((self.judge profile (solver self.stdin).code (self.written (solver self.stdin).output
        base)).mapErr fun error => ⟨none, error⟩,
      self.written (solver self.stdin).output base) := by
  have hread : (base.write (self.filename PATH_STDIN) self.stdin).read
      (self.filename PATH_STDIN) = .ok self.stdin := by
    simp [FileSystem.read, FileSystem.write]
  unfold run
  simp only [stdin] at hread
  simp only [hread]
  rfl

/-- Output is appended; no file disappears. -/
theorem isSome_appendPiece {path : PathBuf} (piece : Stream × Bytes) (h : (fs path).isSome) :
    (self.appendPiece fs piece path).isSome := by
  unfold appendPiece FileSystem.append
  by_cases heq : path = self.filename piece.1.path
  · subst heq
    rw [Function.update_self]
    simpa using h
  · rw [Function.update_of_ne heq]
    exact h

theorem isSome_foldl_appendPiece {path : PathBuf} (output : List (Stream × Bytes))
    (h : (fs path).isSome) : (output.foldl self.appendPiece fs path).isSome := by
  induction output generalizing fs with
  | nil => exact h
  | cons piece output ih => exact ih (isSome_appendPiece piece h)

theorem isSome_written {path : PathBuf} (output : List (Stream × Bytes))
    (h : path ∈ self.files) : (self.written output base path).isSome := by
  apply isSome_foldl_appendPiece output
  rcases h with rfl | rfl | rfl
  · rw [created_stdin]
    rfl
  · rw [created_stdout]
    rfl
  · rw [created_stderr]
    rfl

/-! ## One executor alone -/

/-- The files in each phase, compared with `run` on any file system; `faultless` says that no
system call fails for reasons of its own. -/
def PhaseInvariant (profile : BuildProfile) (solver : Bytes → SolverRun) (self : SolverExecutor)
    (faultless : Prop) (base fs : FileSystem) (state : ExecutorState) : Prop :=
  match state.phase with
  | .writeStdin => True
  | .openStdin => fs (self.filename PATH_STDIN) = some self.stdin
  | .createStdout _ => fs (self.filename PATH_STDIN) = some self.stdin
  | .createStderr _ => fs (self.filename PATH_STDIN) = some self.stdin ∧
      fs (self.filename PATH_STDOUT) = some []
  | .spawn _ => AgreeOn self.files fs (self.created base)
  | .solving output code => code = (solver self.stdin).code ∧
      ∃ done, done ++ output = (solver self.stdin).output ∧
        AgreeOn self.files fs (self.written done base)
  | .verifying code => code = (solver self.stdin).code ∧
      AgreeOn self.files fs (self.run profile solver base).2
  | .returned => (∃ value, state.result = some (.ok value)) ∨ faultless →
      AgreeOn self.files fs (self.run profile solver base).2
  | .removeStdin => AgreeOn self.files fs (self.run profile solver base).2
  | .removeStdout => fs (self.filename PATH_STDIN) = none ∧
      (fs (self.filename PATH_STDOUT)).isSome ∧ (fs (self.filename PATH_STDERR)).isSome
  | .removeStderr => fs (self.filename PATH_STDIN) = none ∧
      fs (self.filename PATH_STDOUT) = none ∧ (fs (self.filename PATH_STDERR)).isSome
  | .deleted => ∃ deletion, state.deletion = some deletion ∧
      (deletion = .ok () → ∀ path ∈ self.files, fs path = none) ∧
      (faultless → deletion = .ok ())

structure SoloInvariant (profile : BuildProfile) (solver : Bytes → SolverRun)
    (executor : SolverExecutor) (faultless : Prop) (base fs : FileSystem)
    (state : ExecutorState) : Prop where
  phase : PhaseInvariant profile solver executor faultless base fs state
  unreturned : ∀ total, state.result = none ↔ 0 < remaining total state.phase
  result : ∀ result, state.result = some result →
    (∃ value, result = .ok value) ∨ faultless → (executor.run profile solver base).1 = result
  undeleted : state.phase ≠ .deleted → state.deletion = none

variable {faultless : Prop}

theorem soloInvariant_start :
    SoloInvariant profile solver self faultless base fs ExecutorState.start := by
  refine ⟨trivial, ?_, ?_, fun _ => rfl⟩
  · intro total
    simp [ExecutorState.start, remaining]
  · intro result hresult
    cases hresult

theorem SoloInvariant.deletion_eq_none
    (h : SoloInvariant profile solver self faultless base fs state)
    (hbefore : state.result = none) : state.deletion = none := by
  apply h.undeleted
  intro hdeleted
  have hpositive := (h.unreturned 0).mp hbefore
  rw [hdeleted] at hpositive
  exact lt_irrefl _ hpositive

/-- A step within `run`. -/
theorem SoloInvariant.goto {phase : ExecutorPhase}
    (h : SoloInvariant profile solver self faultless base fs state)
    (hbefore : 0 < remaining 0 state.phase) (hafter : ∀ total, 0 < remaining total phase)
    (hphase : PhaseInvariant profile solver self faultless base fs' (state.goto phase)) :
    SoloInvariant profile solver self faultless base fs' (state.goto phase) := by
  have hresult : state.result = none := (h.unreturned 0).mpr hbefore
  refine ⟨hphase, ?_, h.result, fun _ => h.deletion_eq_none hresult⟩
  intro total
  exact ⟨fun _ => hafter total, fun _ => hresult⟩

/-- The step that ends `run`. -/
theorem SoloInvariant.answer {result : Outcome ExecutorError SolverResult}
    (h : SoloInvariant profile solver self faultless base fs state)
    (hbefore : 0 < remaining 0 state.phase)
    (hresult : (∃ value, result = .ok value) ∨ faultless →
      (self.run profile solver base).1 = result ∧
        AgreeOn self.files fs' (self.run profile solver base).2) :
    SoloInvariant profile solver self faultless base fs' (state.answer result) := by
  refine ⟨?_, ?_, ?_, fun _ => h.deletion_eq_none ((h.unreturned 0).mpr hbefore)⟩
  · intro hcase
    refine (hresult ?_).2
    rcases hcase with ⟨value, hvalue⟩ | hfaultless
    · exact Or.inl ⟨value, Option.some.inj hvalue⟩
    · exact Or.inr hfaultless
  · intro total
    simp [ExecutorState.answer, remaining]
  · rintro _ ⟨⟩ hcase
    exact (hresult hcase).1

/-- A step within `delete_files`. -/
theorem SoloInvariant.remove {phase : ExecutorPhase}
    (h : SoloInvariant profile solver self faultless base fs state)
    (hbefore : state.result ≠ none) (hundeleted : state.phase ≠ .deleted)
    (hafter : ∀ total, remaining total phase = 0)
    (hphase : PhaseInvariant profile solver self faultless base fs' (state.goto phase)) :
    SoloInvariant profile solver self faultless base fs' (state.goto phase) := by
  refine ⟨hphase, ?_, h.result, fun _ => h.undeleted hundeleted⟩
  intro total
  simp [ExecutorState.goto, hafter, hbefore]

/-- The step that ends `delete_files`. -/
theorem SoloInvariant.finish {deletion : Outcome ExecutorError Unit}
    (h : SoloInvariant profile solver self faultless base fs state)
    (hbefore : state.result ≠ none)
    (hgone : deletion = .ok () → ∀ path ∈ self.files, fs' path = none)
    (hok : faultless → deletion = .ok ()) :
    SoloInvariant profile solver self faultless base fs' (state.finish deletion) := by
  refine ⟨⟨deletion, rfl, hgone, hok⟩, ?_, h.result, fun hphase => (hphase rfl).elim⟩
  intro total
  simp [ExecutorState.finish, remaining, hbefore]

/-! ## Steps -/

theorem isSome_of_agreeOn_run (h : AgreeOn self.files fs (self.run profile solver base).2)
    {path : PathBuf} (hpath : path ∈ self.files) : (fs path).isSome := by
  rw [h path hpath, run_eq]
  exact isSome_written _ hpath

theorem agreeOn_written_append {done : List (Stream × Bytes)} {piece : Stream × Bytes}
    (h : AgreeOn self.files fs (self.written done base)) :
    AgreeOn self.files (self.appendPiece fs piece) (self.written (done ++ [piece]) base) := by
  have hpiece := h _ (stream_mem_files piece.1)
  unfold written at h hpiece ⊢
  rw [List.foldl_append]
  simp only [List.foldl_cons, List.foldl_nil]
  unfold appendPiece FileSystem.append
  rw [hpiece]
  exact h.update _ _

theorem agreeOn_created (hstdin : fs (self.filename PATH_STDIN) = some self.stdin)
    (hstdout : fs (self.filename PATH_STDOUT) = some [])
    (hstderr : fs (self.filename PATH_STDERR) = some []) :
    AgreeOn self.files fs (self.created base) := by
  rintro path (rfl | rfl | rfl)
  · rw [hstdin, created_stdin]
  · rw [hstdout, created_stdout]
  · rw [hstderr, created_stderr]

/-- The file that is to be removed next is there. -/
theorem SoloInvariant.present (h : SoloInvariant profile solver self faultless base fs state)
    {suffix : String} {next : ExecutorState → ExecutorState}
    (hphase : Removes state.phase suffix next) : fs (self.filename suffix) ≠ none := by
  rw [← Option.isSome_iff_ne_none]
  have hfiles := h.phase
  generalize hcurrent : state.phase = phase at hphase
  simp only [PhaseInvariant, hcurrent] at hfiles
  cases hphase with
  | stdin => exact isSome_of_agreeOn_run hfiles stdin_mem_files
  | stdout => exact hfiles.2.1
  | stderr => exact hfiles.2.2

theorem Proceeds.soloInvariant
    (hinv : SoloInvariant profile solver self faultless base fs state)
    (h : Proceeds profile solver self fs state fs' state') :
    SoloInvariant profile solver self faultless base fs' state' := by
  have hfiles := hinv.phase
  have hinout : self.filename PATH_STDIN ≠ self.filename PATH_STDOUT := filename_ne (by decide)
  have hinerr : self.filename PATH_STDIN ≠ self.filename PATH_STDERR := filename_ne (by decide)
  have houterr : self.filename PATH_STDOUT ≠ self.filename PATH_STDERR :=
    filename_ne (by decide)
  cases h with
  | writeStdin hphase =>
      apply hinv.goto (by simp [hphase, remaining]) (by simp [remaining])
      exact Function.update_self ..
  | openStdin opened hphase hfile =>
      apply hinv.goto (by simp [hphase, remaining]) (by simp [remaining])
      simp only [PhaseInvariant, hphase] at hfiles
      exact hfiles
  | openStdinMissing hphase hfile =>
      simp only [PhaseInvariant, hphase, hfile] at hfiles
      cases hfiles
  | createStdout opened hphase =>
      apply hinv.goto (by simp [hphase, remaining]) (by simp [remaining])
      simp only [PhaseInvariant, hphase] at hfiles
      exact ⟨(Function.update_of_ne hinout ..).trans hfiles, Function.update_self ..⟩
  | createStderr opened hphase =>
      apply hinv.goto (by simp [hphase, remaining]) (by simp [remaining])
      simp only [PhaseInvariant, hphase] at hfiles
      exact agreeOn_created ((Function.update_of_ne hinerr ..).trans hfiles.1)
        ((Function.update_of_ne houterr ..).trans hfiles.2) (Function.update_self ..)
  | spawn opened stdin hphase hstdin =>
      apply hinv.goto (by simp [hphase, remaining]) (by simp [remaining])
      simp only [PhaseInvariant, hphase] at hfiles
      rw [hfiles _ stdin_mem_files, created_stdin, Option.getD_some] at hstdin
      subst hstdin
      exact ⟨rfl, [], rfl, hfiles⟩
  | solve piece output code hphase =>
      apply hinv.goto (by simp [hphase, remaining]) (by simp [remaining])
      simp only [PhaseInvariant, hphase] at hfiles
      obtain ⟨hcode, done, hdone, hagree⟩ := hfiles
      refine ⟨hcode, done ++ [piece], ?_, agreeOn_written_append hagree⟩
      rw [← hdone, List.append_assoc, List.singleton_append]
  | wait code hphase =>
      apply hinv.goto (by simp [hphase, remaining]) (by simp [remaining])
      simp only [PhaseInvariant, hphase] at hfiles
      obtain ⟨hcode, done, hdone, hagree⟩ := hfiles
      rw [List.append_nil] at hdone
      refine ⟨hcode, ?_⟩
      rw [run_eq, ← hdone]
      exact hagree
  | verify code hphase =>
      simp only [PhaseInvariant, hphase] at hfiles
      obtain ⟨rfl, hagree⟩ := hfiles
      apply hinv.answer (by simp [hphase, remaining])
      intro _
      refine ⟨?_, hagree⟩
      rw [run_eq] at hagree ⊢
      rw [judge_congr hagree]
  | remove suffix next hphase hfile =>
      have hreturned : state.result ≠ none :=
        fun hnone => absurd (hphase.remaining_eq 0) ((hinv.unreturned 0).mp hnone).ne'
      generalize hcurrent : state.phase = phase at hphase
      simp only [PhaseInvariant, hcurrent] at hfiles
      cases hphase with
      | stdin =>
          refine hinv.remove hreturned (by simp [hcurrent]) (fun _ => rfl) ⟨?_, ?_, ?_⟩
          · exact Function.update_self ..
          · rw [FileSystem.remove, Function.update_of_ne hinout.symm]
            exact isSome_of_agreeOn_run hfiles stdout_mem_files
          · rw [FileSystem.remove, Function.update_of_ne hinerr.symm]
            exact isSome_of_agreeOn_run hfiles stderr_mem_files
      | stdout =>
          refine hinv.remove hreturned (by simp [hcurrent]) (fun _ => rfl) ⟨?_, ?_, ?_⟩
          · rw [FileSystem.remove, Function.update_of_ne hinout]
            exact hfiles.1
          · exact Function.update_self ..
          · rw [FileSystem.remove, Function.update_of_ne houterr.symm]
            exact hfiles.2.2
      | stderr =>
          refine hinv.finish hreturned ?_ (fun _ => rfl)
          rintro _ path (rfl | rfl | rfl)
          · rw [FileSystem.remove, Function.update_of_ne hinerr]
            exact hfiles.1
          · rw [FileSystem.remove, Function.update_of_ne houterr]
            exact hfiles.2.1
          · exact Function.update_self ..
  | removeMissing suffix next hphase hfile =>
      exact absurd hfile (hinv.present hphase)

theorem failStep_soloInvariant {error : IoError} {left : Option Bytes} (hfault : ¬ faultless)
    (hinv : SoloInvariant profile solver self faultless base fs state)
    (h : self.failStep error left fs state = some (fs', state')) :
    SoloInvariant profile solver self faultless base fs' state' := by
  obtain ⟨_, ⟨hpositive, context, rfl⟩ | ⟨hzero, rfl⟩⟩ := failStep_cases h
  · apply hinv.answer (hpositive 0)
    rintro (⟨value, hvalue⟩ | hfaultless)
    · cases hvalue
    · exact (hfault hfaultless).elim
  · refine hinv.finish ?_ ?_ (fun hfaultless => (hfault hfaultless).elim)
    · exact fun hnone => absurd (hzero 0) ((hinv.unreturned 0).mp hnone).ne'
    · intro hok
      cases hok

theorem deleteStep_soloInvariant
    (hinv : SoloInvariant profile solver self faultless base fs state)
    (h : self.deleteStep fs state = some (fs', state')) :
    SoloInvariant profile solver self faultless base fs' state' := by
  obtain ⟨hphase, ⟨value, hresult⟩, rfl, rfl⟩ := deleteStep_cases h
  have hfiles := hinv.phase
  simp only [PhaseInvariant, hphase] at hfiles
  have hagree := hfiles (Or.inl ⟨value, hresult⟩)
  rw [if_pos (isSome_of_agreeOn_run hagree stdin_mem_files)]
  exact hinv.remove (by simp [hresult]) (by simp [hphase]) (fun _ => rfl) hagree

theorem executorStep_soloInvariant {a : ExecutorAction}
    (ha : faultless → ∀ error left, a ≠ .fail error left)
    (hinv : SoloInvariant profile solver self faultless base fs state)
    (h : executorStep profile solver self a (fs, state) = some (fs', state')) :
    SoloInvariant profile solver self faultless base fs' state' := by
  cases a with
  | proceed => exact (proceeds_of_proceedStep h).soloInvariant hinv
  | fail error left =>
      exact failStep_soloInvariant (fun hfaultless => ha hfaultless error left rfl) hinv h
  | deleteFiles => exact deleteStep_soloInvariant hinv h

theorem soloInvariant_of_run {labels : List ExecutorAction}
    (hlabels : faultless → ∀ error left, .fail error left ∉ labels)
    (hrun : exec (executorStep profile solver self) labels (fs, .start) = some (fs', state')) :
    SoloInvariant profile solver self faultless base fs' state' := by
  have hpermitted : ∀ a ∈ labels, faultless → ∀ error left, a ≠ .fail error left := by
    rintro a hmem hfaultless error left rfl
    exact hlabels hfaultless error left hmem
  have hinv : (fun s : FileSystem × ExecutorState =>
      SoloInvariant profile solver self faultless base s.1 s.2) (fs', state') :=
    exec_invariant _ (fun _ _ _ ha hs hstep => executorStep_soloInvariant ha hs hstep) hpermitted
      hrun soloInvariant_start
  exact hinv

theorem SoloInvariant.deletion_spec {deletion : Outcome ExecutorError Unit}
    (h : SoloInvariant profile solver self faultless base fs state)
    (hdeletion : state.deletion = some deletion) :
    (deletion = .ok () → ∀ path ∈ self.files, fs path = none) ∧
      (faultless → deletion = .ok ()) := by
  have hdeleted : state.phase = .deleted := by
    by_contra hphase
    cases hdeletion.symm.trans (h.undeleted hphase)
  have hfiles := h.phase
  simp only [PhaseInvariant, hdeleted] at hfiles
  obtain ⟨_, hsome, hgone, hok⟩ := hfiles
  cases hdeletion.symm.trans hsome
  exact ⟨hgone, hok⟩

/-! ## The run returns -/

theorem Proceeds.remaining_lt
    (hinv : SoloInvariant profile solver self faultless base fs state)
    (h : Proceeds profile solver self fs state fs' state') :
    remaining (solver self.stdin).output.length state'.phase <
        remaining (solver self.stdin).output.length state.phase ∨
      remaining (solver self.stdin).output.length state'.phase = 0 := by
  cases h with
  | writeStdin hphase => simp [ExecutorState.goto, remaining, hphase]
  | openStdin opened hphase hfile => simp [ExecutorState.goto, remaining, hphase]
  | openStdinMissing hphase hfile => exact Or.inr rfl
  | createStdout opened hphase => simp [ExecutorState.goto, remaining, hphase]
  | createStderr opened hphase => simp [ExecutorState.goto, remaining, hphase]
  | spawn opened stdin hphase hstdin =>
      have hfiles := hinv.phase
      simp only [PhaseInvariant, hphase] at hfiles
      rw [hfiles _ stdin_mem_files, created_stdin, Option.getD_some] at hstdin
      simp [ExecutorState.goto, remaining, hphase, hstdin]
  | solve piece output code hphase => simp [ExecutorState.goto, remaining, hphase]
  | wait code hphase => simp [ExecutorState.goto, remaining, hphase]
  | verify code hphase => exact Or.inr rfl
  | remove suffix next hphase hfile => exact Or.inr (hphase.remaining_next _)
  | removeMissing suffix next hphase hfile => exact Or.inr rfl

theorem executorStep_remaining {a : ExecutorAction}
    (hinv : SoloInvariant profile solver self faultless base fs state)
    (h : executorStep profile solver self a (fs, state) = some (fs', state')) :
    remaining (solver self.stdin).output.length state'.phase <
        remaining (solver self.stdin).output.length state.phase ∨
      remaining (solver self.stdin).output.length state'.phase = 0 := by
  cases a with
  | proceed => exact (proceeds_of_proceedStep h).remaining_lt hinv
  | fail error left =>
      obtain ⟨_, ⟨_, context, rfl⟩ | ⟨_, rfl⟩⟩ := failStep_cases h
      · exact Or.inr rfl
      · exact Or.inr rfl
  | deleteFiles =>
      obtain ⟨_, _, rfl, rfl⟩ := deleteStep_cases h
      apply Or.inr
      simp only [ExecutorState.goto]
      split
      · rfl
      · rfl

/-- After so many steps of its own an executor has returned. -/
theorem result_isSome_of_run {labels : List ExecutorAction}
    (hrun : exec (executorStep profile solver self) labels (fs, .start) = some (fs', state'))
    (hlength : (solver self.stdin).output.length + 7 ≤ labels.length) :
    state'.result.isSome := by
  have hinv : SoloInvariant profile solver self False fs fs' state' :=
    soloInvariant_of_run (fun hfalse => hfalse.elim) hrun
  have hrank := @exec_rank _ _ (executorStep profile solver self) (fun _ => True)
    (fun s => SoloInvariant profile solver self False fs s.1 s.2)
    (fun s => remaining (solver self.stdin).output.length s.2.phase)
    (fun _ _ _ _ hs hstep => executorStep_soloInvariant (fun hfalse => hfalse.elim) hs hstep)
    (fun _ _ _ hs hstep => executorStep_remaining hs hstep) labels _ _ (fun _ _ => trivial) hrun
    soloInvariant_start
  have hzero : remaining (solver self.stdin).output.length state'.phase = 0 := by
    have hstart : remaining (solver self.stdin).output.length ExecutorState.start.phase =
        (solver self.stdin).output.length + 7 := rfl
    simp only [hstart] at hrank
    omega
  rw [Option.isSome_iff_ne_none]
  intro hnone
  exact (lt_irrefl 0) (hzero ▸ (hinv.unreturned _).mp hnone)

theorem deleting_of_run {labels : List ExecutorAction} (hs : Deleting state)
    (hrun : exec (executorStep profile solver self) labels (fs, state) = some (fs', state')) :
    Deleting state' := by
  have hstep : ∀ (a : ExecutorAction) (s t : FileSystem × ExecutorState), True → Deleting s.2 →
      executorStep profile solver self a s = some t → Deleting t.2 :=
    fun _ _ _ _ hs h => (executorStep_deleting hs h).1
  exact exec_invariant _ hstep (fun _ _ => trivial) hrun hs

/-- After three steps of its own a deletion has returned. -/
theorem deletion_isSome_of_run {labels : List ExecutorAction} (hs : Deleting state)
    (hrun : exec (executorStep profile solver self) labels (fs, state) = some (fs', state'))
    (hlength : 3 ≤ labels.length) : state'.deletion.isSome := by
  have hrank := @exec_rank _ _ (executorStep profile solver self) (fun _ => True)
    (fun s => Deleting s.2) (fun s => removalsLeft s.2.phase)
    (fun _ _ _ _ hs h => (executorStep_deleting hs h).1)
    (fun _ _ _ hs h => Or.inl (executorStep_deleting hs h).2) labels _ _ (fun _ _ => trivial) hrun
    hs
  have hle := removalsLeft_le state.phase
  have hzero : removalsLeft state'.phase = 0 := by
    dsimp only at hrank
    omega
  obtain hpositive | ⟨_, hdone⟩ := deleting_of_run hs hrun
  · omega
  · exact hdone

/-- An executor that has not returned can make its next system call. -/
theorem proceedStep_isSome (hpositive : 0 < remaining 0 state.phase) :
    (self.proceedStep profile solver fs state).isSome := by
  unfold proceedStep
  split
  case h_2 =>
    split
    · rfl
    · rfl
    · rfl
  all_goals
    rename_i hphase
    first
    | rfl
    | simp [hphase, remaining] at hpositive

end SolverExecutor

end StrideRunner
