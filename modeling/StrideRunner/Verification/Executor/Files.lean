import StrideRunner.Library.Interleaving
import StrideRunner.Library.Traversal
import StrideRunner.Model.Commands.Run.Command
import StrideRunner.Verification.Decimal
import StrideRunner.Verification.Executor.Steps

/-! # The files of an executor

Different instance ids have different file names, and every system call of an executor stays
within the names of its own id. -/

namespace StrideRunner

open Library

/-! ## File names -/

theorem toList_toString (n : ℕ) : (toString n).toList = Pace.InstanceWriter.decimal n := by
  rw [Nat.toString_eq_repr, Nat.toList_repr, Pace.InstanceWriter.decimal]

theorem dot_notMem_toString (n : ℕ) : '.' ∉ (toString n).toList := by
  rw [toList_toString]
  exact (isDecimal_decimal n).notMem rfl

theorem toString_inj {m n : ℕ} (h : (toString m).toList = (toString n).toList) : m = n := by
  rw [toList_toString, toList_toString] at h
  exact decimal_injective h

namespace SolverExecutor

variable {self other : SolverExecutor}

/-- The last component of a file name, character by character. -/
theorem filename_inj_toList {dir : PathBuf} {name name' : String}
    (h : dir ++ [name] = dir ++ [name']) : name.toList = name'.toList := by
  have hname : name = name' := by simpa using h
  rw [hname]

theorem filename_inj {suffix suffix' : String} (hdir : self.workingDir = other.workingDir)
    (h : self.filename suffix = other.filename suffix') :
    self.instanceId = other.instanceId ∧ suffix = suffix' := by
  unfold filename at h
  rw [hdir] at h
  have hchars := filename_inj_toList h
  simp only [String.toList_append, List.append_assoc] at hchars
  have hparts := append_cons_inj_of_notMem_left (dot_notMem_toString _) (dot_notMem_toString _)
    (List.append_cancel_left hchars)
  refine ⟨?_, String.toList_inj.mp hparts.2⟩
  have hid : self.instanceId.id.toNat = other.instanceId.id.toNat := toString_inj hparts.1
  have hiid : ∀ iid iid' : IId, iid.id.toNat = iid'.id.toNat → iid = iid' := by
    rintro ⟨x⟩ ⟨y⟩ hxy
    exact congrArg IId.mk (UInt32.toNat_inj.mp hxy)
  exact hiid _ _ hid

theorem filename_ne_summaryFile (suffix : String) :
    self.filename suffix ≠ summaryFile self.workingDir := by
  intro h
  have hchars := filename_inj_toList h
  simp only [String.toList_append, List.append_assoc] at hchars
  have hhead : some 'i' = some 's' := congrArg List.head? hchars
  cases hhead

/-! ## Footprint of a step -/

/-- The three files of an executor. -/
def files (self : SolverExecutor) : Set PathBuf :=
  {self.filename PATH_STDIN, self.filename PATH_STDOUT, self.filename PATH_STDERR}

theorem stdin_mem_files : self.filename PATH_STDIN ∈ self.files := Or.inl rfl

theorem stdout_mem_files : self.filename PATH_STDOUT ∈ self.files := Or.inr (Or.inl rfl)

theorem stderr_mem_files : self.filename PATH_STDERR ∈ self.files := Or.inr (Or.inr rfl)

theorem stream_mem_files (stream : Stream) : self.filename stream.path ∈ self.files := by
  cases stream with
  | stdout => exact stdout_mem_files
  | stderr => exact stderr_mem_files

theorem exists_suffix_of_mem_files {path : PathBuf} (h : path ∈ self.files) :
    ∃ suffix, path = self.filename suffix := by
  rcases h with h | h | h
  · exact ⟨_, h⟩
  · exact ⟨_, h⟩
  · exact ⟨_, h⟩

theorem disjoint_files (hdir : self.workingDir = other.workingDir)
    (hid : self.instanceId ≠ other.instanceId) : ∀ path ∈ self.files, path ∉ other.files := by
  intro path hself hother
  obtain ⟨suffix, rfl⟩ := exists_suffix_of_mem_files hself
  obtain ⟨suffix', hsuffix'⟩ := exists_suffix_of_mem_files hother
  exact hid (filename_inj hdir hsuffix').1

theorem summaryFile_notMem_files : summaryFile self.workingDir ∉ self.files := by
  intro h
  obtain ⟨suffix, hsuffix⟩ := exists_suffix_of_mem_files h
  exact filename_ne_summaryFile suffix hsuffix.symm

variable {profile : BuildProfile} {solver : Bytes → SolverRun} {fs fs' : FileSystem}
  {state state' : ExecutorState}

/-- A system call changes one of the own files, or none. -/
def WritesOwn (self : SolverExecutor) (fs fs' : FileSystem) : Prop :=
  fs' = fs ∨ ∃ path ∈ self.files, ∃ content, fs' = Function.update fs path content

theorem Removes.mem_files {phase : ExecutorPhase} {suffix : String}
    {next : ExecutorState → ExecutorState} (h : Removes phase suffix next) :
    self.filename suffix ∈ self.files := by
  cases h with
  | stdin => exact stdin_mem_files
  | stdout => exact stdout_mem_files
  | stderr => exact stderr_mem_files

theorem Proceeds.writesOwn (h : Proceeds profile solver self fs state fs' state') :
    self.WritesOwn fs fs' := by
  cases h with
  | writeStdin hphase => exact Or.inr ⟨_, stdin_mem_files, _, rfl⟩
  | openStdin opened hphase hfile => exact Or.inl rfl
  | openStdinMissing hphase hfile => exact Or.inl rfl
  | createStdout opened hphase => exact Or.inr ⟨_, stdout_mem_files, _, rfl⟩
  | createStderr opened hphase => exact Or.inr ⟨_, stderr_mem_files, _, rfl⟩
  | spawn opened stdin hphase hstdin => exact Or.inl rfl
  | solve piece output code hphase => exact Or.inr ⟨_, stream_mem_files piece.1, _, rfl⟩
  | wait code hphase => exact Or.inl rfl
  | verify code hphase => exact Or.inl rfl
  | remove suffix next hphase hfile => exact Or.inr ⟨_, hphase.mem_files, none, rfl⟩
  | removeMissing suffix next hphase hfile => exact Or.inl rfl

theorem executorStep_writesOwn {a : ExecutorAction}
    (h : executorStep profile solver self a (fs, state) = some (fs', state')) :
    self.WritesOwn fs fs' := by
  cases a with
  | proceed => exact (proceeds_of_proceedStep h).writesOwn
  | fail error left =>
      obtain ⟨rfl | ⟨content, rfl⟩, _⟩ := failStep_cases h
      · exact Or.inl rfl
      · exact Or.inr ⟨_, stdin_mem_files, _, rfl⟩
  | deleteFiles =>
      obtain ⟨_, _, rfl, _⟩ := deleteStep_cases h
      exact Or.inl rfl

theorem executorStep_frame {a : ExecutorAction}
    (h : executorStep profile solver self a (fs, state) = some (fs', state')) :
    ∀ path ∉ self.files, fs' path = fs path := by
  intro path hpath
  obtain rfl | ⟨own, hown, content, rfl⟩ := executorStep_writesOwn h
  · rfl
  · have hne : path ≠ own := by
      rintro rfl
      exact hpath hown
    exact Function.update_of_ne hne ..

/-! ## Dependence on the own files only -/

variable {τ : FileSystem}

theorem judge_congr {code : ChildExitCode} (h : AgreeOn self.files fs τ) :
    self.judge profile code τ = self.judge profile code fs := by
  have hread : ∀ path ∈ self.files, FileSystem.read τ path = FileSystem.read fs path := by
    intro path hpath
    unfold FileSystem.read
    rw [h path hpath]
  have hverify : self.verifySolution profile τ = self.verifySolution profile fs := by
    unfold verifySolution
    rw [hread _ stdin_mem_files, hread _ stdout_mem_files]
  unfold judge
  rw [hverify]

/-- The same rule applies when the own files are the same. -/
theorem Proceeds.congr (hagree : AgreeOn self.files fs τ)
    (h : Proceeds profile solver self fs state fs' state') :
    ∃ τ', Proceeds profile solver self τ state τ' state' ∧ AgreeOn self.files fs' τ' := by
  have hstdin := hagree _ stdin_mem_files
  cases h with
  | writeStdin hphase => exact ⟨_, .writeStdin hphase, hagree.update _ _⟩
  | openStdin opened hphase hfile =>
      exact ⟨_, .openStdin opened hphase (hstdin ▸ hfile), hagree⟩
  | openStdinMissing hphase hfile =>
      exact ⟨_, .openStdinMissing hphase (hstdin ▸ hfile), hagree⟩
  | createStdout opened hphase => exact ⟨_, .createStdout opened hphase, hagree.update _ _⟩
  | createStderr opened hphase => exact ⟨_, .createStderr opened hphase, hagree.update _ _⟩
  | spawn opened stdin hphase hopened =>
      exact ⟨_, .spawn opened stdin hphase (hstdin ▸ hopened), hagree⟩
  | solve piece output code hphase =>
      refine ⟨_, .solve piece output code hphase, ?_⟩
      unfold FileSystem.append
      rw [← hagree _ (stream_mem_files piece.1)]
      exact hagree.update _ _
  | wait code hphase => exact ⟨_, .wait code hphase, hagree⟩
  | verify code hphase =>
      rw [← judge_congr hagree]
      exact ⟨_, .verify code hphase, hagree⟩
  | remove suffix next hphase hfile =>
      rw [hagree _ hphase.mem_files] at hfile
      exact ⟨_, .remove suffix next hphase hfile, hagree.update _ _⟩
  | removeMissing suffix next hphase hfile =>
      rw [hagree _ hphase.mem_files] at hfile
      exact ⟨_, .removeMissing suffix next hphase hfile, hagree⟩

theorem failStep_congr {error : IoError} {left : Option Bytes}
    (hagree : AgreeOn self.files fs τ)
    (h : self.failStep error left fs state = some (fs', state')) :
    ∃ τ', self.failStep error left τ state = some (τ', state') ∧
      AgreeOn self.files fs' τ' := by
  unfold failStep at h ⊢
  split at h
  · cases left with
    | none =>
        cases h
        exact ⟨_, rfl, hagree⟩
    | some content =>
        cases h
        exact ⟨_, rfl, hagree.update _ _⟩
  all_goals
    cases h
    try exact ⟨_, rfl, hagree⟩

theorem deleteStep_congr (hagree : AgreeOn self.files fs τ)
    (h : self.deleteStep fs state = some (fs', state')) :
    ∃ τ', self.deleteStep τ state = some (τ', state') ∧ AgreeOn self.files fs' τ' := by
  obtain ⟨_, _, rfl, _⟩ := deleteStep_cases h
  refine ⟨τ, ?_, hagree⟩
  unfold deleteStep at h ⊢
  rw [← hagree _ stdin_mem_files]
  split at h
  · split at h
    · rename_i hexists
      cases h
      rw [if_pos hexists]
    · rename_i hmissing
      cases h
      rw [if_neg hmissing]
  · cases h

theorem executorStep_confined :
    Confined self.files (executorStep profile solver self) := by
  refine ⟨executorStep_frame, ?_⟩
  intro a fs state fs' state' h τ hagree
  cases a with
  | proceed =>
      obtain ⟨τ', hproceeds, hagree'⟩ := (proceeds_of_proceedStep h).congr hagree
      exact ⟨τ', hproceeds.proceedStep_eq, hagree'⟩
  | fail error left => exact failStep_congr hagree h
  | deleteFiles => exact deleteStep_congr hagree h

end SolverExecutor

end StrideRunner
