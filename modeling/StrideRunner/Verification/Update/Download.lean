import StrideRunner.Model.Utils.ServerConnection

/-! # What a download leaves behind

The file is untouched until it is created, and complete after its last chunk. In between a failure
leaves a prefix of the dump. -/

namespace StrideRunner

/-- A failure in this phase leaves neither the old nor the new file; `kept` says whether the old
one is still there when the download begins. -/
def DownloadPhase.Exposed (kept : Prop) : DownloadPhase → Prop
  | .request => ¬ kept
  | .create _ => ¬ kept
  | .receive (_ :: _) => True
  | .receive [] => False
  | .finished => False
  | .failed _ => False

/-- The file in each phase of the download of `dump` over `before`; `guarded` says that no failure
hits an exposed phase. -/
def DownloadInvariant (guarded kept : Prop) (dump : Bytes) (before : Option DbFile)
    (phase : DownloadPhase) (file : Option DbFile) : Prop :=
  match phase with
  | .request => file = before
  | .create chunks => file = before ∧ chunks.flatten = dump
  | .receive chunks => ∃ content, file = some (.bytes content) ∧ content ++ chunks.flatten = dump
  | .finished => file = some (.bytes dump)
  | .failed _ => guarded → kept ∧ file = before ∨ file = some (.bytes dump)

variable {guarded kept : Prop} {dump : Bytes} {before file file' : Option DbFile}
  {phase phase' : DownloadPhase} {action : DownloadAction}

/-- Outside of the exposed phases the file is the old one or the whole dump. -/
theorem DownloadInvariant.intact (h : DownloadInvariant guarded kept dump before phase file)
    (hguarded : guarded) (hexposed : ¬ phase.Exposed kept) :
    kept ∧ file = before ∨ file = some (.bytes dump) := by
  cases phase with
  | request => exact Or.inl ⟨not_not.mp hexposed, h⟩
  | create chunks => exact Or.inl ⟨not_not.mp hexposed, h.1⟩
  | receive chunks =>
      cases chunks with
      | nil =>
          obtain ⟨content, hfile, hdump⟩ := h
          rw [List.flatten_nil, List.append_nil] at hdump
          rw [hfile, hdump]
          exact Or.inr rfl
      | cons chunk chunks => exact (hexposed trivial).elim
  | finished => exact Or.inr h
  | failed error => exact h hguarded

/-- A phase is left unexposed unless the file is created for chunks that are still to come. -/
theorem downloadStep_not_exposed (hkept : kept)
    (hcreate : ∀ chunks, action = .create → phase = .create chunks →
      ¬ (DownloadPhase.receive chunks).Exposed kept)
    (hexposed : ¬ phase.Exposed kept)
    (hstep : downloadStep dump action phase file = some (phase', file')) :
    ¬ phase'.Exposed kept := by
  unfold downloadStep at hstep
  split at hstep
  · split at hstep
    · cases hstep
      exact not_not_intro hkept
    · cases hstep
  · cases hstep
    exact hcreate _ rfl rfl
  · exact (hexposed trivial).elim
  · cases hstep
    exact id
  · cases hstep
    exact id
  · cases hstep
    exact id
  · cases hstep
    exact id
  · exact (hexposed trivial).elim
  · cases hstep

theorem downloadStep_invariant
    (hguard : guarded → ∀ error written, action = .fail error written → ¬ phase.Exposed kept)
    (hinv : DownloadInvariant guarded kept dump before phase file)
    (hstep : downloadStep dump action phase file = some (phase', file')) :
    DownloadInvariant guarded kept dump before phase' file' := by
  unfold downloadStep at hstep
  split at hstep
  · split at hstep
    · rename_i hdump
      cases hstep
      exact ⟨hinv, hdump⟩
    · cases hstep
  · cases hstep
    exact ⟨[], rfl, hinv.2⟩
  · cases hstep
    obtain ⟨content, hfile, hdump⟩ := hinv
    cases hfile
    refine ⟨_, rfl, ?_⟩
    rw [List.append_assoc, ← List.flatten_cons]
    exact hdump
  · cases hstep
    obtain ⟨content, hfile, hdump⟩ := hinv
    rw [List.flatten_nil, List.append_nil] at hdump
    rw [hdump] at hfile
    exact hfile
  · cases hstep
    exact fun hguarded => hinv.intact hguarded (hguard hguarded _ _ rfl)
  · cases hstep
    exact fun hguarded => hinv.intact hguarded (hguard hguarded _ _ rfl)
  · cases hstep
    exact fun hguarded => hinv.intact hguarded (hguard hguarded _ _ rfl)
  · split at hstep
    · cases hstep
      exact fun hguarded => (hguard hguarded _ _ rfl trivial).elim
    · cases hstep
  · cases hstep

end StrideRunner
