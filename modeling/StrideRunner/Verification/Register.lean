import StrideRunner.Model.Commands.Register
import StrideRunner.Verification.Settings
import Mathlib.Data.List.Infix

/-! # The solver UUID survives

A UUID leaves `config.json` only after the line that records it has reached the backup log, and a
`config.json` that is not written to its end holds no UUID at all. -/

namespace StrideRunner

open Library

/-- What `serde_json::from_reader` does with the texts of `to_writer_pretty`. -/
structure ReadsSettings (fromReader : Bytes → Option Settings) : Prop where
  readsBack : ∀ settings : Settings, fromReader settings.toWriterPretty = some settings
  rejectsIncomplete : ∀ (settings : Settings) (text : Bytes), text <+: settings.toWriterPretty →
    text ≠ settings.toWriterPretty → fromReader text = none

/-- The first bytes of the text are in the file, and `rest` is still to be written. -/
def WrittenUpTo (file : Option Bytes) (rest text : Bytes) : Prop :=
  ∃ done, file = some done ∧ done ++ rest = text

theorem WrittenUpTo.create (text : Bytes) : WrittenUpTo (some []) text text := ⟨[], rfl, rfl⟩

theorem WrittenUpTo.write {file : Option Bytes} {rest text : Bytes} (chunk : ℕ)
    (h : WrittenUpTo file rest text) :
    WrittenUpTo (file.map (· ++ rest.take chunk)) (rest.drop chunk) text := by
  obtain ⟨done, rfl, htext⟩ := h
  refine ⟨done ++ rest.take chunk, rfl, ?_⟩
  rw [List.append_assoc, List.take_append_drop, htext]

theorem WrittenUpTo.eq_of_nil {file : Option Bytes} {text : Bytes}
    (h : WrittenUpTo file [] text) : file = some text := by
  obtain ⟨done, rfl, htext⟩ := h
  rw [← htext, List.append_nil]

namespace RunnerState

/-- `load_from_path` gives settings with this UUID. -/
def Stored (fromReader : Bytes → Option Settings) (s : RunnerState) (uuid : Uuid) : Prop :=
  ∃ settings, s.config.bind fromReader = some settings ∧ settings.solverUuid = some uuid

/-- The backup log contains a complete line for the UUID. -/
def Recorded (s : RunnerState) (uuid : Uuid) : Prop :=
  ∃ log now, s.backup = some log ∧ backupLine now uuid <:+: log

/-- The UUID in `config.json`, if there is one, may be overwritten. -/
def Replaceable (fromReader : Bytes → Option Settings) (s : RunnerState) : Prop :=
  ∀ uuid, s.Stored fromReader uuid → s.Recorded uuid

def PhaseInvariant (fromReader : Bytes → Option Settings) (s : RunnerState) : Prop :=
  match s.phase with
  | .idle | .checkConfig _ | .load _ => True
  | .createTemplate _ => s.config = none
  | .writeTemplate _ rest =>
      ∃ numCpus, WrittenUpTo s.config rest (Settings.default numCpus).toWriterPretty
  | .register _ settings => s.config.bind fromReader = some settings
  | .openBackup settings uuid =>
      s.config.bind fromReader = some settings ∧ settings.solverUuid = some uuid
  | .appendBackup settings rest => s.config.bind fromReader = some settings ∧
      ∃ uuid log now, settings.solverUuid = some uuid ∧
        WrittenUpTo s.backup rest (log ++ backupLine now uuid)
  | .createConfig settings => settings.solverUuid.isSome ∧ s.Replaceable fromReader
  | .writeConfig rest =>
      ∃ settings : Settings, settings.solverUuid.isSome ∧
        WrittenUpTo s.config rest settings.toWriterPretty

variable {fromReader : Bytes → Option Settings} {s t : RunnerState} {uuid : Uuid}

theorem replaceable_of_unreadable (h : s.config.bind fromReader = none) :
    s.Replaceable fromReader := by
  rintro uuid ⟨settings, hsettings, _⟩
  rw [h] at hsettings
  cases hsettings

theorem replaceable_of_incomplete (hreader : ReadsSettings fromReader) {rest : Bytes}
    {settings : Settings} (h : WrittenUpTo s.config rest settings.toWriterPretty)
    (hrest : rest ≠ []) : s.Replaceable fromReader := by
  obtain ⟨done, hdone, htext⟩ := h
  apply replaceable_of_unreadable
  rw [hdone]
  apply hreader.rejectsIncomplete settings done ⟨rest, htext⟩
  intro heq
  rw [heq] at htext
  exact hrest (List.append_right_eq_self.mp htext)

theorem replaceable_of_noUuid {settings : Settings} (h : s.config.bind fromReader = some settings)
    (hnone : settings.solverUuid = none) : s.Replaceable fromReader := by
  rintro uuid ⟨settings', hsettings', huuid⟩
  rw [h] at hsettings'
  cases hsettings'
  rw [hnone] at huuid
  cases huuid

theorem replaceable_of_recorded {settings : Settings} (h : s.config.bind fromReader = some settings)
    (hsome : settings.solverUuid = some uuid) (hrecorded : s.Recorded uuid) :
    s.Replaceable fromReader := by
  rintro uuid' ⟨settings', hsettings', huuid'⟩
  rw [h] at hsettings'
  cases hsettings'
  rw [hsome] at huuid'
  cases huuid'
  exact hrecorded

/-! ## One step -/

/-- The backup log only grows. -/
def Extends (backup backup' : Option Bytes) : Prop :=
  ∀ log, backup = some log → ∃ text, backup' = some (log ++ text)

theorem Extends.refl (backup : Option Bytes) : Extends backup backup := by
  intro log h
  exact ⟨[], by rw [h, List.append_nil]⟩

theorem Recorded.of_extends (hgrows : Extends s.backup t.backup) (h : s.Recorded uuid) :
    t.Recorded uuid := by
  obtain ⟨log, now, hlog, hline⟩ := h
  obtain ⟨text, htext⟩ := hgrows log hlog
  exact ⟨_, now, htext, hline.trans (List.infix_append' [] log text)⟩

/-- What a step does to the files: `config.json` changes only where nothing is lost by it. -/
structure Careful (fromReader : Bytes → Option Settings) (s t : RunnerState) : Prop where
  invariant : t.PhaseInvariant fromReader
  config : t.config = s.config ∨ s.Replaceable fromReader
  backup : Extends s.backup t.backup

theorem careful_goto {phase : RunnerPhase} (h : (s.goto phase).PhaseInvariant fromReader) :
    Careful fromReader s (s.goto phase) := ⟨h, Or.inl rfl, Extends.refl _⟩

theorem careful_registerStep {settings : Settings} (chance : Chance) (deleteOldUuid : Bool)
    (h : s.config.bind fromReader = some settings) :
    Careful fromReader s (s.registerStep chance deleteOldUuid settings) := by
  unfold registerStep
  split
  · rename_i uuid huuid
    split
    · exact careful_goto ⟨h, huuid⟩
    · exact careful_goto trivial
  · rename_i hnone
    exact careful_goto ⟨rfl, replaceable_of_noUuid h hnone⟩

theorem careful_loadStep (command : RunnerCommand) :
    Careful fromReader s (s.loadStep fromReader command) := by
  unfold loadStep
  split
  · rename_i hsettings
    exact careful_goto hsettings
  · exact careful_goto trivial
  · exact careful_goto trivial

theorem careful_proceedStep (hreader : ReadsSettings fromReader) {chance : Chance}
    (hs : s.PhaseInvariant fromReader) (hstep : s.proceedStep fromReader chance = some t) :
    Careful fromReader s t := by
  obtain ⟨config, backup, phase⟩ := s
  cases phase with
  | idle => cases hstep
  | checkConfig command =>
      simp only [proceedStep] at hstep
      split at hstep
      · cases hstep
        exact careful_goto trivial
      · rename_i hnone
        cases hstep
        exact careful_goto (Option.not_isSome_iff_eq_none.mp hnone)
  | createTemplate command =>
      cases hstep
      have hconfig : config = none := hs
      subst hconfig
      exact ⟨⟨chance.numCpus, .create _⟩, Or.inr (replaceable_of_unreadable rfl), Extends.refl _⟩
  | writeTemplate command rest =>
      obtain ⟨numCpus, hwritten⟩ := hs
      cases rest with
      | nil =>
          cases hstep
          exact careful_goto trivial
      | cons byte rest =>
          cases hstep
          have hreplaceable := replaceable_of_incomplete hreader hwritten (List.cons_ne_nil _ _)
          exact ⟨⟨numCpus, hwritten.write _⟩, Or.inr hreplaceable, Extends.refl _⟩
  | load command =>
      cases hstep
      exact careful_loadStep command
  | register deleteOldUuid settings =>
      cases hstep
      exact careful_registerStep chance deleteOldUuid hs
  | openBackup settings uuid =>
      cases hstep
      obtain ⟨hsettings, huuid⟩ := hs
      refine ⟨⟨hsettings, uuid, backup.getD [], chance.now, huuid, ?_⟩, Or.inl rfl, ?_⟩
      · exact ⟨_, rfl, rfl⟩
      · intro log hlog
        cases hlog
        exact ⟨[], by simp⟩
  | appendBackup settings rest =>
      obtain ⟨hsettings, uuid, log, now, huuid, hwritten⟩ := hs
      cases rest with
      | nil =>
          cases hstep
          have hrecorded : Recorded ⟨config, backup, .appendBackup settings []⟩ uuid :=
            ⟨_, now, hwritten.eq_of_nil, (List.suffix_append _ _).isInfix⟩
          exact careful_goto ⟨rfl, replaceable_of_recorded hsettings huuid hrecorded⟩
      | cons byte rest =>
          cases hstep
          refine ⟨⟨hsettings, uuid, log, now, huuid, hwritten.write _⟩, Or.inl rfl, ?_⟩
          intro log hlog
          cases hlog
          exact ⟨_, rfl⟩
  | createConfig settings =>
      cases hstep
      exact ⟨⟨settings, hs.1, .create _⟩, Or.inr hs.2, Extends.refl _⟩
  | writeConfig rest =>
      obtain ⟨settings, hsome, hwritten⟩ := hs
      cases rest with
      | nil =>
          cases hstep
          exact careful_goto trivial
      | cons byte rest =>
          cases hstep
          have hreplaceable := replaceable_of_incomplete hreader hwritten (List.cons_ne_nil _ _)
          exact ⟨⟨settings, hsome, hwritten.write _⟩, Or.inr hreplaceable, Extends.refl _⟩

end RunnerState

open RunnerState

variable {fromReader : Bytes → Option Settings} {s t : RunnerState} {uuid : Uuid}

theorem careful_runnerStep (hreader : ReadsSettings fromReader) {a : RunnerAction}
    (hs : s.PhaseInvariant fromReader) (hstep : runnerStep fromReader a s = some t) :
    Careful fromReader s t := by
  cases a with
  | start command =>
      simp only [runnerStep, Option.ite_none_right_eq_some] at hstep
      obtain ⟨_, hstep⟩ := hstep
      cases hstep
      exact careful_goto trivial
  | proceed chance => exact careful_proceedStep hreader hs hstep
  | stop =>
      simp only [runnerStep, Option.ite_none_left_eq_some] at hstep
      obtain ⟨_, hstep⟩ := hstep
      cases hstep
      exact careful_goto trivial

theorem RunnerState.Careful.stored_or_recorded (h : Careful fromReader s t)
    (hs : s.Stored fromReader uuid ∨ s.Recorded uuid) :
    t.Stored fromReader uuid ∨ t.Recorded uuid := by
  rcases hs with hstored | hrecorded
  · rcases h.config with hsame | hreplaceable
    · left
      rw [Stored, hsame]
      exact hstored
    · exact Or.inr ((hreplaceable uuid hstored).of_extends h.backup)
  · exact Or.inr (hrecorded.of_extends h.backup)

/-! ## Runs -/

theorem exec_phaseInvariant (hreader : ReadsSettings fromReader) {as : List RunnerAction}
    (hrun : exec (runnerStep fromReader) as s = some t) (hs : s.PhaseInvariant fromReader) :
    t.PhaseInvariant fromReader :=
  exec_invariant (fun _ => True)
    (fun _ _ _ _ h hstep => (careful_runnerStep hreader h hstep).invariant)
    (fun _ _ => trivial) hrun hs

theorem exec_stored_or_recorded (hreader : ReadsSettings fromReader) {as : List RunnerAction}
    (hrun : exec (runnerStep fromReader) as s = some t) (hs : s.PhaseInvariant fromReader)
    (hstored : s.Stored fromReader uuid) : t.Stored fromReader uuid ∨ t.Recorded uuid := by
  let Kept (t : RunnerState) := t.PhaseInvariant fromReader ∧
    (t.Stored fromReader uuid ∨ t.Recorded uuid)
  have hstep : ∀ a t u, True → Kept t → runnerStep fromReader a t = some u → Kept u := by
    rintro a t u - ⟨hinvariant, hkept⟩ hstep
    have hcareful := careful_runnerStep hreader hinvariant hstep
    exact ⟨hcareful.invariant, hcareful.stored_or_recorded hkept⟩
  exact (exec_invariant (fun _ => True) hstep (fun _ _ => trivial) hrun ⟨hs, Or.inl hstored⟩).2

/-! ## A register command that is refused -/

/-- The phases of `register` without `--delete-old-uuid`, where `config.json` holds a UUID. -/
inductive RefusingPhase (settings : Settings) : RunnerPhase → Prop where
  | idle : RefusingPhase settings .idle
  | checkConfig : RefusingPhase settings (.checkConfig (.register false))
  | load : RefusingPhase settings (.load (.register false))
  | register : RefusingPhase settings (.register false settings)

/-- The files are those of the first state. -/
structure Refusing (settings : Settings) (s t : RunnerState) : Prop where
  config : t.config = s.config
  backup : t.backup = s.backup
  phase : RefusingPhase settings t.phase

theorem Refusing.goto {settings : Settings} {phase : RunnerPhase} (h : Refusing settings s t)
    (hphase : RefusingPhase settings phase) : Refusing settings s (t.goto phase) :=
  ⟨h.config, h.backup, hphase⟩

theorem refusing_proceedStep {settings : Settings} {chance : Chance} {u : RunnerState}
    (hsettings : s.config.bind fromReader = some settings)
    (huuid : settings.solverUuid = some uuid) (ht : Refusing settings s t)
    (hstep : t.proceedStep fromReader chance = some u) : Refusing settings s u := by
  have hphase := ht.phase
  unfold proceedStep at hstep
  generalize t.phase = phase at hphase hstep
  cases hphase with
  | idle => cases hstep
  | checkConfig =>
      have hsome : t.config.isSome := by
        obtain ⟨bytes, hbytes, _⟩ := Option.bind_eq_some_iff.mp hsettings
        rw [ht.config, hbytes]
        rfl
      simp only [hsome, if_true] at hstep
      cases hstep
      exact ht.goto .load
  | load =>
      simp only [loadStep, ht.config, hsettings] at hstep
      cases hstep
      exact ht.goto .register
  | register =>
      simp only [registerStep, huuid] at hstep
      cases hstep
      exact ht.goto .idle

theorem refusing_runnerStep {settings : Settings} {a : RunnerAction} {u : RunnerState}
    (hsettings : s.config.bind fromReader = some settings)
    (huuid : settings.solverUuid = some uuid) (ha : ∀ command, a ≠ .start command)
    (ht : Refusing settings s t) (hstep : runnerStep fromReader a t = some u) :
    Refusing settings s u := by
  cases a with
  | start command => exact (ha command rfl).elim
  | proceed chance => exact refusing_proceedStep hsettings huuid ht hstep
  | stop =>
      simp only [runnerStep, Option.ite_none_left_eq_some] at hstep
      obtain ⟨_, hstep⟩ := hstep
      cases hstep
      exact ht.goto .idle

theorem exec_refusing {settings : Settings} {as : List RunnerAction}
    (hsettings : s.config.bind fromReader = some settings)
    (huuid : settings.solverUuid = some uuid) (hstarts : ∀ a ∈ as, ∀ command, a ≠ .start command)
    (hrun : exec (runnerStep fromReader) (.start (.register false) :: as) s = some t) :
    Refusing settings s t := by
  obtain ⟨first, hfirst, hrest⟩ := exec_cons_eq_some.mp hrun
  simp only [runnerStep, Option.ite_none_right_eq_some] at hfirst
  obtain ⟨_, hfirst⟩ := hfirst
  cases hfirst
  exact exec_invariant _ (fun _ _ _ ha ht hstep => refusing_runnerStep hsettings huuid ha ht hstep)
    hstarts hrest ⟨rfl, rfl, .checkConfig⟩

/-- Each UUID that was in `config.json` after any run is there after each longer one, or in the log;
`register` puts one there, and leaves both files alone if there is one that it may not replace. -/
structure UuidSafe (fromReader : Bytes → Option Settings) (start : RunnerState) : Prop where
  kept : ∀ {as bs s t uuid}, exec (runnerStep fromReader) as start = some s →
    s.Stored fromReader uuid → exec (runnerStep fromReader) bs s = some t →
    t.Stored fromReader uuid ∨ t.Recorded uuid
  registered : ∀ {as s}, exec (runnerStep fromReader) as start = some s →
    s.phase = .writeConfig [] → ∃ uuid, s.Stored fromReader uuid
  refused : ∀ {as bs s t uuid}, exec (runnerStep fromReader) as start = some s →
    s.Stored fromReader uuid → (∀ b ∈ bs, ∀ command, b ≠ .start command) →
    exec (runnerStep fromReader) (.start (.register false) :: bs) s = some t →
    t.config = s.config ∧ t.backup = s.backup

theorem uuid_neverLost (hreader : ReadsSettings fromReader) (config backup : Option Bytes) :
    UuidSafe fromReader ⟨config, backup, .idle⟩ := by
  refine ⟨?_, ?_, ?_⟩
  · intro as bs s t uuid hrun hstored hlonger
    exact exec_stored_or_recorded hreader hlonger (exec_phaseInvariant hreader hrun trivial) hstored
  · intro as s hrun hphase
    have hinvariant := exec_phaseInvariant hreader hrun trivial
    simp only [PhaseInvariant, hphase] at hinvariant
    obtain ⟨settings, hsome, hwritten⟩ := hinvariant
    obtain ⟨uuid, huuid⟩ := Option.isSome_iff_exists.mp hsome
    refine ⟨uuid, settings, ?_, huuid⟩
    rw [hwritten.eq_of_nil]
    exact hreader.readsBack settings
  · intro as bs s t uuid _ ⟨settings, hsettings, huuid⟩ hstarts hregister
    have hrefusing := exec_refusing hsettings huuid hstarts hregister
    exact ⟨hrefusing.config, hrefusing.backup⟩

/-- A reader that accepts no other texts. -/
theorem readsSettings_partialInv : ReadsSettings (Function.partialInv Settings.toWriterPretty) := by
  have hwriter := Settings.selfDelimiting_toWriterPretty
  refine ⟨Function.partialInv_left hwriter.injective, ?_⟩
  intro settings text hinitial hne
  rw [Option.eq_none_iff_forall_ne_some]
  intro settings' hread
  obtain rfl := (hwriter.injective.isPartialInv settings' text).mp hread
  exact hne (congrArg Settings.toWriterPretty (hwriter.eq_of_initial hinitial))

def registeredSettings : Settings :=
  { Settings.default 4 with solverUuid := some ⟨Vector.replicate 16 7⟩ }

theorem uuid_neverLost_registeredSettings :
    UuidSafe (Function.partialInv Settings.toWriterPretty)
      ⟨some registeredSettings.toWriterPretty, none, .idle⟩ :=
  uuid_neverLost readsSettings_partialInv _ _

end StrideRunner
