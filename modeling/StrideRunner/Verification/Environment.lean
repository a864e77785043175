import StrideRunner.Model.Commands.Run.Environment
import StrideRunner.Verification.Decimal
import StrideRunner.Verification.Settings

/-! # What a solver learns from its environment

Unless `--no-env` is given, the variables determine the record of the instance and the settings of
the run. A column without a value is not unset, so a variable of the runner itself would show. -/

namespace StrideRunner

open Library

namespace Job

/-! ## Printing -/

theorem number_injective : Function.Injective number := by
  intro m n h
  exact decimal_injective (encodeUtf8_injective h)

theorem truth_injective : Function.Injective truth := by
  intro b c h
  cases b <;> cases c <;> first | rfl | exact absurd h (by decide)

theorem display_injective : Function.Injective Uuid.display := Uuid.selfDelimiting_display.injective

/-! ## The variables -/

/-- The variables with the values that a job gives them. -/
def entries (settings : SolverSettings) (info : InstanceRecord) : List (String × Option Bytes) :=
  instanceEntries info ++ settingsEntries settings

theorem prepareEnvVariables_eq {settings : SolverSettings} (henv : settings.noEnv = false)
    (info : InstanceRecord) :
    prepareEnvVariables settings info = bound (entries settings info) := by
  rw [prepareEnvVariables, henv, if_neg Bool.false_ne_true, entries, bound_append]
  rfl

def variableNames : List String :=
  ["STRIDE_IID", "STRIDE_NODES", "STRIDE_EDGES", "STRIDE_BEST_SCORE", "STRIDE_DIAMETER",
    "STRIDE_TREEWIDTH", "STRIDE_PLANAR", "STRIDE_BIPARTITE", "STRIDE_TIMEOUT_SEC",
    "STRIDE_GRACE_SEC", "STRIDE_RUN_UUID", "STRIDE_SOLVER_UUID"]

theorem names_entries (settings : SolverSettings) (info : InstanceRecord) :
    (entries settings info).map Prod.fst = variableNames := rfl

theorem nodup_entries (settings : SolverSettings) (info : InstanceRecord) :
    ((entries settings info).map Prod.fst).Nodup := by
  rw [names_entries]
  decide

/-- What the variables say about a record: all of it but the id of its text. -/
structure SameRecord (info info' : InstanceRecord) : Prop where
  iid : info.iid = info'.iid
  nodes : info.nodes = info'.nodes
  edges : info.edges = info'.edges
  bestScore : info.bestScore = info'.bestScore
  diameter : info.diameter = info'.diameter
  treewidth : info.treewidth = info'.treewidth
  planar : info.planar = info'.planar
  bipartite : info.bipartite = info'.bipartite

/-- What the variables say about a run. -/
structure SameSettings (settings settings' : SolverSettings) : Prop where
  timeout : settings.timeout = settings'.timeout
  grace : settings.grace = settings'.grace
  runUuid : settings.runUuid = settings'.runUuid
  solverUuid : settings.solverUuid = settings'.solverUuid

theorem number_uInt32_injective : Function.Injective fun n : UInt32 => number n.toNat :=
  number_injective.comp fun _ _ => UInt32.toNat.inj

theorem number_uInt64_injective : Function.Injective fun n : UInt64 => number n.toNat :=
  number_injective.comp fun _ _ => UInt64.toNat.inj

theorem number_iid_injective : Function.Injective fun iid : IId => number iid.id.toNat := by
  rintro ⟨id⟩ ⟨id'⟩ h
  exact congrArg IId.mk (number_uInt32_injective h)

theorem instanceEntries_eq_iff {info info' : InstanceRecord} :
    instanceEntries info = instanceEntries info' ↔ SameRecord info info' := by
  constructor
  · intro h
    simp only [instanceEntries, List.cons.injEq, Prod.mk.injEq, Option.some.injEq, true_and,
      and_true] at h
    obtain ⟨hiid, hnodes, hedges, hbest, hdiameter, htreewidth, hplanar, hbipartite⟩ := h
    exact ⟨number_iid_injective hiid, number_uInt32_injective hnodes,
      number_uInt32_injective hedges, Option.map_injective number_injective hbest,
      Option.map_injective number_uInt32_injective hdiameter,
      Option.map_injective number_uInt32_injective htreewidth,
      Option.map_injective truth_injective hplanar,
      Option.map_injective truth_injective hbipartite⟩
  · rintro ⟨hiid, hnodes, hedges, hbest, hdiameter, htreewidth, hplanar, hbipartite⟩
    unfold instanceEntries
    rw [hiid, hnodes, hedges, hbest, hdiameter, htreewidth, hplanar, hbipartite]

theorem settingsEntries_eq_iff {settings settings' : SolverSettings} :
    settingsEntries settings = settingsEntries settings' ↔ SameSettings settings settings' := by
  constructor
  · intro h
    simp only [settingsEntries, List.cons.injEq, Prod.mk.injEq, Option.some.injEq, true_and,
      and_true] at h
    obtain ⟨htimeout, hgrace, hrun, hsolver⟩ := h
    exact ⟨number_uInt64_injective htimeout, number_uInt64_injective hgrace,
      display_injective hrun, Option.map_injective display_injective hsolver⟩
  · rintro ⟨htimeout, hgrace, hrun, hsolver⟩
    unfold settingsEntries
    rw [htimeout, hgrace, hrun, hsolver]

theorem entries_eq_iff {settings settings' : SolverSettings} {info info' : InstanceRecord} :
    entries settings info = entries settings' info' ↔
      SameRecord info info' ∧ SameSettings settings settings' := by
  rw [← instanceEntries_eq_iff, ← settingsEntries_eq_iff]
  constructor
  · intro h
    exact List.append_inj h rfl
  · rintro ⟨hinstance, hsettings⟩
    rw [entries, entries, hinstance, hsettings]

/-! ## The environment -/

/-- The runner has none of the variables that a job may leave out. -/
def Clean (inherited : String → Option Bytes) (settings : SolverSettings) (info : InstanceRecord) :
    Prop :=
  ∀ name, (name, none) ∈ entries settings info → inherited name = none

theorem solverEnv_of_mem {inherited : String → Option Bytes} {settings : SolverSettings}
    {info : InstanceRecord} (henv : settings.noEnv = false) {name : String} {value : Bytes}
    (hmem : (name, some value) ∈ entries settings info) :
    solverEnv inherited settings info name = some value := by
  rw [solverEnv, prepareEnvVariables_eq henv, overlay_of_mem (nodup_entries ..) hmem]
  rfl

/-- The environment of a solver that is given one. -/
structure EnvironmentSpec (inherited : String → Option Bytes) (settings : SolverSettings)
    (info : InstanceRecord) : Prop where
  given : ∀ name value, (name, some value) ∈ entries settings info →
    solverEnv inherited settings info name = some value
  shows : ∀ name, (name, none) ∈ entries settings info ∨ name ∉ variableNames →
    solverEnv inherited settings info name = inherited name
  determines : ∀ inherited' settings' info', settings'.noEnv = false →
    Clean inherited settings info → Clean inherited' settings' info' →
    (solverEnv inherited settings info = solverEnv inherited' settings' info' ↔
      (SameRecord info info' ∧ SameSettings settings settings') ∧
        ∀ name ∉ variableNames, inherited name = inherited' name)

theorem solverEnv_spec (inherited : String → Option Bytes) (settings : SolverSettings)
    (info : InstanceRecord) :
    (settings.noEnv = true → solverEnv inherited settings info = inherited) ∧
      (settings.noEnv = false → EnvironmentSpec inherited settings info) := by
  refine ⟨?_, ?_⟩
  · intro hdisabled
    rw [solverEnv, prepareEnvVariables, hdisabled, if_pos rfl]
    rfl
  · intro henv
    refine ⟨?_, ?_, ?_⟩
    · intro name value hmem
      exact solverEnv_of_mem henv hmem
    · rintro name (hmem | hname)
      · rw [solverEnv, prepareEnvVariables_eq henv, overlay_of_mem (nodup_entries ..) hmem]
        rfl
      · rw [solverEnv, prepareEnvVariables_eq henv, overlay_of_notMem hname]
    · intro inherited' settings' info' henv' hclean hclean'
      have hnames : (entries settings info).map Prod.fst =
          (entries settings' info').map Prod.fst := rfl
      rw [solverEnv, solverEnv, prepareEnvVariables_eq henv, prepareEnvVariables_eq henv',
        overlay_eq_iff hnames (nodup_entries ..) hclean hclean', entries_eq_iff, names_entries]

end Job

end StrideRunner
