import Mathlib.Data.Nat.Digits.Defs
import StrideRunner.Model.Bin.Runner
import StrideRunner.Verification.Register
import StrideRunner.Verification.System.Correctness

/-! # Runs after a registration

A UUID that `register` has stored stays in `config.json` until it is to be deleted, so every later
run reports the results of all its jobs under it. -/

namespace StrideRunner

open Library

/-! ## UUIDs as numbers -/

namespace Uuid

theorem foldl_bytes (bytes : List UInt8) (n : ℕ) :
    bytes.foldl (fun n byte => 256 * n + byte.toNat) n =
      Nat.ofDigits 256 (bytes.map UInt8.toNat).reverse + 256 ^ bytes.length * n := by
  induction bytes generalizing n with
  | nil => simp
  | cons byte bytes ih =>
      rw [List.foldl_cons, ih]
      simp only [List.map_cons, List.reverse_cons, Nat.ofDigits_append, List.length_reverse,
        List.length_map, Nat.ofDigits_singleton, List.length_cons]
      ring

theorem ofDigits_div_pow_mod {b k : ℕ} {digits : List ℕ} (hb : 0 < b)
    (hdigits : ∀ digit ∈ digits, digit < b) (hk : k < digits.length) :
    Nat.ofDigits b digits / b ^ k % b = digits[k] := by
  rw [Nat.ofDigits_div_pow_eq_ofDigits_drop k hb digits hdigits, List.drop_eq_getElem_cons hk,
    Nat.ofDigits_cons, Nat.add_mul_mod_self_left]
  exact Nat.mod_eq_of_lt (hdigits _ (List.getElem_mem hk))

theorem fromU128_toU128 (uuid : Uuid) : fromU128 uuid.toU128 = uuid := by
  obtain ⟨bytes⟩ := uuid
  have hdigits : ∀ digit ∈ (bytes.toList.map UInt8.toNat).reverse, digit < 256 := by
    intro digit hdigit
    simp only [List.mem_reverse, List.mem_map] at hdigit
    obtain ⟨byte, _, rfl⟩ := hdigit
    exact byte.toNat_lt
  rw [fromU128, Uuid.mk.injEq]
  ext i hi
  have hk : 15 - i < (bytes.toList.map UInt8.toNat).reverse.length := by
    simp only [List.length_reverse, List.length_map, Vector.length_toList]
    omega
  have hbyte := ofDigits_div_pow_mod (by decide) hdigits hk
  have hlast : 16 - 1 - (15 - i) = i := by omega
  rw [Vector.getElem_ofFn, UInt8.toNat_ofNat', toU128, foldl_bytes, Nat.mul_zero, Nat.add_zero,
    hbyte, List.getElem_reverse]
  simp [hlast]

end Uuid

/-! ## The settings of later processes -/

namespace RunnerState

variable {fromReader : Bytes → Option Settings} {settings : Settings} {s t u : RunnerState}
  {uuid : Uuid}

/-- The phases of processes that do not replace the UUID of these settings. -/
inductive KeepingPhase (settings : Settings) : RunnerPhase → Prop where
  | idle : KeepingPhase settings .idle
  | checkConfig {command} (h : command ≠ .register true) :
      KeepingPhase settings (.checkConfig command)
  | load {command} (h : command ≠ .register true) : KeepingPhase settings (.load command)
  | register : KeepingPhase settings (.register false settings)
  | written : KeepingPhase settings (.writeConfig [])

/-- `config.json` holds these settings, and the running process leaves it alone. -/
structure Keeping (fromReader : Bytes → Option Settings) (settings : Settings)
    (s : RunnerState) : Prop where
  config : s.config.bind fromReader = some settings
  phase : KeepingPhase settings s.phase

theorem Keeping.goto {phase : RunnerPhase} (h : Keeping fromReader settings s)
    (hphase : KeepingPhase settings phase) : Keeping fromReader settings (s.goto phase) :=
  ⟨h.config, hphase⟩

theorem keeping_proceedStep {chance : Chance} (huuid : settings.solverUuid = some uuid)
    (h : Keeping fromReader settings s) (hstep : s.proceedStep fromReader chance = some t) :
    Keeping fromReader settings t := by
  have hphase := h.phase
  unfold proceedStep at hstep
  generalize s.phase = phase at hphase hstep
  cases hphase with
  | idle => cases hstep
  | @checkConfig command hcommand =>
      have hsome : s.config.isSome := by
        obtain ⟨bytes, hbytes, _⟩ := Option.bind_eq_some_iff.mp h.config
        rw [hbytes]
        rfl
      simp only [hsome, if_true] at hstep
      cases hstep
      exact h.goto (.load hcommand)
  | @load command hcommand =>
      cases hstep
      unfold loadStep
      rw [h.config]
      cases command with
      | register deleteOldUuid =>
          cases deleteOldUuid with
          | false => exact h.goto .register
          | true => exact (hcommand rfl).elim
      | other => exact h.goto .idle
  | register =>
      simp only [registerStep, huuid] at hstep
      cases hstep
      exact h.goto .idle
  | written =>
      cases hstep
      exact h.goto .idle

theorem keeping_runnerStep {a : RunnerAction} (huuid : settings.solverUuid = some uuid)
    (ha : a ≠ .start (.register true)) (h : Keeping fromReader settings s)
    (hstep : runnerStep fromReader a s = some t) : Keeping fromReader settings t := by
  cases a with
  | start command =>
      simp only [runnerStep, Option.ite_none_right_eq_some] at hstep
      obtain ⟨_, hstep⟩ := hstep
      cases hstep
      have hcommand : command ≠ .register true := fun heq => ha (heq ▸ rfl)
      exact h.goto (.checkConfig hcommand)
  | proceed chance => exact keeping_proceedStep huuid h hstep
  | stop =>
      simp only [runnerStep, Option.ite_none_left_eq_some] at hstep
      obtain ⟨_, hstep⟩ := hstep
      cases hstep
      exact h.goto .idle

/-- What is loaded after a registration. -/
theorem exists_settings_of_registered (hreader : ReadsSettings fromReader)
    {config backup : Option Bytes} {as bs : List RunnerAction}
    (hregister : exec (runnerStep fromReader) as ⟨config, backup, .idle⟩ = some s)
    (hwritten : s.phase = .writeConfig []) (hlater : exec (runnerStep fromReader) bs s = some t)
    (hkept : .start (.register true) ∉ bs) :
    ∃ settings uuid, s.config.bind fromReader = some settings ∧
      settings.solverUuid = some uuid ∧ t.config.bind fromReader = some settings := by
  have hinvariant := exec_phaseInvariant hreader hregister trivial
  simp only [PhaseInvariant, hwritten] at hinvariant
  obtain ⟨settings, hsome, htext⟩ := hinvariant
  obtain ⟨uuid, huuid⟩ := Option.isSome_iff_exists.mp hsome
  have hconfig : s.config.bind fromReader = some settings := by
    rw [htext.eq_of_nil]
    exact hreader.readsBack settings
  have hstart : Keeping fromReader settings s := ⟨hconfig, hwritten ▸ .written⟩
  have hsafe : ∀ a ∈ bs, a ≠ .start (.register true) := by
    rintro a ha rfl
    exact hkept ha
  have hkeeping := exec_invariant _
    (fun _ _ _ ha h hstep => keeping_runnerStep huuid ha h hstep) hsafe hlater hstart
  exact ⟨settings, uuid, hconfig, huuid, hkeeping.config⟩

end RunnerState

/-! ## The uploads of a run -/

/-- Every job that has ended with `Ok` has reported its result, and all requests are under this
UUID. -/
structure ReportsUnder (env : RunEnvironment) (uuid : Uuid) (s : SystemState) : Prop where
  ended : ∀ (handle : ℕ) iid jobResult,
    s.run.tasks[handle]? = some ⟨iid, .finished (.ok jobResult)⟩ →
    ∃ info data verdict, Judged env iid info data verdict ∧
      Job.toResultType verdict info = .ok jobResult.state ∧
      (s.shared.locals handle).sent = some verdict
  requests : ∀ runUuid iid result,
    (Job.uploadRequest env runUuid iid result).solverUuid = some uuid

theorem RunArgs.solverUuid_opts {args : RunArgs} {settings : Settings} {uuid : Uuid}
    (huuid : settings.solverUuid = some uuid) :
    (args.opts settings).solverUuid = some (args.solverUuid.getD uuid).toU128 := by
  unfold RunArgs.opts
  rw [huuid]
  cases args.solverUuid <;> rfl

theorem Job.uploads_of_solverUuid {opts : RunOpts} {n : ℕ} (hupload : opts.noUpload = false)
    (huuid : opts.solverUuid = some n) (result : SolverResult) (bestScore : Option ℕ) :
    Job.uploads opts result bestScore = true := by
  simp [Job.uploads, hupload, huuid]

theorem SystemState.reportsUnder_of_run {env : RunEnvironment} {args : RunArgs}
    {settings : Settings} {uuid : Uuid} {instances : List IId} {fs : FileSystem} {s : SystemState}
    {actions : List SystemAction} (hopts : env.opts = args.opts settings)
    (huuid : settings.solverUuid = some uuid) (hupload : args.noUpload = false)
    (hslots : 1 ≤ env.opts.parallelJobs) (hnodup : instances.Nodup)
    (hrun : exec (step env) actions (start env instances fs) = some s) :
    ReportsUnder env (args.solverUuid.getD uuid) s := by
  have hsolver : env.opts.solverUuid = some (args.solverUuid.getD uuid).toU128 := by
    rw [hopts]
    exact RunArgs.solverUuid_opts huuid
  have hnoUpload : env.opts.noUpload = false := by
    rw [hopts]
    exact hupload
  refine ⟨?_, ?_⟩
  · intro handle iid jobResult htask
    obtain ⟨info, data, verdict, hleaves⟩ := exists_jobLeaves hslots hnodup hrun htask
    have hsent := hleaves.sent
    rw [Job.uploads_of_solverUuid hnoUpload hsolver, if_pos rfl] at hsent
    exact ⟨info, data, verdict, hleaves.judged, hleaves.state, hsent⟩
  · intro runUuid iid result
    simp only [Job.uploadRequest, hsolver, Option.map_some, Uuid.fromU128_toU128]

/-! ## From the registration to the uploads -/

/-- A run that is started from these settings, and has not been told to upload nothing. -/
def ReportsAlways (settings : Settings) (uuid : Uuid) : Prop :=
  ∀ (args : RunArgs) (env : RunEnvironment) (instances : List IId) (fs : FileSystem)
    (actions : List SystemAction) (s : SystemState),
    args.noUpload = false → env.opts = args.opts settings → 1 ≤ env.opts.parallelJobs →
    instances.Nodup → exec (SystemState.step env) actions (SystemState.start env instances fs) =
      some s → ReportsUnder env (args.solverUuid.getD uuid) s

/-- After `register` has written the settings, whatever processes follow that are not to delete the
UUID, a run loads this UUID and reports everything under it. -/
theorem registered_runs_report {fromReader : Bytes → Option Settings}
    (hreader : ReadsSettings fromReader) {config backup : Option Bytes} {as bs : List RunnerAction}
    {s t : RunnerState}
    (hregister : exec (runnerStep fromReader) as ⟨config, backup, .idle⟩ = some s)
    (hwritten : s.phase = .writeConfig []) (hlater : exec (runnerStep fromReader) bs s = some t)
    (hkept : .start (.register true) ∉ bs) :
    ∃ settings uuid, s.Stored fromReader uuid ∧ t.config.bind fromReader = some settings ∧
      ReportsAlways settings uuid := by
  obtain ⟨settings, uuid, hstored, huuid, hconfig⟩ :=
    RunnerState.exists_settings_of_registered hreader hregister hwritten hlater hkept
  refine ⟨settings, uuid, ⟨settings, hstored, huuid⟩, hconfig, ?_⟩
  intro args env instances fs actions sys hupload hopts hslots hnodup hrun
  exact SystemState.reportsUnder_of_run hopts huuid hupload hslots hnodup hrun

/-- Everything is written at once. -/
def registeringChance : Chance := ⟨4, [], ⟨Vector.replicate 16 7⟩, 1000⟩

/-- `config.json` is there; after the registration a run starts. -/
theorem registered_runs_report_default :
    ∃ s t, exec (runnerStep (Function.partialInv Settings.toWriterPretty))
        (.start (.register false) :: List.replicate 5 (.proceed registeringChance))
        ⟨some (Settings.default 4).toWriterPretty, none, .idle⟩ = some s ∧
      exec (runnerStep (Function.partialInv Settings.toWriterPretty))
        [.proceed registeringChance, .start .other, .proceed registeringChance] s = some t ∧
      t.phase = .load .other ∧
      ∃ settings uuid, s.Stored (Function.partialInv Settings.toWriterPretty) uuid ∧
        t.config.bind (Function.partialInv Settings.toWriterPretty) = some settings ∧
        ReportsAlways settings uuid := by
  let text :=
    { Settings.default 4 with solverUuid := some registeringChance.newUuid }.toWriterPretty
  have hlong : text.length ≤ registeringChance.chunk := by decide +kernel
  have hload := readsSettings_partialInv.readsBack (Settings.default 4)
  have hregister : exec (runnerStep (Function.partialInv Settings.toWriterPretty))
      (.start (.register false) :: List.replicate 5 (.proceed registeringChance))
      ⟨some (Settings.default 4).toWriterPretty, none, .idle⟩ =
        some ⟨some text, none, .writeConfig []⟩ := by
    have hwrite : runnerStep (Function.partialInv Settings.toWriterPretty)
        (.proceed registeringChance) ⟨some [], none, .writeConfig text⟩ =
          some ⟨some (text.take registeringChance.chunk), none,
            .writeConfig (text.drop registeringChance.chunk)⟩ := rfl
    rw [List.take_of_length_le hlong, List.drop_of_length_le hlong] at hwrite
    have hloaded : runnerStep (Function.partialInv Settings.toWriterPretty)
        (.proceed registeringChance)
        ⟨some (Settings.default 4).toWriterPretty, none, .load (.register false)⟩ =
          some ⟨some (Settings.default 4).toWriterPretty, none,
            .register false (Settings.default 4)⟩ := by
      simp [runnerStep, RunnerState.proceedStep, RunnerState.loadStep, hload, RunnerState.goto]
    refine exec_cons_eq_some.mpr ⟨_, rfl, exec_cons_eq_some.mpr ⟨_, rfl, ?_⟩⟩
    refine exec_cons_eq_some.mpr ⟨_, hloaded, exec_cons_eq_some.mpr ⟨_, rfl, ?_⟩⟩
    exact exec_cons_eq_some.mpr ⟨_, rfl, exec_cons_eq_some.mpr ⟨_, hwrite, rfl⟩⟩
  have hlater : exec (runnerStep (Function.partialInv Settings.toWriterPretty))
      [.proceed registeringChance, .start .other, .proceed registeringChance]
      ⟨some text, none, .writeConfig []⟩ = some ⟨some text, none, .load .other⟩ := rfl
  exact ⟨_, _, hregister, hlater, rfl, registered_runs_report readsSettings_partialInv hregister rfl
    hlater (by decide)⟩

end StrideRunner
