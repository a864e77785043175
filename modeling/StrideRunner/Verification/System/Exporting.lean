import StrideRunner.Model.Commands.Export
import StrideRunner.Verification.Cache.Agreement
import StrideRunner.Verification.System.Cached

/-! # Exports do no harm

Whatever fails and however the steps of the commands interleave, a command changes at most its own
destination, and without `--force` not even that if a file is there. What it reports to have
exported is there as a whole. -/

namespace StrideRunner

open Library

variable {ι : Type}

/-! ## Writing a file -/

/-- The file in each phase of the writing of `dump` over `before`. -/
def WriteInvariant (dump : Bytes) (before file : Option DbFile) : DownloadPhase → Prop
  | .request => file = before
  | .create chunks => file = before ∧ chunks.flatten = dump
  | .receive chunks => ∃ content, file = some (.bytes content) ∧ content ++ chunks.flatten = dump
  | .finished => file = some (.bytes dump)
  | .failed _ => file = before ∨ ∃ content, content <+: dump ∧ file = some (.bytes content)

theorem writeInvariant_downloadStep {dump : Bytes} {action : DownloadAction}
    {phase phase' : DownloadPhase} {before file file' : Option DbFile}
    (h : WriteInvariant dump before file phase)
    (hstep : downloadStep dump action phase file = some (phase', file')) :
    WriteInvariant dump before file' phase' := by
  unfold downloadStep at hstep
  split at hstep
  · split at hstep
    · rename_i hdump
      cases hstep
      exact ⟨h, hdump⟩
    · cases hstep
  · cases hstep
    exact ⟨[], rfl, h.2⟩
  · cases hstep
    obtain ⟨content, hfile, hdump⟩ := h
    cases hfile
    refine ⟨_, rfl, ?_⟩
    rw [List.append_assoc, ← List.flatten_cons]
    exact hdump
  · cases hstep
    obtain ⟨content, hfile, hdump⟩ := h
    rw [List.flatten_nil, List.append_nil] at hdump
    rw [hdump] at hfile
    exact hfile
  · cases hstep
    exact Or.inl h
  · cases hstep
    exact Or.inl h.1
  · cases hstep
    obtain ⟨content, hfile, hdump⟩ := h
    exact Or.inr ⟨content, ⟨_, hdump⟩, hfile⟩
  · split at hstep
    · rename_i hwritten
      cases hstep
      obtain ⟨content, hfile, hdump⟩ := h
      cases hfile
      refine Or.inr ⟨_, ?_, rfl⟩
      rw [← hdump, List.flatten_cons]
      exact (List.prefix_append_right_inj _).mpr (hwritten.trans (List.prefix_append _ _))
    · cases hstep
  · cases hstep

theorem WriteInvariant.torn {dump : Bytes} {before file : Option DbFile} {phase : DownloadPhase}
    (h : WriteInvariant dump before file phase) :
    file = before ∨ ∃ content, content <+: dump ∧ file = some (.bytes content) := by
  cases phase with
  | request => exact Or.inl h
  | create chunks => exact Or.inl h.1
  | receive chunks =>
      obtain ⟨content, hfile, hdump⟩ := h
      exact Or.inr ⟨content, ⟨_, hdump⟩, hfile⟩
  | finished => exact Or.inr ⟨dump, List.prefix_refl dump, h⟩
  | failed error => exact h

/-! ## One command -/

namespace ExportEnvironment

/-- The text that a command has to export, in the database or at the server. -/
def Exports (env : ExportEnvironment ι) (call : ι) (table : InstanceData) (dump : Bytes) : Prop :=
  match env.command call with
  | .exportInstance _ => table.lookup (env.did call) = some dump
  | .exportSolution opts => dump = env.server call opts.searchPath

theorem Exports.extends {env : ExportEnvironment ι} {call : ι} {table table' : InstanceData}
    {dump : Bytes} (h : env.Exports call table dump) (hextends : UniqueTable.Extends table table') :
    env.Exports call table' dump := by
  cases hcommand : env.command call with
  | exportInstance opts =>
      simp only [Exports, hcommand] at h ⊢
      exact hextends _ _ h
  | exportSolution opts =>
      simp only [Exports, hcommand] at h ⊢
      exact h

end ExportEnvironment

namespace ExportState

variable {env : ExportEnvironment ι} {s t : ExportState ι} {call : ι}

/-- Where the text of a command goes. -/
def output (env : ExportEnvironment ι) (s : ExportState ι) (call : ι) : Option DbFile :=
  match (env.command call).destination with
  | some destination => s.files destination
  | none => some (.bytes (s.stdout call))

theorem output_of_destination {destination : PathBuf}
    (h : (env.command call).destination = some destination) :
    s.output env call = s.files destination := by
  simp [output, h]

theorem output_of_stdout (h : (env.command call).destination = none) :
    s.output env call = some (.bytes (s.stdout call)) := by
  simp [output, h]

/-- The output is as it was before, or as far as it has been written. -/
def Torn (env : ExportEnvironment ι) (call : ι) (before output : Option DbFile)
    (table : InstanceData) : Prop :=
  output = before ∨ ∃ dump content, env.Exports call table dump ∧ content <+: dump ∧
    output = some (.bytes content)

theorem Torn.extends {before output : Option DbFile} {table table' : InstanceData}
    (h : Torn env call before output table) (hextends : UniqueTable.Extends table table') :
    Torn env call before output table' := by
  obtain hbefore | ⟨dump, content, hdump, hrest⟩ := h
  · exact Or.inl hbefore
  · exact Or.inr ⟨dump, content, hdump.extends hextends, hrest⟩

theorem torn_of_writeInvariant {before output : Option DbFile} {table : InstanceData} {dump : Bytes}
    {phase : DownloadPhase} (hdump : env.Exports call table dump)
    (h : WriteInvariant dump before output phase) : Torn env call before output table := by
  obtain hbefore | ⟨content, hprefix, hfile⟩ := h.torn
  · exact Or.inl hbefore
  · exact Or.inr ⟨dump, content, hdump, hprefix, hfile⟩

/-- What a command has done, by its phase; `before` is what has been at its destination. -/
def CommandInvariant (env : ExportEnvironment ι) (call : ι) (before output : Option DbFile)
    (table : InstanceData) : ExportPhase → Prop
  | .fetching => output = before
  | .printing data =>
      output = before ∧ env.Exports call table data ∧ (env.command call).destination = none
  | .checking dump next =>
      output = before ∧ env.Exports call table dump ∧ WriteInvariant dump before output next
  | .writing dump phase => env.Exports call table dump ∧ WriteInvariant dump before output phase
  | .returned (.ok ()) => ∃ dump, env.Exports call table dump ∧ output = some (.bytes dump)
  | .returned _ => Torn env call before output table

theorem CommandInvariant.extends {before output : Option DbFile} {table table' : InstanceData}
    {phase : ExportPhase} (h : CommandInvariant env call before output table phase)
    (hextends : UniqueTable.Extends table table') :
    CommandInvariant env call before output table' phase := by
  cases phase with
  | fetching => exact h
  | printing data => exact ⟨h.1, h.2.1.extends hextends, h.2.2⟩
  | checking dump next => exact ⟨h.1, h.2.1.extends hextends, h.2.2⟩
  | writing dump phase => exact ⟨h.1.extends hextends, h.2⟩
  | returned result =>
      cases result with
      | ok =>
          obtain ⟨dump, hdump, houtput⟩ := h
          exact ⟨dump, hdump.extends hextends, houtput⟩
      | err error => exact Torn.extends h hextends
      | panic message => exact Torn.extends h hextends

theorem commandInvariant_stopped {before output : Option DbFile} {table : InstanceData}
    {result : Outcome AnyhowError Unit} (hresult : result ≠ .ok ())
    (h : Torn env call before output table) :
    CommandInvariant env call before output table (.returned result) := by
  cases result with
  | ok => exact (hresult rfl).elim
  | err error => exact h
  | panic message => exact h

theorem commandInvariant_written {before output : Option DbFile} {table : InstanceData}
    {dump : Bytes} {phase : DownloadPhase} (hdump : env.Exports call table dump)
    (h : WriteInvariant dump before output phase) :
    CommandInvariant env call before output table (.written dump phase) := by
  cases phase with
  | request => exact ⟨hdump, h⟩
  | create chunks => exact ⟨hdump, h⟩
  | receive chunks => exact ⟨hdump, h⟩
  | finished => exact ⟨dump, hdump, h⟩
  | failed error => exact torn_of_writeInvariant hdump h

theorem commandInvariant_fetched {before output : Option DbFile} {table : InstanceData}
    {opts : ExportInstanceOpts} {data : Bytes} (hcommand : env.command call = .exportInstance opts)
    (hdata : env.Exports call table data) (houtput : output = before) :
    CommandInvariant env call before output table (opts.fetched data) := by
  unfold ExportInstanceOpts.fetched
  cases hdestination : opts.destination with
  | none =>
      refine ⟨houtput, hdata, ?_⟩
      rw [hcommand]
      exact hdestination
  | some destination => exact ⟨houtput, hdata, houtput, by simp⟩

theorem CommandInvariant.torn {before output : Option DbFile} {table : InstanceData}
    {phase : ExportPhase}
    (h : CommandInvariant env call before output table phase) :
    Torn env call before output table := by
  cases phase with
  | fetching => exact Or.inl h
  | printing data => exact Or.inl h.1
  | checking dump next => exact Or.inl h.1
  | writing dump phase => exact torn_of_writeInvariant h.1 h.2
  | returned result =>
      cases result with
      | ok =>
          obtain ⟨dump, hdump, houtput⟩ := h
          exact Or.inr ⟨dump, dump, hdump, List.prefix_refl dump, houtput⟩
      | err error => exact h
      | panic message => exact h

/-- What holds of the database after any step. -/
structure Keeps (env : ExportEnvironment ι) (s t : ExportState ι) : Prop where
  table : UniqueTable.Extends s.cache.table t.cache.table
  agrees : CacheState.Agrees env.did s.cache → CacheState.Agrees env.did t.cache

theorem keeps_of_cache (hcache : t.cache = s.cache) : Keeps env s t := by
  refine ⟨?_, ?_⟩
  · rw [hcache]
    exact UniqueTable.Extends.refl _
  · rw [hcache]
    exact id

theorem keeps_of_table {table : InstanceData} (hextends : UniqueTable.Extends s.cache.table table) :
    Keeps env s { s with cache.table := table } :=
  ⟨hextends, fun h call text htext => hextends _ _ (h call text htext)⟩

/-! ## What a step of a command does -/

variable [DecidableEq ι]

@[simp] theorem goto_phase_self (phase : ExportPhase) : (s.goto call phase).phase call = phase :=
  Function.update_self ..

theorem goto_phase_of_ne {other : ι} (h : other ≠ call) (phase : ExportPhase) :
    (s.goto call phase).phase other = s.phase other :=
  Function.update_of_ne h ..

@[simp] theorem goto_cache (phase : ExportPhase) : (s.goto call phase).cache = s.cache := rfl

@[simp] theorem goto_output (phase : ExportPhase) :
    (s.goto call phase).output env = s.output env := rfl

@[simp] theorem printed_cache (written : Bytes) (result : Outcome AnyhowError Unit) :
    (s.printed call written result).cache = s.cache := rfl

theorem printed_stdout_of_ne {other : ι} (h : other ≠ call) (written : Bytes)
    (result : Outcome AnyhowError Unit) :
    (s.printed call written result).stdout other = s.stdout other :=
  Function.update_of_ne h ..

@[simp] theorem printed_stdout_self (written : Bytes) (result : Outcome AnyhowError Unit) :
    (s.printed call written result).stdout call = written :=
  Function.update_self ..

@[simp] theorem printed_phase_self (written : Bytes) (result : Outcome AnyhowError Unit) :
    (s.printed call written result).phase call = .returned result :=
  Function.update_self ..

@[simp] theorem stored_cache (destination : PathBuf) (file : Option DbFile) (phase : ExportPhase) :
    (s.stored call destination file phase).cache = s.cache := rfl

@[simp] theorem stored_phase_self (destination : PathBuf) (file : Option DbFile)
    (phase : ExportPhase) : (s.stored call destination file phase).phase call = phase :=
  Function.update_self ..

@[simp] theorem stored_files_self (destination : PathBuf) (file : Option DbFile)
    (phase : ExportPhase) :
    (s.stored call destination file phase).files destination = file :=
  Function.update_self ..

theorem stored_files_of_ne {path destination : PathBuf} (h : path ≠ destination)
    (file : Option DbFile) (phase : ExportPhase) :
    (s.stored call destination file phase).files path = s.files path :=
  Function.update_of_ne h ..

/-- What a step of a command does. -/
inductive Moves (env : ExportEnvironment ι) (call : ι) (s t : ExportState ι) : Prop
  | fetch (hfetch : CacheState.FetchStep env.did call s.cache t.cache)
      (ht : t = { s with cache := t.cache })
  | stop (result : Outcome AnyhowError Unit) (hresult : result ≠ .ok ())
      (hphase : s.phase call = .fetching ∨ ∃ dump next, s.phase call = .checking dump next)
      (ht : t = s.goto call (.returned result))
  | fetched (opts : ExportInstanceOpts) (data : List Char) (hphase : s.phase call = .fetching)
      (hcommand : env.command call = .exportInstance opts)
      (hdata : s.cache.phase call = .returned (.ok data))
      (ht : t = s.goto call (opts.fetched (encodeUtf8 data)))
  | check (dump : Bytes) (next : DownloadPhase) (destination : PathBuf)
      (hphase : s.phase call = .checking dump next)
      (hdestination : (env.command call).destination = some destination)
      (hfree : env.refuses call s.files destination = false)
      (ht : t = s.goto call (.writing dump next))
  | print (data written : Bytes) (result : Outcome AnyhowError Unit)
      (hphase : s.phase call = .printing data) (hwritten : written <+: data)
      (hresult : result = .ok () → written = data) (ht : t = s.printed call written result)
  | write (dump : Bytes) (phase phase' : DownloadPhase) (destination : PathBuf)
      (action : DownloadAction) (file : Option DbFile)
      (hphase : s.phase call = .writing dump phase)
      (hdestination : (env.command call).destination = some destination)
      (hstep : downloadStep dump action phase (s.files destination) = some (phase', file))
      (ht : t = s.stored call destination file (.written dump phase'))

theorem moves_proceedStep (hstep : s.proceedStep env call = some t) : Moves env call s t := by
  unfold proceedStep at hstep
  split at hstep
  · rename_i opts hphase hcommand
    split at hstep
    · rename_i data hdata
      cases hstep
      exact .fetched opts data hphase hcommand hdata rfl
    · cases hstep
      exact .stop _ (by simp) (Or.inl hphase) rfl
    · cases hstep
      exact .stop _ (by simp) (Or.inl hphase) rfl
    · cases hstep
  · rename_i data hphase
    cases hstep
    exact .print data data _ hphase (List.prefix_refl data) (fun _ => rfl) rfl
  · rename_i dump next hphase
    obtain ⟨destination, hdestination, rfl⟩ := Option.map_eq_some_iff.mp hstep
    cases hrefuses : env.refuses call s.files destination with
    | true => exact .stop _ (by simp) (Or.inr ⟨dump, next, hphase⟩) rfl
    | false => exact .check dump next destination hphase hdestination hrefuses rfl
  · cases hstep

theorem moves_writeStep {action : DownloadAction} (hstep : s.writeStep env call action = some t) :
    Moves env call s t := by
  unfold writeStep at hstep
  split at hstep
  · rename_i dump phase destination hphase hdestination
    split at hstep
    · cases hstep
    · obtain ⟨⟨phase', file⟩, hdownload, rfl⟩ := Option.map_eq_some_iff.mp hstep
      exact .write dump phase phase' destination _ file hphase hdestination hdownload rfl
  · cases hstep

theorem moves_failStep {error : AnyhowError} {written : Bytes}
    (hstep : s.failStep call error written = some t) : Moves env call s t := by
  unfold failStep at hstep
  split at hstep
  · rename_i hphase
    split at hstep
    · cases hstep
      exact .stop _ (by simp) (Or.inl hphase) rfl
    · cases hstep
  · rename_i dump next hphase
    cases hstep
    exact .stop _ (by simp) (Or.inr ⟨dump, next, hphase⟩) rfl
  · rename_i data hphase
    split at hstep
    · rename_i hwritten
      cases hstep
      exact .print data written _ hphase hwritten (by simp) rfl
    · cases hstep
  · cases hstep

theorem moves_commandStep {action : ExportAction} (hstep : s.commandStep env call action = some t) :
    Moves env call s t := by
  cases action with
  | fetch action =>
      simp only [commandStep] at hstep
      split at hstep
      · obtain ⟨cache, hcache, rfl⟩ := Option.map_eq_some_iff.mp hstep
        exact .fetch (CacheState.fetchStep_of_step (CachedState.call_of call action) hcache) rfl
      · cases hstep
  | proceed => exact moves_proceedStep hstep
  | write action => exact moves_writeStep hstep
  | fail error written => exact moves_failStep hstep

/-- The cache after a step of a fetch. -/
theorem agrees_of_fetchStep {did : ι → DId} {cache next : CacheState ι}
    (h : CacheState.Agrees did cache) (hfetch : CacheState.FetchStep did call cache next) :
    CacheState.Agrees did next := by
  intro other text htext
  by_cases hother : other = call
  · subst hother
    exact hfetch.stored text htext
  · rw [hfetch.others other hother] at htext
    exact hfetch.table_extends _ _ (h other text htext)

theorem Moves.keeps (h : Moves env call s t) : Keeps env s t := by
  cases h with
  | fetch hfetch ht => exact ⟨hfetch.table_extends, fun h => agrees_of_fetchStep h hfetch⟩
  | stop result hresult hphase ht => exact keeps_of_cache (by rw [ht, goto_cache])
  | fetched opts data hphase hcommand hdata ht => exact keeps_of_cache (by rw [ht, goto_cache])
  | check dump next destination hphase hdestination hfree ht =>
      exact keeps_of_cache (by rw [ht, goto_cache])
  | print data written result hphase hwritten hresult ht =>
      exact keeps_of_cache (by rw [ht, printed_cache])
  | write dump phase phase' destination action file hphase hdestination hstep ht =>
      exact keeps_of_cache (by rw [ht, stored_cache])

/-- A step of another process. -/
structure Outside (a : ExportSystemAction ι) (s t : ExportState ι) : Prop where
  phase : t.phase = s.phase
  stdout : t.stdout = s.stdout
  files : ∀ path, t.files path = s.files path ∨ ∃ file, a = .changeFile path file

theorem step_cases {a : ExportSystemAction ι} (hstep : step env a s = some t) :
    Keeps env s t ∧ ((∃ call, Moves env call s t) ∨ Outside a s t) := by
  cases a with
  | command call action =>
      have hmoves := moves_commandStep hstep
      exact ⟨hmoves.keeps, Or.inl ⟨call, hmoves⟩⟩
  | insertIntoDb did data fault =>
      cases hstep
      refine ⟨keeps_of_table (insertIntoDb_extends fault _ did data), Or.inr ?_⟩
      exact ⟨rfl, rfl, fun _ => Or.inl rfl⟩
  | addFromDbFile rows fault =>
      cases hstep
      refine ⟨keeps_of_table (addFromDbFile_extends fault false _ rows), Or.inr ?_⟩
      exact ⟨rfl, rfl, fun _ => Or.inl rfl⟩
  | changeFile path file =>
      cases hstep
      refine ⟨keeps_of_cache rfl, Or.inr ⟨rfl, rfl, ?_⟩⟩
      intro path'
      by_cases hpath : path' = path
      · subst hpath
        exact Or.inr ⟨file, rfl⟩
      · exact Or.inl (Function.update_of_ne hpath ..)

theorem Moves.phase_other {other : ι} (h : Moves env call s t) (hother : other ≠ call) :
    t.phase other = s.phase other := by
  cases h with
  | fetch hfetch ht => rw [ht]
  | stop result hresult hphase ht => exact ht ▸ goto_phase_of_ne hother _
  | fetched opts data hphase hcommand hdata ht => exact ht ▸ goto_phase_of_ne hother _
  | check dump next destination hphase hdestination hfree ht =>
      exact ht ▸ goto_phase_of_ne hother _
  | print data written result hphase hwritten hresult ht => exact ht ▸ goto_phase_of_ne hother _
  | write dump phase phase' destination action file hphase hdestination hstep ht =>
      exact ht ▸ goto_phase_of_ne hother _

/-- A command changes a file only while it writes it. -/
theorem Moves.files_cases (h : Moves env call s t) (path : PathBuf) :
    t.files path = s.files path ∨ (env.command call).destination = some path ∧
      ∃ dump phase, s.phase call = .writing dump phase := by
  cases h with
  | fetch hfetch ht => exact Or.inl (by rw [ht])
  | stop result hresult hphase ht => exact Or.inl (by rw [ht]; rfl)
  | fetched opts data hphase hcommand hdata ht => exact Or.inl (by rw [ht]; rfl)
  | check dump next destination hphase hdestination hfree ht => exact Or.inl (by rw [ht]; rfl)
  | print data written result hphase hwritten hresult ht => exact Or.inl (by rw [ht]; rfl)
  | write dump phase phase' destination action file hphase hdestination hstep ht =>
      by_cases hpath : path = destination
      · subst hpath
        exact Or.inr ⟨hdestination, dump, phase, hphase⟩
      · exact Or.inl (by rw [ht, stored_files_of_ne hpath])

theorem Moves.stdout_other {other : ι} (h : Moves env call s t) (hother : other ≠ call) :
    t.stdout other = s.stdout other := by
  cases h with
  | fetch hfetch ht => rw [ht]
  | stop result hresult hphase ht => rw [ht]; rfl
  | fetched opts data hphase hcommand hdata ht => rw [ht]; rfl
  | check dump next destination hphase hdestination hfree ht => rw [ht]; rfl
  | print data written result hphase hwritten hresult ht => rw [ht, printed_stdout_of_ne hother]
  | write dump phase phase' destination action file hphase hdestination hstep ht => rw [ht]; rfl

theorem Moves.output_other {other : ι} (h : Moves env call s t) (hother : other ≠ call)
    (halone : ∀ path, (env.command other).destination = some path →
      (env.command call).destination ≠ some path) :
    t.output env other = s.output env other := by
  cases hown : (env.command other).destination with
  | none => rw [output_of_stdout hown, output_of_stdout hown, h.stdout_other hother]
  | some path =>
      rw [output_of_destination hown, output_of_destination hown]
      exact (h.files_cases path).resolve_right fun hwriting => halone path hown hwriting.1

/-- The command's own steps. -/
theorem Moves.commandInvariant {before : Option DbFile} (h : Moves env call s t)
    (hagrees : CacheState.Agrees env.did s.cache)
    (hinv : CommandInvariant env call before (s.output env call) s.cache.table (s.phase call)) :
    CommandInvariant env call before (t.output env call) t.cache.table (t.phase call) := by
  have hkeeps := h.keeps.table
  cases h with
  | fetch hfetch ht =>
      rw [ht]
      exact hinv.extends hkeeps
  | stop result hresult hphase ht =>
      subst ht
      have hbefore : s.output env call = before := by
        obtain hphase | ⟨dump, next, hphase⟩ := hphase
        · rw [hphase] at hinv
          exact hinv
        · rw [hphase] at hinv
          exact hinv.1
      rw [goto_output, goto_cache, goto_phase_self]
      exact commandInvariant_stopped hresult (Or.inl hbefore)
  | fetched opts data hphase hcommand hdata ht =>
      subst ht
      rw [hphase] at hinv
      have hexports : env.Exports call s.cache.table (encodeUtf8 data) := by
        simp only [ExportEnvironment.Exports, hcommand]
        exact hagrees call data hdata
      rw [goto_output, goto_cache, goto_phase_self]
      exact commandInvariant_fetched hcommand hexports hinv
  | check dump next destination hphase hdestination hfree ht =>
      subst ht
      rw [hphase] at hinv
      rw [goto_output, goto_cache, goto_phase_self]
      exact hinv.2
  | print data written result hphase hwritten hresult ht =>
      subst ht
      rw [hphase] at hinv
      obtain ⟨_, hexports, hstdout⟩ := hinv
      have houtput : (s.printed call written result).output env call = some (.bytes written) := by
        rw [output_of_stdout hstdout, printed_stdout_self]
      rw [houtput, printed_cache, printed_phase_self]
      by_cases hok : result = .ok ()
      · subst hok
        rw [hresult rfl]
        exact ⟨data, hexports, rfl⟩
      · exact commandInvariant_stopped hok (Or.inr ⟨data, written, hexports, hwritten, rfl⟩)
  | write dump phase phase' destination action file hphase hdestination hstep ht =>
      subst ht
      rw [hphase, output_of_destination hdestination] at hinv
      have hwrite := writeInvariant_downloadStep hinv.2 hstep
      rw [output_of_destination hdestination, stored_files_self, stored_cache, stored_phase_self]
      exact commandInvariant_written hinv.1 hwrite

/-! ## Runs -/

/-- No other process changes the file. -/
def Undisturbed (path : PathBuf) (actions : List (ExportSystemAction ι)) : Prop :=
  ∀ file, ExportSystemAction.changeFile path file ∉ actions

/-- Nobody else has the destination of the command. -/
def Alone (env : ExportEnvironment ι) (call : ι) (actions : List (ExportSystemAction ι)) : Prop :=
  ∀ path, (env.command call).destination = some path →
    Undisturbed path actions ∧ ∀ other, (env.command other).destination = some path → other = call

/-- What is known of a command that nobody disturbs. -/
def OwnInvariant (env : ExportEnvironment ι) (call : ι) (before : Option DbFile)
    (s : ExportState ι) : Prop :=
  CacheState.Agrees env.did s.cache ∧
    CommandInvariant env call before (s.output env call) s.cache.table (s.phase call)

theorem ownInvariant_step {a : ExportSystemAction ι} {before : Option DbFile}
    (hdisturbs : ∀ path file, (env.command call).destination = some path →
      a ≠ .changeFile path file)
    (halone : ∀ path, (env.command call).destination = some path →
      ∀ other, (env.command other).destination = some path → other = call)
    (h : OwnInvariant env call before s) (hstep : step env a s = some t) :
    OwnInvariant env call before t := by
  obtain ⟨hagrees, hinv⟩ := h
  obtain ⟨hkeeps, ⟨mover, hmoves⟩ | houtside⟩ := step_cases hstep
  · refine ⟨hkeeps.agrees hagrees, ?_⟩
    by_cases hmover : call = mover
    · subst hmover
      exact hmoves.commandInvariant hagrees hinv
    · have hsame := hmoves.output_other hmover fun path hpath hother =>
        hmover (halone path hpath mover hother).symm
      rw [hsame, hmoves.phase_other hmover]
      exact hinv.extends hkeeps.table
  · refine ⟨hkeeps.agrees hagrees, ?_⟩
    have hsame : t.output env call = s.output env call := by
      cases hown : (env.command call).destination with
      | none => rw [output_of_stdout hown, output_of_stdout hown, houtside.stdout]
      | some path =>
          rw [output_of_destination hown, output_of_destination hown]
          refine (houtside.files path).resolve_right ?_
          rintro ⟨file, hchange⟩
          exact hdisturbs path file hown hchange
    rw [hsame, houtside.phase]
    exact hinv.extends hkeeps.table

variable {files : PathBuf → Option DbFile} {table : InstanceData}
  {actions : List (ExportSystemAction ι)}

theorem ownInvariant_of_run (halone : Alone env call actions)
    (hrun : exec (step env) actions (start env files table) = some s) :
    OwnInvariant env call ((start env files table).output env call) s := by
  refine exec_invariant (fun a => ∀ path file, (env.command call).destination = some path →
    a ≠ .changeFile path file) ?_ ?_ hrun ?_
  · intro a s t hdisturbs hinv hstep
    exact ownInvariant_step hdisturbs (fun path hpath => (halone path hpath).2) hinv hstep
  · rintro a ha path file hpath rfl
    exact (halone path hpath).1 file ha
  · refine ⟨?_, ?_⟩
    · rintro other text ⟨⟩
    cases hcommand : env.command call with
    | exportInstance opts => simp [start, hcommand, CommandInvariant]
    | exportSolution opts =>
        simp [start, hcommand, CommandInvariant, ExportEnvironment.Exports, WriteInvariant]

/-- A file that no command is forced to overwrite. -/
structure KeptInvariant (env : ExportEnvironment ι) (path : PathBuf) (file : DbFile)
    (s : ExportState ι) : Prop where
  file : s.files path = some file
  unwritten : ∀ call, (env.command call).destination = some path →
    (∀ dump phase, s.phase call ≠ .writing dump phase) ∧
      (∀ data, s.phase call ≠ .printing data) ∧ s.phase call ≠ .returned (.ok ())

theorem Moves.kept {path : PathBuf} {file : DbFile}
    (hunforced : ∀ call, (env.command call).destination = some path →
      (env.command call).force = false)
    (hinv : KeptInvariant env path file s) (h : Moves env call s t) :
    KeptInvariant env path file t := by
  refine ⟨?_, ?_⟩
  · rw [(h.files_cases path).resolve_right]
    · exact hinv.file
    · rintro ⟨hdestination, dump, phase, hwriting⟩
      exact (hinv.unwritten call hdestination).1 dump phase hwriting
  · intro other hother
    by_cases hcall : other = call
    · subst hcall
      have hunwritten := hinv.unwritten other hother
      cases h with
      | fetch hfetch ht =>
          rw [ht]
          exact hunwritten
      | stop result hresult hphase ht =>
          rw [ht, goto_phase_self]
          refine ⟨by simp, by simp, ?_⟩
          simpa using hresult
      | fetched opts data hphase hcommand hdata ht =>
          rw [hcommand] at hother
          have hfetched : opts.fetched (encodeUtf8 data) =
              .checking (encodeUtf8 data) (.create [encodeUtf8 data]) := by
            rw [ExportInstanceOpts.fetched, show opts.destination = some path from hother]
          rw [ht, goto_phase_self, hfetched]
          simp
      | check dump next destination hphase hdestination hfree ht =>
          -- the file is there, so the command would have stopped
          obtain rfl : destination = path := Option.some.inj (hdestination.symm.trans hother)
          have hforce := hunforced other hother
          unfold ExportEnvironment.refuses at hfree
          split at hfree
          · rename_i opts hcommand
            rw [hcommand] at hforce
            simp [ExportCommand.force] at hforce
            simp [hforce, hinv.file] at hfree
          · rename_i opts hcommand
            rw [hcommand] at hforce
            simp [ExportCommand.force] at hforce
            simp [hforce, hinv.file] at hfree
      | print data written result hphase hwritten hresult ht =>
          exact (hunwritten.2.1 data hphase).elim
      | write dump phase phase' destination action file hphase hdestination hstep ht =>
          exact (hunwritten.1 dump phase hphase).elim
    · rw [h.phase_other hcall]
      exact hinv.unwritten other hother

theorem keptInvariant_of_run {path : PathBuf} {file : DbFile} (hfile : files path = some file)
    (hundisturbed : Undisturbed path actions)
    (hunforced : ∀ call, (env.command call).destination = some path →
      (env.command call).force = false)
    (hrun : exec (step env) actions (start env files table) = some s) :
    KeptInvariant env path file s := by
  refine exec_invariant (fun a => ∀ file, a ≠ .changeFile path file) ?_ ?_ hrun ?_
  · intro a s t hdisturbs hinv hstep
    obtain ⟨_, ⟨mover, hmoves⟩ | houtside⟩ := step_cases hstep
    · exact hmoves.kept hunforced hinv
    · refine ⟨?_, ?_⟩
      · rw [(houtside.files path).resolve_right fun ⟨file, hchange⟩ => hdisturbs file hchange]
        exact hinv.file
      · rw [houtside.phase]
        exact hinv.unwritten
  · rintro a ha file rfl
    exact hundisturbed file ha
  · refine ⟨hfile, ?_⟩
    intro call hcall
    cases hcommand : env.command call with
    | exportInstance opts => simp [start, hcommand]
    | exportSolution opts => simp [start, hcommand]

theorem files_of_run {path : PathBuf} (hundisturbed : Undisturbed path actions)
    (hnobody : ∀ call, (env.command call).destination ≠ some path)
    (hrun : exec (step env) actions (start env files table) = some s) :
    s.files path = files path := by
  have hstep : ∀ (a : ExportSystemAction ι) (s t : ExportState ι),
      (∀ file, a ≠ .changeFile path file) → s.files path = files path →
      step env a s = some t → t.files path = files path := by
    intro a s t hdisturbs hfiles hstep
    obtain ⟨_, ⟨mover, hmoves⟩ | houtside⟩ := step_cases hstep
    · exact ((hmoves.files_cases path).resolve_right fun h => hnobody mover h.1).trans hfiles
    · refine Eq.trans ?_ hfiles
      exact (houtside.files path).resolve_right fun ⟨file, hchange⟩ => hdisturbs file hchange
  refine exec_invariant _ hstep ?_ hrun rfl
  rintro a ha file rfl
  exact hundisturbed file ha

/-! ## All commands -/

/-- What export commands leave; `files` and `table` are those before the first of them. -/
structure ExportSpec (env : ExportEnvironment ι) (files : PathBuf → Option DbFile)
    (table : InstanceData) (actions : List (ExportSystemAction ι)) (s : ExportState ι) : Prop where
  kept : ∀ path file, files path = some file → Undisturbed path actions →
    (∀ call, (env.command call).destination = some path → (env.command call).force = false) →
    s.files path = some file ∧
      ∀ call, (env.command call).destination = some path → s.phase call ≠ .returned (.ok ())
  confined : ∀ path, Undisturbed path actions →
    (∀ call, (env.command call).destination ≠ some path) → s.files path = files path
  exported : ∀ call, Alone env call actions → s.phase call = .returned (.ok ()) →
    ∃ dump, env.Exports call s.cache.table dump ∧ s.output env call = some (.bytes dump)
  torn : ∀ call, Alone env call actions →
    Torn env call ((start env files table).output env call) (s.output env call) s.cache.table
  agree : ∀ call call' opts opts', env.command call = .exportInstance opts →
    env.command call' = .exportInstance opts' → env.did call = env.did call' →
    Alone env call actions → Alone env call' actions → s.phase call = .returned (.ok ()) →
    s.phase call' = .returned (.ok ()) → s.output env call = s.output env call'

theorem commandExport_safe (hrun : exec (step env) actions (start env files table) = some s) :
    ExportSpec env files table actions s := by
  have hexported : ∀ call, Alone env call actions → s.phase call = .returned (.ok ()) →
      ∃ dump, env.Exports call s.cache.table dump ∧ s.output env call = some (.bytes dump) := by
    intro call halone hreturned
    have hinv := (ownInvariant_of_run halone hrun).2
    rw [hreturned] at hinv
    exact hinv
  refine ⟨?_, ?_, hexported, ?_, ?_⟩
  · intro path file hfile hundisturbed hunforced
    have hkept := keptInvariant_of_run hfile hundisturbed hunforced hrun
    exact ⟨hkept.file, fun call hcall => (hkept.unwritten call hcall).2.2⟩
  · intro path hundisturbed hnobody
    exact files_of_run hundisturbed hnobody hrun
  · intro call halone
    exact (ownInvariant_of_run halone hrun).2.torn
  · intro call call' opts opts' hcommand hcommand' hdid halone halone' hreturned hreturned'
    obtain ⟨dump, hdump, houtput⟩ := hexported call halone hreturned
    obtain ⟨dump', hdump', houtput'⟩ := hexported call' halone' hreturned'
    simp only [ExportEnvironment.Exports, hcommand] at hdump
    simp only [ExportEnvironment.Exports, hcommand'] at hdump'
    rw [hdid] at hdump
    rw [houtput, houtput', Option.some.inj (hdump.symm.trans hdump')]

/-- One instance to the file that is named after it and to the standard output, and a solution to a
file that is there already. -/
def exportCommands : Fin 3 → ExportCommand
  | 0 => .exportInstance ⟨⟨1⟩, some ["/"], false⟩
  | 1 => .exportInstance ⟨⟨1⟩, none, true⟩
  | 2 => .exportSolution ⟨false, ⟨1⟩, ["best.sol"], ⟨.replicate 16 0⟩, ⟨.replicate 16 1⟩⟩

def exportEnvironment : ExportEnvironment (Fin 3) :=
  { command := exportCommands
    dataDid := fun _ => ⟨1670⟩
    server := fun _ _ => [49, 10]
    isDir := fun _ => false }

def bestSolution : PathBuf → Option DbFile := fun path =>
  if path = ["best.sol"] then some (.bytes [50, 10]) else none

/-- Another process tries to store another text for the instance. -/
def exportActions : List (ExportSystemAction (Fin 3)) :=
  [.command 0 (.fetch (.lookup none)), .command 0 (.fetch (.download (.ok ['p']))),
    .command 2 .proceed, .command 0 (.fetch (.insert none)), .command 1 (.fetch (.lookup none)),
    .command 0 .proceed, .command 0 .proceed, .command 1 .proceed, .command 0 (.write .create),
    .insertIntoDb ⟨1670⟩ ['q'] none, .command 0 (.write .receive), .command 1 .proceed,
    .command 0 (.write .close)]

theorem commandExport_safe_three :
    ∃ s, exec (step exportEnvironment) exportActions (start exportEnvironment bestSolution ∅) =
        some s ∧
      s.phase 0 = .returned (.ok ()) ∧ s.phase 1 = .returned (.ok ()) ∧
      ExportSpec exportEnvironment bestSolution ∅ exportActions s := by
  have hrun : exec (step exportEnvironment) exportActions
      (start exportEnvironment bestSolution ∅) = some _ := rfl
  exact ⟨_, hrun, rfl, rfl, commandExport_safe hrun⟩

end ExportState

end StrideRunner
