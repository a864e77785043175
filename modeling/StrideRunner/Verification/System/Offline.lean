import StrideRunner.Verification.System.Cached
import StrideRunner.Verification.System.Repeat
import StrideRunner.Verification.System.TimeLimit

/-! # Runs without a server

What a run has logged it has stored. A later run on the same database finds the texts of these
instances there, so it needs no server for them, and it judges the same texts. -/

namespace StrideRunner

open Library InstanceDataDB

/-- The text of the instance is in the database. -/
def Stored (env : RunEnvironment) (table : InstanceData) (iid : IId) : Prop :=
  ∃ info text, env.fetchInstance iid = .ok info ∧
    table.lookup info.dataDid = some (encodeUtf8 text)

variable {env env' : RunEnvironment} {table table' : InstanceData} {iid : IId}

theorem Stored.extends (h : Stored env table iid) (hextends : UniqueTable.Extends table table') :
    Stored env table' iid := by
  obtain ⟨info, text, hinfo, htext⟩ := h
  exact ⟨info, text, hinfo, hextends _ _ htext⟩

/-! ## Texts from a table -/

theorem fetchData_withTable_eq_ok {did : DId} {text : List Char}
    (h : (env.withTable table).fetchData iid did = .ok text) :
    table.lookup did = some (encodeUtf8 text) := by
  obtain ⟨stored, hstored, hresult⟩ := Outcome.bind_eq_ok.mp h
  cases stored with
  | none => cases hresult
  | some stored =>
      cases hresult
      exact fetchDataFromDb_eq_ok_some hstored

section

variable {info : InstanceModel} {data : List Char} {result : SolverResult}

theorem Fetched.stored (h : Fetched (env.withTable table) iid info data) :
    Stored env table iid := by
  obtain ⟨text, htext, _⟩ := h.input
  exact ⟨info, text, h.row, fetchData_withTable_eq_ok htext⟩

theorem Fetched.extends (h : Fetched (env.withTable table) iid info data)
    (hextends : UniqueTable.Extends table table') :
    Fetched (env.withTable table') iid info data := by
  obtain ⟨text, htext, hdata⟩ := h.input
  have hlater : (env.withTable table').fetchData iid info.dataDid = .ok text :=
    fetchData_withTable (hextends _ _ (fetchData_withTable_eq_ok htext))
  exact ⟨h.row, text, hlater, hdata⟩

/-- New rows do not change how a stored text is judged. -/
theorem Judged.extends (h : Judged (env.withTable table) iid info data result)
    (hextends : UniqueTable.Extends table table') :
    Judged (env.withTable table') iid info data result :=
  ⟨h.toFetched.extends hextends, h.verdict⟩

end

theorem SameJobs.withTable (h : SameJobs env env') (table : InstanceData) :
    SameJobs (env.withTable table) (env'.withTable table) :=
  ⟨h.profile, h.stripComments, h.fetchInstance, rfl, h.solver⟩

namespace CachedState

variable {s t : CachedState} {instances : List IId} {fs : FileSystem}
  {actions : List CachedAction}

/-- The job behind a logged line, with its text in the database. -/
theorem exists_judged_of_line (hslots : 1 ≤ env.opts.parallelJobs) (hnodup : instances.Nodup)
    (hrun : exec (step env) actions (start env instances fs table) = some s) {line : SummaryLine}
    (hline : line ∈ s.system.run.summary) :
    ∃ info data result jobResult,
      Judged (env.withTable s.cache.table) line.iid info data result ∧
      Job.toResultType result info = .ok jobResult.state ∧
      line = logJobResult line.iid jobResult := by
  obtain ⟨_, labels, hplain⟩ := exists_plainRun hrun
  have hopts : 1 ≤ (env.withTable s.cache.table).opts.parallelJobs := hslots
  obtain ⟨info, data, result, jobResult, hjudged, hstate, _, hlog⟩ :=
    SystemState.exists_judged_of_line hopts hnodup hplain hline
  exact ⟨info, data, result, jobResult, hjudged, hstate, hlog⟩

end CachedState

end StrideRunner
