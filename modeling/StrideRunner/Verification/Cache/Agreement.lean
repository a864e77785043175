import StrideRunner.Model.Utils.InstanceDataDB

/-! # Agreement and immutability of the cache

Each step of a fetch changes only its own phase, and the table only together with a successful
return. All writers extend the table, so a row once stored is the answer of every later fetch. -/

namespace StrideRunner

open Library InstanceDataDB

/-- The call that performs the action. -/
def CacheAction.call {ι : Type} : CacheAction ι → Option ι
  | .lookup call _ => some call
  | .download call _ => some call
  | .insert call _ => some call
  | .insertIntoDb _ _ _ => none
  | .addFromDbFile _ _ => none

/-! ## Statements -/

theorem fetchDataFromDb_eq_ok_some {fault : Fault} {table : InstanceData} {did : DId}
    {text : List Char} (h : fetchDataFromDb fault table did = .ok (some text)) :
    table.lookup did = some (encodeUtf8 text) := by
  unfold fetchDataFromDb at h
  split at h
  · cases h
  · split at h
    · cases h
    · rename_i data hdata
      split at h
      · rename_i text' htext
        cases h
        rw [hdata, encodeUtf8_of_decodeUtf8 htext]
      · cases h

/-- An insert either adds the row or leaves the table as it was. -/
theorem insertIntoDb_cases (fault : Fault) (table : InstanceData) (did : DId)
    (data : List Char) :
    (∃ table', insertIntoDb fault table did data = (.ok (), table') ∧
      UniqueTable.insertNew did (encodeUtf8 data) table = some table') ∨
      ∃ error, insertIntoDb fault table did data = (.err error, table) := by
  unfold insertIntoDb
  cases fault with
  | some error => exact Or.inr ⟨error, rfl⟩
  | none =>
      cases hinsert : UniqueTable.insertNew did (encodeUtf8 data) table with
      | none => exact Or.inr ⟨uniqueViolation, rfl⟩
      | some table' => exact Or.inl ⟨table', rfl, rfl⟩

theorem insertIntoDb_extends (fault : Fault) (table : InstanceData) (did : DId)
    (data : List Char) : UniqueTable.Extends table (insertIntoDb fault table did data).2 := by
  obtain ⟨table', hresult, hinsert⟩ | ⟨error, hresult⟩ := insertIntoDb_cases fault table did data
  · rw [hresult]
    exact UniqueTable.extends_insertNew hinsert
  · rw [hresult]
    exact UniqueTable.Extends.refl table

theorem addFromDbFile_extends (fault : MergeFault) (attached : Bool) (table : InstanceData)
    (rows : List (DId × Bytes)) :
    UniqueTable.Extends table (addFromDbFile fault attached table rows).2.2 := by
  unfold addFromDbFile
  cases attached with
  | true => exact UniqueTable.Extends.refl table
  | false =>
      cases fault with
      | none => exact UniqueTable.extends_merge table rows
      | attach error => exact UniqueTable.Extends.refl table
      | insert error => exact UniqueTable.Extends.refl table
      | detach error => exact UniqueTable.extends_merge table rows

namespace CacheState

variable {ι : Type} [DecidableEq ι] {did : ι → DId} {s t : CacheState ι}

@[simp] theorem setPhase_phase_self (call : ι) (phase : FetchPhase) :
    (s.setPhase call phase).phase call = phase :=
  Function.update_self ..

theorem setPhase_phase_of_ne {call other : ι} (phase : FetchPhase) (h : other ≠ call) :
    (s.setPhase call phase).phase other = s.phase other :=
  Function.update_of_ne h ..

@[simp] theorem setPhase_table (call : ι) (phase : FetchPhase) :
    (s.setPhase call phase).table = s.table := rfl

/-! ## One step -/

/-- What a step of this call does: the table changes only when the call returns what it has
inserted. -/
structure FetchStep (did : ι → DId) (call : ι) (s t : CacheState ι) : Prop where
  others : ∀ other ≠ call, t.phase other = s.phase other
  unreturned : ∀ outcome, s.phase call ≠ .returned outcome
  table_cases : t.table = s.table ∨ ∃ text, t.phase call = .returned (.ok text) ∧
    UniqueTable.insertNew (did call) (encodeUtf8 text) s.table = some t.table
  stored : ∀ text, t.phase call = .returned (.ok text) →
    t.table.lookup (did call) = some (encodeUtf8 text)

theorem fetchStep_setPhase {call : ι} {phase : FetchPhase}
    (hunreturned : ∀ outcome, s.phase call ≠ .returned outcome)
    (hphase : ∀ text, phase = .returned (.ok text) →
      s.table.lookup (did call) = some (encodeUtf8 text)) :
    FetchStep did call s (s.setPhase call phase) := by
  refine ⟨fun other hne => setPhase_phase_of_ne phase hne, hunreturned, Or.inl rfl, ?_⟩
  intro text htext
  rw [setPhase_phase_self] at htext
  exact hphase text htext

theorem fetchStep_lookup {call : ι} {fault : Fault} (hphase : s.phase call = .lookup) :
    FetchStep did call s (s.lookupStep fault call (did call)) := by
  have hunreturned : ∀ outcome, s.phase call ≠ .returned outcome := by simp [hphase]
  unfold lookupStep
  split
  · rename_i data hdata
    apply fetchStep_setPhase hunreturned
    rintro text ⟨⟩
    exact fetchDataFromDb_eq_ok_some hdata
  · exact fetchStep_setPhase hunreturned (by simp)
  · exact fetchStep_setPhase hunreturned (by simp)
  · exact fetchStep_setPhase hunreturned (by simp)

theorem fetchStep_insert {call : ι} {fault : Fault} {fromServer : List Char}
    (hphase : s.phase call = .insert fromServer) :
    FetchStep did call s (s.insertStep fault call (did call) fromServer) := by
  have hunreturned : ∀ outcome, s.phase call ≠ .returned outcome := by simp [hphase]
  obtain ⟨table', hresult, hinsert⟩ | ⟨error, hresult⟩ :=
    insertIntoDb_cases fault s.table (did call) fromServer
  · have hstep : s.insertStep fault call (did call) fromServer =
        { s with table := table' }.setPhase call (.returned (.ok fromServer)) := by
      simp only [insertStep, hresult]
    rw [hstep]
    refine ⟨fun other hne => setPhase_phase_of_ne _ hne, hunreturned, ?_, ?_⟩
    · exact Or.inr ⟨fromServer, setPhase_phase_self _ _, hinsert⟩
    · intro text htext
      rw [setPhase_phase_self] at htext
      cases htext
      obtain ⟨_, rfl⟩ := UniqueTable.lookup_insertNew hinsert
      exact AList.lookup_insert s.table
  · have hstep : s.insertStep fault call (did call) fromServer =
        s.setPhase call (.returned (.err error)) := by
      simp only [insertStep, hresult]
    rw [hstep]
    exact fetchStep_setPhase hunreturned (by simp)

theorem fetchStep_of_step {a : CacheAction ι} {call : ι} (hcall : a.call = some call)
    (hstep : cacheStep did a s = some t) : FetchStep did call s t := by
  cases a with
  | lookup call' fault =>
      cases hcall
      simp only [cacheStep] at hstep
      split at hstep
      · rename_i hphase
        cases hstep
        exact fetchStep_lookup hphase
      · cases hstep
  | download call' answer =>
      cases hcall
      simp only [cacheStep] at hstep
      split at hstep
      · rename_i hphase
        cases answer with
        | ok text =>
            cases hstep
            exact fetchStep_setPhase (by simp [hphase]) (by simp)
        | error error =>
            cases hstep
            exact fetchStep_setPhase (by simp [hphase]) (by simp)
      · cases hstep
  | insert call' fault =>
      cases hcall
      simp only [cacheStep] at hstep
      split at hstep
      · rename_i fromServer hphase
        cases hstep
        exact fetchStep_insert hphase
      · cases hstep
  | insertIntoDb did data fault => cases hcall
  | addFromDbFile rows fault => cases hcall

omit [DecidableEq ι] in
theorem FetchStep.table_extends {call : ι} (h : FetchStep did call s t) :
    UniqueTable.Extends s.table t.table := by
  rcases h.table_cases with hsame | ⟨text, _, hinsert⟩
  · rw [hsame]
    exact UniqueTable.Extends.refl s.table
  · exact UniqueTable.extends_insertNew hinsert

/-- The other operations extend the table and do not touch the calls. -/
theorem otherStep_of_step {a : CacheAction ι} (hcall : a.call = none)
    (hstep : cacheStep did a s = some t) :
    t.phase = s.phase ∧ UniqueTable.Extends s.table t.table := by
  cases a with
  | lookup call fault => cases hcall
  | download call answer => cases hcall
  | insert call fault => cases hcall
  | insertIntoDb did' data fault =>
      cases hstep
      exact ⟨rfl, insertIntoDb_extends fault s.table did' data⟩
  | addFromDbFile rows fault =>
      cases hstep
      exact ⟨rfl, addFromDbFile_extends fault s.attached s.table rows⟩

/-! ## Runs -/

/-- Rows and results are permanent. -/
structure Later (s t : CacheState ι) : Prop where
  table : UniqueTable.Extends s.table t.table
  returned : ∀ call outcome, s.phase call = .returned outcome → t.phase call = .returned outcome

omit [DecidableEq ι] in
theorem Later.refl (s : CacheState ι) : Later s s :=
  ⟨UniqueTable.Extends.refl s.table, fun _ _ h => h⟩

omit [DecidableEq ι] in
theorem Later.trans {u : CacheState ι} (h : Later s t) (h' : Later t u) : Later s u :=
  ⟨h.table.trans h'.table,
    fun call outcome hs => h'.returned call outcome (h.returned call outcome hs)⟩

theorem later_of_step {a : CacheAction ι} (hstep : cacheStep did a s = some t) : Later s t := by
  cases hcall : a.call with
  | none =>
      obtain ⟨hphase, hextends⟩ := otherStep_of_step hcall hstep
      refine ⟨hextends, ?_⟩
      intro call outcome hreturned
      rw [hphase, hreturned]
  | some call =>
      have hfetch := fetchStep_of_step hcall hstep
      refine ⟨hfetch.table_extends, ?_⟩
      intro other outcome hreturned
      have hne : other ≠ call := by
        rintro rfl
        exact hfetch.unreturned outcome hreturned
      rw [hfetch.others other hne, hreturned]

theorem later_of_run {actions : List (CacheAction ι)}
    (hrun : exec (cacheStep did) actions s = some t) : Later s t :=
  exec_relation Later.refl Later.trans (fun _ _ _ => later_of_step) hrun

/-- Every successful fetch agrees with the table. -/
def Agrees (did : ι → DId) (s : CacheState ι) : Prop :=
  ∀ call text, s.phase call = .returned (.ok text) →
    s.table.lookup (did call) = some (encodeUtf8 text)

theorem agrees_of_step {a : CacheAction ι} (h : Agrees did s)
    (hstep : cacheStep did a s = some t) : Agrees did t := by
  have hextends := (later_of_step hstep).table
  intro call text htext
  cases hcall : a.call with
  | none =>
      rw [(otherStep_of_step hcall hstep).1] at htext
      exact hextends _ _ (h call text htext)
  | some call' =>
      have hfetch := fetchStep_of_step hcall hstep
      by_cases hne : call = call'
      · subst hne
        exact hfetch.stored text htext
      · rw [hfetch.others call hne] at htext
        exact hextends _ _ (h call text htext)

theorem agrees_of_run {table : InstanceData} {actions : List (CacheAction ι)}
    (hrun : exec (cacheStep did) actions (start table) = some s) : Agrees did s := by
  refine exec_invariant (fun _ => True) ?_ (fun _ _ => trivial) hrun ?_
  · intro a s t _ hs hstep
    exact agrees_of_step hs hstep
  · intro call text htext
    cases htext

/-- What any interleaving of the operations guarantees; the run is cut at an arbitrary point. -/
structure CacheSpec (did : ι → DId) (table : InstanceData) (actions : List (CacheAction ι))
    (s : CacheState ι) : Prop where
  rowsKept : ∀ before after mid, actions = before ++ after →
    exec (cacheStep did) before (start table) = some mid →
    UniqueTable.Extends mid.table s.table
  okIsStored : ∀ before after mid call text, actions = before ++ after →
    exec (cacheStep did) before (start table) = some mid →
    mid.phase call = .returned (.ok text) → s.table.lookup (did call) = some (encodeUtf8 text)
  failedFetchKeeps : ∀ before a after mid next call error, actions = before ++ a :: after →
    exec (cacheStep did) before (start table) = some mid → cacheStep did a mid = some next →
    a.call = some call → s.phase call = .returned (.err error) → next.table = mid.table
  failedInsertKeeps : ∀ fault table did data error,
    (insertIntoDb fault table did data).1 = .err error →
    (insertIntoDb fault table did data).2 = table
  okAgree : ∀ call call' text text', s.phase call = .returned (.ok text) →
    s.phase call' = .returned (.ok text') → did call = did call' → text = text'

theorem cache_agreement {table : InstanceData} {actions : List (CacheAction ι)}
    (hrun : exec (cacheStep did) actions (start table) = some s) :
    CacheSpec did table actions s := by
  have hagrees : Agrees did s := agrees_of_run hrun
  refine ⟨?_, ?_, ?_, ?_, ?_⟩
  · rintro before after mid rfl hbefore
    obtain ⟨mid', hmid, hafter⟩ := exec_append_eq_some.mp hrun
    cases hbefore.symm.trans hmid
    exact (later_of_run hafter).table
  · rintro before after mid call text rfl hbefore htext
    obtain ⟨mid', hmid, hafter⟩ := exec_append_eq_some.mp hrun
    cases hbefore.symm.trans hmid
    exact hagrees call text ((later_of_run hafter).returned call _ htext)
  · rintro before a after mid next call error rfl hbefore hstep hcall herror
    obtain ⟨mid', hmid, hrest⟩ := exec_append_eq_some.mp hrun
    cases hbefore.symm.trans hmid
    obtain ⟨next', hnext, hafter⟩ := exec_cons_eq_some.mp hrest
    cases hstep.symm.trans hnext
    rcases (fetchStep_of_step hcall hstep).table_cases with hsame | ⟨text, htext, _⟩
    · exact hsame
    · have hok := (later_of_run hafter).returned call _ htext
      cases herror.symm.trans hok
  · intro fault table did data error herror
    obtain ⟨table', hresult, _⟩ | ⟨error', hresult⟩ := insertIntoDb_cases fault table did data
    · rw [hresult] at herror
      cases herror
    · rw [hresult]
  · intro call call' text text' htext htext' hdid
    have hstored := hagrees call text htext
    rw [hdid, hagrees call' text' htext'] at hstored
    have hdecode := congrArg decodeUtf8 (Option.some.inj hstored)
    rw [decodeUtf8_encodeUtf8, decodeUtf8_encodeUtf8] at hdecode
    exact (Option.some.inj hdecode).symm

/-- Two calls for the same did: one stores its text, the lookup of the other one fails. -/
def sharedDid : Bool → DId := fun _ => ⟨1670⟩

def sharedActions : List (CacheAction Bool) :=
  [.lookup true none, .download true (.ok ['p']), .insert true none,
    .lookup false (some (.message "database is locked"))]

theorem cache_agreement_shared :
    ∃ s, exec (cacheStep sharedDid) sharedActions (start ∅) = some s ∧
      CacheSpec sharedDid ∅ sharedActions s := by
  have hrun : exec (cacheStep sharedDid) sharedActions (start ∅) = some _ := rfl
  exact ⟨_, hrun, cache_agreement hrun⟩

end CacheState

end StrideRunner
