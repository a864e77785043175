import StrideRunner.Verification.Cache.Agreement

/-! # Concurrent misses

The lock is released between the lookup and the insert. Two calls that miss the same did both
insert, and the second insert violates the primary key. -/

namespace StrideRunner

open Library InstanceDataDB

/-- The server answers and no statement fails for reasons of its own. -/
def CacheAction.IsFaultless {ι : Type} : CacheAction ι → Prop
  | .lookup _ fault => fault = none
  | .download _ answer => ∃ text, answer = .ok text
  | .insert _ fault => fault = none
  | .insertIntoDb _ _ _ => False
  | .addFromDbFile _ _ => False

def ValidUtf8 (table : InstanceData) : Prop :=
  ∀ did data, table.lookup did = some data → (decodeUtf8 data).isSome

namespace CacheState

variable {ι : Type} [DecidableEq ι] {did : ι → DId} {s t : CacheState ι} {table : InstanceData}

/-! ## Steps without faults -/

theorem step_lookup_miss {call : ι} (hphase : s.phase call = .lookup)
    (hmiss : did call ∉ s.table) :
    cacheStep did (.lookup call none) s = some (s.setPhase call .download) := by
  have hnone : s.table.lookup (did call) = none := AList.lookup_eq_none.mpr hmiss
  simp [cacheStep, hphase, lookupStep, fetchDataFromDb, hnone]

theorem step_lookup_hit {call : ι} (hphase : s.phase call = .lookup) (hutf8 : ValidUtf8 s.table)
    (hhit : did call ∈ s.table) :
    ∃ text, cacheStep did (.lookup call none) s =
      some (s.setPhase call (.returned (.ok text))) := by
  obtain ⟨data, hdata⟩ := Option.isSome_iff_exists.mp (AList.lookup_isSome.mpr hhit)
  obtain ⟨text, htext⟩ := Option.isSome_iff_exists.mp (hutf8 _ _ hdata)
  refine ⟨text, ?_⟩
  simp [cacheStep, hphase, lookupStep, fetchDataFromDb, hdata, htext]

theorem step_download {call : ι} (text : List Char) (hphase : s.phase call = .download) :
    cacheStep did (.download call (.ok text)) s = some (s.setPhase call (.insert text)) := by
  simp [cacheStep, hphase]

theorem step_insert_new {call : ι} {text : List Char} (hphase : s.phase call = .insert text)
    (hnew : did call ∉ s.table) :
    cacheStep did (.insert call none) s =
      some ({ s with table := s.table.insert (did call) (encodeUtf8 text) }.setPhase call
        (.returned (.ok text))) := by
  simp [cacheStep, hphase, insertStep, insertIntoDb, UniqueTable.insertNew, hnew]

theorem step_insert_present {call : ι} {text : List Char} (hphase : s.phase call = .insert text)
    (hpresent : did call ∈ s.table) :
    cacheStep did (.insert call none) s =
      some (s.setPhase call (.returned (.err uniqueViolation))) := by
  simp [cacheStep, hphase, insertStep, insertIntoDb, UniqueTable.insertNew, hpresent]

/-! ## Distinct misses -/

/-- Calls past their lookup have missed and will insert a new key; calls that have returned have
found or stored their row. -/
structure MissInvariant (did : ι → DId) (table : InstanceData) (s : CacheState ι) : Prop where
  table_extends : UniqueTable.Extends table s.table
  utf8 : ValidUtf8 s.table
  pending : ∀ call, s.phase call ≠ .lookup → (∀ outcome, s.phase call ≠ .returned outcome) →
    did call ∉ s.table
  returned : ∀ call outcome, s.phase call = .returned outcome →
    (∃ text, outcome = .ok text) ∧ did call ∈ s.table

omit [DecidableEq ι] in
theorem missInvariant_start (hutf8 : ValidUtf8 table) :
    MissInvariant did table (start table : CacheState ι) := by
  refine ⟨UniqueTable.Extends.refl table, hutf8, ?_, ?_⟩
  · intro call hphase
    exact (hphase rfl).elim
  · intro call outcome hreturned
    cases hreturned

theorem MissInvariant.setPhase (h : MissInvariant did table s) {call : ι} {phase : FetchPhase}
    (hpending : (∀ outcome, phase ≠ .returned outcome) → did call ∉ s.table)
    (hreturned : ∀ outcome, phase = .returned outcome →
      (∃ text, outcome = .ok text) ∧ did call ∈ s.table) :
    MissInvariant did table (s.setPhase call phase) := by
  refine ⟨h.table_extends, h.utf8, ?_, ?_⟩
  · intro other hlookup hunreturned
    by_cases hne : other = call
    · subst hne
      rw [setPhase_phase_self] at hunreturned
      exact hpending hunreturned
    · rw [setPhase_phase_of_ne _ hne] at hlookup hunreturned
      exact h.pending other hlookup hunreturned
  · intro other outcome hphase
    by_cases hne : other = call
    · subst hne
      rw [setPhase_phase_self] at hphase
      exact hreturned outcome hphase
    · rw [setPhase_phase_of_ne _ hne] at hphase
      exact h.returned other outcome hphase

/-- A new row is the row of one call only, so it is no obstacle to the other pending calls. -/
theorem MissInvariant.insert (hdistinct : ∀ i j, did i = did j → did i ∉ table → i = j)
    (h : MissInvariant did table s) {call : ι} (text : List Char) (hnew : did call ∉ s.table) :
    MissInvariant did table
      ({ s with table := s.table.insert (did call) (encodeUtf8 text) }.setPhase call
        (.returned (.ok text))) := by
  have hinsert : UniqueTable.insertNew (did call) (encodeUtf8 text) s.table =
      some (s.table.insert (did call) (encodeUtf8 text)) := by
    simp [UniqueTable.insertNew, hnew]
  refine ⟨h.table_extends.trans (UniqueTable.extends_insertNew hinsert), ?_, ?_, ?_⟩
  · intro other data hdata
    by_cases hother : other = did call
    · subst hother
      rw [setPhase_table, AList.lookup_insert] at hdata
      cases hdata
      simp
    · rw [setPhase_table, AList.lookup_insert_ne hother] at hdata
      exact h.utf8 other data hdata
  · intro other hlookup hunreturned
    by_cases hne : other = call
    · subst hne
      rw [setPhase_phase_self] at hunreturned
      exact (hunreturned _ rfl).elim
    · rw [setPhase_phase_of_ne _ hne] at hlookup hunreturned
      have hmiss : did other ∉ s.table := h.pending other hlookup hunreturned
      intro hmem
      rcases (AList.mem_insert s.table).mp hmem with hsame | hold
      · exact hne (hdistinct other call hsame fun htable => hmiss (h.table_extends.mem htable))
      · exact hmiss hold
  · intro other outcome hphase
    by_cases hne : other = call
    · subst hne
      rw [setPhase_phase_self] at hphase
      cases hphase
      exact ⟨⟨text, rfl⟩, (AList.mem_insert s.table).mpr (Or.inl rfl)⟩
    · rw [setPhase_phase_of_ne _ hne] at hphase
      obtain ⟨hok, hmem⟩ := h.returned other outcome hphase
      exact ⟨hok, (AList.mem_insert s.table).mpr (Or.inr hmem)⟩

theorem missInvariant_step (hdistinct : ∀ i j, did i = did j → did i ∉ table → i = j)
    {a : CacheAction ι} (hfaultless : a.IsFaultless) (h : MissInvariant did table s)
    (hstep : cacheStep did a s = some t) : MissInvariant did table t := by
  cases a with
  | lookup call fault =>
      cases hfaultless
      have hphase : s.phase call = .lookup := by
        simp only [cacheStep] at hstep
        split at hstep
        · assumption
        · cases hstep
      by_cases hhit : did call ∈ s.table
      · obtain ⟨text, htext⟩ := step_lookup_hit hphase h.utf8 hhit
        cases htext.symm.trans hstep
        apply h.setPhase (fun hunreturned => (hunreturned _ rfl).elim)
        rintro outcome ⟨⟩
        exact ⟨⟨text, rfl⟩, hhit⟩
      · cases (step_lookup_miss hphase hhit).symm.trans hstep
        exact h.setPhase (fun _ => hhit) (by simp)
  | download call answer =>
      obtain ⟨text, rfl⟩ := hfaultless
      have hphase : s.phase call = .download := by
        simp only [cacheStep] at hstep
        split at hstep
        · assumption
        · cases hstep
      cases (step_download text hphase).symm.trans hstep
      exact h.setPhase (fun _ => h.pending call (by simp [hphase]) (by simp [hphase])) (by simp)
  | insert call fault =>
      cases hfaultless
      have hphase : ∃ text, s.phase call = .insert text := by
        simp only [cacheStep] at hstep
        split at hstep
        · exact ⟨_, by assumption⟩
        · cases hstep
      obtain ⟨text, hphase⟩ := hphase
      have hnew : did call ∉ s.table := h.pending call (by simp [hphase]) (by simp [hphase])
      cases (step_insert_new hphase hnew).symm.trans hstep
      exact h.insert hdistinct text hnew
  | insertIntoDb did data fault => exact hfaultless.elim
  | addFromDbFile rows fault => exact hfaultless.elim

/-! ## Progress -/

def stepsLeft : FetchPhase → ℕ
  | .lookup => 3
  | .download => 2
  | .insert _ => 1
  | .returned _ => 0

/-- A call that has not returned can always take its next step without a fault. -/
theorem exists_faultless_step (call : ι) :
    (∃ outcome, s.phase call = .returned outcome) ∨
      ∃ a, a.call = some call ∧ a.IsFaultless ∧ (cacheStep did a s).isSome := by
  cases hphase : s.phase call with
  | lookup => exact Or.inr ⟨.lookup call none, rfl, rfl, by simp [cacheStep, hphase]⟩
  | download =>
      exact Or.inr ⟨.download call (.ok []), rfl, ⟨[], rfl⟩, by simp [cacheStep, hphase]⟩
  | insert text => exact Or.inr ⟨.insert call none, rfl, rfl, by simp [cacheStep, hphase]⟩
  | returned outcome => exact Or.inl ⟨outcome, rfl⟩

theorem stepsLeft_step {a : CacheAction ι} {call : ι} (hcall : a.call = some call)
    (hstep : cacheStep did a s = some t) :
    stepsLeft (t.phase call) < stepsLeft (s.phase call) := by
  cases a with
  | lookup call' fault =>
      cases hcall
      simp only [cacheStep] at hstep
      split at hstep
      · rename_i hphase
        cases hstep
        rw [hphase]
        unfold lookupStep
        split <;> simp [stepsLeft]
      · cases hstep
  | download call' answer =>
      cases hcall
      simp only [cacheStep] at hstep
      split at hstep
      · rename_i hphase
        cases answer <;> cases hstep <;> simp [hphase, stepsLeft]
      · cases hstep
  | insert call' fault =>
      cases hcall
      simp only [cacheStep] at hstep
      split at hstep
      · rename_i text hphase
        cases hstep
        rw [hphase]
        unfold insertStep
        split <;> simp [stepsLeft]
      · cases hstep
  | insertIntoDb did data fault => cases hcall
  | addFromDbFile rows fault => cases hcall

/-- A call takes at most three steps, however the steps of the others are interleaved. -/
theorem countP_add_stepsLeft_le {actions : List (CacheAction ι)} (call : ι)
    (hrun : exec (cacheStep did) actions s = some t) :
    actions.countP (fun a => a.call = some call) + stepsLeft (t.phase call) ≤
      stepsLeft (s.phase call) := by
  induction actions generalizing s with
  | nil =>
      cases hrun
      simp
  | cons a actions ih =>
      obtain ⟨mid, hstep, hrest⟩ := exec_cons_eq_some.mp hrun
      have hle := ih hrest
      rw [List.countP_cons]
      by_cases hcall : a.call = some call
      · have hlt := stepsLeft_step hcall hstep
        simp only [hcall, decide_true, if_true]
        omega
      · have hsame : mid.phase call = s.phase call := by
          cases hother : a.call with
          | none => rw [(otherStep_of_step hother hstep).1]
          | some other =>
              apply (fetchStep_of_step hother hstep).others call
              rintro rfl
              exact hcall hother
        rw [hsame] at hle
        simpa [hcall] using hle

/-! ## The condition -/

/-- Every faultless interleaving: a call that has not returned is never blocked and needs three
steps at most, and it returns `Ok` with one row for its did. -/
def MissesNeverFail (did : ι → DId) (table : InstanceData) : Prop :=
  ∀ actions s, (∀ a ∈ actions, a.IsFaultless) →
    exec (cacheStep did) actions (start table) = some s →
    ∀ call, (∀ outcome, s.phase call = .returned outcome →
        (∃ text, outcome = .ok text) ∧ s.table.keys.count (did call) = 1) ∧
      ((∃ outcome, s.phase call = .returned outcome) ∨
        ∃ a, a.call = some call ∧ a.IsFaultless ∧ (cacheStep did a s).isSome) ∧
      actions.countP (fun a => a.call = some call) ≤ 3

/-- Two calls that both miss before either inserts: the second insert fails. -/
theorem exists_failing_run {i j : ι} (hne : i ≠ j) (hdid : did i = did j)
    (hmiss : did i ∉ table) :
    ∃ actions s, (∀ a ∈ actions, CacheAction.IsFaultless a) ∧
      exec (cacheStep did) actions (start table) = some s ∧
      s.phase j = .returned (.err uniqueViolation) := by
  have hmissj : did j ∉ table := hdid ▸ hmiss
  let s₀ : CacheState ι := start table
  let s₁ := s₀.setPhase i .download
  let s₂ := s₁.setPhase j .download
  let s₃ := s₂.setPhase i (.insert [])
  let s₄ := s₃.setPhase j (.insert [])
  let s₅ := { s₄ with table := table.insert (did i) (encodeUtf8 []) }.setPhase i
    (.returned (.ok []))
  have h₁ : cacheStep did (.lookup i none) s₀ = some s₁ := step_lookup_miss rfl hmiss
  have h₂ : cacheStep did (.lookup j none) s₁ = some s₂ :=
    step_lookup_miss (setPhase_phase_of_ne _ hne.symm) hmissj
  have hi₂ : s₂.phase i = .download :=
    (setPhase_phase_of_ne _ hne).trans (setPhase_phase_self i _)
  have h₃ : cacheStep did (.download i (.ok [])) s₂ = some s₃ := step_download [] hi₂
  have hj₃ : s₃.phase j = .download :=
    (setPhase_phase_of_ne _ hne.symm).trans (setPhase_phase_self j _)
  have h₄ : cacheStep did (.download j (.ok [])) s₃ = some s₄ := step_download [] hj₃
  have hi₄ : s₄.phase i = .insert [] :=
    (setPhase_phase_of_ne _ hne).trans (setPhase_phase_self i _)
  have h₅ : cacheStep did (.insert i none) s₄ = some s₅ := step_insert_new hi₄ hmiss
  have hj₅ : s₅.phase j = .insert [] :=
    (setPhase_phase_of_ne _ hne.symm).trans (setPhase_phase_self j _)
  have hpresent : did j ∈ s₅.table := (AList.mem_insert table).mpr (Or.inl hdid.symm)
  have h₆ := step_insert_present hj₅ hpresent
  refine ⟨[.lookup i none, .lookup j none, .download i (.ok []), .download j (.ok []),
    .insert i none, .insert j none], s₅.setPhase j (.returned (.err uniqueViolation)), ?_, ?_,
    setPhase_phase_self j _⟩
  · simp [CacheAction.IsFaultless]
  · change exec (cacheStep did) _ s₀ = _
    simp only [exec, h₁, h₂, h₃, h₄, h₅, h₆, Option.bind_some]

/-- Concurrent misses never fail each other exactly when no two calls miss the same did. -/
theorem missesNeverFail_iff (hutf8 : ValidUtf8 table) :
    MissesNeverFail did table ↔ ∀ i j, did i = did j → did i ∉ table → i = j := by
  constructor
  · intro hnever i j hdid hmiss
    by_contra hne
    obtain ⟨actions, s, hfaultless, hrun, herror⟩ := exists_failing_run hne hdid hmiss
    obtain ⟨⟨text, hok⟩, _⟩ := (hnever actions s hfaultless hrun j).1 _ herror
    cases hok
  · intro hdistinct actions s hfaultless hrun call
    have hinv : MissInvariant did table s :=
      exec_invariant CacheAction.IsFaultless
        (fun _ _ _ ha hs hstep => missInvariant_step hdistinct ha hs hstep) hfaultless hrun
        (missInvariant_start hutf8)
    refine ⟨?_, exists_faultless_step call, ?_⟩
    · intro outcome hreturned
      obtain ⟨hok, hmem⟩ := hinv.returned call outcome hreturned
      exact ⟨hok, List.count_eq_one_of_mem s.table.keys_nodup hmem⟩
    · exact (Nat.le_add_right _ _).trans (countP_add_stepsLeft_le call hrun)

theorem missesNeverFail_iff_empty :
    ValidUtf8 ∅ ∧ (MissesNeverFail sharedDid ∅ ↔
      ∀ i j, sharedDid i = sharedDid j → sharedDid i ∉ (∅ : InstanceData) → i = j) := by
  have hutf8 : ValidUtf8 ∅ := by
    intro did data hdata
    cases hdata
  exact ⟨hutf8, missesNeverFail_iff hutf8⟩

/-- Two calls for did 1670 on an empty cache: both miss, and the second insert is rejected. -/
theorem concurrent_misses_fail :
    ∃ s, exec (cacheStep sharedDid)
        [.lookup true none, .lookup false none, .download true (.ok ['p']),
          .download false (.ok ['p']), .insert true none, .insert false none]
        (start ∅) = some s ∧
      s.phase true = .returned (.ok ['p']) ∧ s.phase false = .returned (.err uniqueViolation) :=
  ⟨_, rfl, rfl, rfl⟩

end CacheState

end StrideRunner
