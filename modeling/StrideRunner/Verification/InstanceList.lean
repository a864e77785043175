import StrideRunner.Model.Commands.Run.Context
import StrideRunner.Verification.Text

/-! # The instances of a run

The list is the set that the options describe. It is free of repetitions unless it comes from a
file alone, which is used as it is. -/

namespace StrideRunner

open Library

/-- The id as the metadata table stores it. -/
def IId.toInt (iid : IId) : ℤ := iid.id.toNat

theorem IId.toInt_injective : Function.Injective IId.toInt := by
  intro iid iid' h
  cases iid
  cases iid'
  exact congrArg IId.mk (UInt32.toNat_inj.mp (Int.ofNat_inj.mp h))

theorem IId.toNat_ofNat {value : ℕ} (h : value < U32_SIZE) :
    (⟨.ofNat value⟩ : IId).id.toNat = value :=
  UInt32.toNat_ofNat_of_lt' h

/-! ## The metadata table -/

namespace MetaDataDB

/-- The table holds the id, and the condition selects its row. -/
def Selected (db : MetaDataDB) (clause : DangerousRawClause) (iid : IId) : Prop :=
  iid.toInt ∈ db.iids ∧ clause.selects iid.toInt = true

def InU32 (value : ℤ) : Prop := 0 ≤ value ∧ value < U32_SIZE

theorem readIids_eq_ok_iff {rows : List ℤ} {iids : List IId} :
    readIids rows = .ok iids ↔ rows = iids.map IId.toInt := by
  induction rows generalizing iids with
  | nil => cases iids <;> simp [readIids]
  | cons value rows ih =>
      rw [readIids]
      split
      · rename_i hvalue
        have hid : (⟨.ofNat value.toNat⟩ : IId).toInt = value := by
          rw [IId.toInt, IId.toNat_ofNat (by omega), Int.toNat_of_nonneg hvalue.1]
        simp only [Outcome.bind_eq_ok, ih, Outcome.pure_eq, Outcome.ok.injEq]
        constructor
        · rintro ⟨rest, rfl, rfl⟩
          rw [List.map_cons, hid]
        · intro h
          cases iids with
          | nil => cases h
          | cons iid iids =>
              obtain ⟨hfirst, hrest⟩ := List.cons.inj h
              exact ⟨iids, hrest, by rw [IId.toInt_injective (hid.trans hfirst)]⟩
      · rename_i hvalue
        simp only [reduceCtorEq, false_iff]
        intro h
        cases iids with
        | nil => cases h
        | cons iid iids =>
            obtain ⟨rfl, _⟩ := List.cons.inj h
            have hlt : iid.id.toNat < U32_SIZE := UInt32.toNat_lt iid.id
            exact hvalue (by unfold IId.toInt; omega)

theorem readIids_ne_panic (rows : List ℤ) (message : String) :
    readIids rows ≠ .panic message := by
  induction rows with
  | nil => simp [readIids]
  | cons value rows ih =>
      rw [readIids]
      split
      · cases h : readIids rows <;> simp_all
      · simp

variable {db : MetaDataDB} {clause : DangerousRawClause} {iids : List IId}

theorem fetch_eq_ok_iff : db.fetchInstanceIidsFromDb clause = .ok iids ↔
    clause.fault = none ∧ clause.order.run (db.iids.filter clause.selects) = iids.map IId.toInt := by
  unfold fetchInstanceIidsFromDb
  cases clause.fault with
  | some error => simp
  | none => simp [readIids_eq_ok_iff]

theorem mem_of_fetch (h : db.fetchInstanceIidsFromDb clause = .ok iids) (iid : IId) :
    iid ∈ iids ↔ db.Selected clause iid := by
  obtain ⟨_, hrows⟩ := fetch_eq_ok_iff.mp h
  rw [← List.mem_map_of_injective IId.toInt_injective, ← hrows, Reordering.mem_run,
    List.mem_filter, Selected]

theorem nodup_of_fetch (h : db.fetchInstanceIidsFromDb clause = .ok iids) : iids.Nodup := by
  obtain ⟨_, hrows⟩ := fetch_eq_ok_iff.mp h
  have hnodup : (clause.order.run (db.iids.filter clause.selects)).Nodup :=
    (Reordering.nodup_run _).mpr (db.nodup.filter _)
  rw [hrows] at hnodup
  exact hnodup.of_map _

theorem fetch_ne_panic (message : String) :
    db.fetchInstanceIidsFromDb clause ≠ .panic message := by
  unfold fetchInstanceIidsFromDb
  cases clause.fault with
  | some error => simp
  | none => exact readIids_ne_panic _ message

/-- The query succeeds if SQLite does not fail and all selected ids fit `u32`. -/
theorem exists_fetch_iff : (∃ iids, db.fetchInstanceIidsFromDb clause = .ok iids) ↔
    clause.fault = none ∧ ∀ value ∈ db.iids, clause.selects value = true → InU32 value := by
  simp only [fetch_eq_ok_iff, exists_and_left]
  apply and_congr_right
  intro _
  have hmem : ∀ value, value ∈ clause.order.run (db.iids.filter clause.selects) ↔
      value ∈ db.iids ∧ clause.selects value = true := by simp
  constructor
  · rintro ⟨iids, hrows⟩ value hvalue hselects
    have h := (hmem value).mpr ⟨hvalue, hselects⟩
    rw [hrows] at h
    obtain ⟨iid, _, rfl⟩ := List.mem_map.mp h
    have hlt : iid.id.toNat < U32_SIZE := UInt32.toNat_lt iid.id
    unfold InU32 IId.toInt
    omega
  · intro h
    refine ⟨(clause.order.run (db.iids.filter clause.selects)).map
      fun value => ⟨.ofNat value.toNat⟩, ?_⟩
    have hround : ∀ value ∈ clause.order.run (db.iids.filter clause.selects),
        (IId.toInt ∘ fun value => ⟨.ofNat value.toNat⟩) value = id value := by
      intro value hvalue
      obtain ⟨hin, hselects⟩ := (hmem value).mp hvalue
      obtain ⟨hpos, hlt⟩ := h value hin hselects
      rw [Function.comp_apply, IId.toInt, IId.toNat_ofNat (by omega), Int.toNat_of_nonneg hpos,
        id_eq]
    rw [List.map_map, List.map_congr_left hround, List.map_id]

end MetaDataDB

/-! ## The file -/

/-- Blank lines and comments. -/
abbrev IsSkippedEntry (line : List Char) : Prop :=
  trim line = [] ∨ (trim line).head? = some 'c'

/-- The line names the instance; spaces around the number are allowed. -/
def IsEntry (line : List Char) (iid : IId) : Prop :=
  IsUnsigned (trim line) iid.id.toNat

/-- The entries of a list file in their order, with all repetitions. -/
inductive HasEntries : List Line → List IId → Prop
  | nil : HasEntries [] []
  | skipped {line rest entries} (hline : IsSkippedEntry line) (hrest : HasEntries rest entries) :
      HasEntries (.ok line :: rest) entries
  | entry {line rest iid entries} (hline : IsEntry line iid) (hrest : HasEntries rest entries) :
      HasEntries (.ok line :: rest) (iid :: entries)

/-- The line is neither blank nor a comment, and it is not a `u32` number. -/
def IsBadLine : Line → Prop
  | .error _ => True
  | .ok line => ¬ IsSkippedEntry line ∧ ∀ iid, ¬ IsEntry line iid

theorem IsEntry.not_isSkippedEntry {line : List Char} {iid : IId} (h : IsEntry line iid) :
    ¬ IsSkippedEntry line := by
  unfold IsEntry at h
  rcases h with h | ⟨digits, hplus, _⟩
  · rintro (hnil | hc)
    · exact h.nonempty hnil
    · exact h.notMem rfl (List.mem_of_mem_head? hc)
  · simp [hplus]

theorem IsEntry.unique {line : List Char} {iid iid' : IId} (h : IsEntry line iid)
    (h' : IsEntry line iid') : iid = iid' :=
  IId.toInt_injective (congrArg Int.ofNat (IsUnsigned.unique h h'))

theorem isEntry_ofNat {line : List Char} {id : ℕ}
    (h : parseUnsigned U32_SIZE (trim line) = .ok id) : IsEntry line ⟨.ofNat id⟩ := by
  obtain ⟨hid, hlt⟩ := (parseUnsigned_eq_ok_iff_isUnsigned (by decide)).mp h
  unfold IsEntry
  rwa [IId.toNat_ofNat hlt]

theorem parse_of_isEntry {line : List Char} {iid : IId} (h : IsEntry line iid) :
    parseUnsigned U32_SIZE (trim line) = .ok iid.id.toNat :=
  (parseUnsigned_eq_ok_iff_isUnsigned (by decide)).mpr ⟨h, UInt32.toNat_lt iid.id⟩

theorem HasEntries.mem_iff {lines : List Line} {entries : List IId} (h : HasEntries lines entries)
    (iid : IId) : iid ∈ entries ↔ ∃ line, .ok line ∈ lines ∧ IsEntry line iid := by
  induction h with
  | nil => simp
  | @skipped line rest entries hline hrest ih =>
      rw [ih]
      constructor
      · rintro ⟨text, htext, hentry⟩
        exact ⟨text, List.mem_cons_of_mem _ htext, hentry⟩
      · rintro ⟨text, htext, hentry⟩
        rcases List.mem_cons.mp htext with heq | htext
        · cases heq
          exact (hentry.not_isSkippedEntry hline).elim
        · exact ⟨text, htext, hentry⟩
  | @entry line rest first entries hline hrest ih =>
      rw [List.mem_cons, ih]
      constructor
      · rintro (rfl | ⟨text, htext, hentry⟩)
        · exact ⟨line, List.mem_cons_self, hline⟩
        · exact ⟨text, List.mem_cons_of_mem _ htext, hentry⟩
      · rintro ⟨text, htext, hentry⟩
        rcases List.mem_cons.mp htext with heq | htext
        · cases heq
          exact Or.inl (hentry.unique hline)
        · exact Or.inr ⟨text, htext, hentry⟩

theorem HasEntries.not_isBadLine {lines : List Line} {entries : List IId}
    (h : HasEntries lines entries) : ∀ line ∈ lines, ¬ IsBadLine line := by
  induction h with
  | nil => simp
  | skipped hline _ ih => exact List.forall_mem_cons.mpr ⟨fun hbad => hbad.1 hline, ih⟩
  | entry hline _ ih => exact List.forall_mem_cons.mpr ⟨fun hbad => hbad.2 _ hline, ih⟩

namespace RunContext

theorem parseInstanceLines_eq_ok_iff {lines : List Line} {entries : List IId} :
    parseInstanceLines lines = .ok entries ↔ HasEntries lines entries := by
  constructor
  · intro h
    induction lines generalizing entries with
    | nil =>
        cases h
        exact .nil
    | cons line lines ih =>
        cases line with
        | error error => cases h
        | ok line =>
            rw [parseInstanceLines] at h
            split at h
            · rename_i hskipped
              exact .skipped hskipped (ih h)
            · cases hparse : parseUnsigned U32_SIZE (trim line) with
              | error kind => simp [hparse] at h
              | ok id =>
                  simp only [hparse, Outcome.bind_eq_ok] at h
                  obtain ⟨rest, hrest, h⟩ := h
                  cases h
                  exact .entry (isEntry_ofNat hparse) (ih hrest)
  · intro h
    induction h with
    | nil => rfl
    | skipped hline _ ih => rwa [parseInstanceLines, if_pos hline]
    | entry hline _ ih =>
        rw [parseInstanceLines, if_neg hline.not_isSkippedEntry]
        simp [parse_of_isEntry hline, ih]

theorem parseInstanceLines_ne_panic (lines : List Line) (message : String) :
    parseInstanceLines lines ≠ .panic message := by
  fun_induction parseInstanceLines lines with
  | case1 => simp
  | case2 => simp
  | case3 line rest hskipped ih => exact ih
  | case4 line rest hskipped kind hparse => simp
  | case5 line rest hskipped id hparse ih =>
      cases h : parseInstanceLines rest <;> simp_all

theorem readInstanceList_eq_ok_iff {fs : FileSystem} {path : PathBuf} {entries : List IId} :
    readInstanceList fs path = .ok entries ↔
      ∃ file, fs path = some file ∧ HasEntries (bufReadLines file) entries := by
  unfold readInstanceList FileSystem.read
  cases fs path with
  | none => simp [Outcome.mapErr]
  | some file => simp [Outcome.mapErr, parseInstanceLines_eq_ok_iff]

variable {sources : InstanceSources} {opts : InstanceOpts}

/-- The condition `1=1` selects all rows. -/
def everything (sources : InstanceSources) : DangerousRawClause :=
  ⟨fun _ => true, sources.allOrder, sources.allFault⟩

theorem selected_everything (iid : IId) :
    sources.db.Selected (everything sources) iid ↔ iid.toInt ∈ sources.db.iids := by
  simp [MetaDataDB.Selected, everything]

/-- SQLite does not fail, and all ids of the table fit `u32`. -/
def TableIsReadable (sources : InstanceSources) : Prop :=
  sources.allFault = none ∧ ∀ value ∈ sources.db.iids, MetaDataDB.InU32 value

theorem check_eq_ok_iff {instances : List IId} :
    checkThatInstancesExist sources instances = .ok () ↔
      TableIsReadable sources ∧ ∀ iid ∈ instances, iid.toInt ∈ sources.db.iids := by
  have hiff : TableIsReadable sources ↔
      ∃ known, sources.db.fetchInstanceIidsFromDb (everything sources) = .ok known := by
    simp [MetaDataDB.exists_fetch_iff, TableIsReadable, everything]
  have hcheck : checkThatInstancesExist sources instances = .ok () ↔
      ∃ known, sources.db.fetchInstanceIidsFromDb (everything sources) = .ok known ∧
        instances.toFinset ⊆ known.toFinset := by
    unfold checkThatInstancesExist
    rw [Outcome.bind_eq_ok]
    apply exists_congr
    intro known
    apply and_congr_right
    intro _
    split <;> simp_all
  rw [hcheck, hiff]
  constructor
  · rintro ⟨known, hknown, hsub⟩
    refine ⟨⟨known, hknown⟩, ?_⟩
    intro iid hiid
    have hmem := List.mem_toFinset.mp (hsub (List.mem_toFinset.mpr hiid))
    exact (selected_everything iid).mp ((MetaDataDB.mem_of_fetch hknown iid).mp hmem)
  · rintro ⟨⟨known, hknown⟩, hall⟩
    refine ⟨known, hknown, ?_⟩
    intro iid hiid
    apply List.mem_toFinset.mpr
    apply (MetaDataDB.mem_of_fetch hknown iid).mpr
    exact (selected_everything iid).mpr (hall iid (List.mem_toFinset.mp hiid))

/-! ## The list -/

/-- The file has these entries, and the metadata table knows all of them. -/
def IsListed (sources : InstanceSources) (path : PathBuf) (entries : List IId) : Prop :=
  (∃ file, sources.fs path = some file ∧ HasEntries (bufReadLines file) entries) ∧
    TableIsReadable sources ∧ ∀ iid ∈ entries, iid.toInt ∈ sources.db.iids

/-- What is chosen before the list is put in order, for each combination of the two options. -/
inductive Chosen (sources : InstanceSources) :
    Option PathBuf → Option DangerousRawClause → List IId → Prop
  | both {path clause entries selected} (hfile : IsListed sources path entries)
      (hdb : sources.db.fetchInstanceIidsFromDb clause = .ok selected) :
      Chosen sources (some path) (some clause)
        (sources.hashOrder.run (entries.toFinset ∩ selected.toFinset).sort)
  | file {path entries} (hfile : IsListed sources path entries) :
      Chosen sources (some path) none entries
  | db {clause selected} (hdb : sources.db.fetchInstanceIidsFromDb clause = .ok selected) :
      Chosen sources none (some clause) selected

def arrange (sources : InstanceSources) (opts : InstanceOpts) (chosen : List IId) : List IId :=
  if opts.sortInstances then chosen.insertionSort (· ≤ ·) else sources.shuffle.run chosen

theorem instancesFromFile_some_eq_ok_iff {path : PathBuf} {out : Option (List IId)} :
    instancesFromFile sources (some path) = .ok out ↔
      ∃ entries, IsListed sources path entries ∧ out = some entries := by
  simp only [instancesFromFile, Outcome.bind_eq_ok, Outcome.pure_eq, Outcome.ok.injEq]
  constructor
  · rintro ⟨entries, hread, _, hcheck, rfl⟩
    exact ⟨entries, ⟨readInstanceList_eq_ok_iff.mp hread, check_eq_ok_iff.mp hcheck⟩, rfl⟩
  · rintro ⟨entries, ⟨hfile, hknown⟩, rfl⟩
    exact ⟨entries, readInstanceList_eq_ok_iff.mpr hfile, (), check_eq_ok_iff.mpr hknown, rfl⟩

theorem instancesFromDb_some_eq_ok_iff {clause : DangerousRawClause} {out : Option (List IId)} :
    instancesFromDb sources (some clause) = .ok out ↔
      ∃ selected, sources.db.fetchInstanceIidsFromDb clause = .ok selected ∧
        out = some selected := by
  simp only [instancesFromDb, Outcome.bind_eq_ok, Outcome.pure_eq, Outcome.ok.injEq,
    eq_comm (a := out)]

theorem arrange_perm (sources : InstanceSources) (opts : InstanceOpts) (chosen : List IId) :
    (arrange sources opts chosen).Perm chosen := by
  unfold arrange
  split
  · exact List.perm_insertionSort _ chosen
  · exact sources.shuffle.perm chosen

theorem combine_of_chosen {instances : Option PathBuf} {sqlWhere : Option DangerousRawClause}
    {chosen : List IId} : Chosen sources instances sqlWhere chosen ↔
      (instances.isSome ∨ sqlWhere.isSome) ∧ ∃ fromFile fromDb,
        instancesFromFile sources instances = .ok fromFile ∧
        instancesFromDb sources sqlWhere = .ok fromDb ∧
        combineInstances sources fromFile fromDb = .ok chosen := by
  constructor
  · intro h
    cases h with
    | @both path clause entries selected hfile hdb =>
        exact ⟨Or.inl rfl, some entries, some selected,
          instancesFromFile_some_eq_ok_iff.mpr ⟨entries, hfile, rfl⟩,
          instancesFromDb_some_eq_ok_iff.mpr ⟨selected, hdb, rfl⟩, rfl⟩
    | @file path _ hfile =>
        exact ⟨Or.inl rfl, some chosen, none,
          instancesFromFile_some_eq_ok_iff.mpr ⟨chosen, hfile, rfl⟩, rfl, rfl⟩
    | @db clause _ hdb =>
        exact ⟨Or.inr rfl, none, some chosen, rfl,
          instancesFromDb_some_eq_ok_iff.mpr ⟨chosen, hdb, rfl⟩, rfl⟩
  · rintro ⟨hsource, fromFile, fromDb, hfile, hdb, hcombine⟩
    cases instances with
    | none =>
        cases hfile
        cases sqlWhere with
        | none => simp at hsource
        | some clause =>
            obtain ⟨selected, hselected, rfl⟩ := instancesFromDb_some_eq_ok_iff.mp hdb
            cases hcombine
            exact .db hselected
    | some path =>
        obtain ⟨entries, hentries, rfl⟩ := instancesFromFile_some_eq_ok_iff.mp hfile
        cases sqlWhere with
        | none =>
            cases hdb
            cases hcombine
            exact .file hentries
        | some clause =>
            obtain ⟨selected, hselected, rfl⟩ := instancesFromDb_some_eq_ok_iff.mp hdb
            cases hcombine
            exact .both hentries hselected

theorem buildInstanceList_eq_ok_iff {list : List IId} :
    buildInstanceList sources opts = .ok list ↔
      ∃ chosen, Chosen sources opts.instances opts.sqlWhere chosen ∧
        arrange sources opts chosen = list := by
  have harrange : ∀ chosen, (if opts.sortInstances then
        (return chosen.insertionSort (· ≤ ·) : Outcome AnyhowError (List IId))
      else return sources.shuffle.run chosen) = .ok (arrange sources opts chosen) := by
    intro chosen
    unfold arrange
    split <;> rfl
  simp only [combine_of_chosen, buildInstanceList]
  split
  · rename_i hnone
    simp [Option.isNone_iff_eq_none.mp hnone.1, Option.isNone_iff_eq_none.mp hnone.2]
  · rename_i hsome
    have hsource : opts.instances.isSome ∨ opts.sqlWhere.isSome := by
      rw [Option.isSome_iff_ne_none, Option.isSome_iff_ne_none]
      simpa [imp_iff_not_or] using hsome
    simp only [Outcome.bind_eq_ok, harrange, Outcome.ok.injEq, hsource, true_and]
    constructor
    · rintro ⟨fromFile, hfile, fromDb, hdb, chosen, hcombine, rfl⟩
      exact ⟨chosen, ⟨fromFile, fromDb, hfile, hdb, hcombine⟩, rfl⟩
    · rintro ⟨chosen, ⟨fromFile, fromDb, hfile, hdb, hcombine⟩, rfl⟩
      exact ⟨fromFile, hfile, fromDb, hdb, chosen, hcombine, rfl⟩

/-- Some line of the file names the instance. -/
def Listed (fs : FileSystem) (path : PathBuf) (iid : IId) : Prop :=
  ∃ file line, fs path = some file ∧ .ok line ∈ bufReadLines file ∧ IsEntry line iid

theorem IsListed.mem_iff {path : PathBuf} {entries : List IId} (h : IsListed sources path entries)
    (iid : IId) : iid ∈ entries ↔ Listed sources.fs path iid := by
  obtain ⟨⟨file, hfile, hentries⟩, _⟩ := h
  rw [hentries.mem_iff]
  constructor
  · rintro ⟨line, hline, hentry⟩
    exact ⟨file, line, hfile, hline, hentry⟩
  · rintro ⟨file', line, hfile', hline, hentry⟩
    cases hfile.symm.trans hfile'
    exact ⟨line, hline, hentry⟩

theorem IsListed.unique {path : PathBuf} {entries entries' : List IId}
    (h : IsListed sources path entries) (h' : IsListed sources path entries') :
    entries = entries' := by
  have hread := readInstanceList_eq_ok_iff.mpr h.1
  have hread' := readInstanceList_eq_ok_iff.mpr h'.1
  exact Outcome.ok.inj (hread.symm.trans hread')

namespace Chosen

variable {instances : Option PathBuf} {sqlWhere : Option DangerousRawClause} {chosen : List IId}

theorem mem_iff (h : Chosen sources instances sqlWhere chosen) (iid : IId) :
    iid ∈ chosen ↔ (∀ path, instances = some path → Listed sources.fs path iid) ∧
      ∀ clause, sqlWhere = some clause → sources.db.Selected clause iid := by
  cases h with
  | both hfile hdb => simp [hfile.mem_iff, MetaDataDB.mem_of_fetch hdb]
  | file hfile => simp [hfile.mem_iff]
  | db hdb => simp [MetaDataDB.mem_of_fetch hdb]

theorem known (h : Chosen sources instances sqlWhere chosen) {iid : IId} (hiid : iid ∈ chosen) :
    iid.toInt ∈ sources.db.iids := by
  cases h with
  | both hfile hdb =>
      simp only [Reordering.mem_run, Finset.mem_sort, Finset.mem_inter, List.mem_toFinset] at hiid
      exact hfile.2.2 iid hiid.1
  | file hfile => exact hfile.2.2 iid hiid
  | db hdb => exact ((MetaDataDB.mem_of_fetch hdb iid).mp hiid).1

theorem isListed {path : PathBuf} (h : Chosen sources (some path) sqlWhere chosen) :
    ∃ entries, IsListed sources path entries := by
  cases h with
  | both hfile _ => exact ⟨_, hfile⟩
  | file hfile => exact ⟨_, hfile⟩

/-- A hash set and the primary key exclude repetitions, and a file alone does not. -/
theorem nodup_iff (h : Chosen sources instances sqlWhere chosen) :
    chosen.Nodup ↔ ¬ (sqlWhere = none ∧ ∃ path entries, instances = some path ∧
      IsListed sources path entries ∧ ¬ entries.Nodup) := by
  cases h with
  | both hfile hdb => simp [Finset.sort_nodup]
  | @file path _ hfile =>
      constructor
      · rintro hnodup ⟨_, _, entries, ⟨⟩, hentries, hrepeats⟩
        rw [hfile.unique hentries] at hnodup
        exact hrepeats hnodup
      · intro hnot
        by_contra hrepeats
        exact hnot ⟨rfl, path, chosen, rfl, hfile, hrepeats⟩
  | db hdb => simp [MetaDataDB.nodup_of_fetch hdb]

end Chosen

/-- The list is the set that the options describe, each instance once. -/
structure InstanceListSpec (sources : InstanceSources) (opts : InstanceOpts)
    (list : List IId) : Prop where
  nodup : list.Nodup
  mem_iff : ∀ iid, iid ∈ list ↔
    (∀ path, opts.instances = some path → Listed sources.fs path iid) ∧
      ∀ clause, opts.sqlWhere = some clause → sources.db.Selected clause iid
  known : ∀ iid ∈ list, iid.toInt ∈ sources.db.iids
  ascending : opts.sortInstances = true → list.SortedLE

structure BuildsInstanceList (sources : InstanceSources) (opts : InstanceOpts) : Prop where
  of_ok : ∀ list, buildInstanceList sources opts = .ok list → InstanceListSpec sources opts list
  err_of_no_source : opts.instances = none → opts.sqlWhere = none →
    ∃ error, buildInstanceList sources opts = .err error
  err_of_bad_line : ∀ path file line, opts.instances = some path → sources.fs path = some file →
    line ∈ bufReadLines file → IsBadLine line → ∃ error, buildInstanceList sources opts = .err error
  err_of_unknown : ∀ path iid, opts.instances = some path → Listed sources.fs path iid →
    iid.toInt ∉ sources.db.iids → ∃ error, buildInstanceList sources opts = .err error

/-- A file is the only source, and it names an instance twice. -/
def RepeatsEntry (sources : InstanceSources) (opts : InstanceOpts) : Prop :=
  opts.sqlWhere = none ∧ ∃ path entries, opts.instances = some path ∧
    IsListed sources path entries ∧ ¬ entries.Nodup

theorem instancesFromFile_ne_panic (instances : Option PathBuf) (message : String) :
    instancesFromFile sources instances ≠ .panic message := by
  cases instances with
  | none => simp [instancesFromFile]
  | some path =>
      refine Outcome.bind_ne_panic ?_ (fun entries _ => ?_) message
      · apply Outcome.bind_ne_panic
        · intro message
          unfold FileSystem.read
          cases sources.fs path <;> simp [Outcome.mapErr]
        · exact fun file _ => parseInstanceLines_ne_panic _
      · refine Outcome.bind_ne_panic ?_ (fun _ _ => by simp)
        refine Outcome.bind_ne_panic MetaDataDB.fetch_ne_panic (fun known _ message => ?_)
        split <;> simp

theorem instancesFromDb_ne_panic (sqlWhere : Option DangerousRawClause) (message : String) :
    instancesFromDb sources sqlWhere ≠ .panic message := by
  cases sqlWhere with
  | none => simp [instancesFromDb]
  | some clause =>
      exact Outcome.bind_ne_panic MetaDataDB.fetch_ne_panic (fun _ _ => by simp) message

/-- The `unreachable!` of the source is unreachable. -/
theorem buildInstanceList_ne_panic (message : String) :
    buildInstanceList sources opts ≠ .panic message := by
  unfold buildInstanceList
  split
  · simp
  · rename_i hsource
    refine Outcome.bind_ne_panic (instancesFromFile_ne_panic _) (fun fromFile hfile => ?_) message
    refine Outcome.bind_ne_panic (instancesFromDb_ne_panic _) (fun fromDb hdb => ?_)
    refine Outcome.bind_ne_panic (fun message => ?_) (fun chosen _ message => ?_)
    · cases hinstances : opts.instances with
      | none =>
          cases hwhere : opts.sqlWhere with
          | none => simp [hinstances, hwhere] at hsource
          | some clause =>
              rw [hwhere] at hdb
              obtain ⟨selected, _, rfl⟩ := instancesFromDb_some_eq_ok_iff.mp hdb
              cases fromFile <;> simp [combineInstances]
      | some path =>
          rw [hinstances] at hfile
          obtain ⟨entries, _, rfl⟩ := instancesFromFile_some_eq_ok_iff.mp hfile
          cases fromDb <;> simp [combineInstances]
    · split <;> simp

theorem exists_err_of_not_ok (h : ∀ list, buildInstanceList sources opts ≠ .ok list) :
    ∃ error, buildInstanceList sources opts = .err error := by
  cases hbuild : buildInstanceList sources opts with
  | ok list => exact (h list hbuild).elim
  | err error => exact ⟨error, rfl⟩
  | panic message => exact (buildInstanceList_ne_panic message hbuild).elim

theorem spec_of_chosen {chosen list : List IId}
    (h : Chosen sources opts.instances opts.sqlWhere chosen)
    (hlist : arrange sources opts chosen = list) (hrepeats : ¬ RepeatsEntry sources opts) :
    InstanceListSpec sources opts list := by
  have hperm : list.Perm chosen := hlist ▸ arrange_perm sources opts chosen
  refine ⟨hperm.nodup_iff.mpr (h.nodup_iff.mpr hrepeats), ?_, ?_, ?_⟩
  · intro iid
    rw [hperm.mem_iff, h.mem_iff]
  · intro iid hiid
    exact h.known (hperm.mem_iff.mp hiid)
  · intro hsort
    rw [← hlist, arrange, if_pos hsort]
    exact (List.pairwise_insertionSort (· ≤ ·) chosen).sortedLE

/-- The list is as intended exactly if no file on its own repeats an entry. -/
theorem buildsInstanceList_iff (sources : InstanceSources) (opts : InstanceOpts) :
    BuildsInstanceList sources opts ↔ ¬ RepeatsEntry sources opts := by
  constructor
  · rintro hbuilds ⟨hwhere, path, entries, hpath, hentries, hrepeats⟩
    have hchosen : Chosen sources opts.instances opts.sqlWhere entries := by
      rw [hpath, hwhere]
      exact .file hentries
    have hok := buildInstanceList_eq_ok_iff.mpr ⟨entries, hchosen, rfl⟩
    exact hrepeats ((arrange_perm sources opts entries).nodup_iff.mp (hbuilds.of_ok _ hok).nodup)
  · intro hrepeats
    constructor
    · intro list hlist
      obtain ⟨chosen, hchosen, harrange⟩ := buildInstanceList_eq_ok_iff.mp hlist
      exact spec_of_chosen hchosen harrange hrepeats
    · intro hinstances hwhere
      exact ⟨mustProve, by simp [buildInstanceList, hinstances, hwhere]⟩
    · intro path file line hpath hfile hline hbad
      apply exists_err_of_not_ok
      intro list hlist
      obtain ⟨chosen, hchosen, _⟩ := buildInstanceList_eq_ok_iff.mp hlist
      rw [hpath] at hchosen
      obtain ⟨entries, ⟨file', hfile', hentries⟩, _⟩ := hchosen.isListed
      cases hfile.symm.trans hfile'
      exact hentries.not_isBadLine line hline hbad
    · intro path iid hpath hlisted hunknown
      apply exists_err_of_not_ok
      intro list hlist
      obtain ⟨chosen, hchosen, _⟩ := buildInstanceList_eq_ok_iff.mp hlist
      rw [hpath] at hchosen
      obtain ⟨entries, hentries⟩ := hchosen.isListed
      exact hunknown (hentries.2.2 iid ((hentries.mem_iff iid).mpr hlisted))

/-- A list file that names instance 1 twice, and a table with this instance. -/
def repeatedEntry : InstanceSources :=
  ⟨fun path => if path = ["demo.list"] then some [49, 10, 49, 10] else none, ⟨[1], by simp⟩,
    .refl, none, .refl, .refl⟩

theorem buildInstanceList_repeatedEntry :
    buildInstanceList repeatedEntry ⟨some ["demo.list"], none, true⟩ = .ok [⟨1⟩, ⟨1⟩] ∧
      ¬ [(⟨1⟩ : IId), ⟨1⟩].Nodup := by
  constructor
  · decide +kernel
  · decide

end RunContext

end StrideRunner
