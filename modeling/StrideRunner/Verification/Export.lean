import StrideRunner.Model.Commands.Run.Export
import StrideRunner.Verification.Decimal
import StrideRunner.Verification.InstanceList
import StrideRunner.Verification.Pace.Layout

/-! # Exported lists

The header of an exported list is a comment, and its other lines are the ids. Comments, blank lines
and white space that are added later do not change what is read. -/

namespace StrideRunner

open Pace InstanceWriter

theorem trim_of_ended {line read : List Char} (h : read = line ∨ line = read ++ ['\r']) :
    trim read = trim line := by
  rcases h with rfl | rfl
  · rfl
  · have hcr : ∀ c ∈ ['\r'], isWhitespace c = true := by simp [isWhitespace]
    exact (trim_append_of_whitespace hcr).symm

theorem isEntry_decimal (iid : IId) : IsEntry (decimal iid.id.toNat) iid := by
  rw [IsEntry, trim_decimal]
  exact Or.inl (isDecimal_decimal _)

theorem not_isSkippedEntry_decimal (id : ℕ) : ¬ IsSkippedEntry (decimal id) := by
  rw [IsSkippedEntry, trim_decimal]
  rintro (hnil | hc)
  · exact (isDecimal_decimal id).nonempty hnil
  · exact head?_decimal_ne id hc

/-! ## Edits -/

/-- White space within a line. -/
def IsPadding (text : List Char) : Prop :=
  ∀ c ∈ text, isWhitespace c = true ∧ c ≠ '\n'

/-- Blank lines, comments and white space around ids are added to the first text. -/
inductive IsEdited : List Char → List Char → Prop
  | done : IsEdited [] []
  | inserted {text text' line ending} (hline : IsSkippedEntry line) (hlf : '\n' ∉ line)
      (hend : IsLineEnd ending text') (hrest : IsEdited text text') :
      IsEdited text (line ++ (ending ++ text'))
  | padded {text text' id before after ending} (hbefore : IsPadding before)
      (hafter : IsPadding after) (hend : IsLineEnd ending text') (hrest : IsEdited text text') :
      IsEdited (decimal id ++ '\n' :: text) (before ++ (decimal id ++ after) ++ (ending ++ text'))
  | kept {text text' line} (hlf : '\n' ∉ line) (hrest : IsEdited text text') :
      IsEdited (line ++ '\n' :: text) (line ++ '\n' :: text')

theorem trim_padded {before text after : List Char} (hbefore : IsPadding before)
    (hafter : IsPadding after) : trim (before ++ (text ++ after)) = trim text := by
  rw [trim_whitespace_append fun c hc => (hbefore c hc).1,
    trim_append_of_whitespace fun c hc => (hafter c hc).1]

theorem notMem_padded {before after : List Char} (id : ℕ) (hbefore : IsPadding before)
    (hafter : IsPadding after) : '\n' ∉ before ++ (decimal id ++ after) := by
  have hid : '\n' ∉ decimal id := (isDecimal_decimal id).notMem rfl
  have hbefore : '\n' ∉ before := fun h => (hbefore _ h).2 rfl
  have hafter : '\n' ∉ after := fun h => (hafter _ h).2 rfl
  simp [hid, hbefore, hafter]

/-- The entries of a text as `read_instance_list` finds them. -/
def TextHasEntries (text : List Char) (entries : List IId) : Prop :=
  HasEntries ((lines '\r' '\n' text).map .ok) entries

theorem TextHasEntries.of_isEdited {text text' : List Char} {entries : List IId}
    (hentries : TextHasEntries text entries) (h : IsEdited text text') :
    TextHasEntries text' entries := by
  unfold TextHasEntries at hentries ⊢
  induction h generalizing entries with
  | done => exact hentries
  | @inserted text text' line ending hline hlf hend hrest ih =>
      by_cases hempty : line ++ ending = []
      · rw [← List.append_assoc, hempty]
        exact ih hentries
      · obtain ⟨read, hread, hsame⟩ := lines_ended hempty hlf hend
        rw [hread, List.map_cons]
        refine .skipped ?_ (ih hentries)
        rwa [IsSkippedEntry, trim_of_ended hsame]
  | @padded text text' id before after ending hbefore hafter hend hrest ih =>
      have hne : before ++ (decimal id ++ after) ++ ending ≠ [] := by
        simp [(isDecimal_decimal id).nonempty]
      obtain ⟨read, hread, hsame⟩ := lines_ended hne (notMem_padded id hbefore hafter) hend
      rw [lines_decimal, List.map_cons] at hentries
      rw [hread, List.map_cons]
      cases hentries with
      | skipped hline _ => exact (not_isSkippedEntry_decimal id hline).elim
      | entry hline hrest =>
          refine .entry ?_ (ih hrest)
          rwa [IsEntry, trim_of_ended hsame, trim_padded hbefore hafter]
  | @kept text text' line hlf hrest ih =>
      rw [lines_append_lf hlf, List.map_cons] at hentries ⊢
      cases hentries with
      | skipped hline hrest => exact .skipped hline (ih hrest)
      | entry hline hrest => exact .entry hline (ih hrest)

/-! ## The exported text -/

namespace RunContext

theorem instanceListText_eq (instances : List IId) : instanceListText instances =
    ('c' :: " ".toList ++ decimal instances.length ++ " Instances for STRIDE runner".toList) ++
      '\n' :: numberLines (instances.map fun iid => iid.id.toNat) := by
  simp [instanceListText, numberLines, List.flatMap_map]

theorem hasEntries_decimals (instances : List IId) :
    HasEntries (((instances.map fun iid => iid.id.toNat).map decimal).map .ok) instances := by
  induction instances with
  | nil => exact .nil
  | cons iid instances ih => exact .entry (isEntry_decimal iid) ih

theorem textHasEntries_instanceListText (instances : List IId) :
    TextHasEntries (instanceListText instances) instances := by
  have hlf : '\n' ∉ 'c' :: " ".toList ++ decimal instances.length ++
      " Instances for STRIDE runner".toList := by
    have hlength : '\n' ∉ decimal instances.length := (isDecimal_decimal _).notMem rfl
    simp [hlength]
  rw [TextHasEntries, instanceListText_eq, lines_append_lf hlf, lines_numberLines, List.map_cons]
  refine .skipped (Or.inr ?_) (hasEntries_decimals instances)
  rw [trim_of_ended (chop_eq_or _)]
  exact head?_trim_cons rfl _

theorem readInstanceList_write {text : List Char} {instances : List IId}
    (h : TextHasEntries text instances) (fs : FileSystem) (path : PathBuf) :
    readInstanceList (fs.write path (encodeUtf8 text)) path = .ok instances := by
  refine readInstanceList_eq_ok_iff.mpr ⟨encodeUtf8 text, by simp [FileSystem.write], ?_⟩
  rw [bufReadLines_encodeUtf8]
  exact h

/-! ## A second run -/

theorem exportIidOnly_eq_ok {sources : InstanceSources} {opts : InstanceOpts} {path : PathBuf}
    {fs : FileSystem} (h : exportIidOnly sources opts path = .ok fs) :
    ∃ exported, buildInstanceList sources opts = .ok exported ∧
      fs = writeInstanceList sources.fs path exported := by
  obtain ⟨exported, hbuild, h⟩ := Outcome.bind_eq_ok.mp h
  split at h
  · cases h
  · cases h
    exact ⟨exported, hbuild, rfl⟩

/-- With a list file as its only source, a run takes all entries if the table knows them. -/
theorem buildInstanceList_file_iff {sources : InstanceSources} {opts : InstanceOpts}
    {path : PathBuf} {entries list : List IId} (hinstances : opts.instances = some path)
    (hwhere : opts.sqlWhere = none) (hread : readInstanceList sources.fs path = .ok entries) :
    buildInstanceList sources opts = .ok list ↔
      (TableIsReadable sources ∧ ∀ iid ∈ entries, iid.toInt ∈ sources.db.iids) ∧
        arrange sources opts entries = list := by
  rw [buildInstanceList_eq_ok_iff, hinstances, hwhere]
  constructor
  · rintro ⟨chosen, hchosen, harrange⟩
    cases hchosen with
    | file hfile =>
        cases hread.symm.trans (readInstanceList_eq_ok_iff.mpr hfile.1)
        exact ⟨hfile.2, harrange⟩
  · rintro ⟨hknown, harrange⟩
    exact ⟨entries, .file ⟨readInstanceList_eq_ok_iff.mp hread, hknown⟩, harrange⟩

/-- Exported lists are imported unchanged. -/
structure Reimports : Prop where
  read_back : ∀ (fs : FileSystem) (path : PathBuf) (instances : List IId),
    readInstanceList (writeInstanceList fs path instances) path = .ok instances
  read_edited : ∀ (fs : FileSystem) (path : PathBuf) (instances : List IId) (text : List Char),
    IsEdited (instanceListText instances) text →
    readInstanceList (fs.write path (encodeUtf8 text)) path = .ok instances
  rerun : ∀ (sources : InstanceSources) (opts : InstanceOpts) (path : PathBuf) (fs : FileSystem),
    exportIidOnly sources opts path = .ok fs →
    ∃ exported, buildInstanceList sources opts = .ok exported ∧
      ∀ (sources' : InstanceSources) (opts' : InstanceOpts), sources'.fs = fs →
        sources'.db = sources.db → opts'.instances = some path → opts'.sqlWhere = none →
        (∀ list, buildInstanceList sources' opts' = .ok list → list.Perm exported) ∧
        ((∃ list, buildInstanceList sources' opts' = .ok list) ↔ TableIsReadable sources')

theorem reimports : Reimports where
  read_back := fun fs path instances =>
    readInstanceList_write (textHasEntries_instanceListText instances) fs path
  read_edited := by
    intro fs path instances text hedited
    exact readInstanceList_write
      ((textHasEntries_instanceListText instances).of_isEdited hedited) fs path
  rerun := by
    intro sources opts path fs hexport
    obtain ⟨exported, hbuild, rfl⟩ := exportIidOnly_eq_ok hexport
    refine ⟨exported, hbuild, ?_⟩
    intro sources' opts' hfs hdb hinstances hwhere
    have hread : readInstanceList sources'.fs path = .ok exported := by
      rw [hfs]
      exact readInstanceList_write (textHasEntries_instanceListText exported) sources.fs path
    have hknown : ∀ iid ∈ exported, iid.toInt ∈ sources'.db.iids := by
      obtain ⟨chosen, hchosen, harrange⟩ := buildInstanceList_eq_ok_iff.mp hbuild
      intro iid hiid
      rw [hdb]
      rw [← harrange, (arrange_perm sources opts chosen).mem_iff] at hiid
      exact hchosen.known hiid
    simp only [buildInstanceList_file_iff hinstances hwhere hread]
    constructor
    · rintro list ⟨_, rfl⟩
      exact arrange_perm sources' opts' exported
    · constructor
      · rintro ⟨_, hreadable, _⟩
        exact hreadable.1
      · intro hreadable
        exact ⟨_, ⟨hreadable, hknown⟩, rfl⟩

end RunContext

end StrideRunner
