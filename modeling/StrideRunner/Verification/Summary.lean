import StrideRunner.Library.SelfDelimiting
import StrideRunner.Model.Utils.RunSummaryLogger
import StrideRunner.Verification.Decimal

/-! # The format of `summary.csv`

Every line ends in the only line feed that it contains, so even a file with a torn last line tells
which results have been logged. -/

namespace StrideRunner

open Pace Library InstanceWriter

/-- How durations are printed; numbers contain no separators. -/
structure SecondsFormat where
  print : ℕ → List Char
  notMem_comma : ∀ time, ',' ∉ print time
  notMem_lf : ∀ time, '\n' ∉ print time

/-- What a line of the summary stands for. -/
structure SummaryEntry where
  iid : IId
  time : List Char
  state : JobResultState
  notMem_comma : ',' ∉ time
  notMem_lf : '\n' ∉ time

/-! ## Columns -/

theorem optional_injective : Function.Injective SummaryLine.optional := by
  intro a b h
  cases a with
  | none =>
      cases b with
      | none => rfl
      | some b => exact ((isDecimal_decimal b).nonempty h.symm).elim
  | some a =>
      cases b with
      | none => exact ((isDecimal_decimal a).nonempty h).elim
      | some b => rw [decimal_injective h]

theorem notMem_optional {c : Char} (hc : c.isDigit = false) (value : Option ℕ) :
    c ∉ SummaryLine.optional value := by
  cases value with
  | none => exact List.not_mem_nil
  | some value => exact (isDecimal_decimal value).notMem hc

theorem notMem_display (state : JobResultState) :
    ',' ∉ state.display.toList ∧ '\n' ∉ state.display.toList := by
  cases state <;> simp [JobResultState.display]

/-- The last three columns determine the state. -/
theorem state_eq_of_columns {iid iid' : IId} {state state' : JobResultState}
    (hstate : state.display = state'.display)
    (hscore : (logJobResult iid ⟨state, 0⟩).score = (logJobResult iid' ⟨state', 0⟩).score)
    (hbest : (logJobResult iid ⟨state, 0⟩).bestScoreKnown =
      (logJobResult iid' ⟨state', 0⟩).bestScoreKnown) : state = state' := by
  cases state <;> cases state' <;> simp_all [logJobResult, JobResultState.display]

/-! ## Lines -/

namespace SummaryEntry

def ofResult (format : SecondsFormat) (logged : IId × JobResult) : SummaryEntry :=
  ⟨logged.1, format.print logged.2.runtime, logged.2.state, format.notMem_comma _,
    format.notMem_lf _⟩

/-- The line without its line feed. -/
def body (self : SummaryEntry) : List Char :=
  let line := logJobResult self.iid ⟨self.state, 0⟩
  decimal self.iid.id.toNat ++ ',' :: (self.time ++ ',' :: (line.state.toList ++
    ',' :: (SummaryLine.optional line.score ++ ',' :: SummaryLine.optional line.bestScoreKnown)))

theorem text_eq_body (format : SecondsFormat) (logged : IId × JobResult) :
    (logJobResult logged.1 logged.2).text format.print = (ofResult format logged).body ++ ['\n'] := by
  obtain ⟨iid, state, runtime⟩ := logged
  cases state <;> simp [SummaryLine.text, body, ofResult, logJobResult]

theorem logJobResult_state (iid : IId) (state : JobResultState) :
    (logJobResult iid ⟨state, 0⟩).state = state.display := by
  cases state <;> rfl

theorem body_injective : Function.Injective body := by
  rintro ⟨iid, time, state, hcomma, hlf⟩ ⟨iid', time', state', hcomma', hlf'⟩ h
  simp only [body, logJobResult_state] at h
  have hdecimal : ∀ n, ',' ∉ decimal n := fun n => (isDecimal_decimal n).notMem rfl
  obtain ⟨hid, h⟩ := append_cons_inj_of_notMem_left (hdecimal _) (hdecimal _) h
  obtain ⟨htime, h⟩ := append_cons_inj_of_notMem_left hcomma hcomma' h
  obtain ⟨hstate, h⟩ :=
    append_cons_inj_of_notMem_left (notMem_display state).1 (notMem_display state').1 h
  obtain ⟨hscore, hbest⟩ :=
    append_cons_inj_of_notMem_left (notMem_optional rfl _) (notMem_optional rfl _) h
  have hiid : iid = iid' := by
    rw [IId.mk.injEq, ← UInt32.toNat_inj]
    exact decimal_injective hid
  have hcolumns : state = state' := state_eq_of_columns (String.toList_inj.mp hstate)
    (optional_injective hscore) (optional_injective hbest)
  simp only [SummaryEntry.mk.injEq]
  exact ⟨hiid, htime, hcolumns⟩

theorem notMem_lf_body (self : SummaryEntry) : '\n' ∉ self.body := by
  obtain ⟨iid, time, state, hcomma, hlf⟩ := self
  have hdecimal : ∀ n, '\n' ∉ decimal n := fun n => (isDecimal_decimal n).notMem rfl
  simp only [body, logJobResult_state, List.mem_append, List.mem_cons, not_or]
  exact ⟨hdecimal _, by decide, hlf, by decide, (notMem_display state).2, by decide,
    notMem_optional rfl _, by decide, notMem_optional rfl _⟩

/-- The bytes of the line. -/
def encode (self : SummaryEntry) : Bytes :=
  encodeUtf8 self.body ++ [10]

theorem selfDelimiting_encode : SelfDelimiting encode :=
  SelfDelimiting.terminated (encodeUtf8_injective.comp body_injective)
    fun self => notMem_encodeUtf8 (by decide : '\n'.toNat ≤ 127) self.notMem_lf_body

theorem mem_encode (self : SummaryEntry) : (10 : UInt8) ∈ self.encode := by
  simp [encode]

end SummaryEntry

/-! ## The file -/

/-- The file after these results have been logged. -/
def csv (format : SecondsFormat) (logged : List (IId × JobResult)) : Bytes :=
  encodeUtf8 (summaryText format.print (logged.map fun entry => logJobResult entry.1 entry.2))

theorem csv_eq (format : SecondsFormat) (logged : List (IId × JobResult)) :
    csv format logged = encodeUtf8 HEADER_STR.toList ++
      (logged.map (SummaryEntry.ofResult format)).flatMap SummaryEntry.encode := by
  have hlf : encodeUtf8 ['\n'] = [10] := rfl
  have hline : ∀ entry : IId × JobResult,
      encodeUtf8 ((logJobResult entry.1 entry.2).text format.print) =
        (SummaryEntry.ofResult format entry).encode := by
    intro entry
    rw [SummaryEntry.text_eq_body, encodeUtf8_append, hlf, SummaryEntry.encode]
  rw [csv, summaryText, encodeUtf8_append, List.flatMap_map, List.flatMap_map]
  simp only [← hline]
  simp only [encodeUtf8, List.flatMap_assoc]

/-- A file that goes on with other lines, in front of a torn one, has more results. -/
theorem isPrefix_of_csv {format : SecondsFormat} {logged logged' : List (IId × JobResult)}
    {rest torn : Bytes} (htorn : 10 ∉ torn)
    (h : csv format logged ++ rest = csv format logged' ++ torn) :
    logged.map (SummaryEntry.ofResult format) <+: logged'.map (SummaryEntry.ofResult format) := by
  rw [csv_eq, csv_eq, List.append_assoc, List.append_assoc] at h
  exact SummaryEntry.selfDelimiting_encode.isPrefix_of_append_eq SummaryEntry.mem_encode htorn
    (List.append_cancel_left h)

/-- What a file, whose last line may be torn, tells about the results that have been logged. -/
structure SummarySpec (format : SecondsFormat) (logged logged' : List (IId × JobResult))
    (torn torn' : Bytes) : Prop where
  grown : csv format logged <+: csv format logged' ++ torn' ↔
    logged.map (SummaryEntry.ofResult format) <+: logged'.map (SummaryEntry.ofResult format)
  same : csv format logged ++ torn = csv format logged' ++ torn' ↔
    logged.map (SummaryEntry.ofResult format) = logged'.map (SummaryEntry.ofResult format) ∧
      torn = torn'

/-- The file determines the logged results, up to the rounding of their times: its complete lines
are those of the results, in order, even if a write has been interrupted. -/
theorem summary_determines (format : SecondsFormat) {logged logged' : List (IId × JobResult)}
    {torn torn' : Bytes} (htorn : 10 ∉ torn) (htorn' : 10 ∉ torn') :
    SummarySpec format logged logged' torn torn' := by
  refine ⟨⟨?_, ?_⟩, ⟨?_, ?_⟩⟩
  · rintro ⟨rest, h⟩
    exact isPrefix_of_csv htorn' h
  · rintro ⟨more, h⟩
    rw [csv_eq, csv_eq, ← h, List.flatMap_append, List.append_assoc, List.append_assoc]
    exact (List.prefix_append_right_inj _).mpr (List.prefix_append ..)
  · intro h
    have hle := isPrefix_of_csv htorn' h
    have hge := isPrefix_of_csv htorn h.symm
    have hsame := hle.eq_of_length_le hge.length_le
    refine ⟨hsame, ?_⟩
    rw [csv_eq, csv_eq, hsame] at h
    exact List.append_cancel_left h
  · rintro ⟨hsame, rfl⟩
    rw [csv_eq, csv_eq, hsame]

/-- Durations of whole seconds. -/
def wholeSeconds : SecondsFormat :=
  ⟨fun time => decimal (time / 1000000000), fun _ => (isDecimal_decimal _).notMem rfl,
    fun _ => (isDecimal_decimal _).notMem rfl⟩

theorem summary_determines_torn :
    SummarySpec wholeSeconds [(⟨3⟩, ⟨.bestKnown 7, 2000000000⟩)]
      [(⟨3⟩, ⟨.bestKnown 7, 1000000000⟩), (⟨5⟩, ⟨.timeout, 0⟩)] [53, 44] [] :=
  summary_determines wholeSeconds (by decide) (by decide)

end StrideRunner
