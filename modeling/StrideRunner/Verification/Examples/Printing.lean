import StrideRunner.Model.Examples.Greedy
import StrideRunner.Verification.Pace.Layout
import StrideRunner.Verification.Pace.Transcription

/-! # What the example solver prints

Comments and empty lines may stand anywhere in a solution, so the options that print them do not
change the numbers that are read. -/

namespace StrideRunner.Greedy

open Pace Library InstanceWriter PaceReader

variable {opts : Opt} {domset : List ℕ}

/-! ## Texts that are skipped -/

/-- Nothing is read from the text in front of a file. -/
def Skipped (text : List Char) : Prop :=
  ∀ rest values, HasNumbers (encodeUtf8 rest) values → HasNumbers (encodeUtf8 (text ++ rest)) values

theorem skipped_nil : Skipped [] := fun _ _ h => h

theorem Skipped.append {text text' : List Char} (h : Skipped text) (h' : Skipped text') :
    Skipped (text ++ text') := by
  intro rest values hrest
  rw [List.append_assoc]
  exact h _ _ (h' rest values hrest)

theorem skipped_of_lines {text : List Char}
    (h : ∀ rest, ∃ line, lines '\r' '\n' (text ++ rest) = line :: lines '\r' '\n' rest ∧
      SolutionReader.isSkipped (trim line)) : Skipped text := by
  intro rest values hrest
  obtain ⟨line, hlines, hskip⟩ := h rest
  have hraw : isSkippedRaw (encodeUtf8 line) = true := by simpa [isSkippedRaw] using hskip
  rw [HasNumbers, lines_encodeUtf8] at hrest ⊢
  rwa [hlines, List.map_cons, List.filter_cons, hraw]

theorem skipped_emptyLine (opts : Opt) : Skipped (emptyLine opts) := by
  unfold emptyLine
  split
  · exact skipped_of_lines fun rest => ⟨[], rfl, rfl⟩
  · exact skipped_nil

theorem skipped_commentLine {text : String} (h : IsCommentLine text.toList) :
    Skipped (commentLine opts text) := by
  unfold commentLine
  split
  · apply skipped_of_lines
    intro rest
    obtain ⟨read, hread, hhead⟩ := lines_comment h (.lf rest)
    refine ⟨read, by rwa [List.append_assoc], ?_⟩
    cases read with
    | nil => cases hhead
    | cons c read =>
        cases hhead
        simp [SolutionReader.isSkipped, head?_trim_cons (by decide : isWhitespace 'c' = false)]
  · exact skipped_nil

/-! ## The numbers -/

theorem utf8Lines_encodeUtf8 (text : List Char) : Utf8Lines (encodeUtf8 text) := by
  intro raw hraw
  rw [lines_encodeUtf8] at hraw
  obtain ⟨line, _, rfl⟩ := List.mem_map.mp hraw
  simp

/-- The number on a line of its own. -/
theorem hasNumbers_decimal {rest : List Char} {values : List ℕ}
    (h : HasNumbers (encodeUtf8 rest) values) (value : ℕ) :
    HasNumbers (encodeUtf8 (decimal value ++ '\n' :: rest)) (value :: values) := by
  rw [HasNumbers, lines_encodeUtf8] at h ⊢
  rw [lines_decimal, List.map_cons, List.filter_cons, not_isSkippedRaw_decimal]
  exact .cons (isNumberLine_decimal value) h

theorem hasNumbers_append {rest : List Char} (h : HasNumbers (encodeUtf8 rest) [])
    (values : List ℕ) : HasNumbers (encodeUtf8 (numberLines values ++ rest)) values := by
  induction values with
  | nil => exact h
  | cons value values ih =>
      rw [numberLines_cons, List.append_assoc, List.cons_append]
      exact hasNumbers_decimal ih value

theorem printResult_eq (profile : BuildProfile) (opts : Opt)
    (h : ∀ node ∈ domset, node + 1 < U32_SIZE) :
    printResult profile opts domset = (.ok (), commentLine opts "c Greedy algorithm" ++
      emptyLine opts ++ (decimal (domset.length + opts.wrongCardinality.toNat) ++ ['\n']) ++
      commentLine opts "c Here goes another comment" ++ emptyLine opts ++
      numberLines (domset.map (· + 1)) ++ emptyLine opts) := by
  simp only [printResult, Solution.writeNodes_eq h]

/-- The process prints a size and the nodes, counted from 1. -/
theorem hasNumbers_printResult (profile : BuildProfile) (opts : Opt) {waiting : List Char}
    (hwaiting : Skipped waiting) (h : ∀ node ∈ domset, node + 1 < U32_SIZE) :
    HasNumbers (encodeUtf8 (waiting ++ (printResult profile opts domset).2))
      ((domset.length + opts.wrongCardinality.toNat) :: domset.map (· + 1)) := by
  rw [printResult_eq profile opts h]
  have hend := skipped_emptyLine opts [] [] .nil
  rw [List.append_nil] at hend
  have hnodes := hasNumbers_append hend (domset.map (· + 1))
  have hinner : Skipped (commentLine opts "c Here goes another comment" ++ emptyLine opts) :=
    (skipped_commentLine ⟨by decide, by decide⟩).append (skipped_emptyLine opts)
  have hsize := hasNumbers_decimal (hinner _ _ hnodes) (domset.length + opts.wrongCardinality.toNat)
  have houter : Skipped (waiting ++ (commentLine opts "c Greedy algorithm" ++ emptyLine opts)) :=
    hwaiting.append ((skipped_commentLine ⟨by decide, by decide⟩).append (skipped_emptyLine opts))
  simpa only [List.append_assoc, List.cons_append, List.nil_append] using houter _ _ hsize

end StrideRunner.Greedy
