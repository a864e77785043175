import StrideRunner.Model.Commands.Run.Command
import StrideRunner.Model.Pace.InstanceWriter

/-! # The text of `summary.csv` -/

namespace StrideRunner

open Pace.InstanceWriter

def HEADER_STR : String := "iid,time_sec,state,score,best_score_known\n"

namespace SummaryLine

/-- `map_or_else(String::new, |s| s.to_string())`. -/
def optional : Option ℕ → List Char
  | some value => decimal value
  | none => []

/-- The line that is written; `asSecsF64` prints a duration in seconds as an `f64`. -/
def text (asSecsF64 : ℕ → List Char) (self : SummaryLine) : List Char :=
  decimal self.iid.id.toNat ++ ',' :: (asSecsF64 self.timeSec ++ ',' :: (self.state.toList ++
    ',' :: (optional self.score ++ ',' :: (optional self.bestScoreKnown ++ ['\n']))))

end SummaryLine

/-- The whole file after these lines have been logged. -/
def summaryText (asSecsF64 : ℕ → List Char) (summary : List SummaryLine) : List Char :=
  HEADER_STR.toList ++ summary.flatMap (SummaryLine.text asSecsF64)

end StrideRunner
