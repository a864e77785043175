import StrideRunner.Model.Commands.Run.Job

/-! # Scores on machine integers

`Job` compares scores over the integers. These are the same functions with the casts and the
arithmetic of a 64-bit `isize`. -/

namespace StrideRunner.Isize

/-- `as isize`, from `u32` and from `usize`. -/
def cast (n : ℕ) : ℤ := (n : ℤ).bmod U64_SIZE

/-- The value of an operation: overflow panics under `debug` and wraps under `release`. -/
def fit {ε : Type} (profile : BuildProfile) (overflow : String) (value : ℤ) : Outcome ε ℤ :=
  if value.bmod U64_SIZE = value then .ok value
  else match profile with
    | .debug => .panic overflow
    | .release => .ok (value.bmod U64_SIZE)

def sub {ε : Type} (profile : BuildProfile) (a b : ℤ) : Outcome ε ℤ :=
  fit profile "attempt to subtract with overflow" (a - b)

def mul {ε : Type} (profile : BuildProfile) (a b : ℤ) : Outcome ε ℤ :=
  fit profile "attempt to multiply with overflow" (a * b)

def isScoreGoodEnoughForUpload (profile : BuildProfile) (solutionScore : ℕ)
    (bestScore : Option ℕ) : Outcome AnyhowError Bool :=
  match bestScore with
  | some bestScore => do
      let largerThanScore ← sub profile (cast solutionScore) (cast bestScore)
      let difference ← sub profile largerThanScore 5
      let scaled ← mul profile difference 10
      return scaled < cast bestScore
  | none => return true

def toResultType (profile : BuildProfile) (result : SolverResult) (info : InstanceModel) :
    Outcome AnyhowError JobResultState :=
  match result with
  | .valid data => do
      let largerThanBest ← info.bestScore.elim (.ok 0) fun x =>
        sub profile (cast data.length) (cast x)
      if largerThanBest ≤ 0 then return .bestKnown (data.length % U32_SIZE)
      else match info.bestScore with
        | some best => return .suboptimal (data.length % U32_SIZE) best
        | none => .panic "called `Option::unwrap()` on a `None` value"
  | .validCached => .panic "internal error: entered unreachable code"
  | .infeasible => return .infeasible
  | .syntaxError => return .error
  | .timeout => return .timeout
  | .incompleteOutput => return .incomplete

end StrideRunner.Isize
