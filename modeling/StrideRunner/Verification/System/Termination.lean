import StrideRunner.Library.Fairness
import StrideRunner.Verification.Scheduler.Termination
import StrideRunner.Verification.System.Correctness
import StrideRunner.Verification.System.Progress

/-! # Every run comes to rest

If neither the main task nor a job is kept waiting forever, every job that is started ends,
`command_run` returns, and after that nothing happens any more. -/

namespace StrideRunner

open Library

namespace RunState

variable {opts : RunOpts} {s t : RunState}

end RunState

namespace SystemState

open RunState

variable {env : RunEnvironment} {instances : List IId} {fs : FileSystem} {s t : SystemState}

def Reachable (env : RunEnvironment) (instances : List IId) (fs : FileSystem)
    (s : SystemState) : Prop :=
  ∃ actions, exec (step env) actions (start env instances fs) = some s

theorem Reachable.step {a : SystemAction} (hs : Reachable env instances fs s)
    (h : step env a s = some t) : Reachable env instances fs t := by
  obtain ⟨actions, hrun⟩ := hs
  exact ⟨actions ++ [a], exec_append_eq_some.mpr ⟨s, hrun, by simp [exec, h]⟩⟩

section Execution

variable {run : ℕ → SystemState} {label : ℕ → Option SystemAction}

end Execution

end SystemState

end StrideRunner
