import StrideRunner.Verification.Executor.Isolation
import StrideRunner.Verification.Executor.PartialOutput
import StrideRunner.Verification.Pace.RoundTrip
import StrideRunner.Verification.Pace.StripComments
import StrideRunner.Verification.Scheduler.Termination
import StrideRunner.Verification.Cache.ConcurrentMisses
import StrideRunner.Library.Interleaving
import StrideRunner.Verification.Import
import StrideRunner.Verification.InstanceList
import StrideRunner.Model.Commands.Update
import StrideRunner.Verification.Executor.Timeout
import StrideRunner.Verification.Update.Atomicity
import StrideRunner.Verification.Update.FirstUpdate
import StrideRunner.Verification.Register
import StrideRunner.Verification.Pace.Digest
import StrideRunner.Verification.Score
import StrideRunner.Verification.Export
import StrideRunner.Library.Simulation
import StrideRunner.Verification.Executor.Output
import StrideRunner.Verification.System.Correctness
import StrideRunner.Verification.System.Order
import StrideRunner.Verification.Examples.Verdict
import StrideRunner.Verification.System.Cached
import StrideRunner.Verification.Summary
import StrideRunner.Verification.System.Reimport
import StrideRunner.Verification.System.Termination
import StrideRunner.Verification.System.Faultless
import StrideRunner.Verification.System.Upload
import StrideRunner.Verification.System.TimeLimit
import StrideRunner.Verification.System.Repeat
import StrideRunner.Verification.System.Registered
import StrideRunner.Verification.System.OneSlot
import StrideRunner.Verification.System.Exporting
import StrideRunner.Verification.Environment
import StrideRunner.Verification.System.Heeded
import StrideRunner.Verification.System.Offline
