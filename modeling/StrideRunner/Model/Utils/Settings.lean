import StrideRunner.Model.Pace.InstanceWriter
import Mathlib.Data.Vector.Basic

/-! # The settings and their file

`config.json` is written as pretty-printed JSON; the reader of JSON is a parameter elsewhere. -/

namespace StrideRunner

open Pace.InstanceWriter

/-- A text of the source as bytes. -/
def ascii (text : String) : Bytes := encodeUtf8 text.toList

def hexDigit (n : ℕ) : UInt8 := if n < 10 then .ofNat (48 + n) else .ofNat (87 + n)

def hexByte (byte : UInt8) : Bytes := [hexDigit (byte.toNat / 16), hexDigit (byte.toNat % 16)]

structure Uuid where
  bytes : Vector UInt8 16
  deriving DecidableEq, Repr

namespace Uuid

/-- The bytes from index `i` on, with hyphens between the groups. -/
def hyphenated : ℕ → List UInt8 → Bytes
  | _, [] => []
  | i, byte :: bytes =>
      (if i = 4 ∨ i = 6 ∨ i = 8 ∨ i = 10 then [45] else []) ++ hexByte byte ++
        hyphenated (i + 1) bytes

/-- The `Display` instance. -/
def display (uuid : Uuid) : Bytes := hyphenated 0 uuid.bytes.toList

end Uuid

structure Settings where
  serverUrl : List Char
  solverBin : List Char
  runLogDir : List Char
  solverUuid : Option Uuid
  timeout : UInt64
  grace : UInt64
  parallelJobs : UInt64
  deriving DecidableEq, Repr

namespace Settings

/-- The `Default` instance, on a machine with `numCpus` processors. -/
def default (numCpus : UInt64) : Settings :=
  ⟨"https://domset.algorithm.engineering".toList, [], "stride-logs".toList, none, 300, 5, numCpus⟩

/-- A byte within a JSON string. -/
def escape (byte : UInt8) : Bytes :=
  if byte = 34 then [92, 34]
  else if byte = 92 then [92, 92]
  else if byte = 8 then [92, 98]
  else if byte = 9 then [92, 116]
  else if byte = 10 then [92, 110]
  else if byte = 12 then [92, 102]
  else if byte = 13 then [92, 114]
  else if byte < 32 then [92, 117, 48, 48] ++ hexByte byte
  else [byte]

def jsonString (text : List Char) : Bytes :=
  [34] ++ ((encodeUtf8 text).flatMap escape ++ [34])

def jsonNumber (n : UInt64) : Bytes := encodeUtf8 (decimal n.toNat)

def jsonUuid : Option Uuid → Bytes
  | none => ascii "null"
  | some uuid => [34] ++ (uuid.display ++ [34])

/-- The name of a field, in a line of its own. -/
def jsonKey (name : String) : Bytes := ascii ("\n  \"" ++ name ++ "\": ")

/-- `serde_json::to_writer_pretty`. -/
def toWriterPretty (self : Settings) : Bytes :=
  [123] ++ (jsonKey "server_url" ++ (jsonString self.serverUrl ++ [44]) ++
    (jsonKey "solver_bin" ++ (jsonString self.solverBin ++ [44])) ++
    (jsonKey "run_log_dir" ++ (jsonString self.runLogDir ++ [44])) ++
    (jsonKey "solver_uuid" ++ (jsonUuid self.solverUuid ++ [44])) ++
    (jsonKey "timeout" ++ (jsonNumber self.timeout ++ [44])) ++
    (jsonKey "grace" ++ (jsonNumber self.grace ++ [44])) ++
    (jsonKey "parallel_jobs" ++ (jsonNumber self.parallelJobs ++ [10, 125])))

end Settings

end StrideRunner
