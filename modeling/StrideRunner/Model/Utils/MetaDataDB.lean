import StrideRunner.Library.Sorting
import StrideRunner.Model.Utils.InstanceDataDB

/-! # Queries on the metadata table

A condition in SQL is a parameter: it selects rows, or SQLite rejects it. -/

namespace StrideRunner

open Library

/-- The column `iid` of the table `Instance`: a primary key of SQLite's integers. -/
structure MetaDataDB where
  iids : List ℤ
  nodup : iids.Nodup

/-- What SQLite makes of a condition. The rows are named by their `iid` and come in any order. -/
structure DangerousRawClause where
  selects : ℤ → Bool
  order : Reordering ℤ
  fault : Fault

namespace MetaDataDB

/-- What `row.get` reports for a value outside of `u32`. -/
def outOfRange (value : ℤ) : AnyhowError :=
  .message ("Integer " ++ toString value ++ " out of range at index 0")

/-- The loop over the rows; each value has to fit the id type. -/
def readIids : List ℤ → Outcome AnyhowError (List IId)
  | [] => .ok []
  | value :: rows =>
      if 0 ≤ value ∧ value < U32_SIZE then do
        let iids ← readIids rows
        return ⟨.ofNat value.toNat⟩ :: iids
      else .err (outOfRange value)

/-- The query `SELECT iid FROM Instance WHERE …`. -/
def fetchInstanceIidsFromDb (db : MetaDataDB) (clause : DangerousRawClause) :
    Outcome AnyhowError (List IId) :=
  match clause.fault with
  | some error => .err error
  | none => readIids (clause.order.run (db.iids.filter clause.selects))

end MetaDataDB

end StrideRunner
