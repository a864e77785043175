import StrideRunner.Model.Utils.InstanceDataDB

/-! # Database files

What SQLite makes of a downloaded file is a parameter of the model. A file that SQLite has written
itself holds the table that was committed. -/

namespace StrideRunner

open Library

inductive DbFile where
  | bytes (content : Bytes)
  | committed (rows : InstanceData)

/-- A file as SQLite sees it. -/
inductive DbContent where
  | malformed
  | noTable
  | table (rows : InstanceData)

def DbFile.content (sqlite : Bytes → DbContent) : DbFile → DbContent
  | .bytes content => sqlite content
  | .committed rows => .table rows

namespace InstanceDataDB

def notADatabase : AnyhowError := .message "file is not a database"

def noSuchTable : AnyhowError := .message "no such table: InstanceData"

variable (sqlite : Bytes → DbContent)

/-- The target after `INSERT OR IGNORE INTO InstanceData ... FROM download.InstanceData`. -/
def insertSelect (target download : DbFile) : Except AnyhowError DbFile :=
  match target.content sqlite, download.content sqlite with
  | .malformed, _ => .error notADatabase
  | _, .malformed => .error notADatabase
  | _, .noTable => .error noSuchTable
  -- an unqualified name that `main` does not have is looked up in the attached database
  | .noTable, .table _ => .ok target
  | .table old, .table rows => .ok (.committed (UniqueTable.merge old rows.rows))

/-- `add_from_db_file` on a new connection to the file `target`. -/
def addFromFile (fault : MergeFault) (target download : DbFile) :
    Outcome AnyhowError Unit × DbFile :=
  match fault, insertSelect sqlite target download with
  | .attach error, _ => (.err error, target)
  | .insert error, _ => (.err error, target)
  | _, .error error => (.err error, target)
  | .detach error, .ok merged => (.err error, merged)
  | .none, .ok merged => (.ok (), merged)

end InstanceDataDB

end StrideRunner
