import StrideRunner.Model.Utils.DatabaseFile

/-! # Downloading a file

`download_file_with_updates` sends a request, creates the file and appends one chunk after the
other. It may fail before each of these steps, and within the write of a chunk. -/

namespace StrideRunner

/-- The position in `download_file_with_updates`, with the chunks that are still to come. -/
inductive DownloadPhase where
  | request
  | create (chunks : List Bytes)
  | receive (chunks : List Bytes)
  | finished
  | failed (error : AnyhowError)

inductive DownloadAction where
  | respond (chunks : List Bytes)
  | create
  | receive
  | close
  | fail (error : AnyhowError) (written : Bytes)

/-- One step of the download of `dump`, which the server cuts into chunks as it likes; `file` is
what the path names. A failing write leaves a prefix of its chunk. -/
def downloadStep (dump : Bytes) (action : DownloadAction) (phase : DownloadPhase)
    (file : Option DbFile) : Option (DownloadPhase × Option DbFile) :=
  match action, phase, file with
  | .respond chunks, .request, file =>
      if chunks.flatten = dump then some (.create chunks, file) else none
  | .create, .create chunks, _ => some (.receive chunks, some (.bytes []))
  | .receive, .receive (chunk :: chunks), some (.bytes content) =>
      some (.receive chunks, some (.bytes (content ++ chunk)))
  | .close, .receive [], file => some (.finished, file)
  | .fail error _, .request, file => some (.failed error, file)
  | .fail error _, .create _, file => some (.failed error, file)
  | .fail error _, .receive [], file => some (.failed error, file)
  | .fail error written, .receive (chunk :: _), some (.bytes content) =>
      if written <+: chunk then some (.failed error, some (.bytes (content ++ written)))
      else none
  | _, _, _ => none

end StrideRunner
