import BenchPlot.Command.Basic
import BenchPlot.Digest.Sha256
import BenchPlot.Output.Json
import BenchPlot.Store.Import

/-!
# Manifests of imports

The account of an import that is written beside it: when it ran, what it read and how, how it ended, and
how many rows it committed.
-/

namespace BenchPlot

/-- The version of the layout of manifests. -/
def manifestVersion : Nat := 1

/-- What a manifest tells about an import besides its request: the time, the file of the store, the bytes
    that were read, and the run. -/
structure ImportAccount where
  clock : String
  store : String
  request : ImportRequest
  bytes : List UInt8
  run : ImportRun

namespace ImportAccount

/-- A time without the marks between its parts. -/
def compactTime (clock : String) : String :=
  String.ofList (clock.toList.filter fun c => c != '-' && c != ':')

/-- How the import ended. -/
def status (a : ImportAccount) : String :=
  match a.run.outcome with
  | .ok _ => "completed"
  | .error (.canceled _) => "canceled"
  | .error _ => "failed"

/-- Why the import failed. -/
def failureReason? (a : ImportAccount) : Option String :=
  match a.run.outcome with
  | .ok _ | .error (.canceled _) => none
  | .error e => some e.message

/-- The number of rows that the import committed. -/
def committedRows (a : ImportAccount) : Nat :=
  match a.run.outcome with
  | .ok summary => summary.inserted + summary.existing
  | .error (.canceled committed) => committed
  | .error _ => a.run.totals.getLast?.getD 0

/-- The tree for what an import that came to its end did. -/
def summaryNode (s : ImportSummary) : JsonNode :=
  .object [("rows_read", .natural s.rowsRead), ("inserted", .natural s.inserted),
    ("existing", .natural s.existing), ("chunks_committed", .natural s.chunksCommitted),
    ("skipped_columns", .texts s.skippedColumns)]

/-- The tree for the options of an import. -/
def optionsNode (r : ImportRequest) : JsonNode :=
  .object [("chunk_size", .natural r.chunkSize), ("delimiter", .text r.delimiter.toString),
    ("auto_key", .ofText? r.autoKey), ("fixed", .texts r.fixed)]

/-- The manifest. -/
def manifest (a : ImportAccount) : JsonNode :=
  .object [
    ("manifest_version", .natural manifestVersion),
    ("run_id", .text ("import-" ++ compactTime a.clock)),
    ("db_path", .text a.store),
    ("db_schema_version", .text Store.schemaVersionText),
    ("bench", .text a.request.bench),
    ("status", .text a.status),
    ("started_at", .text a.clock),
    ("finished_at", .text a.clock),
    ("failure_reason", .ofText? a.failureReason?),
    ("source", .object [("path", .text a.request.source),
      ("sha256", .text (Sha256.digestText a.bytes)), ("bytes", .natural a.bytes.length)]),
    ("options", optionsNode a.request),
    ("summary", match a.run.outcome with
      | .ok summary => summaryNode summary
      | .error _ => .null),
    ("committed_rows", .natural a.committedRows)]

end ImportAccount

end BenchPlot
