import BenchPlot.Command.Manifest
import BenchPlot.Command.Plotting

/-!
# Importing files

The store takes the rows of a file, and the manifest is written whether or not the import comes to its
end.

Main definition: `ImportRequest.run`.
-/

namespace BenchPlot

/-- The import of a file that turns out to be unreadable once its first record is asked for. What refuses
    an import before that counts here as well. -/
def Store.importUnreadable (s : Store) (bench : String) (o : ImportOptions) (fault : FileFault) :
    ImportRun :=
  let run := s.importCsv bench [] o fun _ => false
  match run.outcome with
  | .ok _ => { run with outcome := .error (.data 1 (.unreadable fault)) }
  | .error _ => run

namespace ImportRequest

/-- The options of the import. -/
def options (r : ImportRequest) : Session ImportOptions := do
  if r.delimiter.toNat < 128 then
    let fixed ← Session.pairs "fixed value" r.fixed
    pure ⟨r.chunkSize, UInt8.ofNat r.delimiter.toNat, fixed, r.autoKey⟩
  else
    Session.fail none (.badDelimiter r.delimiter)

/-- Writes the manifest of an import. -/
def writeManifest (file : String) (account : ImportAccount) : Session Unit := do
  Session.makeDirectory (parentPath file)
  Session.writeText (.createManifest file) file (account.manifest.pretty ++ "\n")

/-- The run of the import with what the file holds. -/
def runWith (r : ImportRequest) (s : Store) (o : ImportOptions)
    (content : Except FileFault (List UInt8)) : ImportRun :=
  match content with
  | .ok bytes => s.importCsv r.bench bytes o fun _ => false
  | .error fault => s.importUnreadable r.bench o fault

/-- Imports a file into the store in the file at a path. -/
def run (r : ImportRequest) (path : String) : Session String := do
  let options ← r.options
  let store ← Session.openStore path
  let content ←
    match (← Session.files).read r.source with
    | .error .missing => Session.fail (some (.openFile r.source)) (.file .missing)
    | .error .notADirectory => Session.fail (some (.openFile r.source)) (.file .notADirectory)
    | content => pure content
  let run := r.runWith store options content
  -- The chunks before a fault stay, and so they are kept before the manifest can fail.
  Session.saveStore path run.store
  match r.manifest with
  | none => pure ()
  | some file =>
    let bytes ← Session.ofExcept (some (.hashFile r.source)) .file content
    writeManifest file ⟨← Session.clock, path, r, bytes, run⟩
  let _ ← Session.ofExcept (some (.importInto r.bench)) .store run.outcome
  pure ""

end ImportRequest

end BenchPlot
