import DocumentDb.Command.Answer
import DocumentDb.Command.Help
import DocumentDb.Document.RandomId
import Std.Time.DateTime.Timestamp

/-!
# The program

The files of the directory are read, the command line is answered, and the files that changed are
written. The shards of a collection have numbers without gaps.
-/

namespace DocumentDb.Program

/-- The name of the program. -/
def name : String := "document-db"

/-- How many random bytes are drawn for one command. -/
def poolSize : USize := 1048576

/-- The current time. -/
def now : IO Instant := do
  let nanos := (← Std.Time.Timestamp.now).toNanosecondsSinceUnixEpoch.val
  let second : Int := Instant.nanosPerSecond
  pure ⟨nanos / second, (nanos % second).toNat⟩

/-- The place of something in a directory. -/
def place (root : String) (path : Path) : String := root ++ "/" ++ Directory.pathText path

/-- Read a file into a directory and tell whether there is one. -/
def load (root : String) (path : Path) : StateT Directory IO Bool := do
  try
    let text ← IO.FS.readFile (place root path)
    modify (·.withFile (Directory.pathText path) text)
    pure true
  catch _ => pure false

/-- Read the shards of a folder from a number on. -/
partial def loadShards (root : String) (folder : Path) (index : Nat) :
    StateT Directory IO Unit := do
  if ← load root (folder ++ [Shard.fileName index]) then loadShards root folder (index + 1)

/-- Read the files of a database. -/
def loadAll (root : String) : StateT Directory IO Unit := do
  discard (load root [Database.schemaFile])
  match Database.schemaOf root (← get) with
  | .error _ => pure ()
  | .ok registry =>
    for collection in registry.names do
      let folder := FileStore.folder collection
      discard (load root (folder ++ [Counter.fileName]))
      loadShards root folder 0

/-- Write the files that changed and remove those that are gone. -/
def save (root : String) (before after : Directory) : IO Unit := do
  for (path, text) in after.files do
    if before.file? path != some text then
      IO.FS.createDirAll (place root path.dropLast)
      IO.FS.writeFile (place root path) text
  for (path, _) in before.files do
    if (after.file? path).isNone then IO.FS.removeFile (place root path)

/-- Report an error and give the exit code. -/
def fail (e : Error) : IO UInt32 := do
  IO.eprintln (Command.report e)
  pure 1

/-- Answer a command line. -/
def run (invocation : Command.Invocation) : IO UInt32 := do
  let root := invocation.directory
  let (_, before) ← (loadAll root).run {}
  let source := IdSource.ofBytes (← IO.getRandomBytes poolSize)
  let (result, after) := invocation.answer source (← now) before
  try
    save root before after
    match result with
    | .ok text =>
      IO.print text
      pure 0
    | .error e => fail e
  catch _ => fail .file

end DocumentDb.Program

/-- The entry point. -/
def main (arguments : List String) : IO UInt32 := do
  match DocumentDb.Command.Invocation.read arguments with
  | .ok invocation => DocumentDb.Program.run invocation
  | .error .help =>
    IO.print (DocumentDb.Command.help DocumentDb.Program.name)
    pure 0
  | .error .version =>
    IO.print (DocumentDb.Command.versionLine DocumentDb.Program.name)
    pure 0
  | .error .misuse =>
    IO.eprint (DocumentDb.Command.help DocumentDb.Program.name)
    pure 2
