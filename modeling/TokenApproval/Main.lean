import TokenApproval.Command.Run
import TokenApproval.Ledger.Stores

/-!
# The command line

Gathers what a run finds around itself, runs the command line, and writes what the run leaves: its
output and its databases. A database at a path is the file `entries` of the directory there.
-/

namespace TokenApproval.Command

/-- What an error of the operating system says about a file. -/
def faultOf : IO.Error → FileFault
  | .noFileOrDirectory _ _ _ => .notFound
  | .inappropriateType _ code _ => if code = 20 then .notDirectory else .isDirectory
  | error => .described (toString error)

def readPath (path : String) : IO (Except FileFault Bytes) := do
  match ← (IO.FS.readBinFile path).toBaseIO with
  | .ok content => return .ok content.toList
  | .error error => return .error (faultOf error)

/-- Reads the files at some paths; to a run there are no others, and it makes no directories before
it has read them. -/
def readFiles (paths : List String) : IO Disk := do
  let contents ← paths.mapM fun path => return (path, ← readPath path)
  return ⟨fun _ => ⟨fun path => (contents.lookup path).getD (.error .notFound)⟩⟩

/-- The file of a database. -/
def databaseFile (path : String) : String := path ++ "/entries"

/-- Reads the database at a path; there is none if its file cannot be read. -/
def readDatabase (path : String) : IO (Option (String × KeyValueStore)) := do
  let content ← readPath (databaseFile path)
  return do
    let text ← content.toOption.bind Text.ofBytes?
    let store ← KeyValueStore.ofFileText? text
    return (path, store)

/-- Writes the database at a path, if a run leaves one there. -/
def writeDatabase (around : Surroundings) (path : String) : IO Unit := do
  match around.database? path with
  | none => return ()
  | some store =>
    IO.FS.createDirAll path
    IO.FS.writeFile (databaseFile path) store.fileText

/-- Gathers the surroundings of a run, and the paths of its databases. -/
def gather (arguments : List String) : IO (Surroundings × List String) := do
  let block ← readPath "/proc/self/environ"
  let env := Environment.ofBlock (block.toOption.getD [])
  let bare : Surroundings := ⟨← readFiles [], env, []⟩
  let configured := { bare with disk := ← readFiles (filesOf bare arguments) }
  let disk ← readFiles (filesOf configured arguments)
  let paths := databasesOf configured arguments
  let databases ← paths.filterMapM readDatabase
  return (⟨disk, env, databases⟩, paths)

/-- Prints how a run ends; gives its exit code. -/
def report : Outcome → IO UInt32
  | .exited code output => do
    IO.print output
    return UInt32.ofNat code
  | .failed failure => do
    IO.eprintln ("error: " ++ failure.message)
    return 1
  | .aborted => do
    IO.eprintln "an environment file gives a value with a zero byte"
    return 101
  | .serving _ address => do
    IO.eprintln ("error: cannot listen on " ++ address)
    return 1
  | .helped => do
    IO.println ("usage: token-recover-approver [--config CONFIG] "
      ++ "[serve [--timeout SECONDS] | import --sled PATH | verify-snapshot | version]")
    return 0
  | .usage => do
    IO.eprintln "error: wrong arguments; see --help"
    return 2

end TokenApproval.Command

def main (arguments : List String) : IO UInt32 := do
  let (around, databases) ← TokenApproval.Command.gather arguments
  let (after, outcome) := TokenApproval.Command.run around arguments
  databases.forM (TokenApproval.Command.writeDatabase after)
  TokenApproval.Command.report outcome
