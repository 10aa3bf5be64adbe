import TokenApproval.Text

/-!
# Files

The program reads a few files by path; `Files` says what reading each path gives, and a `Disk` what
it gives once directories were made. A `Directory` is a list of files in memory, whose parents are
directories. A path is followed in it name by name, as the operating system does it: what stands
before a slash must be a directory.
-/

namespace TokenApproval

inductive FileFault where
  | notFound
  | notDirectory
  | isDirectory
  | nameTooLong
  | zeroByte
  /-- The bytes are not UTF-8. -/
  | notText
  | described (reason : String)
deriving DecidableEq, Repr

def FileFault.message : FileFault → String
  | .notFound => "No such file or directory (os error 2)"
  | .notDirectory => "Not a directory (os error 20)"
  | .isDirectory => "Is a directory (os error 21)"
  | .nameTooLong => "File name too long (os error 36)"
  | .zeroByte => "file name contained an unexpected NUL byte"
  | .notText => "stream did not contain valid UTF-8"
  | .described reason => reason

/-- What reading the file at a path gives. -/
structure Files where
  read : (path : String) → Except FileFault Bytes

def Files.readText (files : Files) (path : String) : Except FileFault String := do
  let bytes ← files.read path
  match Text.ofBytes? bytes with
  | none => .error .notText
  | some text => .ok text

/-- The files of a process, as they are once directories were made at some paths. -/
structure Disk where
  after : (made : List String) → Files

/-- A place seen from the working directory: the names that lead there. Dots in pairs stand only in
front, where they climb, and a slash stands only first, for the root. -/
abbrev Place := List String

namespace Place

def root : Place := ["/"]

/-- The place that a name leads to from another one; both are in reverse. -/
def step (place : Place) (name : String) : Place :=
  if name = "" ∨ name = "." then place
  else if name = ".." then
    match place with
    | [] => [".."]
    | ".." :: rest => ".." :: ".." :: rest
    | last :: rest => if last = "/" then [last] else rest
  else name :: place

/-- The names of a path text, empty names and dots included. -/
def names (path : String) : List String :=
  (path.toList.splitOnP (· == '/')).map String.ofList

/-- Where following a path text starts. -/
def start (path : String) : Place := if path.startsWith "/" then root else []

/-- The place that a path text names if all directories on the way exist. -/
def ofPath (path : String) : Place := ((names path).foldl step (start path)).reverse

/-- The places on the way from one place by some names, the last included; all are in reverse. -/
def passed (place : Place) : List String → List Place
  | [] => [place]
  | name :: rest => place :: passed (step place name) rest

end Place

/-- The files of a working directory, and the directories that were made besides their parents. -/
structure Directory where
  contents : List (Place × Bytes)
  made : List Place
deriving DecidableEq

namespace Directory

/-- The directory with these files, given by path texts. -/
def ofList (files : List (String × Bytes)) : Directory :=
  ⟨files.map fun file => (Place.ofPath file.1, file.2), []⟩

/-- The directory with directories made wherever a path passes. -/
def withPath (directory : Directory) (path : String) : Directory :=
  let passed := (Place.passed (Place.start path) (Place.names path)).map List.reverse
  { directory with made := passed ++ directory.made }

/-- Whether a place is a directory. What lies outside is known only straight above. -/
def isDirectory (directory : Directory) (place : Place) : Bool :=
  place.all (· == "..") || place == Place.root || directory.made.any place.isPrefixOf
    || directory.contents.any fun file => place.isPrefixOf file.1 && place != file.1

/-- The longest name that a directory can hold, in bytes. -/
def maxName : Nat := 255

/-- The longest path text, in bytes. -/
def maxPath : Nat := 4095

/-- Follows names from a directory, whose place is given in reverse. -/
def follow (directory : Directory) (place : Place) : List String → Except FileFault Bytes
  | [] => .error .isDirectory
  | name :: rest =>
    if maxName < name.utf8ByteSize then .error .nameTooLong
    else
      let next := place.step name
      if directory.isDirectory next.reverse then follow directory next rest
      else
        match directory.contents.lookup next.reverse with
        | none => .error .notFound
        | some bytes => if rest.isEmpty then .ok bytes else .error .notDirectory

def read (directory : Directory) (path : String) : Except FileFault Bytes :=
  if path.toList.contains (Char.ofNat 0) then .error .zeroByte
  else if maxPath < path.utf8ByteSize then .error .nameTooLong
  else if path = "" then .error .notFound
  else follow directory (Place.start path) (Place.names path)

def files (directory : Directory) : Files := ⟨directory.read⟩

/-- The directory as a disk. -/
def disk (directory : Directory) : Disk := ⟨fun made => (made.foldl withPath directory).files⟩

end Directory

end TokenApproval
