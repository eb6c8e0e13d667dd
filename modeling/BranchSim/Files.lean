namespace BranchSim

inductive FileError
  | notFound
  | isDirectory
  | notDirectory
  | nameTooLong
  | invalidData
  | storageFull
deriving DecidableEq, Repr

/-- How far writing a file came: it could not be created, took only some of the text, or only some
of what was left in the buffer at the end. -/
inductive WriteError
  | creation (e : FileError)
  | content (e : FileError)
  | flush (e : FileError)
deriving DecidableEq, Repr

/-- Access to files by path, with the effects of `m`. Writing replaces what a file held. -/
structure FileSystem (m : Type → Type) where
  read : String → m (Except FileError (List Char))
  write : String → List Char → m (Except WriteError Unit)

/-- The files of a working directory without subdirectories, by name. A file outside of it has a
name that starts with the way there. -/
abbrev Directory := List (String × List Char)

namespace Directory

def maxNameSize : Nat := 255

def maxPathSize : Nat := 4095

inductive Place
  | directory
  | name (file : String) (within : Bool)
  /-- The file that is always empty, whatever is written to it. -/
  | nullDevice
  | elsewhere
  | tooLong
deriving DecidableEq

def placeFrom (way : String) : List String → Place
  | [] => .directory
  | part :: parts =>
    if part = "" ∨ part = "." then placeFrom way parts
    else if part = ".." then placeFrom (way ++ "../") parts
    else if maxNameSize < part.utf8ByteSize then .tooLong
    else .name (way ++ part) (!parts.isEmpty)

def placeOfDevice : List String → Place
  | [] => .directory
  | part :: parts =>
    if part = "" ∨ part = "." then placeOfDevice parts
    else if part = "null" ∧ parts = [] then .nullDevice
    else .elsewhere

def placeFromRoot : List String → Place
  | [] => .directory
  | part :: parts =>
    if part = "" ∨ part = "." ∨ part = ".." then placeFromRoot parts
    else if part = "tmp" then placeFrom "/tmp/" parts
    else if part = "dev" then placeOfDevice parts
    else .elsewhere

def place (path : String) : Place :=
  if maxPathSize < path.utf8ByteSize then .tooLong
  else
    match path.splitOn "/" with
    | [""] => .elsewhere
    | "" :: parts => placeFromRoot parts
    | parts => placeFrom "" parts

def find? (d : Directory) (file : String) : Option (List Char) :=
  d.lookup file

def insert (d : Directory) (file : String) (octets : List Char) : Directory :=
  (file, octets) :: d.filter (·.1 != file)

def read (d : Directory) (path : String) : Except FileError (List Char) :=
  match place path with
  | .directory => .error .isDirectory
  | .nullDevice => .ok []
  | .elsewhere => .error .notFound
  | .tooLong => .error .nameTooLong
  | .name file within =>
    match d.find? file with
    | none => .error .notFound
    | some octets => if within then .error .notDirectory else .ok octets

def write (d : Directory) (path : String) (octets : List Char) : Except FileError Directory :=
  match place path with
  | .directory => .error .isDirectory
  | .nullDevice => .ok d
  | .elsewhere => .error .notFound
  | .tooLong => .error .nameTooLong
  | .name file false => .ok (d.insert file octets)
  | .name file true => .error (if (d.find? file).isSome then .notDirectory else .notFound)

def fileSystem : FileSystem (StateM Directory) where
  read path d := (d.read path, d)
  write path octets d :=
    match d.write path octets with
    | .error e => (.error (.creation e), d)
    | .ok d => (.ok (), d)

end Directory

end BranchSim
