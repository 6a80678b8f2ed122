import Chip8.Text.Quoted

/-!
# Chip8.RomStore — program files

A store holds files under a working directory.  A path is a list of names between slashes; an empty
name and a single dot stand for the directory they are in.  Two dots lead to the directory above, in
the end out of the store, where there are directories and no files.  Writing a file makes the
directories on its way, and replaces a file that is there.  A name takes at most 255 bytes and a
path at most 4095.
-/

namespace Chip8

/-- Why a file cannot be read. -/
inductive RomFault where
  | notFound (path : String)
  | isDirectory (path : String)
  | notDirectory (path : String)
  | nameTooLong (path : String)
  /-- No path holds the character with code 0. -/
  | zeroCharacter
  deriving DecidableEq

namespace RomFault

/-- The wording of a refusal. -/
def message : RomFault → String
  | notFound path => "[Errno 2] No such file or directory: " ++ Quoted.quote path
  | isDirectory path => "[Errno 21] Is a directory: " ++ Quoted.quote path
  | notDirectory path => "[Errno 20] Not a directory: " ++ Quoted.quote path
  | nameTooLong path => "[Errno 36] File name too long: " ++ Quoted.quote path
  | zeroCharacter => "embedded null byte"

end RomFault

/-- Files and directories by the names that lead to them, none of which is empty or dots.  Of two
files at one place the first counts. -/
structure RomStore where
  files : List (List String × List UInt8)
  directories : List (List String)

namespace RomStore

/-- Where a path has led so far. -/
inductive Place where
  /-- A directory of the store. -/
  | directory (names : List String)
  | file (content : List UInt8)
  /-- A directory outside the store. -/
  | elsewhere

/-- The file at exactly these names. -/
def file? (s : RomStore) (names : List String) : Option (List UInt8) :=
  (s.files.find? (·.1 == names)).map (·.2)

/-- Follows the names of a path. -/
def follow (s : RomStore) (path : String) : Place → List String → Except RomFault Place
  | place, [] => .ok place
  | .file _, _ :: _ => .error (.notDirectory path)
  | .elsewhere, name :: more =>
    if name = "" ∨ name = "." ∨ name = ".." then s.follow path .elsewhere more
    else if 255 < name.utf8ByteSize then .error (.nameTooLong path)
    else .error (.notFound path)
  | .directory names, name :: more =>
    if name = "" ∨ name = "." then s.follow path (.directory names) more
    else if name = ".." then
      s.follow path (if names = [] then .elsewhere else .directory names.dropLast) more
    else if 255 < name.utf8ByteSize then .error (.nameTooLong path)
    else
      match s.file? (names ++ [name]) with
      | some content => s.follow path (.file content) more
      | none =>
        if s.directories.contains (names ++ [name]) then
          s.follow path (.directory (names ++ [name])) more
        else .error (.notFound path)

/-- The names on a path. -/
def names (path : String) : List String := path.splitOn "/"

/-- The directory to which a name leads from a directory. -/
def step (directory : List String) (name : String) : List String :=
  if name = "" ∨ name = "." then directory
  else if name = ".." then directory.dropLast
  else directory ++ [name]

/-- The directories on the way from a directory along some names, the last one first. -/
def way (directory : List String) (names : List String) : List (List String) :=
  names.foldl (fun way name => step (way.headD directory) name :: way) []

/-- Writes a file. -/
def write (s : RomStore) (path : String) (content : List UInt8) : RomStore :=
  let way := way [] (names path).dropLast
  ⟨(way.headD [] ++ [(names path).getLastD ""], content) :: s.files, way ++ s.directories⟩

/-- A store of files that are written one after another. -/
def ofFiles (files : List (String × List UInt8)) : RomStore :=
  files.foldl (fun s f => s.write f.1 f.2) ⟨[], []⟩

/-- The content of the file at a path. -/
def load (s : RomStore) (path : String) : Except RomFault (List UInt8) :=
  if path.toList.contains '\x00' then .error .zeroCharacter
  else if path = "" then .error (.notFound path)
  else if 4095 < path.utf8ByteSize then .error (.nameTooLong path)
  else
    let start := if path.startsWith "/" then .elsewhere else .directory []
    match s.follow path start (names path) with
    | .error fault => .error fault
    | .ok (.file content) => .ok content
    | .ok _ => .error (.isDirectory path)

end RomStore

end Chip8
