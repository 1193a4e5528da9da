import MetadataDump.Files.Basic

namespace MetadataDump

abbrev Path := List String

namespace Path

/-- The names between the slashes of a path, also empty ones. -/
def names (path : String) : List String := (path.toList.splitOn '/').map String.ofList

/-- Reads a path that does not go back. -/
def ofString (path : String) : Path := (names path).filter fun name ↦ name ≠ "" ∧ name ≠ "."

def text (path : Path) : String := "/".intercalate path

end Path

structure FileTree where
  /-- All files with their contents, each once. -/
  files : List (Path × ByteArray)
  directories : List Path
  workingDirectory : Path := []

namespace FileTree

def empty : FileTree := { files := [], directories := [] }

/-- A path is a directory if it was made one or if something lies below it. -/
def isDirectory (t : FileTree) (path : Path) : Bool :=
  path.isEmpty ||
    (t.directories.any fun d ↦ path.isPrefixOf d) ||
    t.files.any fun (p, _) ↦ path != p && path.isPrefixOf p

def get? (t : FileTree) (path : Path) : Option ByteArray := t.files.lookup path

def put (t : FileTree) (path : Path) (content : ByteArray) : FileTree :=
  { t with files := t.files.filter (fun (p, _) ↦ p != path) ++ [(path, content)] }

def addDirectory (t : FileTree) (path : Path) : FileTree :=
  { t with directories := t.directories ++ [path] }

def accepts (t : FileTree) (path : Path) : Bool :=
  !t.isDirectory path && t.isDirectory path.dropLast

def create (t : FileTree) (path : Path) : Bool × FileTree :=
  if t.accepts path then (true, t.put path .empty) else (false, t)

def write (t : FileTree) (path : Path) (content : String) : Bool × FileTree :=
  match t.get? path with
  | some _ => (true, t.put path content.toUTF8)
  | none => (false, t)

/-- Goes one name further from a directory: `.` stays and `..` goes back, except from the root. -/
def follow (t : FileTree) (path : Path) (name : String) : Option Path :=
  if !t.isDirectory path then none
  else if name = "" ∨ name = "." then some path
  else if name = ".." then some path.dropLast
  else some (path ++ [name])

def longestPath : Nat := 4095

def start (t : FileTree) (path : String) : Path :=
  if path.startsWith "/" then [] else t.workingDirectory

/-- Where a path leads, unless it is too long or passes through something that is not a
directory. -/
def resolve? (t : FileTree) (path : String) : Option Path :=
  if longestPath < path.utf8ByteSize then none
  else (Path.names path).foldlM t.follow (t.start path)

def fileSystem : Files (StateM FileTree) where
  read path := do
    let t ← get
    return t.resolve? path >>= t.get?
  create path := modifyGet fun t ↦
    match t.resolve? path with
    | some path => t.create path
    | none => (false, t)
  write path content := modifyGet fun t ↦
    match t.resolve? path with
    | some path => t.write path content
    | none => (false, t)

end FileTree

end MetadataDump
