namespace MetadataDump

structure Files (m : Type → Type) where
  /-- The content of a file that can be read. -/
  read : String → m (Option ByteArray)
  /-- Makes a file empty, whether it was there or not. Tells whether that was possible. -/
  create : String → m Bool
  /-- Puts a text into a file that was created. Tells whether that was possible. -/
  write : String → String → m Bool

namespace Files

/-- The path of a file in a directory. The empty path is the working directory. -/
def inDirectory (directory name : String) : String :=
  if directory = "" ∨ directory.endsWith "/" then directory ++ name else directory ++ "/" ++ name

end Files

end MetadataDump
