import MetadataDump.Error
import MetadataDump.Json.Codec
import MetadataDump.Json.Parser
import MetadataDump.Json.Printer

namespace MetadataDump.Json

variable {α : Type} [Codec α]

def read (s : String) : Except Error α :=
  match parse? s >>= decode? with
  | some a => .ok a
  | none => .error .json

def readBytes (bytes : ByteArray) : Except Error α :=
  match String.fromUTF8? bytes with
  | some s => read s
  | none => .error .file

def write (a : α) : String := compact (encode a)

end MetadataDump.Json
