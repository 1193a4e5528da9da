import MetadataDump.Text.Hex

namespace MetadataDump.Text.Quoted

/-- The spelling of one character inside a literal: both quotes, the backslash, the control
characters with an escape of their own and every line terminator are escaped. -/
def escapeChar (c : Char) : List Char :=
  match c with
  | '\'' => ['\\', '\'']
  | '"' => ['\\', '"']
  | '\t' => ['\\', 't']
  | '\n' => ['\\', 'n']
  | '\r' => ['\\', 'r']
  | '\x0c' => ['\\', 'f']
  | '\x08' => ['\\', 'b']
  | '\\' => ['\\', '\\']
  | '\x00' => ['\\', '0']
  | '\u0085' => ['\\', 'u', '0', '0', '8', '5']
  | '\u2028' => ['\\', 'u', '2', '0', '2', '8']
  | '\u2029' => ['\\', 'u', '2', '0', '2', '9']
  | c => [c]

def encode (s : List Char) : List Char :=
  s.flatMap escapeChar

def escape (s : String) : String :=
  String.ofList (encode s.toList)

def quote (s : String) : String :=
  "\"" ++ escape s ++ "\""

def charLiteral (unit : UInt16) : String :=
  "'\\x" ++ hex unit.toNat ++ "'"

end MetadataDump.Text.Quoted
