import MetadataDump.Json.Numeral
import MetadataDump.Text.Hex

namespace MetadataDump.Json

def escapeChar (c : Char) : List Char :=
  match c with
  | '"' => ['\\', '"']
  | '\\' => ['\\', '\\']
  | '\x08' => ['\\', 'b']
  | '\x0c' => ['\\', 'f']
  | '\n' => ['\\', 'n']
  | '\r' => ['\\', 'r']
  | '\t' => ['\\', 't']
  | c => if c < ' ' then '\\' :: 'u' :: Text.fixedHex 4 c.toNat else [c]

def quote (s : String) : List Char :=
  '"' :: s.toList.flatMap escapeChar ++ ['"']

/-- The shortest text that stands for no value. -/
def unreadableText : List Char := ['"', '\\', 'u', 'd', '8', '0', '0', '"']

mutual

def compactChars : Json → List Char
  | .null => "null".toList
  | .bool true => "true".toList
  | .bool false => "false".toList
  | .number n => n.chars
  | .string s => quote s
  | .unreadable => unreadableText
  | .array items => '[' :: compactItems true items ++ [']']
  | .object members => '{' :: compactMembers true members ++ ['}']

def compactItems (first : Bool) : List Json → List Char
  | [] => []
  | v :: vs => (if first then [] else [',']) ++ compactChars v ++ compactItems false vs

def compactMembers (first : Bool) : List (Name × Json) → List Char
  | [] => []
  | (name, v) :: rest =>
    (if first then [] else [',']) ++ quote name.text ++ ':' :: compactChars v ++
      compactMembers false rest

end

def compact (v : Json) : String := String.ofList (compactChars v)

def newline (level : Nat) : List Char := '\n' :: List.replicate (2 * level) ' '

mutual

def prettyChars (level : Nat) : Json → List Char
  | .null => "null".toList
  | .bool true => "true".toList
  | .bool false => "false".toList
  | .number n => n.chars
  | .string s => quote s
  | .unreadable => unreadableText
  | .array [] => "[]".toList
  | .array (v :: vs) => '[' :: prettyItems (level + 1) true (v :: vs) ++ newline level ++ [']']
  | .object [] => ['{', '}']
  | .object (m :: ms) => '{' :: prettyMembers (level + 1) true (m :: ms) ++ newline level ++ ['}']

def prettyItems (level : Nat) (first : Bool) : List Json → List Char
  | [] => []
  | v :: vs =>
    (if first then [] else [',']) ++ newline level ++ prettyChars level v ++
      prettyItems level false vs

def prettyMembers (level : Nat) (first : Bool) : List (Name × Json) → List Char
  | [] => []
  | (name, v) :: rest =>
    (if first then [] else [',']) ++ newline level ++ quote name.text ++ ':' :: ' ' ::
      prettyChars level v ++ prettyMembers level false rest

end

def pretty (v : Json) : String := String.ofList (prettyChars 0 v)

end MetadataDump.Json
