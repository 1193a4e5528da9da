import MetadataDump.Json.Numeral
import MetadataDump.Text.Hex

namespace MetadataDump.Json

inductive Token
  | openObject | closeObject | openArray | closeArray | comma | colon | null
  | bool (b : Bool)
  | number (n : Numeral)
  /-- A string, with whether it is written with escapes, or `none` if it holds half of a surrogate
  pair. -/
  | string (s : Option Name)
  deriving DecidableEq, Repr

/-- What a string is made of: characters as they are, characters with an escape of their own, and
UTF-16 code units given by their number. -/
inductive Piece
  | plain (c : Char)
  | escape (c : Char)
  | unit (u : Nat)

def Piece.isPlain : Piece → Bool
  | .plain _ => true
  | _ => false

def hexUnit? (a b c d : Char) : Option Nat := do
  return ((← Text.hexValue? a) * 16 + (← Text.hexValue? b)) * 256 +
    ((← Text.hexValue? c) * 16 + (← Text.hexValue? d))

def escaped? : Char → Option Char
  | '"' => some '"'
  | '\\' => some '\\'
  | '/' => some '/'
  | 'b' => some '\x08'
  | 'f' => some '\x0c'
  | 'n' => some '\n'
  | 'r' => some '\r'
  | 't' => some '\t'
  | _ => none

/-- The pieces of a string up to its closing quote, in reverse, and the text after that. -/
def scanString (done : List Piece) : List Char → Option (List Piece × List Char)
  | [] => none
  | '"' :: rest => some (done, rest)
  | '\\' :: 'u' :: a :: b :: c :: d :: rest =>
    match hexUnit? a b c d with
    | some u => scanString (.unit u :: done) rest
    | none => none
  | '\\' :: e :: rest =>
    match escaped? e with
    | some c => scanString (.escape c :: done) rest
    | none => none
  | c :: rest => if c < ' ' then none else scanString (.plain c :: done) rest

/-- The characters of a string. A high and a low surrogate in a row are one character. -/
def joinPieces : List Piece → Option (List Char)
  | [] => some []
  | .plain c :: rest => (c :: ·) <$> joinPieces rest
  | .escape c :: rest => (c :: ·) <$> joinPieces rest
  | .unit high :: .unit low :: rest =>
    if 0xD800 ≤ high ∧ high < 0xDC00 then
      if 0xDC00 ≤ low ∧ low < 0xE000 then
        (Char.ofNat (0x10000 + (high - 0xD800) * 0x400 + (low - 0xDC00)) :: ·) <$> joinPieces rest
      else none
    else if 0xDC00 ≤ high ∧ high < 0xE000 then none
    else (Char.ofNat high :: ·) <$> joinPieces (.unit low :: rest)
  | .unit u :: rest =>
    if 0xD800 ≤ u ∧ u < 0xE000 then none else (Char.ofNat u :: ·) <$> joinPieces rest

def isBlank (c : Char) : Bool := c = ' ' ∨ c = '\t' ∨ c = '\n' ∨ c = '\r'

/-- The token at the start of a text that does not start with a blank, and the text after it. -/
def scanToken : List Char → Option (Token × List Char)
  | '{' :: rest => some (.openObject, rest)
  | '}' :: rest => some (.closeObject, rest)
  | '[' :: rest => some (.openArray, rest)
  | ']' :: rest => some (.closeArray, rest)
  | ',' :: rest => some (.comma, rest)
  | ':' :: rest => some (.colon, rest)
  | 'n' :: 'u' :: 'l' :: 'l' :: rest => some (.null, rest)
  | 't' :: 'r' :: 'u' :: 'e' :: rest => some (.bool true, rest)
  | 'f' :: 'a' :: 'l' :: 's' :: 'e' :: rest => some (.bool false, rest)
  | '"' :: rest => do
    let (pieces, rest) ← scanString [] rest
    let text := String.ofList <$> joinPieces pieces.reverse
    return (.string (text.map (⟨·, !pieces.all Piece.isPlain⟩)), rest)
  | cs => do
    let (n, rest) ← Numeral.scan cs
    return (.number n, rest)

/-- All tokens of a text, in order, after those already `done` in reverse. Every step takes at
least one character, so `steps` beyond the length of the text are never used. -/
def scanTokens : Nat → List Token → List Char → Option (List Token)
  | _, done, [] => some done.reverse
  | 0, _, _ :: _ => none
  | steps + 1, done, c :: cs =>
    if isBlank c then scanTokens steps done cs
    else
      match scanToken (c :: cs) with
      | some (t, rest) => scanTokens steps (t :: done) rest
      | none => none

def tokens? (cs : List Char) : Option (List Token) := scanTokens cs.length [] cs

end MetadataDump.Json
