namespace MetadataDump

/-- A numeral as it is written: whether there is a fraction or an exponent is part of it. -/
structure Numeral where
  negative : Bool
  whole : Nat
  fraction : List (Fin 10)
  exponent : Option Int
  deriving DecidableEq, Repr

/-- The name of a member, and whether escapes are used to write it. A name that spells a number does
so in plain digits. -/
structure Json.Name where
  text : String
  escaped : Bool
  deriving DecidableEq, Repr

inductive Json
  | null
  | bool (b : Bool)
  | number (n : Numeral)
  | string (s : String)
  /-- Well-formed text that stands for no value: a string with half of a surrogate pair, or an
  object that has such a string as a name. -/
  | unreadable
  | array (items : List Json)
  | object (members : List (Json.Name × Json))
  deriving Inhabited

namespace Json

def needsEscape (c : Char) : Bool := c = '"' ∨ c = '\\' ∨ c < ' '

def Name.ofString (text : String) : Name := ⟨text, text.toList.any needsEscape⟩

instance : Coe String Name := ⟨Name.ofString⟩

abbrev Members := List (Name × Json)

def ofNat (n : Nat) : Json := .number ⟨false, n, [], none⟩

def ofInt (n : Int) : Json := .number ⟨n < 0, n.natAbs, [], none⟩

def strings (texts : List String) : Json := .array (texts.map .string)

def ofOption {α : Type} (f : α → Json) : Option α → Json
  | none => .null
  | some a => f a

/-- The value of the first member with a name. -/
def get? (name : String) : Json → Option Json
  | .object members => (members.find? fun (n, _) ↦ n.text == name).map Prod.snd
  | _ => none

end Json

end MetadataDump
