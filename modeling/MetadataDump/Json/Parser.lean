import MetadataDump.Json.Token

namespace MetadataDump.Json

/-- An unfinished array or object; its parts are in reverse. An object that holds an unreadable
name is read on, but its members do not matter. -/
inductive Frame
  | items (done : List Json)
  | members (done : List (Name × Json)) (readable : Bool) (name : Name)

inductive Expected
  | value
  /-- A value, or the end of an array without items. -/
  | firstItem
  /-- A name, or the end of an object without members. -/
  | firstName
  | name
  | colon
  /-- A comma, or the end of the innermost array or object. -/
  | separator
  /-- Nothing: the value is complete. -/
  | nothing (v : Json)

structure Machine where
  stack : List Frame
  expected : Expected

namespace Machine

def start : Machine := ⟨[], .value⟩

/-- Takes a finished value into the innermost frame. -/
def deliver (v : Json) : List Frame → Machine
  | [] => ⟨[], .nothing v⟩
  | .items done :: stack => ⟨.items (v :: done) :: stack, .separator⟩
  | .members done readable name :: stack =>
    ⟨.members ((name, v) :: done) readable name :: stack, .separator⟩

/-- Stands for a name that is not read. -/
def noName : Name := .ofString ""

def finishObject (done : List (Name × Json)) (readable : Bool) : Json :=
  if readable then .object done.reverse else .unreadable

def value (stack : List Frame) : Token → Option Machine
  | .null => some (deliver .null stack)
  | .bool b => some (deliver (.bool b) stack)
  | .number n => some (deliver (.number n) stack)
  | .string (some s) => some (deliver (.string s.text) stack)
  | .string none => some (deliver .unreadable stack)
  | .openArray => some ⟨.items [] :: stack, .firstItem⟩
  | .openObject => some ⟨.members [] true noName :: stack, .firstName⟩
  | _ => none

def name (done : List (Name × Json)) (readable : Bool) (stack : List Frame) :
    Token → Option Machine
  | .string (some s) => some ⟨.members done readable s :: stack, .colon⟩
  | .string none => some ⟨.members done false noName :: stack, .colon⟩
  | _ => none

def step (m : Machine) (t : Token) : Option Machine :=
  match m.expected, m.stack, t with
  | .value, stack, t => value stack t
  | .firstItem, .items done :: stack, .closeArray => some (deliver (.array done.reverse) stack)
  | .firstItem, stack, t => value stack t
  | .firstName, .members done readable _ :: stack, .closeObject =>
    some (deliver (finishObject done readable) stack)
  | .firstName, .members done readable _ :: stack, t => name done readable stack t
  | .name, .members done readable _ :: stack, t => name done readable stack t
  | .colon, stack, .colon => some ⟨stack, .value⟩
  | .separator, .items done :: stack, .closeArray => some (deliver (.array done.reverse) stack)
  | .separator, .items done :: stack, .comma => some ⟨.items done :: stack, .value⟩
  | .separator, .members done readable _ :: stack, .closeObject =>
    some (deliver (finishObject done readable) stack)
  | .separator, .members done readable name :: stack, .comma =>
    some ⟨.members done readable name :: stack, .name⟩
  | _, _, _ => none

def run (m : Machine) : List Token → Option Machine
  | [] => some m
  | t :: ts =>
    match m.step t with
    | some n => run n ts
    | none => none

end Machine

def ofTokens? (ts : List Token) : Option Json :=
  match Machine.start.run ts with
  | some ⟨_, .nothing v⟩ => some v
  | _ => none

def parse? (s : String) : Option Json := do
  ofTokens? (← tokens? s.toList)

end MetadataDump.Json
