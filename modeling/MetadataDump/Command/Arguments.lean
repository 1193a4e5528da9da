namespace MetadataDump.Command

inductive Switch
  | json | verbose
  | noMethods | noFields | noProperties | noAttributes | noFieldOffsets | noMethodOffsets
  | noTypeIndex | noText | noJson | parallel
  deriving DecidableEq, Repr

inductive Setting
  | outputDirectory | configFile
  deriving DecidableEq, Repr

inductive Verb
  | dump | info
  deriving DecidableEq, Repr

inductive OptionKind
  | switch (s : Switch)
  | setting (s : Setting)
  | help
  | version
  deriving DecidableEq, Repr

/-- The options that stand before the command, and with any command. -/
def commonLong : List (String × OptionKind) :=
  [("json", .switch .json), ("verbose", .switch .verbose), ("help", .help)]

def commonShort : List (Char × OptionKind) := [('v', .switch .verbose), ('h', .help)]

def longOptions : Option Verb → List (String × OptionKind)
  | none => ("version", .version) :: commonLong
  | some .info => commonLong
  | some .dump => commonLong ++ [
    ("output-dir", .setting .outputDirectory), ("config", .setting .configFile),
    ("no-methods", .switch .noMethods), ("no-fields", .switch .noFields),
    ("no-properties", .switch .noProperties), ("no-attributes", .switch .noAttributes),
    ("no-field-offsets", .switch .noFieldOffsets), ("no-method-offsets", .switch .noMethodOffsets),
    ("no-typedef-index", .switch .noTypeIndex), ("no-cs", .switch .noText),
    ("no-json", .switch .noJson), ("parallel", .switch .parallel)]

def shortOptions : Option Verb → List (Char × OptionKind)
  | none => ('V', .version) :: commonShort
  | some .info => commonShort
  | some .dump => commonShort ++ [
    ('o', .setting .outputDirectory), ('c', .setting .configFile)]

structure Parsed where
  switches : List Switch
  settings : List (Setting × String)
  operand : Option String
  deriving DecidableEq, Repr

inductive Refusal
  | usage | help | version
  deriving DecidableEq, Repr

namespace Parsed

def empty : Parsed := ⟨[], [], none⟩

/-- An option may be given once. -/
def addSwitch (p : Parsed) (s : Switch) : Except Refusal Parsed :=
  if p.switches.contains s then .error .usage else .ok { p with switches := s :: p.switches }

/-- A setting may be given once, and paths are not empty. -/
def addSetting (p : Parsed) (s : Setting) (value : String) : Except Refusal Parsed :=
  if value.isEmpty ∨ (p.settings.lookup s).isSome then .error .usage
  else .ok { p with settings := (s, value) :: p.settings }

def addOperand (p : Parsed) (value : String) : Except Refusal Parsed :=
  if value.isEmpty ∨ p.operand.isSome then .error .usage
  else .ok { p with operand := some value }

end Parsed

inductive Word
  | separator
  | long (name : String) (value : Option String)
  | short (letters : List Char)
  | operand (text : String)
  deriving DecidableEq, Repr

def splitValue (cs : List Char) : String × Option String :=
  match cs.dropWhile (· ≠ '=') with
  | [] => (String.ofList cs, none)
  | _ :: value => (String.ofList (cs.takeWhile (· ≠ '=')), some (String.ofList value))

def Word.ofString (s : String) : Word :=
  match s.toList with
  | ['-', '-'] => .separator
  | '-' :: '-' :: cs => let (name, value) := splitValue cs; .long name value
  | ['-'] => .operand s
  | '-' :: letters => .short letters
  | _ => .operand s

def takeSwitch (p : Parsed) : OptionKind → Except Refusal Parsed
  | .switch s => p.addSwitch s
  | .help => .error .help
  | .version => .error .version
  | .setting _ => .error .usage

/-- A cluster of short options. The rest of it after a setting is the value; a setting at the end
waits for the next argument. -/
def takeShort (verb : Option Verb) (p : Parsed) :
    List Char → Except Refusal (Parsed × Option Setting)
  | [] => .ok (p, none)
  | c :: cs =>
    match (shortOptions verb).lookup c with
    | none => .error .usage
    | some (.setting s) =>
      match cs with
      | [] => .ok (p, some s)
      | '=' :: value => (·, none) <$> p.addSetting s (String.ofList value)
      | value => (·, none) <$> p.addSetting s (String.ofList value)
    | some kind => do takeShort verb (← takeSwitch p kind) cs

/-- A long option; a setting without a value waits for the next argument. -/
def takeLong (verb : Option Verb) (p : Parsed) (name : String) (value : Option String) :
    Except Refusal (Parsed × Option Setting) :=
  match (longOptions verb).lookup name, value with
  | none, _ => .error .usage
  | some (.setting s), some v => (·, none) <$> p.addSetting s v
  | some (.setting s), none => .ok (p, some s)
  | some _, some _ => .error .usage
  | some kind, none => (·, none) <$> takeSwitch p kind

/-- Reads the arguments of a command. `waiting` is a setting whose value comes next. -/
def parseVerb (verb : Verb) (p : Parsed) (waiting : Option Setting) :
    List String → Except Refusal Parsed
  | [] => if waiting.isSome then .error .usage else .ok p
  | arg :: args =>
    match Word.ofString arg, waiting with
    | .operand value, some s => do parseVerb verb (← p.addSetting s value) none args
    | _, some _ => .error .usage
    | .operand value, none => do parseVerb verb (← p.addOperand value) none args
    | .separator, none => args.foldlM Parsed.addOperand p
    | .long name value, none => do
      let (p, waiting) ← takeLong (some verb) p name value
      parseVerb verb p waiting args
    | .short letters, none => do
      let (p, waiting) ← takeShort (some verb) p letters
      parseVerb verb p waiting args

structure Invocation where
  verb : Verb
  /-- Switches of the command and those before it. -/
  switches : List Switch
  settings : List (Setting × String)
  /-- The snapshot file. -/
  snapshot : String
  deriving DecidableEq, Repr

namespace Invocation

def has (i : Invocation) (s : Switch) : Bool := i.switches.contains s

def ofVerb (verb : Verb) (before : Parsed) (args : List String) : Except Refusal Invocation := do
  let p ← parseVerb verb .empty none args
  match p.operand with
  | some snapshot => return ⟨verb, before.switches ++ p.switches, p.settings, snapshot⟩
  | none => throw .usage

def verb? : String → Option Verb
  | "dump" => some .dump
  | "info" => some .info
  | _ => none

def helpOn : List String → Refusal
  | [] => .help
  | [topic] => if (verb? topic).isSome ∨ topic = "help" then .help else .usage
  | _ => .usage

def parseFrom (p : Parsed) : List String → Except Refusal Invocation
  | [] => .error .usage
  | arg :: args =>
    match Word.ofString arg with
    | .separator => .error .usage
    | .long name value => do
      let (p, _) ← takeLong none p name value
      parseFrom p args
    | .short letters => do
      let (p, _) ← takeShort none p letters
      parseFrom p args
    | .operand "help" => .error (helpOn args)
    | .operand name =>
      match verb? name with
      | some verb => ofVerb verb p args
      | none => .error .usage

def parse (args : List String) : Except Refusal Invocation := parseFrom .empty args

end Invocation

end MetadataDump.Command
