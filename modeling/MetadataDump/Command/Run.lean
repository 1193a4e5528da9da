import MetadataDump.Command.Arguments
import MetadataDump.Command.Table
import MetadataDump.Dump.Run

namespace MetadataDump.Command

structure Result where
  exitCode : UInt8
  output : String
  deriving DecidableEq, Repr

def programName : String := "il2scope"
def programVersion : String := "0.1.0"

def helpText : String :=
  "Usage: " ++ programName ++ " [OPTIONS] <COMMAND>\n\nCommands:\n" ++
    "  dump  Write dump.cs and dump.json for a metadata snapshot\n" ++
    "  info  Display a snapshot overview: version, images and table sizes\n"

def refuse : Refusal → Result
  | .usage => ⟨2, ""⟩
  | .help => ⟨0, helpText⟩
  | .version => ⟨0, programName ++ " " ++ programVersion ++ "\n"⟩

def failure : Result := ⟨1, ""⟩

namespace Invocation

def restrict (i : Invocation) (c : Config) : Config where
  methods := c.methods && !i.has .noMethods
  fields := c.fields && !i.has .noFields
  properties := c.properties && !i.has .noProperties
  attributes := c.attributes && !i.has .noAttributes
  fieldOffsets := c.fieldOffsets && !i.has .noFieldOffsets
  methodOffsets := c.methodOffsets && !i.has .noMethodOffsets
  typeIndex := c.typeIndex && !i.has .noTypeIndex
  text := c.text && !i.has .noText
  json := c.json && !i.has .noJson
  parallel := c.parallel || i.has .parallel

def outputDirectory (i : Invocation) : String := (i.settings.lookup .outputDirectory).getD "."

end Invocation

def reportJson (directory : String) (s : Dump.Summary) (c : Config) : Json :=
  .object [
    ("output_dir", .string directory),
    ("images", .ofNat s.images),
    ("failed", .ofNat s.failed),
    ("text", .bool c.text),
    ("json", .bool c.json)]

def reportText (directory : String) (s : Dump.Summary) (c : Config) : String :=
  "Output:  " ++ directory ++ "\nImages:  " ++ toString s.images ++ "\n" ++
    (if 0 < s.failed then "Failed:  " ++ toString s.failed ++ "\n" else "") ++
    if !c.text && !c.json then "Nothing written, both artifacts are disabled\n" else ""

def imageInfos (s : Snapshot) : Except Error (List (String × ImageRow)) :=
  s.images.mapM fun image ↦ return (← s.text image.nameIndex, image)

def baseText (s : Snapshot) : String := "0x" ++ Text.upperHex s.imageBase.toNat

def infoJson (s : Snapshot) (images : List (String × ImageRow)) : Json :=
  .object [
    ("version", .string s.version.text),
    ("image_base", .string (baseText s)),
    ("type_count", .ofNat s.typeDefs.size),
    ("method_count", .ofNat s.methods.size),
    ("field_count", .ofNat s.fields.size),
    ("generic_instance_count", .ofNat s.methodSpecs.size),
    ("images", .array (images.map fun (name, image) ↦ .object [
      ("name", .string name),
      ("type_start", .ofNat image.typeStart.toNat),
      ("type_count", .ofNat image.typeCount.toNat)]))]

def imageColumns : List Column :=
  [⟨"#", .right⟩, ⟨"Image", .left⟩, ⟨"TypeStart", .right⟩, ⟨"Types", .right⟩]

def imageRow (entry : (String × ImageRow) × Nat) : List String :=
  let ((name, image), i) := entry
  [toString i, name, toString image.typeStart.toNat, toString image.typeCount.toNat]

def infoText (s : Snapshot) (images : List (String × ImageRow)) : String :=
  "Metadata version:  " ++ s.version.text ++ "\nImage base:        " ++ baseText s ++
    "\nTypes:             " ++ toString s.typeDefs.size ++
    "\nMethods:           " ++ toString s.methods.size ++
    "\nFields:            " ++ toString s.fields.size ++
    "\nGeneric instances: " ++ toString s.methodSpecs.size ++ "\n\n" ++
    String.join ((Table.lines imageColumns (images.zipIdx.map imageRow)).map (· ++ "\n"))

section

variable {m : Type → Type} [Monad m]

/-- The configuration of a dump: that of a file, or the full one, less what is switched off. -/
def loadConfig (files : Files m) (i : Invocation) : ExceptT Error m Config := do
  match i.settings.lookup .configFile with
  | some path => return i.restrict (← Dump.load files path)
  | none => return i.restrict .full

def dump [Places] (files : Files m) (i : Invocation) : ExceptT Error m Result := do
  let snapshot : Snapshot ← Dump.load files i.snapshot
  let config ← loadConfig files i
  let summary ← Dump.run files (.ofSnapshot snapshot) config i.outputDirectory
  return {
    exitCode := if summary.isComplete then 0 else 2
    output :=
      if i.has .json then (reportJson i.outputDirectory summary config).pretty ++ "\n"
      else reportText i.outputDirectory summary config }

def info (files : Files m) (i : Invocation) : ExceptT Error m Result := do
  let snapshot : Snapshot ← Dump.load files i.snapshot
  match imageInfos snapshot with
  | .error e => throw e
  | .ok images =>
    return ⟨0, if i.has .json then (infoJson snapshot images).pretty ++ "\n"
      else infoText snapshot images⟩

def Invocation.run [Places] (files : Files m) (i : Invocation) : m Result := do
  let result ← ExceptT.run <| match i.verb with
    | .dump => dump files i
    | .info => info files i
  match result with
  | .ok result => return result
  | .error _ => return failure

def run [Places] (files : Files m) (args : List String) : m Result :=
  match Invocation.parse args with
  | .ok i => i.run files
  | .error refusal => return refuse refusal

end

end MetadataDump.Command
