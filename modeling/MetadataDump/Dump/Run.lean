import MetadataDump.Declaration.Assemble
import MetadataDump.Dump.Document
import MetadataDump.Dump.Text
import MetadataDump.Files.Basic
import MetadataDump.Json.Read

namespace MetadataDump.Dump

structure Summary where
  images : Nat
  failed : Nat
  deriving DecidableEq, Repr

namespace Summary

def ofOutcomes (outcomes : List Outcome) : Summary :=
  ⟨outcomes.length, outcomes.countP Outcome.isFailed⟩

def isComplete (s : Summary) : Bool := s.failed = 0

end Summary

def textFile : String := "dump.cs"
def jsonFile : String := "dump.json"

/-- A sink that takes at most `capacity` bytes. -/
def fits (capacity : Nat) (content : String) : Bool := content.utf8ByteSize ≤ capacity

section

variable [Places]

def writeText (capacity : Nat) (c : Config) (outcomes : List Outcome) : Except Error Unit :=
  if fits capacity (Text.render c outcomes) then .ok () else .error .file

def writeJson (capacity : Nat) (c : Config) (outcomes : List Outcome) : Except Error Unit :=
  if fits capacity (Document.render c outcomes) then .ok () else .error .json

end

section

variable {m : Type → Type} [Monad m]

def orFail (step : m Bool) : ExceptT Error m Unit := do
  if ! (← step) then throw .file

def load {α : Type} [Json.Codec α] (files : Files m) (path : String) : ExceptT Error m α := do
  match ← files.read path with
  | some bytes => liftExcept (Json.readBytes bytes)
  | none => throw .file
where
  liftExcept {β : Type} : Except Error β → ExceptT Error m β
    | .ok b => pure b
    | .error e => throw e

def run [Places] (files : Files m) (md : Metadata) (c : Config) (directory : String) :
    ExceptT Error m Summary := do
  let text := Files.inDirectory directory textFile
  let json := Files.inDirectory directory jsonFile
  if c.text then orFail (files.create text)
  if c.json then orFail (files.create json)
  let outcomes := md.assemble c
  if c.text then orFail (files.write text (Text.render c outcomes))
  if c.json then orFail (files.write json (Document.render c outcomes))
  return .ofOutcomes outcomes

end

end MetadataDump.Dump
