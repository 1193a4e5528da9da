import MetadataDump.Declaration.ModifierCache
import MetadataDump.Error

namespace MetadataDump

inductive Assembly (α : Type)
  | done (result : Except Error α)
  /-- Asks for the modifiers of a method with the given flags. -/
  | ask (method : Nat) (flags : UInt32) (resume : List Modifier → Assembly α)

namespace Assembly

variable {α β : Type}

def bind : Assembly α → (α → Assembly β) → Assembly β
  | .done (.ok a), f => f a
  | .done (.error e), _ => .done (.error e)
  | .ask method flags resume, f => .ask method flags fun answer ↦ bind (resume answer) f

instance : Monad Assembly where
  pure a := .done (.ok a)
  bind := bind

instance : MonadLift (Except Error) Assembly := ⟨.done⟩

def modifiers (method : Nat) (flags : UInt32) : Assembly (List Modifier) :=
  .ask method flags pure

/-- The result if every question is answered by decoding the flags. -/
def direct : Assembly α → Except Error α
  | .done result => result
  | .ask _ flags resume => direct (resume (Flags.methodModifiers flags))

/-- The result if every question goes to a memo, and the memo afterwards. -/
def run : Assembly α → ModifierCache → Except Error α × ModifierCache
  | .done result, cache => (result, cache)
  | .ask method flags resume, cache =>
    let (answer, cache) := cache.getOrDecode method flags
    run (resume answer) cache

end Assembly

end MetadataDump
