import MetadataDump.Declaration.Basic
import MetadataDump.Snapshot.Index

namespace MetadataDump

def MethodSpec.instantiation (s : MethodSpec) : Instantiation := ⟨s.typeName, s.methodName⟩

namespace GenericGroup

/-- Adds a specialization to the group of its pointer, or a new group behind the others. -/
def add (s : Snapshot) (spec : MethodSpec) : List GenericGroup → List GenericGroup
  | [] => [⟨spec.pointer, s.address? spec.pointer, [spec.instantiation]⟩]
  | g :: gs =>
    if g.pointer = spec.pointer then
      { g with instances := g.instances ++ [spec.instantiation] } :: gs
    else g :: add s spec gs

def ofSpecs (s : Snapshot) (specs : List MethodSpec) : List GenericGroup :=
  specs.foldl (fun groups spec ↦ add s spec groups) []

end GenericGroup

namespace Metadata

def genericGroups (m : Metadata) (method : Nat) : List GenericGroup :=
  GenericGroup.ofSpecs m.toSnapshot ((m.specsOf method).filterMap (m.methodSpecs[·]?))

end Metadata

end MetadataDump
