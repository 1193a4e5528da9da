import MetadataDump.Text.Width.Tail

namespace MetadataDump.Text

def width (line : String) : Nat :=
  (line.toList.foldr (fun c (n, t) ↦ let (added, t) := Width.step c t; (n + added, t))
    ((0 : Int), Width.Tail.nothing)).1.toNat

end MetadataDump.Text
