import MetadataDump.Text.Width

namespace MetadataDump.Command

inductive Alignment
  | left | right
  deriving DecidableEq, Repr

structure Column where
  title : String
  alignment : Alignment

namespace Table

def cellLines (cell : String) : List String := cell.splitOn "\n"

def cellWidth (cell : String) : Nat := ((cellLines cell).map Text.width).foldl max 0

def blanks (n : Nat) : String := String.ofList (List.replicate n ' ')

def align (alignment : Alignment) (width : Nat) (s : String) : String :=
  match alignment with
  | .left => s ++ blanks (width - Text.width s)
  | .right => blanks (width - Text.width s) ++ s

/-- The White_Space characters of Unicode. -/
def isBlank (c : Char) : Bool :=
  (0x9 ≤ c.toNat ∧ c.toNat ≤ 0xD) ∨ c = ' ' ∨ c.toNat = 0x85 ∨ c.toNat = 0xA0 ∨ c.toNat = 0x1680 ∨
    (0x2000 ≤ c.toNat ∧ c.toNat ≤ 0x200A) ∨ c.toNat = 0x2028 ∨ c.toNat = 0x2029 ∨
    c.toNat = 0x202F ∨ c.toNat = 0x205F ∨ c.toNat = 0x3000

def trimEnd (s : String) : String :=
  String.ofList (s.toList.reverse.dropWhile isBlank).reverse

def rowLine (layout : List (Alignment × Nat)) (row : List (List String)) (i : Nat) : String :=
  "  ".intercalate ((layout.zip row).map fun ((alignment, width), lines) ↦
    align alignment width (lines[i]?.getD ""))

def rowLines (layout : List (Alignment × Nat)) (row : List String) : List String :=
  let cells := row.map cellLines
  let height := (cells.map List.length).foldl max 1
  (List.range height).map (rowLine layout cells)

/-- The lines of a table, indented by two blanks and without blanks at their ends. -/
def lines (columns : List Column) (rows : List (List String)) : List String :=
  let all := columns.map Column.title :: rows
  let widths := (List.range columns.length).map fun i ↦
    (all.map fun row ↦ cellWidth (row[i]?.getD "")).foldl max 0
  let layout := (columns.map Column.alignment).zip widths
  (all.flatMap (rowLines layout)).map fun line ↦ "  " ++ trimEnd line

end Table

end MetadataDump.Command
