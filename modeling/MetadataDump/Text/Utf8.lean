namespace MetadataDump.Text.Utf8

/-- Why bytes are not UTF-8 text. `valid` bytes before the fault are well-formed. -/
inductive Fault
  /-- `length` bytes that no continuation makes well-formed. -/
  | invalid (valid length : Nat)
  /-- The bytes end inside a sequence that could still become well-formed. -/
  | incomplete (valid : Nat)
  deriving DecidableEq, Repr

def Fault.message : Fault → String
  | .invalid valid length =>
    "invalid utf-8 sequence of " ++ toString length ++ " bytes from index " ++ toString valid
  | .incomplete valid => "incomplete utf-8 byte sequence from index " ++ toString valid

/-- The continuation bytes that may follow a lead byte: the range of the first of them, and how
many follow that one. The ranges leave out overlong forms, surrogates and values past U+10FFFF. -/
def continuation? (lead : UInt8) : Option ((UInt8 × UInt8) × Nat) :=
  if 0xC2 ≤ lead ∧ lead ≤ 0xDF then some ((0x80, 0xBF), 0)
  else if lead = 0xE0 then some ((0xA0, 0xBF), 1)
  else if lead = 0xED then some ((0x80, 0x9F), 1)
  else if 0xE1 ≤ lead ∧ lead ≤ 0xEF then some ((0x80, 0xBF), 1)
  else if lead = 0xF0 then some ((0x90, 0xBF), 2)
  else if 0xF1 ≤ lead ∧ lead ≤ 0xF3 then some ((0x80, 0xBF), 2)
  else if lead = 0xF4 then some ((0x80, 0x8F), 2)
  else none

/-- Follows one sequence through the bytes after its lead byte: how many of them it takes, and
whether it is complete (`some true`), cut short by the end (`some false`) or ill-formed (`none`). -/
def follow (low high : UInt8) (more : Nat) : List UInt8 → Nat × Option Bool
  | [] => (0, some false)
  | b :: bs =>
    if low ≤ b ∧ b ≤ high then
      match more with
      | 0 => (1, some true)
      | k + 1 => let (n, verdict) := follow 0x80 0xBF k bs; (n + 1, verdict)
    else (0, none)

/-- The first fault of `bytes` when `valid` bytes before them are well-formed; `skip` of them
belong to a sequence already accepted. -/
def faultFrom (valid skip : Nat) : List UInt8 → Option Fault
  | [] => none
  | b :: bs =>
    match skip with
    | k + 1 => faultFrom (valid + 1) k bs
    | 0 =>
      if b < 0x80 then faultFrom (valid + 1) 0 bs
      else
        match continuation? b with
        | none => some (.invalid valid 1)
        | some ((low, high), more) =>
          match follow low high more bs with
          | (n, some true) => faultFrom (valid + 1) n bs
          | (_, some false) => some (.incomplete valid)
          | (n, none) => some (.invalid valid (n + 1))

def decode (bytes : ByteArray) : Except Fault String :=
  match String.fromUTF8? bytes with
  | some s => .ok s
  | none => .error ((faultFrom 0 0 bytes.data.toList).getD (.incomplete bytes.size))

end MetadataDump.Text.Utf8
