import MetadataDump.Text.Width.Ranges

/-!
How characters join on a terminal. A character is wider or narrower than it is alone if it ends up
in a ligature, in an emoji of several characters, or in front of a variation selector. All of this
depends on what follows it, so a text is read from its end and a tail is what was read of it.
-/

namespace MetadataDump.Text.Width

inductive Style
  | wideQuote | text | emoji
  deriving DecidableEq, Repr

inductive Ligature
  | alef | lamed | ya
  /-- A Buginese vowel sign and a letter that is joined to it. -/
  | vowelYa
  | consonant
  /-- A Tifinagh consonant behind the consonant joiner. -/
  | joinedConsonant
  | toneLetter | orkhonI | coengLetter
  deriving DecidableEq, Repr

inductive RunLength
  | one | even | odd
  deriving DecidableEq, Repr

def RunLength.next : RunLength → RunLength
  | .one | .odd => .even
  | .even => .odd

/-- What follows a character, as far as the character may join with it. -/
inductive Tail
  | nothing
  | styled (s : Style)
  /-- The end of a ligature, with or without a joiner in front, and the styles asked for there. -/
  | ligature (l : Ligature) (joined : Bool) (styles : List Style)
  | tone
  | emoji
  /-- A joiner and an emoji, perhaps behind a keycap and behind a selector of emoji style. -/
  | joinedEmoji (keycap style : Bool)
  /-- Regional indicators, perhaps in front of a joiner and an emoji. -/
  | indicators (joined : Bool) (n : RunLength)
  /-- The end of the tags of a flag in front of a joiner: letters, or digits and then letters. -/
  | tagLetters (n : Nat)
  | tagDigits (n : Nat)
  | vowelE | vowelAi
  deriving DecidableEq, Repr

def isWithin (c : Char) (first last : Nat) : Bool := first ≤ c.toNat ∧ c.toNat ≤ last

def zeroWidthJoiner : Nat := 0x200D

def isIndicator (c : Char) : Bool := isWithin c 0x1F1E6 0x1F1FF

def isTone (c : Char) : Bool := isWithin c 0x1F3FB 0x1F3FF

def isQuote (c : Char) : Bool :=
  c.toNat = 0x2018 ∨ c.toNat = 0x2019 ∨ c.toNat = 0x201C ∨ c.toNat = 0x201D

/-- Emoji that are one column wide if they are shown as text. Those that stand for ideographs keep
their width. -/
def isNarrowedByStyle (c : Char) : Bool :=
  inRanges emojiStyled c && inRanges emojiByDefault c && !isWithin c 0x1F200 0x1F2FF

def isIgnorableMark (c : Char) : Bool :=
  c.toNat = 0x34F ∨ isWithin c 0x17B4 0x17B5 ∨ isWithin c 0x180B 0x180D ∨ c.toNat = 0x180F ∨
    isWithin c 0xFE00 0xFE0F ∨ isWithin c 0xE0100 0xE01EF

def isLam (c : Char) : Bool :=
  c.toNat = 0x644 ∨ isWithin c 0x6B5 0x6B8 ∨ c.toNat = 0x76A ∨ c.toNat = 0x8A6 ∨ c.toNat = 0x8C7

def isAlef (c : Char) : Bool :=
  isWithin c 0x622 0x623 ∨ c.toNat = 0x625 ∨ c.toNat = 0x627 ∨ isWithin c 0x671 0x673 ∨
    c.toNat = 0x675 ∨ isWithin c 0x773 0x774 ∨ isWithin c 0x870 0x882

def isTifinaghConsonant (c : Char) : Bool := isWithin c 0x2D31 0x2D65 ∨ c.toNat = 0x2D6F

/-- The Khmer letters whose subscript form takes no column. -/
def isCoengLetter (c : Char) : Bool :=
  isWithin c 0x1780 0x1782 ∨ isWithin c 0x1784 0x1787 ∨ isWithin c 0x1789 0x178C ∨
    isWithin c 0x178E 0x1793 ∨ isWithin c 0x1795 0x1798 ∨ isWithin c 0x179B 0x179D ∨
    c.toNat = 0x17A0 ∨ c.toNat = 0x17A2 ∨ c.toNat = 0x17A7 ∨ isWithin c 0x17AB 0x17AC ∨
    c.toNat = 0x17AF

def Ligature.ofLast? (c : Char) : Option Ligature :=
  if isAlef c then some .alef
  else if c.toNat = 0x5DC then some .lamed
  else if c.toNat = 0x1A10 then some .ya
  else if isTifinaghConsonant c then some .consonant
  else if isWithin c 0xA4FC 0xA4FD then some .toneLetter
  else if c.toNat = 0x10C03 then some .orkhonI
  else if isCoengLetter c then some .coengLetter
  else none

def columns (c : Char) : Nat :=
  if c.toNat ≤ 0xA0 then 1
  else if c.toNat = 0x17D8 then 3
  else if inRanges zeroWidth c then 0
  else if inRanges doubleWidth c then 2
  else 1

def alone (c : Char) : Int × Tail :=
  match Ligature.ofLast? c with
  | some l => (1, .ligature l false [])
  | none =>
    if c.toNat = 0x16D67 then (1, .vowelE)
    else if c.toNat = 0x16D68 then (1, .vowelAi)
    else if isIndicator c then (1, .indicators false .one)
    else if isTone c then (2, .tone)
    else if inRanges emojiByDefault c then (2, .emoji)
    else (columns c, .nothing)

def Ligature.join? (l : Ligature) (joined : Bool) (c : Char) : Option (Int × Tail) :=
  if l = .alef then
    if isLam c then some (0, .nothing)
    else if columns c = 0 && !inRanges separating c then some (0, .ligature .alef false [])
    else none
  else if c.toNat = zeroWidthJoiner then some (0, .ligature l true [])
  else if isIgnorableMark c then some (0, .ligature l joined [])
  else
    match l, joined with
    | .lamed, true => if c.toNat = 0x5D0 then some (0, .nothing) else none
    | .ya, true => if c.toNat = 0x1A17 then some (0, .ligature .vowelYa false []) else none
    | .vowelYa, _ => if c.toNat = 0x1A15 then some (0, .nothing) else none
    | .consonant, _ =>
      if c.toNat = 0x2D7F then some (1, .ligature .joinedConsonant false [])
      else if joined && isTifinaghConsonant c then some (0, .nothing)
      else none
    | .joinedConsonant, _ => if isTifinaghConsonant c then some (-1, .nothing) else none
    | .toneLetter, _ => if isWithin c 0xA4F8 0xA4FB then some (0, .nothing) else none
    | .orkhonI, true => if c.toNat = 0x10C32 then some (0, .nothing) else none
    | .coengLetter, _ => if c.toNat = 0x17D2 then some (-1, .nothing) else none
    | _, _ => none

def isTagLetter (c : Char) : Bool := isWithin c 0xE0061 0xE007A
def isTagDigit (c : Char) : Bool := isWithin c 0xE0030 0xE0039

def blackFlag : Nat := 0x1F3F4

namespace Tail

def join? (t : Tail) (c : Char) : Option (Int × Tail) :=
  match t with
  | .ligature l joined _ => l.join? joined c
  | .tone =>
    if inRanges toned c then some (0, .emoji)
    else if c.toNat = zeroWidthJoiner then some (0, .joinedEmoji false false)
    else none
  | .emoji => if c.toNat = zeroWidthJoiner then some (0, .joinedEmoji false false) else none
  | .joinedEmoji false _ =>
    if c.toNat = 0x20E3 then some (0, .joinedEmoji true false)
    else if isIndicator c then some (1, .indicators true .one)
    else if isTone c then some (0, .tone)
    else if c.toNat = 0xE007F then some (0, .tagLetters 0)
    else if inRanges emojiByDefault c then some (0, .emoji)
    else none
  | .indicators joined n =>
    if isIndicator c then
      some (if !joined then 1 else if n = .even then 3 else -1, .indicators joined n.next)
    else if c.toNat = zeroWidthJoiner ∧ n ≠ .one then some (0, .joinedEmoji false false)
    else none
  | .tagLetters n =>
    if isTagLetter c ∧ n < 6 then some (0, .tagLetters (n + 1))
    else if isTagDigit c ∧ n ≤ 4 then some (0, .tagDigits 1)
    else if c.toNat = blackFlag ∧ 3 ≤ n then some (0, .emoji)
    else none
  | .tagDigits n =>
    if isTagDigit c ∧ n < 3 then some (0, .tagDigits (n + 1))
    else if c.toNat = blackFlag ∧ n = 3 then some (0, .emoji)
    else none
  | .vowelE =>
    if c.toNat = 0x16D63 ∨ c.toNat = 0x16D69 then some (0, .nothing)
    else if c.toNat = 0x16D67 then some (0, .vowelAi)
    else if c.toNat = 0x16D68 then some (1, .vowelE)
    else none
  | .vowelAi => if c.toNat = 0x16D63 then some (0, .nothing) else none
  | _ => none

def asks (s : Style) : Tail → Bool
  | .styled asked => asked = s
  | .ligature _ _ styles => styles.contains s
  | .joinedEmoji _ true => s = .emoji
  | _ => false

/-- The tail after a character that a style does not apply to: that style is not asked for again. -/
def without (s : Style) : Tail → Tail
  | .styled asked => if asked = s then .nothing else .styled asked
  | .ligature l joined styles => .ligature l joined (styles.filter (· ≠ s))
  | .joinedEmoji keycap true => if s = .emoji then .nothing else .joinedEmoji keycap true
  | t => t

/-- The tail with a variation selector in front. Only a ligature can be asked for several styles,
and emoji other than joined ones are not looked at past a selector. -/
def select (s : Style) : Tail → Tail
  | .ligature l joined styles => .ligature l joined (styles.insert s)
  | .joinedEmoji keycap false => if s = .emoji then .joinedEmoji keycap true else .styled s
  | _ => .styled s

def isJoinedEmoji : Tail → Bool
  | .joinedEmoji _ _ => true
  | _ => false

end Tail

def Style.ofSelector? (c : Char) : Option Style :=
  if c.toNat = 0xFE01 then some .wideQuote
  else if c.toNat = 0xFE0E then some .text
  else if c.toNat = 0xFE0F then some .emoji
  else none

/-- What a character that is not shown as emoji adds in front of a tail. -/
def plainStep (c : Char) (t : Tail) : Int × Tail :=
  match Style.ofSelector? c with
  | some s => (0, t.select s)
  | none =>
    if t.asks .text && isNarrowedByStyle c then (1, .nothing)
    else if t.asks .wideQuote && isQuote c then (2, .nothing)
    else (((t.without .text).without .wideQuote).join? c).getD (alone c)

/-- What a character adds in front of a tail, and the tail that begins with it. Joined emoji are as
wide as the last of them. -/
def step (c : Char) (t : Tail) : Int × Tail :=
  if t.asks .emoji && inRanges emojiStyled c then (if t.isJoinedEmoji then 0 else 2, .emoji)
  else if c.toNat ≤ 0xA0 then (1, .nothing)
  else plainStep c (t.without .emoji)

end MetadataDump.Text.Width
