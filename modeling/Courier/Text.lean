namespace Courier.Text

def charUnits (c : Char) : Nat :=
  if c.toNat < 0x10000 then 1 else 2

def countUnits : List Char → Nat
  | [] => 0
  | c :: rest => charUnits c + countUnits rest

def units16 (s : String) : Nat :=
  countUnits s.toList

/-- The greatest length of a text, `2 ^ 29 - 24` code units. -/
def maxUnits : Nat :=
  536870888

def unitsOf (c : Char) : List Nat :=
  if c.toNat < 0x10000 then [c.toNat]
  else [0xD800 + (c.toNat - 0x10000) / 0x400, 0xDC00 + (c.toNat - 0x10000) % 0x400]

def isLess16 (a b : String) : Bool :=
  decide (a.toList.flatMap unitsOf < b.toList.flatMap unitsOf)

def takeUnits : Nat → List Char → List Char
  | _, [] => []
  | n, c :: rest => if charUnits c ≤ n then c :: takeUnits (n - charUnits c) rest else []

def dropUnits : Nat → List Char → List Char
  | _, [] => []
  | n, c :: rest => if n = 0 then c :: rest else dropUnits (n - charUnits c) rest

/-- White space: tab to carriage return, the space separators of Unicode, the line and paragraph
separators and the byte order mark. -/
def isBlank (c : Char) : Bool :=
  let n := c.toNat
  (0x9 ≤ n && n ≤ 0xD) || n == 0x20 || n == 0xA0 || n == 0x1680 ||
    (0x2000 ≤ n && n ≤ 0x200A) || n == 0x2028 || n == 0x2029 || n == 0x202F || n == 0x205F ||
    n == 0x3000 || n == 0xFEFF

def trimChars (cs : List Char) : List Char :=
  ((cs.dropWhile isBlank).reverse.dropWhile isBlank).reverse

def trim (s : String) : String :=
  .ofList (trimChars s.toList)

def isBlankText (s : String) : Bool :=
  s.toList.all isBlank

/-- The maximal runs of characters that are no separators, in order. -/
def words (isSeparator : Char → Bool) (s : String) : List String :=
  ((s.toList.splitOnP isSeparator).filter (! ·.isEmpty)).map .ofList

/-- Lower case, as far as a comparison with an ASCII word without the letter k can tell: no
character outside ASCII has a lower case in ASCII letters, except the Kelvin sign. -/
def lower (s : String) : String :=
  .ofList (s.toList.map Char.toLower)

/-- A text as a case-insensitive, padding-insensitive reader compares it. -/
def normalize (s : String) : String :=
  lower (trim s)

def hexValue? (c : Char) : Option Nat :=
  if '0' ≤ c ∧ c ≤ '9' then some (c.toNat - '0'.toNat)
  else if 'a' ≤ c ∧ c ≤ 'f' then some (c.toNat - 'a'.toNat + 10)
  else if 'A' ≤ c ∧ c ≤ 'F' then some (c.toNat - 'A'.toNat + 10)
  else none

end Courier.Text
