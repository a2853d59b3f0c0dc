import Courier.Text

namespace Courier

/-- A number of JSON: a rational number, or the infinity that a literal beyond the largest double
reads as. -/
inductive Number where
  | finite (value : Rat)
  | infinite (negative : Bool)
  deriving DecidableEq, Inhabited

namespace Number

def ofInt (n : Int) : Number :=
  .finite n

def ofNat (n : Nat) : Number :=
  .ofInt n

instance (n : Nat) : OfNat Number n where
  ofNat := .ofNat n

def isBetween (low high : Rat) : Number → Bool
  | .finite q => low ≤ q && q < high
  | .infinite _ => false

/-- The 32-bit word of a number: its whole part, taken toward zero, modulo `2 ^ 32`. -/
def toWord : Number → BitVec 32
  | .finite q => .ofInt 32 (q.num.tdiv q.den)
  | .infinite _ => 0

def log2Quotient (num den : Nat) : Int :=
  let k : Int := num.log2 - den.log2
  if den <<< k.toNat ≤ num <<< (-k).toNat then k else k - 1

/-- The exponent of the unit in the last place of the doubles around a positive quotient: they
have 53 significant bits, and no bit below `2 ^ (-1074)`. -/
def unitExponent (num den : Nat) : Int :=
  max (log2Quotient num den - 52) (-1074)

/-- The quotient nearest to `num / den`; a tie goes to the even one. -/
def roundQuotient (num den : Nat) : Nat :=
  let q := num / den
  let r := 2 * (num % den)
  if den < r || (r == den && q % 2 == 1) then q + 1 else q

def unitsOf (num den : Nat) (e : Int) : Nat :=
  roundQuotient (num <<< (-e).toNat) (den <<< e.toNat)

def leastUnits : Nat :=
  4503599627370496

def exactBound : Nat :=
  9007199254740992

def tenPower (k : Nat) : Nat :=
  Nat.pow 10 k

def scaled (m : Nat) (e : Int) : Rat :=
  mkRat (m <<< e.toNat : Nat) (1 <<< (-e).toNat)

/-- The double nearest to a rational number, ties to the even mantissa; beyond the largest double
and half a unit it is infinite. -/
def round (q : Rat) : Number :=
  if q.num = 0 then 0
  else
    let negative := decide (q.num < 0)
    let e := unitExponent q.num.natAbs q.den
    let magnitude := scaled (unitsOf q.num.natAbs q.den e) e
    if scaled 1 1024 ≤ magnitude then .infinite negative
    else .finite (if negative then -magnitude else magnitude)

structure Decimal where
  negative : Bool
  digits : Nat
  exponent : Int

def decimalLength (n : Nat) : Nat :=
  (Nat.toDigits 10 n).length

/-- The double nearest to a decimal literal. Whole numbers up to `2 ^ 53` are themselves doubles,
and literals far outside the range of doubles are settled by their length alone. -/
def ofDecimal (d : Decimal) : Number :=
  let signed : Int := if d.negative then -d.digits else d.digits
  if d.exponent = 0 ∧ d.digits ≤ exactBound then .ofInt signed
  else if d.digits = 0 then 0
  else
    let point := d.exponent + decimalLength d.digits
    if 400 < point then .infinite d.negative
    else if point < -400 then 0
    else round (mkRat (signed * tenPower d.exponent.toNat) (tenPower (-d.exponent).toNat))

/-!
The text of a number: the fewest decimal digits that read back as the same double, positional from
`1e-6` up to below `1e21` and in exponent form outside.
-/

/-- The decimal exponent of a positive quotient: the position of its first digit, so that
`10 ^ (p - 1) ≤ num / den < 10 ^ p`. -/
def decimalPoint (num den : Nat) : Int :=
  let k : Int := decimalLength num - decimalLength den
  if den * tenPower k.toNat ≤ num * tenPower (-k).toNat then k + 1 else k

def scaledTen (m : Nat) (e : Int) : Rat :=
  mkRat (m * tenPower e.toNat : Nat) (tenPower (-e).toNat)

/-- The rational numbers that round to the double of `m` units `2 ^ e`: they reach half a unit to
both sides, a quarter below a power of two, and the ends belong to even `m`. -/
def roundsTo (m : Nat) (e : Int) (q : Rat) : Bool :=
  let below := if m = leastUnits ∧ -1074 < e then 1 else 2
  let low := scaled (4 * m - below) (e - 2)
  let high := scaled (4 * m + 2) (e - 2)
  if m % 2 = 0 then low ≤ q && q ≤ high else low < q && q < high

/-- Of the two neighbours of `q` on the grid of multiples of `10 ^ e`, the nearer one that is
accepted; of two that are equally near, the one with an even last digit. -/
def gridNeighbour? (accepts : Rat → Bool) (q : Rat) (e : Int) : Option Nat :=
  let below := (q / scaledTen 1 e).floor.toNat
  let low := scaledTen below e
  let high := scaledTen (below + 1) e
  match accepts low, accepts high with
  | true, true =>
    if high - q < q - low || (high - q == q - low && below % 2 == 1) then some (below + 1)
    else some below
  | true, false => some below
  | false, true => some (below + 1)
  | false, false => none

/-- The digits and the exponent of the shortest decimal that reads back as the positive double
`q`; seventeen digits always do. -/
def shortest (q : Rat) : Nat × Int :=
  let num := q.num.natAbs
  let e := unitExponent num q.den
  let m := unitsOf num q.den e
  let point := decimalPoint num q.den
  let found := (List.range 17).findSome? fun (i : Nat) =>
    let grid := point - (i + 1)
    (gridNeighbour? (roundsTo m e) q grid).map fun digits => (digits, grid)
  found.getD (0, 0)

def dropZeros : Nat → Nat → Int → Nat × Int
  | 0, digits, e => (digits, e)
  | fuel + 1, digits, e =>
    if digits % 10 = 0 then dropZeros fuel (digits / 10) (e + 1) else (digits, e)

/-- Writes `digits * 10 ^ exponent`, positional when the first digit stands between the sixth place
after the point and the twenty-first before it. -/
def layOut (digits : Nat) (exponent : Int) : String :=
  let ds := Nat.toDigits 10 digits
  let n : Int := ds.length
  let point := n + exponent
  let zeros (k : Int) := List.replicate k.toNat '0'
  if n ≤ point ∧ point ≤ 21 then .ofList (ds ++ zeros (point - n))
  else if 0 < point ∧ point ≤ 21 then
    .ofList (ds.take point.toNat ++ '.' :: ds.drop point.toNat)
  else if -6 < point ∧ point ≤ 0 then .ofList ('0' :: '.' :: zeros (-point) ++ ds)
  else
    let mantissa := match ds with
      | d :: e :: rest => d :: '.' :: e :: rest
      | short => short
    let sign := if point ≤ 0 then '-' else '+'
    .ofList (mantissa ++ 'e' :: sign :: Nat.toDigits 10 (point - 1).natAbs)

def wholeText (n : Int) : String :=
  if n < 0 then "-" ++ Nat.repr n.natAbs else Nat.repr n.natAbs

/-- The text of a number. A whole number up to `2 ^ 53` is written out in full, since no shorter
decimal reads back as it. -/
def text : Number → String
  | .infinite negative => if negative then "-Infinity" else "Infinity"
  | .finite q =>
    if q.den = 1 ∧ q.num.natAbs ≤ exactBound then wholeText q.num
    else
      let (digits, e) := shortest (if q < 0 then -q else q)
      let (digits, e) := dropZeros 20 digits e
      (if q < 0 then "-" else "") ++ layOut digits e

def digitBelow? (base : Nat) (c : Char) : Option Nat :=
  (Text.hexValue? c).filter (· < base)

def ofDigits? (base : Nat) (cs : List Char) : Option Number :=
  if cs.isEmpty then none
  else
    (cs.mapM (digitBelow? base)).map fun digits =>
      .ofDecimal ⟨false, digits.foldl (fun n digit => n * base + digit) 0, 0⟩

def exponent? : List Char → Option Int
  | [] => some 0
  | e :: rest =>
    let digits (negative : Bool) (ds : List Char) : Option Int :=
      if ds.isEmpty || !ds.all Char.isDigit then none
      else
        let n : Int := Nat.ofDigitChars 10 ds 0
        some (if negative then -n else n)
    if e = 'e' ∨ e = 'E' then
      match rest with
      | '+' :: ds => digits false ds
      | '-' :: ds => digits true ds
      | ds => digits false ds
    else none

/-- The number that a decimal literal without a sign writes. One side of the point may be empty. -/
def ofDecimal? (negative : Bool) (cs : List Char) : Option Number :=
  let whole := cs.takeWhile Char.isDigit
  let (fraction, rest) := match cs.dropWhile Char.isDigit with
    | '.' :: rest => (rest.takeWhile Char.isDigit, rest.dropWhile Char.isDigit)
    | rest => ([], rest)
  if (whole ++ fraction).isEmpty then none
  else
    (exponent? rest).map fun e =>
      .ofDecimal ⟨negative, Nat.ofDigitChars 10 (whole ++ fraction) 0, e - fraction.length⟩

def ofUnsigned? (negative : Bool) (cs : List Char) : Option Number :=
  if cs = "Infinity".toList then some (.infinite negative) else ofDecimal? negative cs

/-- The number that some characters without white space around them write. Only decimal numbers
have a sign. -/
def ofChars? : List Char → Option Number
  | [] => some 0
  | '0' :: 'x' :: cs | '0' :: 'X' :: cs => ofDigits? 16 cs
  | '0' :: 'o' :: cs | '0' :: 'O' :: cs => ofDigits? 8 cs
  | '0' :: 'b' :: cs | '0' :: 'B' :: cs => ofDigits? 2 cs
  | '+' :: cs => ofUnsigned? false cs
  | '-' :: cs => ofUnsigned? true cs
  | cs => ofUnsigned? false cs

def ofText? (s : String) : Option Number :=
  ofChars? (Text.trimChars s.toList)

def isLess : Number → Number → Bool
  | .finite p, .finite q => p < q
  | .finite _, .infinite negative => !negative
  | .infinite negative, .finite _ => negative
  | .infinite p, .infinite q => p && !q

end Number

end Courier
