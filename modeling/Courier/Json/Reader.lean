import Courier.Json
import Courier.Json.Malformed
import Courier.Number
import Courier.Text

/-!
Reading JSON text by the grammar of RFC 8259. A reader takes the characters before it and returns
what it has read and the characters behind it, or the cause for which it stops and the characters
from there on.
-/

namespace Courier.Json

abbrev Reading (α : Type) :=
  Except (Cause × List Char) (α × List Char)

def isSpace (c : Char) : Bool :=
  c == ' ' || c == '\t' || c == '\n' || c == '\r'

def skipSpace (cs : List Char) : List Char :=
  cs.dropWhile isSpace

def hexUnit? (a b c d : Char) : Option Nat := do
  let a ← Text.hexValue? a
  let b ← Text.hexValue? b
  let c ← Text.hexValue? c
  let d ← Text.hexValue? d
  return ((a * 16 + b) * 16 + c) * 16 + d

def shortEscape? : Char → Option Char
  | '"' => some '"'
  | '\\' => some '\\'
  | '/' => some '/'
  | 'b' => some '\x08'
  | 'f' => some '\x0c'
  | 'n' => some '\n'
  | 'r' => some '\r'
  | 't' => some '\t'
  | _ => none

def pairChar (high low : Nat) : Char :=
  .ofNat (0x10000 + (high - 0xD800) * 0x400 + (low - 0xDC00))

def skipHex (cs : List Char) : List Char :=
  cs.dropWhile fun c => (Text.hexValue? c).isSome

def consChar (c : Char) (read : List Char × List Char) : List Char × List Char :=
  (c :: read.1, read.2)

/-- Reads the rest of a text after its opening quote, up to the closing one. A surrogate that
stands alone is refused, since it is no character. -/
def readQuoted : List Char → Reading (List Char)
  | [] => .error (.unclosedText, [])
  | '"' :: rest => .ok ([], rest)
  | '\\' :: 'u' :: a :: b :: c :: d :: rest =>
    match hexUnit? a b c d with
    | none => .error (.badUnicodeEscape, skipHex (a :: b :: c :: d :: rest))
    | some unit =>
      if unit < 0xD800 ∨ 0xE000 ≤ unit then (readQuoted rest).map (consChar (.ofNat unit))
      else
        match rest with
        | '\\' :: 'u' :: a :: b :: c :: d :: rest =>
          match hexUnit? a b c d with
          | none => .error (.badUnicodeEscape, skipHex (a :: b :: c :: d :: rest))
          | some low =>
            if unit < 0xDC00 ∧ 0xDC00 ≤ low ∧ low < 0xE000 then
              (readQuoted rest).map (consChar (pairChar unit low))
            else .error (.badUnicodeEscape, rest)
        | _ => .error (.badUnicodeEscape, rest)
  | '\\' :: c :: rest =>
    match shortEscape? c with
    | some c => (readQuoted rest).map (consChar c)
    | none =>
      if c = 'u' then .error (.badUnicodeEscape, skipHex rest)
      else .error (.badEscape, c :: rest)
  | c :: rest =>
    if c = '\\' then .error (.unclosedText, rest)
    else if c.toNat < 0x20 then .error (.controlCharacter, c :: rest)
    else (readQuoted rest).map (consChar c)

def spanDigits (cs : List Char) : List Char × List Char :=
  (cs.takeWhile Char.isDigit, cs.dropWhile Char.isDigit)

def readFraction : List Char → Reading (List Char)
  | '.' :: rest =>
    match spanDigits rest with
    | ([], rest) => .error (.unfinishedFraction, rest)
    | read => .ok read
  | cs => .ok ([], cs)

def readExponentDigits (negative : Bool) (cs : List Char) : Reading Int :=
  match spanDigits cs with
  | ([], rest) => .error (.emptyExponent, rest)
  | (ds, rest) =>
    let n : Int := Nat.ofDigitChars 10 ds 0
    .ok (if negative then -n else n, rest)

def readExponent (cs : List Char) : Reading Int :=
  match cs with
  | e :: rest =>
    if e = 'e' ∨ e = 'E' then
      match rest with
      | '+' :: rest => readExponentDigits false rest
      | '-' :: rest => readExponentDigits true rest
      | _ => readExponentDigits false rest
    else .ok (0, cs)
  | [] => .ok (0, cs)

/-- Reads a number after its sign; a whole part that starts with zero has no second digit. -/
def readUnsigned (negative : Bool) (cs : List Char) : Reading Number :=
  match spanDigits cs with
  | ([], rest) => .error (if negative then .noNumberAfterMinus else .unexpected, rest)
  | ('0' :: d :: ds, rest) => .error (.unexpected, d :: ds ++ rest)
  | (whole, rest) =>
    match readFraction rest with
    | .error stop => .error stop
    | .ok (fraction, rest) =>
      let digits := Nat.ofDigitChars 10 (whole ++ fraction) 0
      (readExponent rest).map fun (exponent, rest) =>
        (.ofDecimal ⟨negative, digits, exponent - fraction.length⟩, rest)

def readNumber : List Char → Reading Number
  | '-' :: rest => readUnsigned true rest
  | cs => readUnsigned false cs

def readWord (value : Json) : List Char → List Char → Reading Json
  | [], rest => .ok (value, rest)
  | w :: ws, c :: cs => if w = c then readWord value ws cs else .error (.unexpected, c :: cs)
  | _ :: _, [] => .error (.unexpected, [])

def readName (cause : Cause) (cs : List Char) : Reading String :=
  match skipSpace cs with
  | '"' :: rest =>
    match readQuoted rest with
    | .ok (name, rest) =>
      match skipSpace rest with
      | ':' :: rest => .ok (.ofList name, rest)
      | rest => .error (.colon, rest)
    | .error stop => .error stop
  | rest => .error (cause, rest)

mutual

/-- Reads a value. The first argument bounds the depth of the recursion; the number of characters
is always enough. -/
def readValue : Nat → List Char → Reading Json
  | 0, cs => .error (.unexpected, cs)
  | fuel + 1, cs =>
    match skipSpace cs with
    | 'n' :: rest => readWord .null ['u', 'l', 'l'] rest
    | 't' :: rest => readWord (.bool true) ['r', 'u', 'e'] rest
    | 'f' :: rest => readWord (.bool false) ['a', 'l', 's', 'e'] rest
    | '"' :: rest => (readQuoted rest).map fun (s, rest) => (.string (.ofList s), rest)
    | '[' :: rest =>
      match skipSpace rest with
      | ']' :: rest => .ok (.array [], rest)
      | rest => (readItems fuel rest).map fun (items, rest) => (.array items, rest)
    | '{' :: rest =>
      match skipSpace rest with
      | '}' :: rest => .ok (.object [], rest)
      | rest =>
        (readMembers fuel .nameOrBrace rest).map fun (members, rest) => (.object members, rest)
    | cs => (readNumber cs).map fun (n, rest) => (.number n, rest)

def readItems : Nat → List Char → Reading (List Json)
  | 0, cs => .error (.unexpected, cs)
  | fuel + 1, cs =>
    match readValue fuel cs with
    | .error stop => .error stop
    | .ok (v, rest) =>
      match skipSpace rest with
      | ']' :: rest => .ok ([v], rest)
      | ',' :: rest => (readItems fuel rest).map fun (vs, rest) => (v :: vs, rest)
      | rest => .error (.commaOrBracket, rest)

def readMembers : Nat → Cause → List Char → Reading (List (String × Json))
  | 0, _, cs => .error (.unexpected, cs)
  | fuel + 1, cause, cs =>
    match readName cause cs with
    | .error stop => .error stop
    | .ok (k, rest) =>
      match readValue fuel rest with
      | .error stop => .error stop
      | .ok (v, rest) =>
        match skipSpace rest with
        | '}' :: rest => .ok ([(k, v)], rest)
        | ',' :: rest =>
          (readMembers fuel .quotedName rest).map fun (ms, rest) => ((k, v) :: ms, rest)
        | rest => .error (.commaOrBrace, rest)

end

def read (text : String) : Except Malformed Json :=
  let cs := text.toList
  match readValue (cs.length + 1) cs with
  | .error (cause, rest) => .error ⟨cs, cause, rest⟩
  | .ok (value, rest) =>
    match skipSpace rest with
    | [] => .ok value
    | rest => .error ⟨cs, .trailing, rest⟩

end Courier.Json
