import Courier.Text

namespace Courier.Json

inductive Cause where
  | unexpected
  | noNumberAfterMinus
  | unfinishedFraction
  | emptyExponent
  | unclosedText
  | controlCharacter
  | badEscape
  | badUnicodeEscape
  | nameOrBrace
  | quotedName
  | colon
  | commaOrBrace
  | commaOrBracket
  | trailing
  deriving DecidableEq

/-- A text that is no JSON, with the part of it that was not read. -/
structure Malformed where
  text : List Char
  cause : Cause
  rest : List Char
  deriving DecidableEq

namespace Malformed

def consumed (m : Malformed) : List Char :=
  m.text.take (m.text.length - m.rest.length)

/-- The line and the column behind some characters, which begin at a given place. A carriage return
and the line feed behind it end one line. -/
def placeBehind : Nat → Nat → List Char → Nat × Nat
  | line, column, [] => (line, column)
  | line, _, '\r' :: '\n' :: rest => placeBehind (line + 1) 1 rest
  | line, column, c :: rest =>
    if c = '\n' ∨ c = '\r' then placeBehind (line + 1) 1 rest
    else placeBehind line (column + Text.charUnits c) rest

def place (m : Malformed) : String :=
  let (line, column) := placeBehind 1 1 m.consumed
  "position " ++ (Text.countUnits m.consumed).repr ++ " (line " ++ line.repr ++ " column " ++
    column.repr ++ ")"

def contextUnits : Nat :=
  10

/-- What surrounds the place at which the reading stopped, between quotes. A short text is quoted
as a whole, and dots stand for what is left out. -/
def context (m : Malformed) : String :=
  let before := Text.countUnits m.consumed
  let behind := Text.countUnits m.rest
  let isShort := decide (before + behind ≤ 2 * contextUnits)
  let fromStart := isShort || before < contextUnits
  let toEnd := isShort || behind ≤ contextUnits
  let left := if fromStart then m.consumed else Text.dropUnits (before - contextUnits) m.consumed
  let right := if toEnd then m.rest else Text.takeUnits contextUnits m.rest
  (if fromStart then "\"" else "...\"") ++ .ofList (left ++ right) ++
    (if toEnd then "\"" else "\"...")

/-- The texts that other values turn into by accident. They are reported without a place. -/
def accidents : List String :=
  ["[object Object]", "NaN", "Infinity", "undefined"]

def unexpected (m : Malformed) : String :=
  match m.rest with
  | [] => "Unexpected end of JSON input"
  | c :: _ =>
    if c.isDigit || c == '-' then "Unexpected number in JSON at " ++ m.place
    else if c = '"' then "Unexpected string in JSON at " ++ m.place
    else if accidents.contains (.ofList m.text) then
      "\"" ++ .ofList m.text ++ "\" is not valid JSON"
    else "Unexpected token '" ++ c.toString ++ "', " ++ m.context ++ " is not valid JSON"

def message (m : Malformed) : String :=
  match m.cause with
  | .unexpected => m.unexpected
  | .noNumberAfterMinus => "No number after minus sign in JSON at " ++ m.place
  | .unfinishedFraction => "Unterminated fractional number in JSON at " ++ m.place
  | .emptyExponent => "Exponent part is missing a number in JSON at " ++ m.place
  | .unclosedText => "Unterminated string in JSON at " ++ m.place
  | .controlCharacter => "Bad control character in string literal in JSON at " ++ m.place
  | .badEscape => "Bad escaped character in JSON at " ++ m.place
  | .badUnicodeEscape => "Bad Unicode escape in JSON at " ++ m.place
  | .nameOrBrace => "Expected property name or '\x7d' in JSON at " ++ m.place
  | .quotedName => "Expected double-quoted property name in JSON at " ++ m.place
  | .colon => "Expected ':' after property name in JSON at " ++ m.place
  | .commaOrBrace => "Expected ',' or '\x7d' after property value in JSON at " ++ m.place
  | .commaOrBracket => "Expected ',' or ']' after array element in JSON at " ++ m.place
  | .trailing => "Unexpected non-whitespace character after JSON at " ++ m.place

end Malformed

end Courier.Json
