import Courier.Json
import Courier.Number
import Courier.Text

namespace Courier.Json

/-- The escape of a character: a short one where JSON has it, the code point for the other control
characters, and none for the rest. -/
def escapeChar (c : Char) : List Char :=
  if c = '"' then ['\\', '"']
  else if c = '\\' then ['\\', '\\']
  else if c = '\x08' then ['\\', 'b']
  else if c = '\x0c' then ['\\', 'f']
  else if c = '\n' then ['\\', 'n']
  else if c = '\r' then ['\\', 'r']
  else if c = '\t' then ['\\', 't']
  else if c.toNat < 0x20 then
    ['\\', 'u', '0', '0', Nat.digitChar (c.toNat / 16), Nat.digitChar (c.toNat % 16)]
  else [c]

def quote (s : String) : List Char :=
  '"' :: s.toList.flatMap escapeChar ++ ['"']

/-- The text of a number; an infinite one has none and stands as null. -/
def writeNumber : Number → List Char
  | .infinite _ => ['n', 'u', 'l', 'l']
  | n => n.text.toList

mutual

def writeChars : Json → List Char
  | .null => ['n', 'u', 'l', 'l']
  | .bool true => ['t', 'r', 'u', 'e']
  | .bool false => ['f', 'a', 'l', 's', 'e']
  | .number n => writeNumber n
  | .string s => quote s
  | .array [] => ['[', ']']
  | .array (v :: vs) => '[' :: writeChars v ++ writeItems vs
  | .object [] => ['{', '}']
  | .object ((k, v) :: ms) => '{' :: quote k ++ ':' :: writeChars v ++ writeMembers ms

def writeItems : List Json → List Char
  | [] => [']']
  | v :: vs => ',' :: writeChars v ++ writeItems vs

def writeMembers : List (String × Json) → List Char
  | [] => ['}']
  | (k, v) :: ms => ',' :: quote k ++ ':' :: writeChars v ++ writeMembers ms

end

def write (value : Json) : String :=
  .ofList (writeChars value)

def escapedUnits (c : Char) : Nat :=
  if c = '"' ∨ c = '\\' ∨ c = '\x08' ∨ c = '\x0c' ∨ c = '\n' ∨ c = '\r' ∨ c = '\t' then 2
  else if c.toNat < 0x20 then 6
  else Text.charUnits c

def quotedUnits (s : String) : Nat :=
  s.toList.foldl (fun n c => n + escapedUnits c) 2

mutual

/-- The length of the text of a value in UTF-16 code units, counted without the text. -/
def units : Json → Nat
  | .null => 4
  | .bool true => 4
  | .bool false => 5
  | .number n => Text.countUnits (writeNumber n)
  | .string s => quotedUnits s
  | .array [] => 2
  | .array (v :: vs) => 1 + units v + itemsUnits vs
  | .object [] => 2
  | .object ((k, v) :: ms) => 2 + quotedUnits k + units v + membersUnits ms

def itemsUnits : List Json → Nat
  | [] => 1
  | v :: vs => 1 + units v + itemsUnits vs

def membersUnits : List (String × Json) → Nat
  | [] => 1
  | (k, v) :: ms => 2 + quotedUnits k + units v + membersUnits ms

end

def wordingName : String :=
  "toString"

mutual

/-- A value inside a sentence: a text as it is, an array as its elements between commas, an object
by a fixed word. An object with a wording of its own has no text, since no value of JSON is a
wording. -/
def plainText? : Json → Option String
  | .null => some "null"
  | .bool true => some "true"
  | .bool false => some "false"
  | .number n => some n.text
  | .string s => some s
  | .array items => (plainItems? items).map (",".intercalate ·)
  | .object members =>
    if members.any fun (name, _) => name = wordingName then none else some "[object Object]"

def plainItems? : List Json → Option (List String)
  | [] => some []
  | .null :: vs => (plainItems? vs).map ("" :: ·)
  | v :: vs =>
    match plainText? v, plainItems? vs with
    | some text, some texts => some (text :: texts)
    | _, _ => none

end

end Courier.Json
