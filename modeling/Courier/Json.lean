import Courier.Number

namespace Courier

inductive Json where
  | null
  | bool (value : Bool)
  | number (value : Number)
  | string (value : String)
  | array (items : List Json)
  | object (members : List (String × Json))
  deriving Inhabited

namespace Json

def get? (key : String) : Json → Option Json
  | .object members => members.lookup key
  | _ => none

def asString? : Json → Option String
  | .string value => some value
  | _ => none

def asBool? : Json → Option Bool
  | .bool value => some value
  | _ => none

def asNumber? : Json → Option Number
  | .number value => some value
  | _ => none

def asArray? : Json → Option (List Json)
  | .array items => some items
  | _ => none

def isObject : Json → Bool
  | .object _ => true
  | _ => false

def isArray : Json → Bool
  | .array _ => true
  | _ => false

/-- Whether a value counts as true: all do but null, false, zero and the empty text. -/
def countsAsTrue : Json → Bool
  | .null => false
  | .bool value => value
  | .number value => value ≠ 0
  | .string value => !value.isEmpty
  | .array _ => true
  | .object _ => true

def nonNull : Json → Option Json
  | .null => none
  | value => some value

/-- Whether two values are one and the same. Two arrays or two objects never are, since each of them
was given on its own. -/
def isSame : Json → Json → Bool
  | .null, .null => true
  | .bool a, .bool b => a = b
  | .number a, .number b => a = b
  | .string a, .string b => a = b
  | _, _ => false

theorem eq_of_isSame {a b : Json} (h : a.isSame b = true) : a = b := by
  cases a <;> cases b <;> simp_all [isSame]

def text? (key : String) (value : Json) : Option String :=
  value.get? key |>.bind asString?

def elements (key : String) (value : Json) : List Json :=
  (value.get? key |>.bind asArray?).getD []

end Json

end Courier
