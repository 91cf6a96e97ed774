import Stencil.Decimal.Read
import Stencil.Json.Basic
import Stencil.Text.Blank

/-!
# Values

What templates are rendered against. Beside plain data there are values with
behaviour, which stand in the data as numbered handles: getters, section lambdas
and accessors, whose own properties and plain view are data and whose answers to
keys are behaviour. A node is a wrapped object that answers keys itself, with the
formatters of the registry that owns it.
-/

set_option autoImplicit false

namespace Stencil

inductive Owner
  | engine
  | other (n : Nat)
deriving DecidableEq, Repr

/-- Where a node came into being: in which wrapping, and at which place of the
wrapped value, innermost position first. -/
structure NodeId where
  wrapping : Nat
  place : List Nat
deriving DecidableEq, Repr

inductive Value
  | null
  | bool (b : Bool)
  | int (i : Int64)
  | float (f : Float)
  | string (s : String)
  | array (items : List Value)
  | object (fields : List (String × Value))
  | getter (id : Nat)
  | lambda (id : Nat)
  | accessor (id : Nat) (props : List (String × Value)) (view : Option Value)
  | node (id : NodeId) (owner : Owner) (fields : List (String × Value))
deriving Inhabited

namespace Value

def isNull : Value → Bool
  | null => true
  | _ => false

/-- Nothing, no, zero, the undefined number and the empty text are falsy; an
empty array is not. -/
def truthy : Value → Bool
  | null => false
  | bool b => b
  | int i => i != 0
  | float f => f != 0 && !f.isNaN
  | string s => !s.isEmpty
  | array _ | object _ | getter _ | lambda _ | accessor .. | node .. => true

def blank : Value → Bool
  | array items => items.isEmpty
  | v => !v.truthy

def typeName : Value → String
  | null => "null"
  | bool _ => "boolean"
  | int _ | float _ => "number"
  | string _ => "string"
  | array _ => "array"
  | object _ | accessor .. | node .. => "object"
  | getter _ | lambda _ => "function"

def text? : Value → Option String
  | string s => some s
  | _ => none

def items? : Value → Option (List Value)
  | array items => some items
  | _ => none

def number? : Value → Option Float
  | int i => some (Decimal.ofInt i.toInt)
  | float f => some f
  | bool b => some (if b then 1 else 0)
  | string s => Decimal.readFloat? (Text.trim s.toList)
  | _ => none

/-- A whole number: of a float its part before the point, of 64 bits at most. -/
def whole? : Value → Option Int64
  | int i => some i
  | float f => (Decimal.truncate (.ofFloat f)).map Int64.ofInt
  | string s => (Decimal.readInt? (Text.trim s.toList)).map Int64.ofInt
  | _ => none

def count (n : Nat) : Value := int (Int64.ofNat n)

def property (name : String) : Value → Option Value
  | object fields | node _ _ fields => Table.get? name fields
  | array items =>
    if name = "length" then some (count items.length)
    else do items[(← Decimal.readIndex? name.toList)]?
  | string s => if name = "length" then some (count s.length) else none
  | accessor _ props _ => Table.get? name props
  | _ => none

mutual

def toJson : Value → Json
  | null | getter _ | lambda _ => .null
  | bool b => .bool b
  | int i => .int i.toInt
  | float f => if f.isFinite then .float f else .null
  | string s => .string s
  | array items => .array (toJsonItems items)
  | object fields | node _ _ fields => .object (toJsonFields fields)
  | accessor _ _ view => toJsonView view

def toJsonItems : List Value → List Json
  | [] => []
  | v :: vs => v.toJson :: toJsonItems vs

def toJsonFields : List (String × Value) → List (String × Json)
  | [] => []
  | (k, v) :: fs => (k, v.toJson) :: toJsonFields fs

def toJsonView : Option Value → Json
  | none => .null
  | some v => v.toJson

end

def jsonText (v : Value) : String := v.toJson.text

mutual

def ofJson : Json → Value
  | .null => null
  | .bool b => bool b
  | .int i => if -(2 ^ 63) ≤ i ∧ i < 2 ^ 63 then int (Int64.ofInt i) else float (Decimal.ofInt i)
  | .float f => float f
  | .string s => string s
  | .array js => array (ofJsonItems js)
  | .object fs => object (ofJsonFields fs)

def ofJsonItems : List Json → List Value
  | [] => []
  | j :: js => ofJson j :: ofJsonItems js

def ofJsonFields : List (String × Json) → List (String × Value)
  | [] => []
  | (k, j) :: fs => (k, ofJson j) :: ofJsonFields fs

end

mutual

def display : Value → String
  | null | getter _ | lambda _ => ""
  | bool b => if b then "true" else "false"
  | int i => toString i.toInt
  | float f => Decimal.Style.shown.text f
  | string s => s
  | array [] => ""
  | array (v :: vs) => v.display ++ displayItems vs
  | object fields => jsonText (object fields)
  | node id owner fields => jsonText (node id owner fields)
  | accessor _ _ view => displayView view

def displayItems : List Value → String
  | [] => ""
  | v :: vs => "," ++ v.display ++ displayItems vs

def displayView : Option Value → String
  | none => ""
  | some v => v.display

end

mutual

def same : Value → Value → Bool
  | null, null => true
  | bool a, bool b => a == b
  | int a, int b => a == b
  | float a, float b => a == b
  | int a, float b => Decimal.ofInt a.toInt == b
  | float a, int b => Decimal.ofInt b.toInt == a
  | string a, string b => a == b
  | array as, array bs => sameItems as bs
  | object as, object bs => sameFields as bs
  | getter a, getter b => a == b
  | lambda a, lambda b => a == b
  | accessor a _ _, accessor b _ _ => a == b
  | node a _ _, node b _ _ => a == b
  | _, _ => false

def sameItems : List Value → List Value → Bool
  | [], [] => true
  | a :: as, b :: bs => same a b && sameItems as bs
  | _, _ => false

def sameFields : List (String × Value) → List (String × Value) → Bool
  | [], [] => true
  | (j, a) :: as, (k, b) :: bs => j == k && same a b && sameFields as bs
  | _, _ => false

end

end Value

end Stencil
