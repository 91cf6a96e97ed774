import Stencil.Decimal.Fixed
import Stencil.Format.Registry
import Stencil.Text.Alphanumeric
import Stencil.Text.Case

/-!
# The standard formatters

Those of text leave a missing value missing; `default` is the one that puts
something in its place. Those of numbers leave alone what is none.
-/

set_option autoImplicit false

namespace Stencil.Standard

open Text

def onText (f : List Char → List Char) : Formatter
  | .null, _ => .null
  | v, _ => .string (String.ofList (f v.display.toList))

/-- Truth values count as numbers elsewhere, but not here. -/
def onNumber (v : Value) (f : Float → List Char) : Value :=
  match v, v.number? with
  | .bool _, _ | _, none => v
  | _, some n => .string (String.ofList (f n))

def textArg (args : List Value) (i : Nat) (fallback : String) : String :=
  match args[i]? with
  | some v => v.display
  | none => fallback

def natArg (args : List Value) (i : Nat) (fallback : Nat) : Nat :=
  match args[i]?.bind Value.whole? with
  | some n => if 0 ≤ n.toInt then n.toInt.toNat else fallback
  | none => fallback

def title (s : List Char) : List Char :=
  [' '].intercalate ((cutAt (· == ' ') s).map fun w => capitalize (lower w))

/-- Letters and digits, one hyphen for what stands between two of them. `pending`
tells that something was left out since the last one. -/
def slugFrom : (started pending : Bool) → List Char → List Char
  | _, _, [] => []
  | started, pending, c :: r =>
    if isAlphanumeric c then
      (if started && pending then ['-', c] else [c]) ++ slugFrom true false r
    else slugFrom started true r

def slug (s : List Char) : List Char := slugFrom false false (s.flatMap lowerChar)

def truncate (v : Value) (args : List Value) : Value :=
  match v with
  | .null => .null
  | v =>
    let s := v.display
    let limit := natArg args 0 50
    if s.length ≤ limit then .string s
    else .string (String.ofList (s.toList.take limit) ++ textArg args 1 "...")

def orElse (v : Value) (args : List Value) : Value :=
  let missing := match v with
    | .null => true
    | .string s => s.isEmpty
    | _ => false
  if missing then args.head?.getD .null else v

def number (v : Value) (args : List Value) : Value :=
  onNumber v fun n => Decimal.amount n (natArg args 0 0)

def percent (v : Value) (args : List Value) : Value :=
  onNumber v fun n => Decimal.amount (n * 100) (natArg args 0 0) ++ ['%']

def currency (v : Value) (args : List Value) : Value :=
  let symbol := (textArg args 0 "$").toList
  onNumber v fun n =>
    (if n < 0 then ['-'] else []) ++ symbol ++ Decimal.amount n.abs (natArg args 1 2)

def yesno (v : Value) (args : List Value) : Value :=
  .string (if v.truthy then textArg args 0 "yes" else textArg args 1 "no")

def epsilon : Float := Float.ofBits 0x3CB0000000000000

def pluralize (v : Value) (args : List Value) : Value :=
  let one := match v.number? with
    | some n => decide ((n - 1).abs < epsilon)
    | none => false
  .string (if one then textArg args 0 "" else textArg args 1 "s")

def lengthOf : Value → Nat
  | .array items => items.length
  | .object fields | .node _ _ fields => fields.length
  | .string s => s.length
  | _ => 0

def length : Value → Value
  | .accessor _ _ (some v) => length v
  | v => Value.count (lengthOf v)

def join (v : Value) (args : List Value) : Value :=
  match v with
  | .array items => .string ((textArg args 0 ",").intercalate (items.map Value.display))
  | v => v

def first : Value → Value
  | .array items => items.head?.getD .null
  | .string s => match s.toList.head? with
    | some c => .string (String.singleton c)
    | none => .null
  | v => v

def last : Value → Value
  | .array items => items.getLast?.getD .null
  | .string s => match s.toList.getLast? with
    | some c => .string (String.singleton c)
    | none => .null
  | v => v

def formatters : Formatters := .ofFunctions [
  ("upper", onText upper),
  ("uppercase", onText upper),
  ("lower", onText lower),
  ("lowercase", onText lower),
  ("capitalize", onText capitalize),
  ("title", onText title),
  ("trim", onText trim),
  ("slug", onText slug),
  ("truncate", truncate),
  ("default", orElse),
  ("number", number),
  ("currency", currency),
  ("percent", percent),
  ("yesno", yesno),
  ("pluralize", pluralize),
  ("length", fun v _ => length v),
  ("json", fun v _ => .string v.jsonText),
  ("join", join),
  ("first", fun v _ => first v),
  ("last", fun v _ => last v)]

end Stencil.Standard
