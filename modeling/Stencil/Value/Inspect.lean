import Stencil.Value.Basic

/-!
# Looking into values

A text that shows what a value is made of, every kind by its name.
-/

set_option autoImplicit false

namespace Stencil.Value

mutual

def inspect : Value → String
  | null => "Null"
  | bool b => "Bool(" ++ (if b then "true" else "false") ++ ")"
  | int i => "Int(" ++ toString i.toInt ++ ")"
  | float f => "Float(" ++ Decimal.Style.inspected.text f ++ ")"
  | string s => "String(" ++ String.ofList (Text.inspectQuoted s.toList) ++ ")"
  | array items => "[" ++ ", ".intercalate (inspectItems items) ++ "]"
  | object fields => "\x7b" ++ ", ".intercalate (inspectFields fields) ++ "\x7d"
  | getter _ => "Func(..)"
  | lambda _ => "Lambda(..)"
  | accessor _ _ view => inspectView view
  | node _ _ fields => "Accessor(\x7b" ++ ", ".intercalate (inspectFields fields) ++ "\x7d)"

def inspectItems : List Value → List String
  | [] => []
  | v :: vs => v.inspect :: inspectItems vs

def inspectFields : List (String × Value) → List String
  | [] => []
  | (k, v) :: fs =>
    (String.ofList (Text.inspectQuoted k.toList) ++ ": " ++ v.inspect) :: inspectFields fs

def inspectView : Option Value → String
  | none => "Accessor(..)"
  | some v => "Accessor(" ++ v.inspect ++ ")"

end

end Stencil.Value
