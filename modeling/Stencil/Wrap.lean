import Stencil.Value.Basic

/-!
# Wrapping

Objects become nodes, which answer keys themselves, down to a given depth. An
array stays one and counts as a level. What already has behaviour is left alone.
-/

set_option autoImplicit false

namespace Stencil

def standardDepth : Nat := 3

structure Wrapping where
  number : Nat
  owner : Owner

namespace Wrapping

mutual

def wrapAt (w : Wrapping) (place : List Nat) (depth : Nat) : Value → Value
  | .array items =>
    match depth with
    | 0 => .array items
    | d + 1 => .array (wrapItems w place d 0 items)
  | .object fields =>
    match depth with
    | 0 => .object fields
    | d + 1 => .node ⟨w.number, place⟩ w.owner (wrapFields w place d 0 fields)
  | v => v

def wrapItems (w : Wrapping) (place : List Nat) (depth i : Nat) : List Value → List Value
  | [] => []
  | v :: vs => wrapAt w (i :: place) depth v :: wrapItems w place depth (i + 1) vs

def wrapFields (w : Wrapping) (place : List Nat) (depth i : Nat) :
    List (String × Value) → List (String × Value)
  | [] => []
  | (k, v) :: fs => (k, wrapAt w (i :: place) depth v) :: wrapFields w place depth (i + 1) fs

end

def wrap (w : Wrapping) (depth : Nat) (v : Value) : Value := w.wrapAt [] depth v

end Wrapping

end Stencil
