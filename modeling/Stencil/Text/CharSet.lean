import Stencil.Numbers

/-!
# Sets of characters

A set of characters is given by the code points at which membership changes, in
increasing order, the first being its first member.
-/

set_option autoImplicit false

namespace Stencil.Text

structure CharSet where
  bounds : List Nat

namespace CharSet

/-- Membership of `n`, being `inside` before the first of the bounds. -/
def sideOf (n : Nat) : (inside : Bool) → List Nat → Bool
  | inside, [] => inside
  | inside, b :: bs => if b ≤ n then sideOf n (!inside) bs else inside

def has (s : CharSet) (c : Char) : Bool := sideOf c.toNat false s.bounds

end CharSet

end Stencil.Text
