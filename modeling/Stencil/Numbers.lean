/-!
# Numbers

Powers of numbers and sums of lists of them are those of the core library, whatever
algebra is in scope where they are used.
-/

set_option autoImplicit false

namespace Stencil

instance (priority := high) natPow : Pow Nat Nat := instPowNat

instance (priority := high) intPow : Pow Int Nat := instPowNat

instance (priority := high) natZero : Zero Nat := Zero.ofOfNat0

attribute [default_instance 10001] natPow intPow

end Stencil
