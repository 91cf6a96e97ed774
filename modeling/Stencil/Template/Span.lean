import Stencil.Text.Blank

/-!
# Spans

Byte ranges of a source, in 32-bit words. Offsets past the last word are clamped
to it, so no sum and no difference here wraps.
-/

set_option autoImplicit false

namespace Stencil

structure Span where
  start : UInt32
  length : UInt32
deriving DecidableEq, Repr, Inhabited

namespace Span

def clamp (n : Nat) : UInt32 := UInt32.ofNat (min n (2 ^ 32 - 1))

def ofBounds (start stop : Nat) : Span :=
  let s := clamp start
  ⟨s, max (clamp stop) s - s⟩

def stop (s : Span) : UInt32 := clamp (s.start.toNat + s.length.toNat)

def slice (s : Span) (source : List Char) : List Char :=
  (Text.bytesBetween s.start.toNat s.stop.toNat source).getD []

end Span

end Stencil
