/-!
# Log levels

How much is logged, by the flags given and the debug setting, which counts only
where no flag was given.
-/

set_option autoImplicit false

namespace Stencil

inductive LogLevel
  | error
  | warn
  | info
  | debug
  | trace
deriving DecidableEq, Repr

namespace LogLevel

def name : LogLevel → String
  | error => "error"
  | warn => "warn"
  | info => "info"
  | debug => "debug"
  | trace => "trace"

def ofFlags (quiet : Bool) (verbose : Nat) (debugSetting : Bool) : LogLevel :=
  if quiet then error
  else match verbose with
    | 0 => if debugSetting then debug else warn
    | 1 => info
    | 2 => debug
    | _ => trace

end LogLevel

end Stencil
