import Stencil.Table

/-!
# TOML

The values of a settings file. A date or a time is the text it is written back
as. The entries of a table stand in the order of their keys.
-/

set_option autoImplicit false

namespace Stencil

inductive Toml
  | bool (b : Bool)
  | int (i : Int)
  | float (f : Float)
  | string (s : String)
  | array (items : List Toml)
  | table (fields : List (String × Toml))
deriving Inhabited

end Stencil
