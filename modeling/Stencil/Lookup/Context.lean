import Stencil.Lookup.Scope
import Stencil.Value.Inspect

/-!
# Contexts

A stack of frames, each with its memo. Popping a frame drops what it remembered
and leaves the memos below as they were.
-/

set_option autoImplicit false

namespace Stencil

variable {σ : Type}

structure Frame where
  value : Value
  memo : Memo := []

structure Context where
  current : Frame
  parents : List Frame := []

namespace Context

def root (v : Value) : Context := ⟨⟨v, []⟩, []⟩

def push (c : Context) (v : Value) : Context := ⟨⟨v, []⟩, c.current :: c.parents⟩

def pop? (c : Context) : Option Context :=
  match c.parents with
  | [] => none
  | f :: fs => some ⟨f, fs⟩

def depth (c : Context) : Nat := c.parents.length

def scope (c : Context) : Scope := ⟨c.current.value, c.parents.map Frame.value⟩

def within {α : Type} (c : Context) (act : StateT Memo (StateM σ) α) (s : σ) :
    α × Context × σ :=
  let ((a, memo), s) := act c.current.memo s
  (a, { c with current := { c.current with memo := memo } }, s)

def resolve (env : Env σ) (c : Context) (name : String) (s : σ) : Option Value × Context × σ :=
  c.within (c.scope.resolve env name.toList) s

def lookup (env : Env σ) (c : Context) (key : String) (s : σ) : Value × Context × σ :=
  c.within (c.scope.lookup env key.toList) s

def resolveLocal (env : Env σ) (c : Context) (name : String) : StateM σ (Option Value) :=
  Stencil.resolveLocal env c.current.value name.toList

def inspect (c : Context) : String :=
  "Context \x7b value: " ++ c.current.value.inspect ++ ", depth: " ++ toString (c.depth + 1) ++
    ", .. \x7d"

end Context

end Stencil
