import Stencil.Format.Registry

/-!
# Hosts

A host says what the handles in values do, and those that are registered as formatters.
It may keep a state of its own, which every call hands on. A section lambda answers
after finitely many requests to have a text rendered.
-/

set_option autoImplicit false

namespace Stencil

structure LookupError where
  key : String
  reason : String
deriving DecidableEq, Repr

def LookupError.message (e : LookupError) : String :=
  "lookup of '" ++ e.key ++ "' failed: " ++ e.reason

inductive Handling (σ : Type) where
  | answer (v : Value) (s : σ)
  | render (text : String) (s : σ) (resume : String → σ → Handling σ)

structure Host (σ : Type) where
  /-- What a getter gives for a receiver. -/
  getter : (id : Nat) → (receiver : Value) → σ → Value × σ
  /-- What a lambda does with the unrendered body of its section. -/
  lambda : (id : Nat) → (body : String) → σ → Handling σ
  /-- What an accessor answers to a key; nothing means that it does not have it. -/
  get : (id : Nat) → (key : String) → σ → Except LookupError (Option Value) × σ
  /-- The registries of nodes that were wrapped elsewhere. -/
  registry : Nat → Formatters
  /-- What a formatter makes of a value and the arguments of a step. -/
  format : (id : Nat) → (v : Value) → (args : List Value) → σ → Value × σ :=
    fun _ v _ s => (v, s)

def Host.plain : Host Unit where
  getter _ _ s := (.null, s)
  lambda _ _ s := .answer .null s
  get _ _ s := (.ok none, s)
  registry _ := .empty

namespace Host

variable {σ : Type}

def apply (host : Host σ) (fs : Formatters) (name : String) (v : Value) (args : List Value) :
    StateM σ Value :=
  match fs.get? name with
  | some (.handle id) => host.format id v args
  | _ => pure (fs.apply name v args)

/-- Feeds a value through the steps of a key in order. -/
def run (host : Host σ) (fs : Formatters) : List Step → Value → StateM σ Value
  | [], v => pure v
  | step :: steps, v => do run host fs steps (← host.apply fs step.name v step.args)

end Host

structure Env (σ : Type) where
  host : Host σ
  formatters : Formatters

def Env.registry {σ : Type} (env : Env σ) : Owner → Formatters
  | .engine => env.formatters
  | .other n => env.host.registry n

end Stencil
