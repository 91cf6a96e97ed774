import Stencil.Format.Standard
import Stencil.Render.Renderer
import Stencil.Wrap

/-!
# Engines

An engine keeps the templates it has parsed and the formatters registered with
it. A formatter registered under a taken name replaces the earlier one, also for
nodes wrapped before.
-/

set_option autoImplicit false

namespace Stencil

structure InvalidTemplate where
  found : String
deriving DecidableEq, Repr

def InvalidTemplate.message (e : InvalidTemplate) : String :=
  "Invalid template! Template should be a \"string\" but \"" ++ e.found ++ "\" was given"

inductive EngineError
  | invalidTemplate (e : InvalidTemplate)
  | fault (f : RenderFault)
deriving DecidableEq, Repr

structure Engine where
  formatters : Formatters := Standard.formatters
  cache : Cache := {}
  wrapDepth : Nat := standardDepth
  lambdaLimit : Nat := 1000
  /-- The number of the next wrapping. -/
  wrappings : Nat := 0

structure Rendered (σ : Type) where
  text : String
  skipped : List String
  host : σ

namespace Engine

variable {σ : Type}

def env (e : Engine) (host : Host σ) : Env σ := ⟨host, e.formatters⟩

def renderWith (e : Engine) (host : Host σ) (partials : Partials σ) (d : Delimiters)
    (source : String) (data : Value) (s : σ) : Except RenderFault (Rendered σ × Engine) :=
  let (p, cache) := e.cache.fetch d source
  let st : Setting σ Cache := ⟨e.env host, .cached, partials, d, e.lambdaLimit⟩
  match st.render p.template data { host := s, library := cache } with
  | .ok (out, w) => .ok (⟨out, w.skipped, w.host⟩, { e with cache := w.library })
  | .error f => .error f

def renderValue (e : Engine) (host : Host σ) (partials : Partials σ) (d : Delimiters)
    (template data : Value) (s : σ) : Except EngineError (Rendered σ × Engine) :=
  match template with
  | .string source => (e.renderWith host partials d source data s).mapError .fault
  | v => .error (.invalidTemplate ⟨v.typeName⟩)

def parse (e : Engine) (d : Delimiters) (source : String) : Parsed × Engine :=
  let (p, cache) := e.cache.fetch d source
  (p, { e with cache := cache })

def clearCache (e : Engine) : Engine := { e with cache := e.cache.clear }

def cachedTemplates (e : Engine) : Nat := e.cache.size

def register (e : Engine) (name : String) (r : Routine) : Engine :=
  { e with formatters := e.formatters.register name r }

def wrapTo (e : Engine) (depth : Nat) (v : Value) : Value × Engine :=
  (Wrapping.wrap ⟨e.wrappings, .engine⟩ depth v, { e with wrappings := e.wrappings + 1 })

def wrap (e : Engine) (v : Value) : Value × Engine := e.wrapTo e.wrapDepth v

end Engine

end Stencil
