import Stencil.Lookup.Scope
import Stencil.Render.Library
import Stencil.Text.Entity

/-!
# Rendering

Walking a template's tree in a scope. Text is written as it is, variables as
they display, escaped unless the tag says otherwise. A section is left out,
written once, or once an element of an array; on a lambda it becomes what the
lambda answers. Partials, and texts rendered for a lambda, are parsed with the
delimiters the rendering started with. Partials nest to a fixed depth, beyond which
they are skipped. Lambdas may ask for texts without end, so a rendering has a limit of
its own on how deep these nest, beyond which it is given up; with more room it gives
what it gave, if it gave something.
-/

set_option autoImplicit false

namespace Stencil

def partialLimit : Nat := 64

inductive RenderFault
  | lambdasTooDeep
deriving DecidableEq, Repr

/-- What rendering changes: the state of the host, the library, the memo of the
current frame, and the record of partials skipped for their depth. -/
structure World (σ κ : Type) where
  host : σ
  library : κ
  memo : Memo := []
  skipped : List String := []

/-- Where partial tags find their sources. A resolver may change the state of the host. -/
def Partials (σ : Type) : Type := String → StateM σ (Option String)

def Partials.table {σ : Type} (find : String → Option String) : Partials σ := fun name =>
  pure (find name)

instance {σ : Type} : Coe (String → Option String) (Partials σ) := ⟨.table⟩

abbrev Act (σ κ : Type) : Type → Type := StateT (World σ κ) (Except RenderFault)

structure Setting (σ κ : Type) where
  env : Env σ
  library : Library κ
  partials : Partials σ
  delimiters : Delimiters
  lambdaLimit : Nat

structure Detours (σ κ : Type) where
  /-- The text of a partial. -/
  insert : (name : String) → Scope → Act σ κ String
  /-- A text rendered for a lambda. -/
  callback : (text : String) → Scope → Act σ κ String

namespace Act

variable {σ κ : Type}

def fault {α : Type} (f : RenderFault) : Act σ κ α := fun _ => .error f

def lookup (env : Env σ) (scope : Scope) (key : String) : Act σ κ Value := fun w =>
  let ((v, memo), s) := scope.lookup env key.toList w.memo w.host
  .ok (v, { w with host := s, memo := memo })

def source (partials : Partials σ) (name : String) : Act σ κ (Option String) := fun w =>
  let (found, s) := partials name w.host
  .ok (found, { w with host := s })

def inFrame {α : Type} (act : Act σ κ α) : Act σ κ α := fun w =>
  match act { w with memo := [] } with
  | .ok (a, w') => .ok (a, { w' with memo := w.memo })
  | .error f => .error f

def parse (lib : Library κ) (d : Delimiters) (source : String) : Act σ κ Template := fun w =>
  let (t, k) := lib.parse d source w.library
  .ok (t, { w with library := k })

def skip (name : String) : Act σ κ Unit := fun w =>
  .ok ((), { w with skipped := w.skipped ++ [name] })

end Act

def Handling.run {σ κ : Type} (callback : String → Act σ κ String) :
    Handling σ → Act σ κ Value
  | .answer v s => fun w => .ok (v, { w with host := s })
  | .render text s resume => fun w =>
    match callback text { w with host := s } with
    | .ok (out, w) => (resume out w.host).run callback w
    | .error f => .error f

namespace Setting

variable {σ κ : Type}

def shown (escaped : Bool) : Value → String
  | .null | .lambda _ => ""
  | v => if escaped then Text.escapeHtml v.display else v.display

def forEach (act : Value → Act σ κ String) : List Value → Act σ κ String
  | [] => pure ""
  | v :: vs => do
    let out ← act v
    let rest ← forEach act vs
    pure (out ++ rest)

mutual

def renderNode (st : Setting σ κ) (go : Detours σ κ) (source : String) (scope : Scope) :
    Node → Act σ κ String
  | .text t _ => pure t
  | .comment _ _ => pure ""
  | .variableTag name escaped _ => do
    let v ← Act.lookup st.env scope name
    pure (shown escaped v)
  | .sectionTag name true _ _ children => do
    let v ← Act.lookup st.env scope name
    if v.blank then renderNodes st go source scope children else pure ""
  | .sectionTag name false _ body children => do
    match ← Act.lookup st.env scope name with
    | .lambda id => do
      let s := (← get).host
      let raw := String.ofList (body.slice source.toList)
      let v ← (st.env.host.lambda id raw s).run fun text => go.callback text scope
      pure v.display
    | .array items =>
      forEach (fun v => Act.inFrame (renderNodes st go source (scope.push v) children)) items
    | v =>
      if v.truthy then Act.inFrame (renderNodes st go source (scope.push v) children)
      else pure ""
  | .partialTag name _ => go.insert name scope

def renderNodes (st : Setting σ κ) (go : Detours σ κ) (source : String) (scope : Scope) :
    List Node → Act σ κ String
  | [] => pure ""
  | n :: ns => do
    let out ← renderNode st go source scope n
    let rest ← renderNodes st go source scope ns
    pure (out ++ rest)

end

def renderTemplate (st : Setting σ κ) (go : Detours σ κ) (t : Template) (scope : Scope) :
    Act σ κ String :=
  renderNodes st go t.source scope t.nodes

/-- The detours with room for `lambdas` more texts rendered for lambdas and
`partials` more partials inside one another. -/
def detours (st : Setting σ κ) (lambdas partials : Nat) : Detours σ κ :=
  { insert := fun name scope =>
      match partials with
      | 0 => do Act.skip name; pure ""
      | p + 1 => do
        match ← Act.source st.partials name with
        | none => pure ""
        | some source => do
          let t ← Act.parse st.library st.delimiters source
          renderTemplate st (detours st lambdas p) t scope
    callback := fun text scope =>
      match lambdas with
      | 0 => Act.fault .lambdasTooDeep
      | l + 1 => do
        let t ← Act.parse st.library st.delimiters text
        renderTemplate st (detours st l partials) t scope }
termination_by lambdas + partials

def render (st : Setting σ κ) (t : Template) (data : Value) : Act σ κ String :=
  renderTemplate st (st.detours st.lambdaLimit partialLimit) t ⟨data, []⟩

end Setting

end Stencil
