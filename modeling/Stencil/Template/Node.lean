import Stencil.Template.Problem
import Stencil.Template.Token

/-!
# Nodes

The tree of a template. A close tag ends the innermost open section of its name
and with it every section opened inside that one; a close tag without such a
section is dropped, and a section without a close tag runs to the end.
-/

set_option autoImplicit false

namespace Stencil

inductive Node
  | text (text : String) (span : Span)
  | variableTag (name : String) (escaped : Bool) (span : Span)
  | sectionTag (name : String) (inverted : Bool) (span body : Span) (children : List Node)
  | partialTag (name : String) (span : Span)
  | comment (content : String) (span : Span)
deriving Repr

namespace Node

mutual

def same : Node → Node → Bool
  | text a s, text b t => a == b && s == t
  | variableTag a e s, variableTag b f t => a == b && e == f && s == t
  | sectionTag a i s x cs, sectionTag b j t y ds =>
    a == b && i == j && s == t && x == y && sameAll cs ds
  | partialTag a s, partialTag b t => a == b && s == t
  | comment a s, comment b t => a == b && s == t
  | _, _ => false

def sameAll : List Node → List Node → Bool
  | [], [] => true
  | a :: as, b :: bs => same a b && sameAll as bs
  | _, _ => false

end

mutual

theorem same_iff (a b : Node) : same a b = true ↔ a = b := by
  cases a with
  | sectionTag a i s x cs =>
    cases b with
    | sectionTag b j t y ds => simp [same, sameAll_iff cs ds, and_assoc]
    | _ => simp [same]
  | _ => cases b <;> simp [same, and_assoc]

theorem sameAll_iff (as bs : List Node) : sameAll as bs = true ↔ as = bs := by
  cases as with
  | nil => cases bs <;> simp [sameAll]
  | cons a as =>
    cases bs with
    | nil => simp [sameAll]
    | cons b bs => simp [sameAll, same_iff a b, sameAll_iff as bs]

end

instance : DecidableEq Node := fun a b => decidable_of_iff _ (same_iff a b)

def span : Node → Span
  | text _ s | variableTag _ _ s | sectionTag _ _ s _ _ | partialTag _ s | comment _ s => s

end Node

structure OpenSection where
  name : String
  inverted : Bool
  span : Span
  children : List Node := []

def OpenSection.finish (o : OpenSection) (stop : Nat) : Node :=
  .sectionTag o.name o.inverted o.span (.ofBounds o.span.stop.toNat stop) o.children

def OpenSection.unclosed (o : OpenSection) : Problem := .unclosedSection o.name o.span

/-- A tree under construction: the open sections, innermost first, and what
stands outside all of them. -/
structure Nesting where
  opened : List OpenSection := []
  root : List Node := []
  problems : List Problem := []

namespace Nesting

def insert (n : Nesting) (node : Node) : Nesting :=
  match n.opened with
  | [] => { n with root := n.root ++ [node] }
  | o :: os => { n with opened := { o with children := o.children ++ [node] } :: os }

def record (n : Nesting) (p : Problem) : Nesting := { n with problems := n.problems ++ [p] }

/-- Ends `o` at byte `stop`, and then the sections around it up to the first
whose name `ends` picks. Those before it have no end of their own. -/
def finishTo (ends : String → Bool) (stop : Nat) (n : Nesting) (o : OpenSection) :
    List OpenSection → Nesting
  | [] =>
    let n := if ends o.name then n else n.record o.unclosed
    { n with opened := [], root := n.root ++ [o.finish stop] }
  | p :: ps =>
    let p := { p with children := p.children ++ [o.finish stop] }
    if ends o.name then { n with opened := p :: ps }
    else finishTo ends stop (n.record o.unclosed) p ps

def finish (stop : Nat) (n : Nesting) : Nesting :=
  match n.opened with
  | [] => n
  | o :: os => finishTo (fun _ => false) stop n o os

def close (t : Token) (n : Nesting) : Nesting :=
  match n.opened with
  | [] => n.record (.unmatchedClose t.value t.span)
  | o :: os =>
    if (o :: os).any (·.name == t.value) then
      finishTo (· == t.value) t.span.start.toNat n o os
    else n.record (.unmatchedClose t.value t.span)

def step (n : Nesting) (t : Token) : Nesting :=
  match t.kind with
  | .sectionStart => { n with opened := ⟨t.value, false, t.span, []⟩ :: n.opened }
  | .invertedStart => { n with opened := ⟨t.value, true, t.span, []⟩ :: n.opened }
  | .close => n.close t
  | .setDelimiters => n
  | .text => n.insert (.text t.value t.span)
  | .name => n.insert (.variableTag t.value true t.span)
  | .unescaped => n.insert (.variableTag t.value false t.span)
  | .partialTag => n.insert (.partialTag t.value t.span)
  | .comment => n.insert (.comment t.value t.span)

end Nesting

end Stencil
