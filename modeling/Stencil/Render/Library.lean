import Stencil.Template.Parse

/-!
# Libraries

Where parsed templates come from. A cache keeps every parse under its source and
delimiters until it is cleared; parses are numbered, so that one that was kept
can be told from one that was made again. Whatever a library remembers, what it
gives is the parse of the source it was asked for.
-/

set_option autoImplicit false

namespace Stencil

structure Library (κ : Type) where
  parse : Delimiters → String → κ → Template × κ
  faithful : ∀ d source k, (parse d source k).1 = .parse d source

def Library.fresh : Library Unit where
  parse d source _ := (.parse d source, ())
  faithful _ _ _ := rfl

structure Parsed where
  number : Nat
  template : Template

theorem Parsed.sound_nil :
    ∀ e ∈ ([] : List ((String × Delimiters) × Parsed)), e.2.template = .parse e.1.2 e.1.1 :=
  List.forall_mem_nil _

structure Cache where
  entries : List ((String × Delimiters) × Parsed) := []
  next : Nat := 0
  /-- A parse is kept under its own source and delimiters. -/
  sound : ∀ e ∈ entries, e.2.template = .parse e.1.2 e.1.1 := by exact Parsed.sound_nil

namespace Cache

def size (c : Cache) : Nat := c.entries.length

def fetch (d : Delimiters) (source : String) (c : Cache) : Parsed × Cache :=
  match c.entries.lookup (source, d) with
  | some p => (p, c)
  | none =>
    let p : Parsed := ⟨c.next, .parse d source⟩
    (p, ⟨((source, d), p) :: c.entries, c.next + 1, List.forall_mem_cons.2 ⟨rfl, c.sound⟩⟩)

theorem fetch_template (d : Delimiters) (source : String) (c : Cache) :
    (c.fetch d source).1.template = .parse d source := by
  unfold fetch
  split
  · next p hp =>
    obtain ⟨as, bs, he, -⟩ := List.lookup_eq_some_iff.1 hp
    exact c.sound ((source, d), p) (by simp [he])
  · rfl

def clear (c : Cache) : Cache := ⟨[], c.next, Parsed.sound_nil⟩

end Cache

def Library.cached : Library Cache where
  parse d source c := let (p, c) := c.fetch d source; (p.template, c)
  faithful := Cache.fetch_template

end Stencil
