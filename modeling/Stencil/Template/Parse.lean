import Stencil.Template.Lexeme
import Stencil.Template.Node

/-!
# Templates

A source with the tree it parses to and the problems met on the way, those of
single tags before those of nesting.
-/

set_option autoImplicit false

namespace Stencil

structure Template where
  source : String
  /-- The delimiters in force at the start. -/
  delimiters : Delimiters
  nodes : List Node
  problems : List Problem

namespace Template

def lexemes (d : Delimiters) (source : String) : List Lexeme := Lexeme.read d 0 source.toList

def tokens (d : Delimiters) (source : String) : List Token := Lexeme.tokens (lexemes d source)

def nest (source : String) (ts : List Token) : Nesting :=
  (ts.foldl Nesting.step {}).finish (Text.byteLength source.toList)

def parse (d : Delimiters) (source : String) : Template :=
  let ls := lexemes d source
  let n := nest source (Token.squash (Lexeme.tokens ls))
  ⟨source, d, n.root, Lexeme.problems ls ++ n.problems⟩

def same (a b : Template) : Bool :=
  a.source == b.source && a.delimiters == b.delimiters && Node.sameAll a.nodes b.nodes &&
    a.problems == b.problems

end Template

end Stencil
