import Stencil.Template.Span

/-!
# Tokens

A template as a flat stream: literal text, one token a character at first, and
tags, each with the trimmed text it holds and the bytes it covers.
-/

set_option autoImplicit false

namespace Stencil

inductive TokenKind
  | text
  | name
  | unescaped
  | sectionStart
  | invertedStart
  | close
  | partialTag
  | comment
  | setDelimiters
deriving DecidableEq, Repr

namespace TokenKind

def isSigil (c : Char) : Bool := "#^/>\x7b&=!".toList.contains c

def ofSigil : List Char → TokenKind
  | ['#'] => sectionStart
  | ['^'] => invertedStart
  | ['/'] => close
  | ['>'] => partialTag
  | ['\x7b'] => unescaped
  | ['&'] => unescaped
  | ['='] => setDelimiters
  | ['!'] => comment
  | _ => name

def opensSection : TokenKind → Bool
  | sectionStart | invertedStart => true
  | _ => false

end TokenKind

structure Token where
  kind : TokenKind
  value : String
  span : Span
deriving DecidableEq, Repr

namespace Token

def isText (t : Token) : Bool := t.kind == .text

def ofText (pos : Nat) : List Char → List Token
  | [] => []
  | c :: r => ⟨.text, String.singleton c, .ofBounds pos (pos + c.utf8Size)⟩ ::
      ofText (pos + c.utf8Size) r

def join (t u : Token) : Token :=
  { t with value := t.value ++ u.value, span := ⟨t.span.start, u.span.stop - t.span.start⟩ }

def squashFrom (t : Token) : List Token → List Token
  | [] => [t]
  | u :: us => if t.isText && u.isText then squashFrom (t.join u) us else t :: squashFrom u us

def squash : List Token → List Token
  | [] => []
  | t :: ts => squashFrom t ts

end Token

end Stencil
