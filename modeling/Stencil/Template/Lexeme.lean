import Stencil.Template.Delimiters
import Stencil.Template.Pattern
import Stencil.Template.Problem
import Stencil.Template.Token

/-!
# Lexemes

Reading a source from left to right gives tokens and, between them, the problems
of tags that yield none. A set-delimiter tag changes the delimiters for what
follows it. A tag that is not closed ends the reading: the source from its
opening delimiter on is literal text.
-/

set_option autoImplicit false

namespace Stencil

open Text

inductive Lexeme
  | token (t : Token)
  | problem (p : Problem)
deriving DecidableEq, Repr

/-- A tag after its opening delimiter: its sigil and text and what follows it,
or what was left when the search for its end gave up. -/
inductive TagRead
  | closed (sigil body rest : List Char)
  | unclosed (sigil rest : List Char)
deriving DecidableEq, Repr

namespace TagRead

def sigilHere : Pattern := .oneOf TokenKind.isSigil

/-- The text of a tag, read up to where its end has to stand. The text of a
set-delimiter tag ends at its first equal sign and that of a brace tag at a
brace right before the closing delimiter. -/
def body (closing : List Char) (sigil s : List Char) : List Char × List Char :=
  match sigil with
  | ['='] =>
    let (b, r) := Pattern.equalSign.upTo s
    (b, ((Pattern.closing closing).upTo (Pattern.equalSign.take r).2).2)
  | ['\x7b'] =>
    let (b, r) := (Pattern.closing ('\x7d' :: closing)).upTo s
    (b, ((Pattern.closing closing).upTo (Pattern.closingBrace.take r).2).2)
  | _ => (Pattern.closing closing).upTo s

def read (closing s : List Char) : TagRead :=
  let (sigil, r) := sigilHere.take s
  let (b, r) := body closing sigil (dropBlanks r)
  match (Pattern.closing closing).take r with
  | ([], _) => unclosed sigil r
  | (_ :: _, rest) => closed sigil b rest

def expected (closing : String) : (sigil : List Char) → String
  | ['='] => "=" ++ closing
  | ['\x7b'] => "\x7d" ++ closing
  | _ => closing

theorem take_length_le {p : Pattern} (h : p.Exact) (s : List Char) :
    (p.take s).2.length ≤ s.length := by
  have := congrArg List.length (Pattern.take_append h s)
  simp only [List.length_append] at this
  omega

theorem upTo_length_le (p : Pattern) (s : List Char) : (p.upTo s).2.length ≤ s.length := by
  have := congrArg List.length (Pattern.upTo_append p s)
  simp only [List.length_append] at this
  omega

theorem body_length_le (closing sigil s : List Char) :
    (body closing sigil s).2.length ≤ s.length := by
  unfold body
  split
  · have h1 := upTo_length_le .equalSign s
    have h2 := take_length_le Pattern.equalSign_exact (Pattern.equalSign.upTo s).2
    have h3 := upTo_length_le (.closing closing) (Pattern.equalSign.take (Pattern.equalSign.upTo s).2).2
    exact Nat.le_trans h3 (Nat.le_trans h2 h1)
  · have h1 := upTo_length_le (.closing ('\x7d' :: closing)) s
    have h2 := take_length_le Pattern.closingBrace_exact
      ((Pattern.closing ('\x7d' :: closing)).upTo s).2
    have h3 := upTo_length_le (.closing closing)
      (Pattern.closingBrace.take ((Pattern.closing ('\x7d' :: closing)).upTo s).2).2
    exact Nat.le_trans h3 (Nat.le_trans h2 h1)
  · exact upTo_length_le _ s

/-- What follows a tag is shorter than what the tag was read from. -/
theorem read_closed_length {closing s sigil b rest : List Char}
    (h : read closing s = closed sigil b rest) : rest.length ≤ s.length := by
  simp only [read] at h
  split at h
  · cases h
  · next hd tl rest' ht =>
    cases h
    have h1 := take_length_le (Pattern.oneOf_exact TokenKind.isSigil) s
    have h2 := dropBlanks_length_le (sigilHere.take s).2
    have h3 := body_length_le closing (sigilHere.take s).1 (dropBlanks (sigilHere.take s).2)
    have h4 := take_length_le (Pattern.closing_exact closing)
      (body closing (sigilHere.take s).1 (dropBlanks (sigilHere.take s).2)).2
    rw [ht] at h4
    exact Nat.le_trans h4 (Nat.le_trans h3 (Nat.le_trans h2 h1))

end TagRead

namespace Lexeme

def token? : Lexeme → Option Token
  | token t => some t
  | problem _ => none

def problem? : Lexeme → Option Problem
  | token _ => none
  | problem p => some p

def span : Lexeme → Span
  | token t => t.span
  | problem p => p.span

def ofText (pos : Nat) (s : List Char) : List Lexeme := (Token.ofText pos s).map token

def ofTag (d : Delimiters) (span : Span) (sigil body : List Char) : Lexeme × Delimiters :=
  let value := trim body
  match TokenKind.ofSigil sigil with
  | .setDelimiters =>
    match Delimiters.parse? value with
    | some d' => (token ⟨.setDelimiters, d'.text, span⟩, d')
    | none => (problem (.invalidDelimiters (String.ofList value) span), d)
  | .comment => (token ⟨.comment, String.ofList value, span⟩, d)
  | kind =>
    if value.isEmpty then (problem (.emptyTag span), d)
    else (token ⟨kind, String.ofList value, span⟩, d)

def read (d : Delimiters) (pos : Nat) (s : List Char) : List Lexeme :=
  if s.isEmpty then []
  else
    let text := (Pattern.opening d.opening.toList).upTo s
    let at_ := pos + byteLength text.1
    let tag := (Pattern.opening d.opening.toList).take text.2
    if tag.1.isEmpty then ofText pos text.1
    else
      match _hread : TagRead.read d.closing.toList tag.2 with
      | .unclosed sigil rest =>
        let stop := pos + byteLength s - byteLength rest
        ofText pos text.1 ++
          problem (.unclosedTag (TagRead.expected d.closing sigil) (.ofBounds at_ stop)) ::
          ofText at_ text.2
      | .closed sigil body rest =>
        let stop := pos + byteLength s - byteLength rest
        let (lexeme, d') := ofTag d (.ofBounds at_ stop) sigil body
        ofText pos text.1 ++ lexeme :: read d' stop rest
termination_by s.length
decreasing_by
  have h1 := TagRead.read_closed_length _hread
  have h2 := congrArg List.length (Pattern.take_append (Pattern.opening_exact d.opening.toList)
    ((Pattern.opening d.opening.toList).upTo s).2)
  have h3 := TagRead.upTo_length_le (.opening d.opening.toList) s
  have h4 : 0 < tag.1.length := List.length_pos_iff.2 (by simpa using ‹¬tag.1.isEmpty = true›)
  simp only [List.length_append] at h2
  simp only [tag, text] at h1 h4
  omega

def tokens (ls : List Lexeme) : List Token := ls.filterMap token?

def problems (ls : List Lexeme) : List Problem := ls.filterMap problem?

end Lexeme

end Stencil
