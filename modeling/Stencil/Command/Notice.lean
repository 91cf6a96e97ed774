import Stencil.Files.Walk
import Stencil.Template.Problem
import Stencil.Text.Quoted

/-!
# Notices

What a command has to say beside its output. A notice is one line: the level, a
message, and the fields that belong to it.
-/

set_option autoImplicit false

namespace Stencil

inductive Notice
  | walk (n : WalkNotice)
  | unreadableTemplate (path : String) (e : FileError)
  | unreadablePartial (path : String) (e : FileError)
  | problem (template : String) (p : Problem)
  | partialTooDeep (name : String) (limit : Nat)
deriving DecidableEq, Repr

namespace Notice

def escaped (c : Char) : List Char :=
  let n := c.toNat
  if n = 0x07 ∨ n = 0x08 ∨ n = 0x0C ∨ n = 0x1B ∨ n = 0x7F then ['\\', 'x'] ++ Text.hex 2 n
  else if 0x80 ≤ n ∧ n ≤ 0x9F then "\\u\x7b".toList ++ Text.hex 1 n ++ ['\x7d']
  else [c]

def quoted (s : String) : String := String.ofList (Text.inspectQuoted s.toList)

def message : Notice → String
  | walk (.missingPath _) => "path does not exist, skipping"
  | walk (.invalidGlob ..) => "invalid glob, ignoring"
  | unreadableTemplate .. => "could not read template, skipping"
  | unreadablePartial .. => "could not read partial"
  | problem _ p => p.message
  | partialTooDeep .. => "partial nesting too deep, skipping"

def fields : Notice → List (String × String)
  | walk (.missingPath path) => [("path", path)]
  | walk (.invalidGlob glob e) =>
    [("glob", quoted glob), ("error", "error parsing glob '" ++ glob ++ "': " ++ e.message)]
  | unreadableTemplate path e | unreadablePartial path e => [("path", path), ("error", e.message)]
  | problem template p =>
    [("template", template), ("code", quoted p.code), ("offset", toString p.span.start.toNat)]
  | partialTooDeep name limit => [("partial", quoted name), ("max_depth", toString limit)]

def line (n : Notice) : String :=
  " WARN " ++ String.ofList (n.message.toList.flatMap escaped) ++
    String.join (n.fields.map fun f => " " ++ f.1 ++ "=" ++ f.2) ++ "\n"

end Notice

end Stencil
