/-!
# Entities

Escaping for HTML: eight characters are written as entities, and reading them
back decodes these eight and nothing else.
-/

set_option autoImplicit false

namespace Stencil.Text

def entities : List (Char × List Char) :=
  [('&', "&amp;".toList), ('<', "&lt;".toList), ('>', "&gt;".toList), ('"', "&quot;".toList),
    ('\'', "&#39;".toList), ('/', "&#x2F;".toList), ('`', "&#x60;".toList), ('=', "&#x3D;".toList)]

def entityOf (c : Char) : Option (List Char) := entities.lookup c

def escape : List Char → List Char
  | [] => []
  | c :: r => (entityOf c).getD [c] ++ escape r

def entityAt (s : List Char) : Option (Char × List Char) :=
  entities.find? fun e => e.2.isPrefixOf s

/-- `skip` counts the characters of an entity already decoded. -/
def unescapeFrom : (skip : Nat) → List Char → List Char
  | _, [] => []
  | skip + 1, _ :: r => unescapeFrom skip r
  | 0, c :: r =>
    match entityAt (c :: r) with
    | some (raw, entity) => raw :: unescapeFrom (entity.length - 1) r
    | none => c :: unescapeFrom 0 r

def unescape (s : List Char) : List Char := unescapeFrom 0 s

def escapeHtml (s : String) : String := String.ofList (escape s.toList)

def unescapeHtml (s : String) : String := String.ofList (unescape s.toList)

end Stencil.Text
