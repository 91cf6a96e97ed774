import Stencil.Files.IgnoreRules

/-!
# Walks

The files that paths name: a path to a file names it, and a path to a directory
names the files inside that are not left out. A file is left out with a directory
on the way to it.
-/

set_option autoImplicit false

namespace Stencil

structure WalkOptions where
  /-- Whether names that start with a dot are walked too. -/
  hidden : Bool := false
  /-- Whether ignore rules do not count. -/
  noIgnore : Bool := false
  /-- Rules that come first, for what is kept and not for what is left out. -/
  globs : List String := []
deriving DecidableEq, Repr

inductive WalkNotice
  | missingPath (path : String)
  | invalidGlob (glob : String) (e : Glob.Error)
deriving DecidableEq, Repr

namespace Walk

def globRules (globs : List String) : List IgnoreRule :=
  globs.filterMap fun g =>
    match IgnoreRule.ofLine false g.toList with
    | .ok r => r
    | .error _ => none

def globNotices (globs : List String) : List WalkNotice :=
  globs.filterMap fun g =>
    match IgnoreRule.ofLine false g.toList with
    | .ok _ => none
    | .error e => some (.invalidGlob g e)

/-- What globs say: the reverse of what they would say as ignore rules. If one of
them keeps files, all files that none fits are left out. -/
def globVerdict? (rules : List IgnoreRule) (path : List UInt8) (isDirectory : Bool) :
    Option Verdict :=
  match verdict? rules path isDirectory with
  | some .skip => some .keep
  | some .keep => some .skip
  | none =>
    if !isDirectory && rules.any fun r => r.verdict = .skip then some .skip else none

def isHidden (parts : List String) : Bool :=
  parts.getLast?.any fun name => name.toList.head? == some '.'

def above (parts : List String) : List (List String) :=
  (List.range parts.length).reverse.map parts.take

def leavesOut (rules : List DirectoryRules) (o : WalkOptions) (root parts : List String)
    (isDirectory : Bool) : Bool :=
  let chain := (above parts).filterMap fun d => rules.find? (·.directory == d)
  let byRules :=
    if o.noIgnore then none else DirectoryRules.chainVerdict? chain parts isDirectory
  match globVerdict? (globRules o.globs) (relativeBytes root parts) isDirectory <|> byRules with
  | some .skip => true
  | some .keep => false
  | none => !o.hidden && isHidden parts

def reaches (rules : List DirectoryRules) (o : WalkOptions) (root parts : List String) : Bool :=
  !leavesOut rules o root parts false &&
    (above parts).all fun d => d.length ≤ root.length || !leavesOut rules o root d true

def ofPath (t : FileTree) (base : List String) (accepted : Path → Bool) (o : WalkOptions)
    (path : String) : List (List String) × List WalkNotice :=
  match t.locate base path with
  | .error _ => ([], [.missingPath path])
  | .ok parts =>
    match t.entry? parts with
    | some (.file _) => (if accepted (Path.ofString path) then [parts] else [], [])
    | some .directory =>
      let rules := DirectoryRules.all t
      ((t.filesIn parts).filter fun f => accepted ⟨true, f⟩ && reaches rules o parts f,
        globNotices o.globs)
    | none => ([], [.missingPath path])

def sorted (files : List (List String)) : List (List String) :=
  (files.mergeSort fun a b => !decide (b < a)).eraseReps

def files (t : FileTree) (base : List String) (accepted : Path → Bool) (o : WalkOptions)
    (paths : List String) : List (List String) × List WalkNotice :=
  let found := paths.map (ofPath t base accepted o)
  (sorted (found.flatMap Prod.fst), found.flatMap Prod.snd)

end Walk

end Stencil
