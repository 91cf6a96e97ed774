import Stencil.Files.FileTree
import Stencil.Files.Glob
import Stencil.Text.Blank

/-!
# Ignore rules

Which files and directories a walk leaves out. Each directory may have files of
rules, one rule a line; of the rules of a file the last that fits counts, and
those of a nearer directory count before those of one further up. Rules for the
repository count only inside one and not beyond its top.
-/

set_option autoImplicit false

namespace Stencil

inductive Verdict
  | skip
  | keep
deriving DecidableEq, Repr

structure IgnoreRule where
  glob : Glob
  verdict : Verdict
  onlyDirectories : Bool
deriving DecidableEq, Repr

namespace IgnoreRule

def stripped (s : List Char) : List Char :=
  if ['\\', ' '].isSuffixOf s then s else (Text.dropBlanks s.reverse).reverse

/-- The glob that a rule without its marks stands for. One without a slash fits in
every directory, and one for all that is in a directory does not fit the directory. -/
def globText (anchored : Bool) (s : List Char) : List Char :=
  let deep := ['*', '*', '/'].isPrefixOf s || s = ['*', '*']
  let s := if anchored || s.contains '/' || deep then s else ['*', '*', '/'] ++ s
  if ['/', '*', '*'].isSuffixOf s then s ++ ['/', '*'] else s

def ofLine (loose : Bool) (line : List Char) : Except Glob.Error (Option IgnoreRule) :=
  let s := stripped line
  if s.isEmpty || line.head? = some '#' then .ok none
  else
    let (verdict, anchored, s) :=
      match s with
      | '\\' :: '!' :: r => (Verdict.skip, false, '!' :: r)
      | '\\' :: '#' :: r => (.skip, false, '#' :: r)
      | '!' :: '/' :: r => (.keep, true, r)
      | '!' :: r => (.keep, false, r)
      | '/' :: r => (.skip, true, r)
      | s => (.skip, false, s)
    let onlyDirectories := s.getLast? = some '/'
    let s := if onlyDirectories then s.dropLast else s
    let s := if onlyDirectories && s.getLast? = some '\\' then s.dropLast else s
    match Glob.read loose (globText anchored s) with
    | .ok g => .ok (some ⟨g, verdict, onlyDirectories⟩)
    | .error e => .error e

def ofText (text : String) : List IgnoreRule :=
  let cs := text.toList
  let cs := if cs.head? = some '\ufeff' then cs.drop 1 else cs
  (Text.cutAt (· == '\n') cs).filterMap fun l =>
    match ofLine true l with
    | .ok r => r
    | .error _ => none

def fits (r : IgnoreRule) (path : List UInt8) (isDirectory : Bool) : Bool :=
  (isDirectory || !r.onlyDirectories) && r.glob.accepts path

end IgnoreRule

def relativeBytes (directory parts : List String) : List UInt8 :=
  ("/".intercalate (parts.drop directory.length)).toList.flatMap String.utf8EncodeChar

def verdict? (rules : List IgnoreRule) (path : List UInt8) (isDirectory : Bool) :
    Option Verdict :=
  ((rules.filter fun r => r.fits path isDirectory).getLast?).map (·.verdict)

/-! ## Rules of directories -/

structure DirectoryRules where
  directory : List String
  always : List IgnoreRule
  repository : List IgnoreRule
  exclusions : List IgnoreRule
  /-- Whether the directory is the top of a repository. -/
  top : Bool

namespace DirectoryRules

def rulesAt (t : FileTree) (parts : List String) : List IgnoreRule :=
  ((t.text? parts).map IgnoreRule.ofText).getD []

def ofDirectory (t : FileTree) (directory : List String) : DirectoryRules where
  directory := directory
  always := rulesAt t (directory ++ [".ignore"])
  repository := rulesAt t (directory ++ [".gitignore"])
  exclusions := rulesAt t (directory ++ [".git", "info", "exclude"])
  top := t.has (directory ++ [".git"]) || t.has (directory ++ [".jj"])

def makers : List String := [".ignore", ".gitignore", ".git", ".jj"]

def directoriesOn (parts : List String) : List (List String) :=
  ((List.range parts.length).filter fun i => parts[i]?.any makers.contains).map parts.take

def all (t : FileTree) : List DirectoryRules :=
  (t.flatMap fun e => directoriesOn e.1).eraseDups.map (ofDirectory t)

def verdictFrom (d : DirectoryRules) (rules : DirectoryRules → List IgnoreRule) (parts : List String)
    (isDirectory : Bool) : Option Verdict :=
  verdict? (rules d) (relativeBytes d.directory parts) isDirectory

def insideRepository (chain : List DirectoryRules) : List DirectoryRules :=
  match chain.span fun d => !d.top with
  | (below, top :: _) => below ++ [top]
  | (_, []) => []

def chainVerdict? (chain : List DirectoryRules) (parts : List String) (isDirectory : Bool) :
    Option Verdict :=
  let repository := insideRepository chain
  (chain.findSome? fun d => d.verdictFrom always parts isDirectory) <|>
    (repository.findSome? fun d => d.verdictFrom DirectoryRules.repository parts isDirectory) <|>
    (repository.findSome? fun d => d.verdictFrom exclusions parts isDirectory)

end DirectoryRules

end Stencil
