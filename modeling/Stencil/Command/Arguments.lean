import Stencil.Text.Blank

/-!
# Arguments

What the command line asks for. Flags stand before or behind operands; behind two
dashes there are operands only. A flag that may be given once is not given twice.
-/

set_option autoImplicit false

namespace Stencil

structure RenderArguments where
  template : String
  data : Option String := none
  partials : Option String := none
  tags : Option String := none
  wrap : Bool := false
deriving DecidableEq, Repr

structure CheckArguments where
  paths : List String := []
  select : List String := []
  ignore : List String := []
  hidden : Bool := false
  noIgnore : Bool := false
  globs : List String := []
deriving DecidableEq, Repr

inductive Command
  | render (a : RenderArguments)
  | check (a : CheckArguments)
deriving DecidableEq, Repr

structure Invocation where
  quiet : Bool := false
  verbose : Nat := 0
  command : Command
deriving DecidableEq, Repr

inductive Stop
  | help
  | version
  | misuse
deriving DecidableEq, Repr

namespace Arguments

inductive Flag
  | quiet
  | verbose
  | help
  | version
  | data
  | partials
  | tags
  | wrap
  | select
  | ignore
  | hidden
  | noIgnore
  | glob
deriving DecidableEq, Repr

namespace Flag

def long : Flag → String
  | quiet => "quiet"
  | verbose => "verbose"
  | help => "help"
  | version => "version"
  | data => "data"
  | partials => "partials"
  | tags => "tags"
  | wrap => "wrap"
  | select => "select"
  | ignore => "ignore"
  | hidden => "hidden"
  | noIgnore => "no-ignore"
  | glob => "glob"

def short? : Flag → Option Char
  | quiet => some 'q'
  | verbose => some 'v'
  | help => some 'h'
  | version => some 'V'
  | data => some 'd'
  | partials => some 'p'
  | glob => some 'g'
  | _ => none

def takesValue : Flag → Bool
  | data | partials | tags | select | ignore | glob => true
  | _ => false

def repeats : Flag → Bool
  | verbose | select | ignore | glob => true
  | _ => false

end Flag

def generalFlags : List Flag := [.quiet, .verbose, .help, .version]

def renderFlags : List Flag := [.quiet, .verbose, .help, .data, .partials, .tags, .wrap]

def checkFlags : List Flag :=
  [.quiet, .verbose, .help, .select, .ignore, .hidden, .noIgnore, .glob]

structure Given where
  flags : List (Flag × String) := []
  operands : List String := []

namespace Given

def count (g : Given) (f : Flag) : Nat := (g.flags.filter (·.1 = f)).length

def has (g : Given) (f : Flag) : Bool := g.flags.any (·.1 = f)

def values (g : Given) (f : Flag) : List String := (g.flags.filter (·.1 = f)).map Prod.snd

def value? (g : Given) (f : Flag) : Option String := (g.values f).head?

def parts (g : Given) (f : Flag) : List String :=
  (g.values f).flatMap fun v => (Text.cutAt (· == ',') v.toList).map String.ofList

def add (g : Given) (f : Flag) (value : String) : Except Stop Given :=
  match f with
  | .help => .error .help
  | .version => .error .version
  | f =>
    if !f.repeats && g.has f then .error .misuse
    else .ok { g with flags := g.flags ++ [(f, value)] }

def addOperand (g : Given) (most : Option Nat) (a : String) : Except Stop Given :=
  if most.any (· ≤ g.operands.length) then .error .misuse
  else .ok { g with operands := g.operands ++ [a] }

end Given

def looksLikeFlag (a : String) : Bool := a.toList.head? == some '-' && a != "-"

/-- Reads the letters of short flags, of which one with a value takes all that is left;
also the flag that still wants its value. -/
def readLetters (known : List Flag) : List Char → Given → Except Stop (Given × Option Flag)
  | [], g => .ok (g, none)
  | c :: r, g =>
    match known.find? (·.short? == some c) with
    | none => .error .misuse
    | some f =>
      if f.takesValue then
        match r with
        | [] => .ok (g, some f)
        | '=' :: v => (g.add f (String.ofList v)).map (·, none)
        | v => (g.add f (String.ofList v)).map (·, none)
      else (g.add f "").bind (readLetters known r)

def readLong (known : List Flag) (s : List Char) (g : Given) :
    Except Stop (Given × Option Flag) :=
  let name := s.takeWhile (· != '=')
  match known.find? (·.long.toList == name), s.dropWhile (· != '=') with
  | none, _ => .error .misuse
  | some f, _ :: v =>
    if f.takesValue then (g.add f (String.ofList v)).map (·, none) else .error .misuse
  | some f, [] => if f.takesValue then .ok (g, some f) else (g.add f "").map (·, none)

def readFlag (known : List Flag) (a : String) (g : Given) :
    Except Stop (Given × Option Flag) :=
  match a.toList with
  | '-' :: '-' :: s => readLong known s g
  | _ :: s => readLetters known s g
  | [] => .error .misuse

/-- Reads the arguments of a command; `wanting` is a flag that wants its value. -/
def readAll (known : List Flag) (most : Option Nat) :
    (wanting : Option Flag) → List String → Given → Except Stop Given
  | some _, [], _ => .error .misuse
  | some f, a :: rest, g =>
    if looksLikeFlag a then .error .misuse
    else (g.add f a).bind (readAll known most none rest)
  | none, [], g => .ok g
  | none, a :: rest, g =>
    if a = "--" then rest.foldlM (Given.addOperand · most) g
    else if looksLikeFlag a then
      (readFlag known a g).bind fun (g, wanting) => readAll known most wanting rest g
    else (g.addOperand most a).bind (readAll known most none rest)

def readGeneral : List String → Given → Except Stop (Given × String × List String)
  | [], _ => .error .misuse
  | a :: rest, g =>
    if looksLikeFlag a then
      if a = "--" then .error .misuse
      else (readFlag generalFlags a g).bind fun (g, _) => readGeneral rest g
    else .ok (g, a, rest)

/-- Silence and talk exclude each other. -/
def settled (g : Given) : Except Stop Given :=
  if g.has .quiet && g.has .verbose then .error .misuse else .ok g

def readRender (args : List String) : Except Stop (Given × Command) := do
  let g ← readAll renderFlags (some 1) none args {}
  match g.operands with
  | [] => throw .misuse
  | template :: _ =>
    let g ← settled g
    return (g, .render ⟨template, g.value? .data, g.value? .partials, g.value? .tags, g.has .wrap⟩)

def readCheck (args : List String) : Except Stop (Given × Command) := do
  let g ← settled (← readAll checkFlags none none args {})
  return (g, .check ⟨g.operands, g.parts .select, g.parts .ignore, g.has .hidden,
    g.has .noIgnore, g.values .glob⟩)

def commandNames : List String := ["render", "check", "help"]

def readCommand (name : String) (args : List String) : Except Stop (Given × Command) :=
  match name, args with
  | "render", args => readRender args
  | "check", args => readCheck args
  | "help", [] => .error .help
  | "help", [topic] => .error (if commandNames.contains topic then .help else .misuse)
  | _, _ => .error .misuse

/-- Reads a command line. How much a command is to say may be given before its name
and behind; what is given behind counts. -/
def read (args : List String) : Except Stop Invocation := do
  let (general, name, rest) ← readGeneral args {}
  let (own, command) ← readCommand name rest
  let general ← settled general
  return {
    quiet := general.has .quiet || own.has .quiet
    verbose := if own.has .verbose then own.count .verbose else general.count .verbose
    command }

end Arguments

end Stencil
