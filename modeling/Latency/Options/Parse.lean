import Latency.Decimal.Reading
import Latency.Options.Basic
import Latency.Text.Numeral
/-!
# The command line

Arguments are names of benchmarks or options. Long options may be shortened as long as only one is
meant, and take a value behind `=` or as the next argument. Short ones may be run together, the last
one with its value. The names of benchmarks have to stand in one place; behind `--` everything is
such a name.
-/

namespace Latency

inductive Flag where
  | help
  | config
  | iterations
  | warmup
  | timeout
  | indexTimeout
  | output
  | trace
  | verbose
  | init
  | verify
deriving Repr, DecidableEq

namespace Flag

def shortNames : List (Char × Flag) :=
  [('h', .help), ('c', .config), ('n', .iterations), ('w', .warmup), ('t', .timeout),
   ('o', .output), ('v', .verbose)]

def longNames : List (String × Flag) :=
  [("help", .help), ("config", .config), ("iterations", .iterations), ("warmup", .warmup),
   ("timeout", .timeout), ("index-timeout", .indexTimeout), ("output", .output), ("trace", .trace),
   ("verbose", .verbose), ("init", .init), ("verify", .verify)]

def takesValue : Flag → Bool
  | .config | .iterations | .warmup | .timeout | .indexTimeout | .output => true
  | .help | .trace | .verbose | .init | .verify => false

end Flag

inductive Argument where
  | word (s : String)
  /-- The sign behind which there are only words. -/
  | stop
  /-- A short option, with what stands behind its letter. -/
  | short (flag : Flag) (attached : List Char)
  | shortEquals (flag : Flag) (value : String)
  | long (flag : Flag) (value : Option String)
  | unknown

inductive Exit where
  | usage
  | help
deriving Repr, DecidableEq

def Exit.code : Exit → Int
  | .usage => 2
  | .help => 0

namespace Argument

def isUnsigned (cs : List Char) : Bool :=
  let isDigit (c : Char) : Bool := (Text.digitValue? c).isSome
  let rest := cs.dropWhile isDigit
  match rest with
  | [] => !cs.isEmpty
  | '.' :: tail => !tail.isEmpty && tail.all isDigit
  | _ => false

def dropLineEnd (cs : List Char) : List Char :=
  if cs.getLast? = some '\n' then cs.dropLast else cs

/-- What no option fits: negative numbers and texts with a space are words. -/
def unmatched (s : String) (behindDash : List Char) : Argument :=
  if isUnsigned (dropLineEnd behindDash) || behindDash.contains ' ' then .word s else .unknown

def cutEquals (cs : List Char) : List Char × Option String :=
  match cs.dropWhile (· != '=') with
  | [] => (cs, none)
  | _ :: rest => (cs.takeWhile (· != '='), some (String.ofList rest))

/-- A long option behind its dashes; `none` if more than one may be meant. -/
def ofLong (s : String) (cs : List Char) : Option Argument :=
  match Flag.longNames.lookup (String.ofList cs) with
  | some flag => some (.long flag none)
  | none =>
    let (name, value) := cutEquals cs
    match Flag.longNames.lookup (String.ofList name) with
    | some flag => some (.long flag value)
    | none =>
      match Flag.longNames.filter fun n => name.isPrefixOf n.1.toList with
      | [] => some (unmatched s ('-' :: cs))
      | [(_, flag)] => some (.long flag value)
      | _ => none

/-- The form of an argument; `none` if more than one option may be meant. -/
def classify (s : String) : Option Argument :=
  match s.toList with
  | ['-', '-'] => some .stop
  | '-' :: '-' :: cs => ofLong s cs
  | '-' :: c :: cs =>
    match Flag.shortNames.lookup c, cs with
    | some flag, '=' :: value => some (.shortEquals flag (String.ofList value))
    | some flag, cs => some (.short flag cs)
    | none, cs => some (unmatched s (c :: cs))
  | _ => some (.word s)

def classifyAll : List String → Option (List Argument)
  | [] => some []
  | s :: rest =>
    match classify s with
    | none => none
    | some .stop => some (.stop :: rest.map .word)
    | some a => (classifyAll rest).map (a :: ·)

end Argument

namespace Options

/-- The value that a text gives to an option; the sign `--` gives none. -/
def given {α : Type} (read : String → Option α) (text : String) : Except Exit (Given α) :=
  if text = "--" then .ok .void
  else
    match read text with
    | some a => .ok (.value a)
    | none => .error .usage

def setValue (o : Options) (flag : Flag) (text : String) : Except Exit Options :=
  let path (s : String) : Option Path := some (Path.ofString s)
  let double (s : String) : Option Float := Decimal.floatOfText? s.toList
  match flag with
  | .config => (given path text).map fun g => { o with config := (g.map some).getD none }
  | .output => (given path text).map fun g => { o with output := g }
  | .iterations => (given Text.intOfText? text).map fun g => { o with iterations := g }
  | .warmup => (given Text.intOfText? text).map fun g => { o with warmup := g }
  | .timeout => (given double text).map fun g => { o with timeout := g }
  | .indexTimeout => (given double text).map fun g => { o with indexTimeout := g }
  | _ => .error .usage

def setSwitch (o : Options) : Flag → Except Exit Options
  | .help => .error .help
  | .trace => .ok { o with trace := true }
  | .verbose => .ok { o with verbose := true }
  | .init => .ok { o with init := true }
  | .verify => .ok { o with verify := true }
  | _ => .error .usage

/-- Short options run together: the switches, and the last option with what is left for
its value. -/
def cluster (flag : Flag) : List Char → Option (List Flag × Flag × Option String)
  | [] => some ([], flag, none)
  | c :: rest =>
    if flag.takesValue then some ([], flag, some (String.ofList (c :: rest)))
    else
      match Flag.shortNames.lookup c with
      | none => none
      | some next => (cluster next rest).map fun r => (flag :: r.1, r.2)

structure Progress where
  options : Options := {}
  /-- Whether the names of benchmarks have been found. -/
  named : Bool := false
  /-- Whether there were arguments that nothing is done with. -/
  extra : Bool := false

/-- Sets switches one after the other, and then an option: with its value, or with the argument
behind it if it takes one and has none. The result has the arguments that are left. -/
def setAll (p : Progress) (switches : List Flag) (flag : Flag) (value : Option String)
    (rest : List Argument) : Except Exit (Progress × List Argument) := do
  let value? ←
    match flag.takesValue, value, rest with
    | true, some v, _ => pure (some (v, rest))
    | true, none, .word v :: rest => pure (some (v, rest))
    | true, none, _ => throw .usage
    | false, some _, _ => throw .usage
    | false, none, _ => pure none
  let o ← switches.foldlM setSwitch p.options
  match value? with
  | some (v, rest) => return ({ p with options := ← o.setValue flag v }, rest)
  | none => return ({ p with options := ← o.setSwitch flag }, rest)

def isName : Argument → Bool
  | .word _ => true
  | .stop => true
  | _ => false

/-- The names in a run of words; the first sign among them is left out. -/
def namesOf : List Argument → List String
  | [] => []
  | .word s :: rest => s :: namesOf rest
  | .stop :: rest => rest.filterMap fun
      | .word s => some s
      | _ => none
  | _ :: rest => namesOf rest

/-- Takes a run of words as the names of benchmarks, once. -/
def takeNames (p : Progress) (names : List Argument) : Progress :=
  if p.named then { p with extra := true }
  else { p with named := true, options := { p.options with benchmarks := namesOf names } }

def consume : Nat → Progress → List Argument → Except Exit Progress
  | 0, p, _ => .ok p
  | _ + 1, p, [] => .ok p
  | fuel + 1, p, a :: rest =>
    match a with
    | .unknown => consume fuel { p with extra := true } rest
    | .long flag value => do
      let (p, rest) ← setAll p [] flag value rest
      consume fuel p rest
    | .shortEquals flag value => do
      let (switches, last, value) ←
        if flag.takesValue then pure ([], flag, some value)
        else if value = "" then throw .usage
        else
          match cluster flag value.toList with
          | some r => pure r
          | none => throw .usage
      let (p, rest) ← setAll p switches last value rest
      consume fuel p rest
    | .short flag attached => do
      match cluster flag attached with
      | none => throw .usage
      | some (switches, last, value) =>
        let (p, rest) ← setAll p switches last value rest
        consume fuel p rest
    | _ => consume fuel (takeNames p ((a :: rest).takeWhile isName)) (rest.dropWhile isName)

def parse (argv : List String) : Except Exit Options :=
  match Argument.classifyAll argv with
  | none => .error .usage
  | some arguments => do
    let p ← consume (arguments.length + 1) {} arguments
    if p.extra then throw .usage else return p.options

end Options

end Latency
