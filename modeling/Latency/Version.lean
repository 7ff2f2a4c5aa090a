import Latency.Host
import Latency.Json.Parser
import Latency.Value.Text
/-!
# Versions of servers

A server is asked for its version; if it does not answer, the package it was installed with is
looked for above its executable.
-/

namespace Latency

inductive VersionError where
  /-- A package file holds a value that is no object. -/
  | packageNotObject
  /-- The output of a helper is no text. -/
  | undecodable
  | file (why : FileError)
deriving Repr, DecidableEq

/-- The version that a package file gives: nothing if it is not readable, not a document, or without
a version. -/
def packageVersion (files : Files) (binary directory : Path) :
    Except VersionError (Option String) :=
  match files.read (directory.child "package.json") with
  | .error .nameTooLong => .error (.file .nameTooLong)
  | .error _ => .ok none
  | .ok octets =>
    match (Text.decodeUtf8? octets).bind fun text => Json.parse? (Text.unifyNewlines text) with
    | none => .ok none
    | some (.obj members) =>
      match members.lookup "version" with
      | some (.str version) =>
        let name := (members.lookup "name").getD .null
        let shown := if name.truthy then name.display else binary.name
        .ok (some (shown ++ " " ++ version))
      | _ => .ok none
    | some _ => .error .packageNotObject

def Path.ancestors (p : Path) : List Path :=
  (List.range p.parts.length).map fun i => ⟨p.anchor, p.parts.take (p.parts.length - 1 - i)⟩

/-- How many directories above an executable are searched for its package. -/
def packageReach : Nat := 10

def firstVersion (files : Files) (binary : Path) :
    List Path → Except VersionError (Option String)
  | [] => .ok none
  | directory :: rest => do
    match ← packageVersion files binary directory with
    | some version => return some version
    | none => firstVersion files binary rest

namespace Host

variable {τ : Type}

/-- Runs a helper that is given a program; a NUL in its name keeps the helper from being run. -/
def consult (helpers : List (String × HelperRun)) (program : String) : Except VersionError Probe :=
  if Text.holdsNul program then .error (.file .badPath)
  else
    match helpers.lookup program with
    | none => .ok .notRun
    | some (.told p) => .ok p
    | some .undecodable => .error .undecodable

def find? (h : Host τ) (cmd : String) : Except VersionError (Option String) :=
  (consult h.lookups cmd).map Probe.location?

/-- Whether a command can be started: a path has to be there, a name has to be found. -/
def isAvailable (h : Host τ) (cmd : String) : Except VersionError Bool := do
  let program := Path.ofString (← (h.files.executable cmd).mapError .file)
  if program.isAbsolute then (h.files.contains program).mapError .file
  else return (← h.find? cmd).isSome

def shownVersion? (h : Host τ) (program : String) : Except VersionError (Option String) :=
  (consult h.versions program).map Probe.shownLine?

def packagedVersion (h : Host τ) (located : String) : Except VersionError (Option String) := do
  let binary ← (h.files.resolve (Path.ofString located)).mapError .file
  firstVersion h.files binary (binary.ancestors.take packageReach)

/-- Where the executable of a command is looked for: a path is where it leads, a name has to be
found. -/
def locate (h : Host τ) (cmd program : String) : Except VersionError (Option String) :=
  if (Path.ofString program).isAbsolute then .ok (some program) else h.find? cmd

def versionOf (h : Host τ) (cmd : String) : Except VersionError String := do
  let program ← (h.files.executable cmd).mapError .file
  match ← h.shownVersion? program with
  | some line => return line
  | none =>
    match ← h.locate cmd program with
    | none => return "unknown"
    | some place => return (← h.packagedVersion place).getD "unknown"

end Host

end Latency
