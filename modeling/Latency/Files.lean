import Latency.Path
import Latency.Text.Blank
/-!
# Files

A tree of files and directories as a list of absolute paths. Looking a path up goes through its
components one by one, so that `..` behind a name that does not exist is an error. A question
whether something is there fails only if the path or one of its names is too long to be looked up.
The tree has no links and no permissions: every path has one meaning, and what is there can be
read, written and removed.
-/

namespace Latency

inductive Entry where
  | file (octets : List UInt8)
  | directory

inductive FileError where
  | missing
  | isDirectory
  | notDirectory
  | alreadyExists
  | nameTooLong
  | badPath
deriving Repr, DecidableEq

def FileError.reason : FileError → String
  | .missing => "No such file or directory"
  | .isDirectory => "Is a directory"
  | .notDirectory => "Not a directory"
  | .alreadyExists => "File exists"
  | .nameTooLong => "File name too long"
  | .badPath => "embedded null byte"

structure Files where
  base : Path
  entries : List (List String × Entry)

namespace Files

/-- The entry under absolute components; the root is a directory. -/
def get? (fs : Files) (parts : List String) : Option Entry :=
  if parts = [] then some .directory else fs.entries.lookup parts

def longestName : Nat := 255

def longestPath : Nat := 4095

/-- Goes through components from a place that is given innermost first. -/
def walk (fs : Files) (place : List String) : List String → Except FileError (List String)
  | [] => .ok place
  | part :: rest =>
    match fs.get? place.reverse with
    | none => .error .missing
    | some (.file _) => .error .notDirectory
    | some .directory =>
      if part = ".." then walk fs place.tail rest
      else if longestName < part.utf8ByteSize then .error .nameTooLong
      else if (fs.get? (part :: place).reverse).isSome ∨ rest = [] then walk fs (part :: place) rest
      else .error .missing

def holdsNul (p : Path) : Bool :=
  p.parts.any Text.holdsNul

/-- The absolute components that a path leads to; only the last may be missing. -/
def locate (fs : Files) (p : Path) : Except FileError (List String) :=
  let absolute := fs.base.join p
  if holdsNul absolute then .error .badPath
  else if longestPath < p.text.utf8ByteSize then .error .nameTooLong
  else (fs.walk [] absolute.parts).map List.reverse

def entry? (fs : Files) (p : Path) : Except FileError Entry :=
  match fs.locate p with
  | .error e => .error e
  | .ok parts =>
    match fs.get? parts with
    | some e => .ok e
    | none => .error .missing

def asks (test : Entry → Bool) (fs : Files) (p : Path) : Except FileError Bool :=
  match fs.entry? p with
  | .ok e => .ok (test e)
  | .error .nameTooLong => .error .nameTooLong
  | .error _ => .ok false

def contains (fs : Files) (p : Path) : Except FileError Bool :=
  fs.asks (fun _ => true) p

def isDirectory (fs : Files) (p : Path) : Except FileError Bool :=
  fs.asks (fun
    | .directory => true
    | .file _ => false) p

def isFile (fs : Files) (p : Path) : Except FileError Bool :=
  fs.asks (fun
    | .directory => false
    | .file _ => true) p

def read (fs : Files) (p : Path) : Except FileError (List UInt8) :=
  match fs.entry? p with
  | .error e => .error e
  | .ok .directory => .error .isDirectory
  | .ok (.file octets) => .ok octets

/-- The text of a file, whatever its octets, with its ends of line unified. -/
def readText (fs : Files) (p : Path) : Except FileError String :=
  (fs.read p).map fun octets => String.ofList (Text.unifyNewlines (Text.decodeUtf8 octets))

def put (parts : List String) (e : Entry) (fs : Files) : Files :=
  { fs with entries := fs.entries.filter (fun x => x.1 != parts) ++ [(parts, e)] }

def write (p : Path) (octets : List UInt8) (fs : Files) : Except FileError Files :=
  match fs.locate p with
  | .error e => .error e
  | .ok parts =>
    match fs.get? parts with
    | some .directory => .error .isDirectory
    | _ => .ok (fs.put parts (.file octets))

def makeDirectory (p : Path) (fs : Files) : Except FileError Files :=
  match fs.locate p with
  | .error e => .error e
  | .ok parts =>
    match fs.get? parts with
    | some _ => .error .alreadyExists
    | none => .ok (fs.put parts .directory)

/-- The tree as it is if a directory stands under the path that could not be made, else
the error. -/
def orDirectory (e : FileError) (p : Path) (fs : Files) : Except FileError Files :=
  match fs.isDirectory p with
  | .ok true => .ok fs
  | .ok false => .error e
  | .error why => .error why

/-- Makes a directory and those above it, given the components innermost first; one that is there
already is left alone. -/
def makeDirectoriesIn (anchor : String) (fs : Files) : List String → Except FileError Files
  | [] => fs.orDirectory .missing ⟨anchor, []⟩
  | part :: above =>
    let p : Path := ⟨anchor, (part :: above).reverse⟩
    match fs.makeDirectory p with
    | .ok made => .ok made
    | .error .missing =>
      match makeDirectoriesIn anchor fs above with
      | .error e => .error e
      | .ok below =>
        match below.makeDirectory p with
        | .ok made => .ok made
        | .error e => below.orDirectory e p
    | .error e => fs.orDirectory e p

def makeDirectories (p : Path) (fs : Files) : Except FileError Files :=
  makeDirectoriesIn p.anchor fs p.parts.reverse

/-- Removes a directory with all that is in it; nothing happens if there is none. No entry resists,
so it cannot fail. -/
def removeTree (p : Path) (fs : Files) : Files :=
  match fs.locate p with
  | .error _ => fs
  | .ok parts =>
    match fs.get? parts with
    | some .directory => { fs with entries := fs.entries.filter fun x => !parts.isPrefixOf x.1 }
    | _ => fs

def putAbove (parts : List String) (fs : Files) : Files :=
  ((List.range parts.length).map parts.take).foldl (fun acc above =>
    if (acc.get? above).isSome then acc else acc.put above .directory) fs

def empty (base : Path) : Files :=
  (putAbove base.parts ⟨base, []⟩).put base.parts .directory

def add (p : Path) (e : Entry) (fs : Files) : Files :=
  let parts := Path.collapse [] (fs.base.join p).parts
  (fs.putAbove parts).put parts e

def resolve (fs : Files) (p : Path) : Except FileError Path :=
  if holdsNul (fs.base.join p) then .error .badPath else .ok (Path.resolve fs.base p)

/-- The executable that a command names: a relative path with a slash is made absolute, a bare name
is left to be looked up. -/
def executable (fs : Files) (cmd : String) : Except FileError String :=
  match cmd.toList with
  | '/' :: _ => .ok cmd
  | cs => if cs.contains '/' then (fs.resolve (Path.ofString cmd)).map Path.text else .ok cmd

end Files

end Latency
