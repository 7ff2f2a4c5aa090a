import Latency.Params
import Latency.Path
import Latency.Row
/-!
# Checking answers

An answer is compared with the location that is expected of it, and a tally keeps how many
comparisons came out well, how many did not, and for how many rows nothing was expected.
-/

namespace Latency

def locationPart (answer : Json) : Json :=
  match answer.get? "result" with
  | some v => v
  | none => (answer.get? "params").getD answer

/-- The first of two members that counts as present, else the second. -/
def firstPresent (location : Json) (a b : String) : Json :=
  match location.get? a with
  | some v => if v.truthy then v else (location.get? b).getD .null
  | none => (location.get? b).getD .null

def locationUri (location : Json) : String :=
  match firstPresent location "targetUri" "uri" with
  | .str s => s
  | _ => ""

/-- The first line of a location, if it is an integer; truth values count as 0 and 1. -/
def locationLine? (location : Json) : Option Json :=
  match (firstPresent location "targetRange" "range").get? "start" with
  | some start =>
    match start.get? "line" with
    | some (.num (.int n)) => some (.int n)
    | some (.bool b) => some (.bool b)
    | _ => none
  | none => none

def afterLastSlash (s : String) : String :=
  String.ofList (s.toList.reverse.takeWhile (· != '/')).reverse

inductive Mismatch where
  | emptyArray
  | nothing
  | file (expected got : String)
  | noRange (expected : Int)
  | line (expected : Int) (got : Json)

def Mismatch.text : Mismatch → String
  | .emptyArray => "response is empty array"
  | .nothing => "response is null"
  | .file expected got => "file: expected \"" ++ expected ++ "\" but got \"" ++ got ++ "\""
  | .noRange expected => "line: expected " ++ toString expected ++ " but response has no range"
  | .line expected got => "line: expected " ++ toString expected ++ " but got " ++ got.display

def checkFile (location : Json) : Option String → Option Mismatch
  | none => none
  | some file =>
    let uri := locationUri location
    if file.toList.isSuffixOf uri.toList then none else some (.file file (afterLastSlash uri))

def checkLine (location : Json) : Option Int → Option Mismatch
  | none => none
  | some line =>
    match locationLine? location with
    | none => some (.noRange line)
    | some got => if got.equalsInt line then none else some (.line line got)

/-- Compares an answer, or the first one of several, with an expectation. -/
def checkExpectation (answer : Json) (expect : Expectation) : Option Mismatch :=
  let check (location : Json) : Option Mismatch :=
    (checkFile location expect.file).orElse fun _ => checkLine location expect.line
  match locationPart answer with
  | .arr [] => some .emptyArray
  | .arr (first :: _) => check first
  | .null => some .nothing
  | location => check location

structure Tally where
  passed : Nat := 0
  failed : Nat := 0
  /-- Rows or edits for which nothing is expected. -/
  skipped : Nat := 0
deriving Repr, DecidableEq

def Tally.checked (t : Tally) : Nat := t.passed + t.failed

def Tally.add (a b : Tally) : Tally :=
  ⟨a.passed + b.passed, a.failed + b.failed, a.skipped + b.skipped⟩

structure ResolvedEdit where
  path : Path
  line : Int
  col : Int
  expect : Option Expectation := none

/-- What a comparison adds to the tally, and the line that is shown for it. -/
def verdict (subject : String) : Option Mismatch → Tally × String
  | none => (⟨1, 0, 0⟩, "  verify ok    " ++ subject)
  | some m => (⟨0, 1, 0⟩, "  verify FAIL  " ++ subject ++ " -- " ++ m.text)

variable {τ : Type}

/-- The answer that is compared: the full response where it was kept. -/
def Sample.answer (s : Sample τ) : Json :=
  s.raw.getD s.response

def verifySample (subject : String) (s : Sample τ) : Option Expectation → Tally × List String
  | none => (⟨0, 0, 1⟩, [])
  | some expect =>
    let v := verdict subject (checkExpectation s.answer expect)
    (v.1, [v.2])

def joinVerdicts (vs : List (Tally × List String)) : Tally × List String :=
  vs.foldl (fun acc v => (acc.1.add v.1, acc.2 ++ v.2)) ({}, [])

/-- The comparisons of one row. With edits, each iteration is compared with the expectation of its
edit or else the method's; without, only the first one with the method's. -/
def verifyRow (expect : Option Expectation) (edits : List ResolvedEdit) (row : Row τ) :
    Tally × List String :=
  if row.status ≠ .ok then ({}, [])
  else if edits.isEmpty then
    match expect with
    | none => (⟨0, 0, 1⟩, [])
    | some _ =>
      match row.iterations with
      | [] => ({}, [])
      | sample :: _ => verifySample row.label sample expect
  else
    joinVerdicts ((row.iterations.zip edits).zipIdx.map fun x =>
      let subject := "[" ++ toString (x.2 + 1) ++ "] " ++ row.label ++ " " ++ x.1.2.path.name
      verifySample subject x.1.1 (x.1.2.expect.orElse fun _ => expect))

def verifyRows (expect : Option Expectation) (edits : List ResolvedEdit) (rows : List (Row τ)) :
    Tally × List String :=
  joinVerdicts (rows.map (verifyRow expect edits))

def Tally.ok (t : Tally) : Bool := t.failed == 0

def Tally.summary (t : Tally) : String :=
  if t.checked = 0 ∧ 0 < t.skipped then
    "  verify: no expect fields found in config (skipped " ++ toString t.skipped ++ ")"
  else if t.failed = 0 then
    "  verify: " ++ toString t.passed ++ "/" ++ toString t.checked ++ " expectations passed"
  else "  verify: " ++ toString t.failed ++ "/" ++ toString t.checked ++ " expectations failed"

end Latency
