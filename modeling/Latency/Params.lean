import Latency.Catalogue
import Latency.Json.Basic
/-!
# Request parameters

What each request sends: the document, a position where it takes one, and what else it asks for. A
method may be given its own position, a trigger, an expected answer and edits of the document.
-/

namespace Latency

/-- An expected location: the end of its URI and its first line, as far as they are given. -/
structure Expectation where
  file : Option String := none
  line : Option Int := none
deriving Repr, DecidableEq

structure Edit where
  file : String
  line : Int
  col : Int
  expect : Option Expectation := none
deriving Repr, DecidableEq

structure MethodSettings where
  line : Option Int := none
  col : Option Int := none
  trigger : Option String := none
  expect : Option Expectation := none
  edits : List Edit := []
deriving Repr, DecidableEq

abbrev MethodTable := List (String × MethodSettings)

namespace Params

def position (line col : Int) : Json :=
  .obj [("line", .int line), ("character", .int col)]

private def document (uri : String) : String × Json :=
  ("textDocument", .obj [("uri", .str uri)])

def located (uri : String) (line col : Int) : List (String × Json) :=
  [document uri, ("position", position line col)]

def renameTarget : String := "__lsp_bench_rename__"

/-- The context of a completion after a trigger; an empty trigger is none. -/
def triggerContext (trigger : Option String) : List (String × Json) :=
  match trigger with
  | some t =>
    if t = "" then []
    else [("context", .obj [("triggerKind", .int 2), ("triggerCharacter", .str t)])]
  | none => []

def documentMethods : List String :=
  ["textDocument/documentSymbol", "textDocument/documentLink", "textDocument/foldingRange",
   "textDocument/codeLens", "textDocument/semanticTokens/full", "textDocument/documentColor"]

/-- The parameters of a request. A method that the catalogue does not know asks for a position. -/
def build (method uri : String) (line col : Int) (trigger : Option String) : Json :=
  if documentMethods.contains method then .obj [document uri]
  else if method = "textDocument/references" then
    .obj (located uri line col ++ [("context", .obj [("includeDeclaration", .bool true)])])
  else if method = "textDocument/rename" then
    .obj (located uri line col ++ [("newName", .str renameTarget)])
  else if method = completionName then .obj (located uri line col ++ triggerContext trigger)
  else if method = "textDocument/formatting" then
    .obj [document uri, ("options", .obj [("tabSize", .int 4), ("insertSpaces", .bool true)])]
  else if method = "textDocument/selectionRange" then
    .obj [document uri, ("positions", .arr [position line col])]
  else if method = "textDocument/inlayHint" then
    .obj [document uri, ("range", .obj [("start", position 0 0), ("end", position 9999 0)])]
  else if method = "workspace/symbol" then .obj [("query", .str "")]
  else .obj (located uri line col)

/-- The parameters of a request with the method's own settings before the general position. -/
def forMethod (methods : MethodTable) (line col : Int) (method uri : String) : Json :=
  match methods.lookup method with
  | none => build method uri line col none
  | some own => build method uri (own.line.getD line) (own.col.getD col) own.trigger

end Params

end Latency
