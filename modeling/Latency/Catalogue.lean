import Latency.Text.Blank
/-!
# The catalogue of benchmarks

The names of the benchmarks in the order in which they run, and the other names they go by: the name
without its group, and a few short words.
-/

namespace Latency

def handshakeName : String := "initialize"

def diagnosticName : String := "textDocument/diagnostic"

/-- The completion request, the only one that may carry a trigger. -/
def completionName : String := "textDocument/completion"

def requestNames : List String := [
  "textDocument/definition",
  "textDocument/declaration",
  "textDocument/typeDefinition",
  "textDocument/implementation",
  "textDocument/hover",
  "textDocument/references",
  "textDocument/completion",
  "textDocument/signatureHelp",
  "textDocument/rename",
  "textDocument/prepareRename",
  "textDocument/documentSymbol",
  "textDocument/documentLink",
  "textDocument/formatting",
  "textDocument/foldingRange",
  "textDocument/selectionRange",
  "textDocument/codeLens",
  "textDocument/inlayHint",
  "textDocument/semanticTokens/full",
  "textDocument/documentColor",
  "workspace/symbol"]

def catalogue : List String := handshakeName :: diagnosticName :: requestNames

def aliases : List (String × String) :=
  [("init", handshakeName), ("diagnostics", diagnosticName), ("symbol", "workspace/symbol")]

def groups : List String := ["textDocument/", "workspace/"]

/-- The benchmark that a name means, white space around it aside. -/
def resolveName? (given : String) : Option String :=
  let name := Text.trim given
  if catalogue.contains name then some name
  else
    match aliases.lookup name with
    | some benchmark => some benchmark
    | none => (groups.map (· ++ name)).find? catalogue.contains

/-- The benchmarks that a list of names selects, in the order of the catalogue: all of them for an
empty list or one that holds `all`. A name that means nothing is an error. -/
def selectBenchmarks (names : List String) : Except String (List String) :=
  if names.isEmpty || names.contains "all" then .ok catalogue
  else do
    let selected ← names.mapM fun name =>
      match resolveName? name with
      | some benchmark => .ok benchmark
      | none => .error name
    return catalogue.filter selected.contains

end Latency
