import Latency.Json.Printer
import Latency.Files
/-!
# Settings to start from

A file with every usual setting, in either format. A file that is there is not written over.
-/

namespace Latency.Settings

def template : String :=
"# lsp-bench configuration

# Project root; every server is started here.
project: .
# File opened for every benchmark, relative to project.
file: src/Contract.sol
# Default 0-based request position.
line: 102
col: 15

iterations: 10
warmup: 2
# Seconds per request, and for diagnostics after didOpen.
timeout: 10
index_timeout: 15

output: benchmarks
benchmarks: [all]
# Response summary length in characters, or \"full\".
response: 80
language_id: solidity

methods:
  textDocument/completion:
    trigger: \".\"

servers:
  - label: my-server
    description: \"\"
    link: \"\"
    cmd: my-language-server
    args: [--stdio]
"

def templateValue : Json :=
  .obj [
    ("project", .str "."),
    ("file", .str "src/Contract.sol"),
    ("line", .int 102),
    ("col", .int 15),
    ("iterations", .int 10),
    ("warmup", .int 2),
    ("timeout", .int 10),
    ("index_timeout", .int 15),
    ("output", .str "benchmarks"),
    ("benchmarks", .arr [.str "all"]),
    ("response", .int 80),
    ("language_id", .str "solidity"),
    ("methods", .obj [("textDocument/completion", .obj [("trigger", .str ".")])]),
    ("servers", .arr [.obj [
      ("label", .str "my-server"),
      ("description", .str ""),
      ("link", .str ""),
      ("cmd", .str "my-language-server"),
      ("args", .arr [.str "--stdio"])]])]

def templateText (path : Path) : String :=
  if path.hasSuffix ".json" then Json.renderIndented templateValue ++ "\n" else template

/-- Writes the template, unless something stands under the path. -/
def writeTemplate (path : Path) (files : Files) : Except FileError Files := do
  if ← files.contains path then throw .alreadyExists
  else files.write path (Text.encodeUtf8 (templateText path).toList)

end Latency.Settings
