import Latency.Table
import Latency.Yaml.Document
/-!
# Tools

What the program does not do itself but leaves to tools: reading YAML, and laying out a table. The
program is written for any tools; `usual` are those that it runs with.
-/

namespace Latency

structure Tools where
  readYaml : List Char → Except Yaml.Defect Value
  /-- The table with these headers and rows. -/
  drawTable : List String → List (List String) → String

def Tools.usual : Tools where
  readYaml := Yaml.parse
  drawTable := Table.render

end Latency
