import Latency.Yaml.Literal
import Latency.Yaml.Merge
/-!
# Documents

The value of a document. Nodes are worked out in the order in which they are met: a collection is
met as an empty one and is filled when those that were met before it are full. So the first defect
that is found is the one that is least deep. Under two equal keys of a mapping the first key and the
last value count.
-/

namespace Latency.Yaml

inductive Cell where
  | plain (v : Value)
  | seq (items : List Nat)
  | pairs (items : List (Nat × Nat))
  | map (entries : List (Nat × Nat))
  | set (items : List Nat)

namespace Cell

def value (n : Nat) (inner : Nat → Value) : Cell → Value
  | .plain v => v
  | .seq items => .seq (items.map inner) (some ⟨n, 0⟩)
  | .pairs items =>
    let pair (p : (Nat × Nat) × Nat) : Value :=
      .pair (inner p.1.1) (inner p.1.2) (some ⟨n, p.2 + 1⟩)
    .seq (items.zipIdx.map pair) (some ⟨n, 0⟩)
  | .map entries => .map (entries.map fun e => (inner e.1, inner e.2)) (some ⟨n, 0⟩)
  | .set items => .set (items.map inner)

def parts : Cell → List Nat
  | .plain _ => []
  | .seq items => items
  | .pairs items => items.flatMap fun p => [p.1, p.2]
  | .map entries => entries.flatMap fun e => [e.1, e.2]
  | .set items => items

end Cell

structure Construction where
  graph : Graph
  /-- What has become of the nodes, as far as they were met. -/
  cells : Array (Option Cell)
  /-- Collections that were met and are not filled, the next one first. -/
  waiting : List Nat := []

namespace Construction

def ofGraph (g : Graph) : Construction :=
  { graph := g, cells := Array.replicate g.size none }

def cell? (n : Nat) (c : Construction) : Option Cell :=
  c.cells.getD n none

def put (n : Nat) (cell : Cell) (c : Construction) : Construction :=
  { c with cells := c.cells.setIfInBounds n (some cell) }

/-! ## Meeting a node -/

/-- The text of a scalar, or of the content of a mapping. What is not found in as many steps as
there are nodes is never found. -/
def textOf (g : Graph) (n : Nat) : Nat → Except Defect String
  | 0 => .error .endless
  | fuel + 1 =>
    match (g.node n).content with
    | .scalar s => .ok s
    | .seq _ => .error .malformed
    | .map entries =>
      match entries.find? fun e => decide ((g.node e.1).kind = .content) with
      | some (_, v) => textOf g v fuel
      | none => .error .malformed

def plainValue (g : Graph) (n : Nat) : Except Defect Value := do
  let node := g.node n
  let s ← textOf g n (g.size + 1)
  match node.kind, node.content with
  | .timestamp, .map _ => throw .timestampOfContent
  | kind, _ => literal kind s

def emptyCell? : Kind → Option Cell
  | .seq => some (.seq [])
  | .pairs => some (.pairs [])
  | .map => some (.map [])
  | .set => some (.set [])
  | _ => none

/-- Meets a node: a collection will be filled later, anything else has its value at once. -/
def meet (n : Nat) (c : Construction) : Except Defect Construction :=
  match c.cell? n with
  | some _ => .ok c
  | none =>
    match (c.graph.node n).kind with
    | .merge | .content | .unknown => .error .malformed
    | kind =>
      match emptyCell? kind with
      | some cell => .ok { c.put n cell with waiting := c.waiting ++ [n] }
      | none => (plainValue c.graph n).map fun v => c.put n (.plain v)

/-! ## Filling a collection -/

def meetAll (ns : List Nat) (c : Construction) : Except Defect Construction :=
  ns.foldlM (fun acc n => acc.meet n) c

def meetPair (n : Nat) (c : Construction) : Except Defect ((Nat × Nat) × Construction) :=
  match (c.graph.node n).content with
  | .map [(k, v)] => do
    let met ← (← c.meet k).meet v
    return ((k, v), met)
  | _ => .error .malformed

def meetPairs (ns : List Nat) (c : Construction) :
    Except Defect (List (Nat × Nat) × Construction) :=
  match ns with
  | [] => .ok ([], c)
  | n :: rest => do
    let (p, c) ← c.meetPair n
    let (ps, c) ← c.meetPairs rest
    return (p :: ps, c)

/-- The value of a key, which must be one that cannot change. -/
def keyValue (c : Construction) (n : Nat) : Except Defect Value :=
  match c.cell? n with
  | some (.plain v) => .ok v
  | _ => .error .malformed

def meetEntries (entries : List (Nat × Nat)) (c : Construction) : Except Defect Construction :=
  match entries with
  | [] => .ok c
  | (k, v) :: rest => do
    let met ← c.meet k
    let _ ← met.keyValue k
    meetEntries rest (← met.meet v)

def isNan (g : Graph) (n : Nat) : Bool :=
  match (g.node n).kind, textOf g n (g.size + 1) with
  | .float, .ok s => isNanSign s
  | _, _ => false

/-- Whether two nodes are one key: what is not a number is equal to itself only, and its sign always
stands for the same one. -/
def sameKey (c : Construction) (m n : Nat) : Bool :=
  m == n || (isNan c.graph m && isNan c.graph n) ||
    match c.cell? m, c.cell? n with
    | some (.plain a), some (.plain b) => a.sameKey b
    | _, _ => false

/-- Sets an entry: under its old key if there is one, else at the end. -/
def putEntry (c : Construction) (entry : Nat × Nat) : List (Nat × Nat) → List (Nat × Nat)
  | [] => [entry]
  | (k, v) :: rest =>
    if c.sameKey k entry.1 then (k, entry.2) :: rest else (k, v) :: putEntry c entry rest

/-- Takes in what a mapping merges and meets all that is in it; gives its entries without repeated
keys. -/
def mappingEntries (n : Nat) (c : Construction) :
    Except Defect (List (Nat × Nat) × Construction) := do
  match (c.graph.node n).content with
  | .map _ =>
    let g ← orMalformed (c.graph.merge? n)
    let met ← { c with graph := g }.meetEntries (g.entries n)
    return ((g.entries n).foldl (fun acc e => met.putEntry e acc) [], met)
  | _ => throw .malformed

def fill (n : Nat) (c : Construction) : Except Defect Construction :=
  let node := c.graph.node n
  match node.kind, node.content with
  | .seq, .seq items => do return (← c.meetAll items).put n (.seq items)
  | .pairs, .seq items => do
    let (ps, c) ← c.meetPairs items
    return c.put n (.pairs ps)
  | .map, _ => do
    let (entries, c) ← c.mappingEntries n
    return c.put n (.map entries)
  | .set, _ => do
    let (entries, c) ← c.mappingEntries n
    return c.put n (.set (entries.map (·.1)))
  | _, _ => .error .malformed

def fillAll : Nat → Construction → Except Defect Construction
  | 0, c => .ok c
  | fuel + 1, c =>
    match c.waiting with
    | [] => .ok c
    | n :: rest => do fillAll fuel (← { c with waiting := rest }.fill n)

/-! ## Writing the value out -/

abbrev Layer := Array (Value × Bool)

def deepen (c : Construction) (layer : Layer) : Layer :=
  let known (n : Nat) : Value × Bool := layer.getD n (.null, true)
  c.cells.mapIdx fun n cell =>
    match (known n).2, cell with
    | false, some cell =>
      (cell.value n fun m => (known m).1, cell.parts.all fun m => (known m).2)
    | _, _ => known n

def deepenTo (c : Construction) : Nat → Layer → Layer
  | 0, layer => layer
  | depth + 1, layer =>
    if layer.all (·.2) then layer else deepenTo c depth (c.deepen layer)

/-- How deep in a document a value can be that is read on its own. -/
def readingDepth : Nat := 16

/-- The value of a node. What is within itself is written out until any path from a value that is
read comes to some collection for the second time. -/
def valueOf (c : Construction) (n : Nat) : Value :=
  let start : Layer := c.cells.map fun
    | some _ => (.null, false)
    | none => (.null, true)
  ((c.deepenTo (c.cells.size + readingDepth) start).getD n (.null, true)).1

end Construction

def Graph.value (g : Graph) (root : Nat) : Except Defect Value := do
  let c ← (Construction.ofGraph g).meet root
  let full ← c.fillAll (g.size + 1)
  return full.valueOf root

def parse (text : List Char) : Except Defect Value := do
  let tokens ← orMalformed (tokens? text)
  let (g, root) ← Graph.ofTokens? tokens
  g.value root

end Latency.Yaml
