import Latency.Yaml.Node
/-!
# Merging

A mapping takes in the entries of those that it merges, in front of its own. This changes the graph:
what was merged stands in the mapping from then on, under every alias of it.
-/

namespace Latency.Yaml

namespace Graph

def entries (g : Graph) (n : Nat) : List (Nat × Nat) :=
  match (g.node n).content with
  | .map entries => entries
  | _ => []

def setEntries (n : Nat) (entries : List (Nat × Nat)) (g : Graph) : Graph :=
  g.modify n fun node => { node with content := .map entries }

def isMerge (g : Graph) (n : Nat) : Bool :=
  decide ((g.node n).kind = .merge)

/-- What the first sign to merge of a mapping stands before, and the graph without that entry. -/
def cutMerge? (n : Nat) (g : Graph) : Option (Nat × Graph) :=
  let entries := g.entries n
  match entries.dropWhile fun e => !g.isMerge e.1 with
  | [] => none
  | (_, v) :: rest => some (v, g.setEntries n ((entries.takeWhile fun e => !g.isMerge e.1) ++ rest))

def settleKey (g : Graph) (n : Nat) : Graph :=
  g.modify n fun node => if node.kind = .content then { node with kind := .str } else node

/-- Puts merged entries in front of a mapping's own, whose keys stand for themselves from now on. -/
def prepend (n : Nat) (merged : List (Nat × Nat)) (g : Graph) : Graph :=
  let own := g.entries n
  (own.foldl (fun acc e => acc.settleKey e.1) g).setEntries n (merged ++ own)

def mergeCount (g : Graph) : Nat :=
  ((List.range g.size).flatMap fun n => (g.entries n).filter fun e => g.isMerge e.1).length

mutual

/-- Carries out what is left to be merged into a mapping, behind what was merged already. Every step
takes one of the signs to merge away, so their count bounds the steps. -/
def mergeInto (fuel : Nat) (n : Nat) (merged : List (Nat × Nat)) (g : Graph) : Option Graph :=
  match g.cutMerge? n with
  | none => some (g.prepend n merged)
  | some (v, cut) =>
    match fuel with
    | 0 => none
    | fuel + 1 => do
      let (more, next) ← mergedEntries fuel v cut
      mergeInto fuel n (merged ++ more) next
termination_by (fuel, 0, 0)

def mergedEntries (fuel : Nat) (v : Nat) (g : Graph) : Option (List (Nat × Nat) × Graph) :=
  match (g.node v).content with
  | .map _ => (mergeInto fuel v [] g).map fun next => (next.entries v, next)
  | .seq items => (mergedLists fuel items g).map fun x => (x.1.reverse.flatten, x.2)
  | .scalar _ => none
termination_by (fuel, 2, 0)

def mergedLists (fuel : Nat) (items : List Nat) (g : Graph) :
    Option (List (List (Nat × Nat)) × Graph) :=
  match items with
  | [] => some ([], g)
  | v :: rest =>
    match (g.node v).content with
    | .map _ => do
      let next ← mergeInto fuel v [] g
      let (lists, last) ← mergedLists fuel rest next
      return (next.entries v :: lists, last)
    | _ => none
termination_by (fuel, 1, items.length)

end

def merge? (n : Nat) (g : Graph) : Option Graph :=
  if (g.entries n).any fun e => g.isMerge e.1 then mergeInto g.mergeCount n [] g
  else some (g.prepend n [])

end Graph

end Latency.Yaml
