import Latency.Yaml.Defect
import Latency.Yaml.Kind
import Latency.Yaml.Token
/-!
# Nodes

A document as a graph: scalars, sequences and mappings, each with its kind, under numbers in the
order in which they begin. An alias is another way to the number of the node that it names, which
may also be one that is around it.
-/

namespace Latency.Yaml

inductive Content where
  | scalar (text : String)
  | seq (items : List Nat)
  | map (entries : List (Nat × Nat))

structure Node where
  kind : Kind
  content : Content

abbrev Graph := Array Node

def Node.absent : Node := ⟨.null, .scalar ""⟩

def Graph.node (g : Graph) (n : Nat) : Node :=
  g.getD n .absent

structure Reader where
  tokens : List Token
  graph : Graph := #[]
  anchors : List (String × Nat) := []

namespace Reader

/-- Tokens that do not go on as they have to: malformed, unless what follows is out of range. -/
def refuse {α : Type} : List Token → Except Defect α
  | .outOfRange :: _ => .error .outOfRange
  | _ => .error .malformed

def onto (tokens : List Token) (r : Reader) : Reader :=
  { r with tokens := tokens }

def add (node : Node) (r : Reader) : Nat × Reader :=
  (r.graph.size, { r with graph := r.graph.push node })

def addAbsent (r : Reader) : Nat × Reader :=
  r.add .absent

def fill (n : Nat) (content : Content) (r : Reader) : Reader :=
  { r with graph := r.graph.modify n fun node => { node with content := content } }

def name (anchor : Option String) (n : Nat) (r : Reader) : Reader :=
  match anchor with
  | none => r
  | some a => { r with anchors := (a, n) :: r.anchors }

end Reader

/-! ## Properties -/

abbrev Handles := List (String × String)

structure Properties where
  anchor : Option String := none
  tag : Option String := none

def fullTag? (handles : Handles) : Option String → String → Option String
  | none, suffix => some suffix
  | some handle, suffix => (handles.lookup handle).map (· ++ suffix)

/-- The anchor and the tag in front of a node, in either order, and the tokens behind them. -/
def properties (handles : Handles) : List Token → Except Defect (Properties × List Token)
  | .anchor a :: .tag h s :: rest =>
    (orMalformed (fullTag? handles h s)).map fun t => (⟨some a, some t⟩, rest)
  | .tag h s :: .anchor a :: rest =>
    (orMalformed (fullTag? handles h s)).map fun t => (⟨some a, some t⟩, rest)
  | .anchor a :: rest => .ok (⟨some a, none⟩, rest)
  | .tag h s :: rest =>
    match fullTag? handles h s with
    | some t => .ok (⟨none, some t⟩, rest)
    | none => Reader.refuse rest
  | rest => .ok ({}, rest)

/-- The kind of a scalar. Without a tag, and with the tag `!`, the text of a plain one decides. -/
def scalarKind (tag : Option String) (plain : Bool) (text : String) : Kind :=
  match tag with
  | none => if plain then Kind.ofText text else .str
  | some "!" => Kind.ofText text
  | some t => Kind.ofTag t

def collectionKind (tag : Option String) (usual : Kind) : Kind :=
  match tag with
  | none => usual
  | some "!" => usual
  | some t => Kind.ofTag t

/-! ## Collections -/

def endsEntry : List Token → Bool
  | .entry :: _ => true
  | .blockEnd :: _ => true
  | _ => false

def endsField : List Token → Bool
  | .key :: _ => true
  | .value :: _ => true
  | .blockEnd :: _ => true
  | _ => false

def endsPiece (closing : Token → Bool) : List Token → Bool
  | .value :: _ => true
  | .comma :: _ => true
  | t :: _ => closing t
  | [] => false

def toPiece (closing : Token → Bool) (first : Bool) (tokens : List Token) :
    Except Defect (List Token) :=
  if first || (tokens.head?.any closing) then .ok tokens
  else
    match tokens with
    | .comma :: rest => .ok rest
    | _ => Reader.refuse tokens

def isSequenceEnd : Token → Bool
  | .flowSequenceEnd => true
  | _ => false

def isMappingEnd : Token → Bool
  | .flowMappingEnd => true
  | _ => false

mutual

/-- A node. `block` allows collections by indentation, `flat` also entries that are not indented. -/
def readNode (handles : Handles) (block flat : Bool) : Nat → Reader → Except Defect (Nat × Reader)
  | 0, _ => .error .malformed
  | fuel + 1, r =>
    match r.tokens with
    | .alias a :: rest => do
      let n ← orMalformed (r.anchors.lookup a)
      return (n, r.onto rest)
    | _ => do
      let (p, tokens) ← properties handles r.tokens
      let opened (usual : Kind) (empty : Content) (rest : List Token) : Nat × Reader :=
        let (n, r) := (r.onto rest).add ⟨collectionKind p.tag usual, empty⟩
        (n, r.name p.anchor n)
      let sequence (rest : List Token) (read : Reader → Except Defect (List Nat × Reader)) :
          Except Defect (Nat × Reader) := do
        let (n, r) := opened .seq (.seq []) rest
        let (items, r) ← read r
        return (n, r.fill n (.seq items))
      let mapping (rest : List Token) (read : Reader → Except Defect (List (Nat × Nat) × Reader)) :
          Except Defect (Nat × Reader) := do
        let (n, r) := opened .map (.map []) rest
        let (entries, r) ← read r
        return (n, r.fill n (.map entries))
      let scalar (plain : Bool) (text : String) (rest : List Token) :
          Except Defect (Nat × Reader) :=
        let (n, r) := (r.onto rest).add ⟨scalarKind p.tag plain text, .scalar text⟩
        .ok (n, r.name p.anchor n)
      let leftOut : Except Defect (Nat × Reader) :=
        match tokens with
        | .outOfRange :: _ => .error .outOfRange
        | _ => if p.anchor.isSome || p.tag.isSome then scalar true "" tokens else .error .malformed
      if p.anchor.any fun a => (r.anchors.lookup a).isSome then Reader.refuse tokens
      else
        match tokens with
        | .scalar plain text :: rest => scalar plain text rest
        | .flowSequence :: rest => sequence rest (readItems handles true fuel)
        | .flowMapping :: rest => mapping rest (readFields handles true fuel)
        | .entry :: _ => if flat then sequence tokens (readEntries handles true fuel) else leftOut
        | .blockSequence :: rest =>
          if block then sequence rest (readEntries handles false fuel) else leftOut
        | .blockMapping :: rest =>
          if block then mapping rest (readBlockFields handles fuel) else leftOut
        | _ => leftOut

/-- The entries of a sequence by its signs; a flat one ends where no sign follows. -/
def readEntries (handles : Handles) (flat : Bool) : Nat → Reader → Except Defect (List Nat × Reader)
  | 0, _ => .error .malformed
  | fuel + 1, r =>
    match r.tokens with
    | .entry :: rest => do
      let (n, r) ←
        if endsEntry rest || (flat && endsField rest) then pure (r.onto rest).addAbsent
        else readNode handles true false fuel (r.onto rest)
      let (ns, r) ← readEntries handles flat fuel r
      return (n :: ns, r)
    | .blockEnd :: rest => .ok ([], if flat then r else r.onto rest)
    | tokens => if flat then .ok ([], r) else Reader.refuse tokens

def readBlockFields (handles : Handles) : Nat → Reader → Except Defect (List (Nat × Nat) × Reader)
  | 0, _ => .error .malformed
  | fuel + 1, r =>
    match r.tokens with
    | .key :: rest => do
      let (k, r) ←
        if endsField rest then pure (r.onto rest).addAbsent
        else readNode handles true true fuel (r.onto rest)
      let (v, r) ← readFieldValue handles fuel r
      let (fs, r) ← readBlockFields handles fuel r
      return ((k, v) :: fs, r)
    | .blockEnd :: rest => .ok ([], r.onto rest)
    | tokens => Reader.refuse tokens

def readFieldValue (handles : Handles) : Nat → Reader → Except Defect (Nat × Reader)
  | 0, _ => .error .malformed
  | fuel + 1, r =>
    match r.tokens with
    | .value :: rest =>
      if endsField rest then .ok (r.onto rest).addAbsent
      else readNode handles true true fuel (r.onto rest)
    | _ => .ok r.addAbsent

/-- The items of a sequence in brackets; an item may be a mapping of one field. -/
def readItems (handles : Handles) (first : Bool) : Nat → Reader → Except Defect (List Nat × Reader)
  | 0, _ => .error .malformed
  | fuel + 1, r => do
    match ← toPiece isSequenceEnd first r.tokens with
    | .flowSequenceEnd :: rest => return ([], r.onto rest)
    | .key :: rest =>
      let (n, r) := (r.onto rest).add ⟨.map, .map []⟩
      let (f, r) ← readField handles isSequenceEnd fuel r
      let (ns, r) ← readItems handles false fuel (r.fill n (.map [f]))
      return (n :: ns, r)
    | tokens =>
      let (n, r) ← readNode handles false false fuel (r.onto tokens)
      let (ns, r) ← readItems handles false fuel r
      return (n :: ns, r)

/-- The fields of a mapping in brackets; what has no colon behind it is a key without a value. -/
def readFields (handles : Handles) (first : Bool) :
    Nat → Reader → Except Defect (List (Nat × Nat) × Reader)
  | 0, _ => .error .malformed
  | fuel + 1, r => do
    match ← toPiece isMappingEnd first r.tokens with
    | .flowMappingEnd :: rest => return ([], r.onto rest)
    | .key :: rest =>
      let (f, r) ← readField handles isMappingEnd fuel (r.onto rest)
      let (fs, r) ← readFields handles false fuel r
      return (f :: fs, r)
    | tokens =>
      let (k, r) ← readNode handles false false fuel (r.onto tokens)
      let (v, r) := r.addAbsent
      let (fs, r) ← readFields handles false fuel r
      return ((k, v) :: fs, r)

def readField (handles : Handles) (closing : Token → Bool) :
    Nat → Reader → Except Defect ((Nat × Nat) × Reader)
  | 0, _ => .error .malformed
  | fuel + 1, r => do
    let (k, r) ←
      if endsPiece closing r.tokens then pure r.addAbsent else readNode handles false false fuel r
    match r.tokens with
    | .value :: rest =>
      let (v, r) ←
        if endsPiece closing rest then pure (r.onto rest).addAbsent
        else readNode handles false false fuel (r.onto rest)
      return ((k, v), r)
    | _ =>
      let (v, r) := r.addAbsent
      return ((k, v), r)

end

/-! ## Documents -/

def usualHandles : Handles := [("!", "!"), ("!!", Kind.standardStem)]

/-- The handles that the directives of a document define. At most one may name the version, which
has to begin with 1, and no handle may be defined twice. -/
def readDirectives (versioned : Bool) (handles : Handles) :
    List Token → Except Defect (Handles × List Token)
  | .directive (.version major) :: rest =>
    if versioned || major != 1 then .error .malformed else readDirectives true handles rest
  | .directive (.tag handle stem) :: rest =>
    if (handles.lookup handle).isSome then .error .malformed
    else readDirectives versioned ((handle, stem) :: handles) rest
  | .directive .other :: rest => readDirectives versioned handles rest
  | .documentStart :: rest => .ok (handles ++ usualHandles, rest)
  | tokens => Reader.refuse tokens

def endsDocument : List Token → Bool
  | [] => true
  | .directive _ :: _ => true
  | .documentStart :: _ => true
  | .documentEnd :: _ => true
  | _ => false

def ifOnlyEnds {α : Type} (result : α) : List Token → Except Defect α
  | [] => .ok result
  | .documentEnd :: rest => ifOnlyEnds result rest
  | tokens => do
    let _ ← readDirectives false [] tokens
    .error .malformed

def readSingle (handles : Handles) (tokens : List Token) : Except Defect (Graph × Nat) := do
  let (n, r) ← readNode handles true false (2 * tokens.length + 2) { tokens := tokens }
  ifOnlyEnds (r.graph, n) r.tokens

/-- The document that tokens form: at most one, which may be empty. -/
def Graph.ofTokens? : List Token → Except Defect (Graph × Nat)
  | [] => .ok empty
  | .directive d :: rest => headed (.directive d :: rest)
  | .documentStart :: rest => headed (.documentStart :: rest)
  | tokens => readSingle usualHandles tokens
where
  empty : Graph × Nat := (#[.absent], 0)
  /-- A document behind directives or a sign of its beginning. -/
  headed (tokens : List Token) : Except Defect (Graph × Nat) := do
    let (handles, rest) ← readDirectives false [] tokens
    if endsDocument rest then ifOnlyEnds empty rest else readSingle handles rest

end Latency.Yaml
