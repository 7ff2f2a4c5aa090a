/-!
# Defects

Why a document has no value.
-/

namespace Latency.Yaml

inductive Defect where
  /-- It does not have the form of a document, or a text does not have the form of its kind. -/
  | malformed
  | emptyNumber
  /-- A truth value was asked for, but the text is none. -/
  | noTruth
  /-- A timestamp was asked for, but the text is none. -/
  | noTimestamp
  /-- A timestamp was asked for where a collection stands, and the content of a collection
  is none. -/
  | timestampOfContent
  /-- A code point or a place in a number is too large to be worked with. -/
  | outOfRange
  /-- The content of a mapping leads back to the mapping. -/
  | endless
deriving Repr, DecidableEq

def orMalformed {α : Type} : Option α → Except Defect α
  | some a => .ok a
  | none => .error .malformed

end Latency.Yaml
