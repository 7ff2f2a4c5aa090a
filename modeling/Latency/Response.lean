import Latency.Json.Printer
/-!
# Responses

Which responses are usable, what of a response is worth reporting, and whether that says anything.
-/

namespace Latency

/-- Whether a response carries a payload: no error, and a result that is neither null, an empty
array nor a completion list without items. -/
def isValidResponse (response : Json) : Bool :=
  if response.has "error" then false
  else
    match response.get? "result" with
    | none => false
    | some .null => false
    | some (.arr items) => !items.isEmpty
    | some (.obj members) =>
      match members.lookup "items" with
      | some (.arr items) => !items.isEmpty
      | _ => true
    | some _ => true

def errorSummary (error : Json) : Json :=
  match error.get? "message" with
  | some (.str message) => .obj [("error", .str message)]
  | _ => .obj [("error", .str "unknown")]

/-- A value whose compact text is longer than the limit is replaced by the beginning of that text; a
limit of 0 is none. -/
def shorten (limit : Nat) (value : Json) : Json :=
  if limit = 0 then value
  else
    let text := Json.write .plain value
    if limit < text.length then .str (String.ofList (text.take limit ++ "...".toList)) else value

def responseSummary (limit : Nat) (response : Json) : Json :=
  match response.get? "error" with
  | some error => errorSummary error
  | none =>
    match response.get? "result" with
    | some value => shorten limit value
    | none =>
      match response.get? "params" with
      | some value => shorten limit value
      | none => .null

/-! ## Values that need not be responses -/

def standsIn (piece : List Char) : List Char → Bool
  | [] => piece.isEmpty
  | c :: rest => piece.isPrefixOf (c :: rest) || standsIn piece rest

/-- Whether a key is in a value: among the members of an object, the items of an array or the pieces
of a text. Of other values nothing can be in. -/
def holds? (key : String) : Json → Option Bool
  | .obj members => some (members.lookup key).isSome
  | .arr items => some (items.any fun v => v.equals (.str key))
  | .str s => some (standsIn key.toList s.toList)
  | _ => none

/-- Whether a value is a response that carries a payload; `none` if it is one that cannot
be asked. -/
def isValid? (value : Json) : Option Bool := do
  if ← holds? "error" value then return false
  else if ← holds? "result" value then
    if value.isObject then return isValidResponse value else none
  else return false

/-- The part of a value that is worth reporting; `none` if it is one that cannot be asked. -/
def summary? (limit : Nat) (value : Json) : Option Json :=
  if value.isObject then some (responseSummary limit value)
  else do
    let held ← ["error", "result", "params"].mapM fun key => holds? key value
    if held.any id then none else return .null

def emptySummaries : List String := ["", "null", "no result"]

def isMeaningful : Json → Bool
  | .null => false
  | .str s => !emptySummaries.contains s
  | .arr items => !items.isEmpty
  | _ => true

end Latency
