import Latency.Value.Basic
import Latency.Text.Quoted
/-!
# Values in messages

How a value is shown: a text stands as it is when it is the whole message, and in quotes inside of
anything else. A collection that stands within itself is shown as dots there. A value with an integer
in it that has too many digits cannot be shown; `inspect` and `display` have every digit, and
`display?` is for values that may come from anywhere.
-/

namespace Latency

/-- A moment as the call that would build it; seconds and microseconds that are zero are
left out. -/
def Moment.inspect (m : Moment) : String :=
  let base := [m.date.year, m.date.month, m.date.day, m.hour, m.minute]
  let fine :=
    if m.microsecond ≠ 0 then [m.second, m.microsecond]
    else if m.second ≠ 0 then [m.second]
    else []
  let zone :=
    match m.offset with
    | none => []
    | some 0 => ["tzinfo=datetime.timezone.utc"]
    | some o =>
      let seconds := o * 60
      let days := Int.fdiv seconds 86400
      let rest := Int.fmod seconds 86400
      let parts :=
        (if days = 0 then [] else ["days=" ++ toString days]) ++
          (if rest = 0 then [] else ["seconds=" ++ toString rest])
      ["tzinfo=datetime.timezone(datetime.timedelta(" ++ ", ".intercalate parts ++ "))"]
  "datetime.datetime(" ++ ", ".intercalate ((base ++ fine).map toString ++ zone) ++ ")"

namespace Value

def whole? : Value → Option Int
  | .num (.int n) => some n
  | .bool b => some (if b then 1 else 0)
  | _ => none

/-- How many places a set has for its members: a power of two, eight at least. -/
def places (members : Nat) : Nat :=
  if members < 5 then 8 else Nat.pow 2 (Nat.log2 (2 * members) + 1)

/-- The texts of the members of a set in the order in which they are shown: whole numbers by what
they leave when they are divided by the number of places, other members as they were put in. -/
def inPlaces (items : List Value) (texts : List String) : List String :=
  match items.mapM whole? with
  | none => texts
  | some ns =>
    let place (n : Int) : Nat := (n % (places ns.length : Int)).toNat
    ((ns.zip texts).mergeSort fun a b => decide (place a.1 ≤ place b.1)).map (·.2)

def isShown (shown : List Label) (label : Option Label) : Bool :=
  label.any fun l => shown.contains l

mutual

/-- The value as it stands inside of others, which have the labels `shown`. -/
def inspectIn (shown : List Label) : Value → String
  | .null => "None"
  | .bool b => if b then "True" else "False"
  | .num n => n.text
  | .str s => Text.quoted s
  | .date d => "datetime.date(" ++ toString d.year ++ ", " ++ toString d.month ++ ", " ++
      toString d.day ++ ")"
  | .moment m => m.inspect
  | .octets bs => Text.quotedBytes bs
  | .seq items label =>
    if isShown shown label then "[...]"
    else "[" ++ ", ".intercalate (inspectItems (label.toList ++ shown) items) ++ "]"
  | .pair a b label =>
    if isShown shown label then "(...)"
    else
      let shown := label.toList ++ shown
      "(" ++ inspectIn shown a ++ ", " ++ inspectIn shown b ++ ")"
  | .map entries label =>
    if isShown shown label then "\x7b...\x7d"
    else "\x7b" ++ ", ".intercalate (inspectEntries (label.toList ++ shown) entries) ++ "\x7d"
  | .set [] => "set()"
  | .set items => "\x7b" ++ ", ".intercalate (inPlaces items (inspectItems shown items)) ++ "\x7d"

def inspectItems (shown : List Label) : List Value → List String
  | [] => []
  | x :: xs => inspectIn shown x :: inspectItems shown xs

def inspectEntries (shown : List Label) : List (Value × Value) → List String
  | [] => []
  | (k, v) :: rest =>
    (inspectIn shown k ++ ": " ++ inspectIn shown v) :: inspectEntries shown rest

end

def inspect (v : Value) : String :=
  inspectIn [] v

def display : Value → String
  | .str s => s
  | .date d => d.text
  | .moment m => m.text
  | v => v.inspect

mutual

/-- Whether all integers that are shown of the value can be. -/
def isWritableIn (shown : List Label) : Value → Bool
  | .num n => n.isWritable
  | .seq items label => isShown shown label || areWritable (label.toList ++ shown) items
  | .pair a b label =>
    isShown shown label ||
      (isWritableIn (label.toList ++ shown) a && isWritableIn (label.toList ++ shown) b)
  | .map entries label => isShown shown label || entriesWritable (label.toList ++ shown) entries
  | .set items => areWritable shown items
  | _ => true

def areWritable (shown : List Label) : List Value → Bool
  | [] => true
  | x :: xs => isWritableIn shown x && areWritable shown xs

def entriesWritable (shown : List Label) : List (Value × Value) → Bool
  | [] => true
  | (k, v) :: rest => isWritableIn shown k && isWritableIn shown v && entriesWritable shown rest

end

def isWritable (v : Value) : Bool :=
  isWritableIn [] v

def display? (v : Value) : Option String :=
  if v.isWritable then some v.display else none

end Value

/-- A JSON value as it is shown; what is read from JSON is writable. -/
def Json.display (j : Json) : String :=
  (Value.ofJson j).display

end Latency
