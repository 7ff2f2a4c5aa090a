import Latency.Settings.Basic
/-!
# Reading settings

Settings are read from the value of a document: every part is checked, and what is left out has its
usual value.
-/

namespace Latency.Settings

abbrev Checked (α : Type) := Except SettingsError α

abbrev Entries := List (Value × Value)

def textField? (entries : Entries) (key : String) : Option String :=
  match Value.field entries key with
  | .str s => if s = "" then none else some s
  | _ => none

def shown (v : Value) : Checked String :=
  match v.display? with
  | some text => .ok text
  | none => .error .unwritable

/-- A refusal that shows a value. -/
def refuseShowing {α : Type} (v : Value) (why : SettingsError) : Checked α :=
  .error (if v.isWritable then why else .unwritable)

/-- The entry as it is shown, or a usual text if it does not count as present. -/
def shownField (entries : Entries) (key usual : String) : Checked String :=
  let v := Value.field entries key
  if v.truthy then shown v else .ok usual

/-! ## Numbers -/

/-- A number that is not below a limit, or if `strict` not at it either. What is not a number at all
is below nothing. -/
def number (entries : Entries) (key : String) (usual : Number) (least : Int) (strict : Bool) :
    Checked Number :=
  match (Value.lookupText key entries).getD (.num usual) with
  | .num n =>
    if n.less (.int least) || (strict && n.equals (.int least)) then
      refuseShowing (.num n) (.tooSmall key strict least n)
    else .ok n
  | v => refuseShowing v (.notNumber key v)

def integer (entries : Entries) (key : String) (usual least : Int) : Checked Int := do
  match ← number entries key (.int usual) least false with
  | .int n => return n
  | n => refuseShowing (.num n) (.notInteger key n)

def count? (entries : Entries) (key place : String) : Checked (Option Int) :=
  match Value.field entries key with
  | .null => .ok none
  | .num (.int n) => if n < 0 then .error (.notCount place key) else .ok (some n)
  | _ => .error (.notCount place key)

/-! ## Servers -/

def textItems? : List Value → Option (List String)
  | [] => some []
  | .str s :: rest => (textItems? rest).map (s :: ·)
  | _ :: _ => none

/-- The arguments of a server; what does not count as present is no arguments. -/
def arguments? (v : Value) : Option (List String) :=
  if v.truthy then
    match v with
    | .seq items _ => textItems? items
    | _ => none
  else some []

def serverOf (index : Nat) : Value → Checked Server
  | .map entries _ =>
    match textField? entries "label" with
    | none => .error (.serverWithoutLabel index)
    | some label =>
      match textField? entries "cmd" with
      | none => .error (.serverWithoutCommand label)
      | some cmd =>
        match arguments? (Value.field entries "args") with
        | none => .error (.serverArguments label)
        | some args => do
          let description ← shownField entries "description" ""
          let link ← shownField entries "link" ""
          return { label := label, cmd := cmd, args := args, description := description
                   link := link }
  | _ => .error (.serverNotObject index)

def serversFrom (index : Nat) : List Value → Checked (List Server)
  | [] => .ok []
  | v :: rest => do
    let s ← serverOf index v
    let others ← serversFrom (index + 1) rest
    return s :: others

/-! ## Methods -/

def expectation (place : String) : Value → Checked (Option Expectation)
  | .null => .ok none
  | .map entries _ => do
    let file ←
      match Value.field entries "file" with
      | .null => pure none
      | .str s => pure (some s)
      | _ => throw (.expectFileNotText place)
    let line ← count? entries "line" (place ++ " expect")
    return some ⟨file, line⟩
  | _ => .error (.expectNotObject place)

def editOf (place : String) : Value → Checked Edit
  | .map entries _ => do
    let line ← count? entries "line" place
    let col ← count? entries "col" place
    match textField? entries "file", line, col with
    | some file, some line, some col =>
      let expect ← expectation place (Value.field entries "expect")
      return ⟨file, line, col, expect⟩
    | _, _, _ => throw (.editIncomplete place)
  | _ => .error (.editNotObject place)

def editsFrom (place : String) (index : Nat) : List Value → Checked (List Edit)
  | [] => .ok []
  | v :: rest => do
    let e ← editOf (place ++ " didChange[" ++ toString index ++ "]") v
    let others ← editsFrom place (index + 1) rest
    return e :: others

def editList (place : String) : Value → Checked (List Edit)
  | .null => .ok []
  | .seq items _ => editsFrom place 0 items
  | _ => .error (.editsNotList place)

/-- What is set for a method; a trigger may be any value and counts as its text. -/
def methodOf (place : String) : Value → Checked MethodSettings
  | .map entries _ => do
    let line ← count? entries "line" place
    let col ← count? entries "col" place
    let trigger ← triggerOf (Value.field entries "trigger")
    let expect ← expectation place (Value.field entries "expect")
    let edits ← editList place (Value.field entries "didChange")
    return ⟨line, col, trigger, expect, edits⟩
  | _ => .error (.methodNotObject place)
where
  triggerOf : Value → Checked (Option String)
    | .null => .ok none
    | v => (shown v).map some

/-- What is set for methods, added to a table; of two entries for one method the later
one counts. -/
def methodsFrom (table : MethodTable) : Entries → Checked MethodTable
  | [] => .ok table
  | (key, v) :: rest => do
    let name ← shown key
    match resolveName? name with
    | none => throw (.methodUnknown name)
    | some benchmark =>
      let own ← methodOf ("methods['" ++ name ++ "']") v
      methodsFrom (Json.put benchmark own table) rest

def methodTable : Value → Checked MethodTable
  | .null => .ok []
  | .map entries _ => methodsFrom [] entries
  | _ => .error .methodsNotObject

/-- Gives completion a trigger that is set for the whole document, unless it has one of its own. -/
def addTrigger (v : Value) (table : MethodTable) : Checked MethodTable :=
  match v with
  | .null => .ok table
  | v =>
    let own := (table.lookup completionName).getD {}
    match own.trigger with
    | some _ => .ok table
    | none => do
      let text ← shown v
      return Json.put completionName { own with trigger := some text } table

/-! ## The whole -/

def outputPath (v : Value) : Checked Path :=
  if v.truthy then
    match v with
    | .str s => .ok (Path.ofString s)
    | _ => .error .outputNotText
  else .ok (Path.ofString "benchmarks")

/-- The length of response summaries; `full` is no limit. -/
def limitOf : Value → Checked Int
  | .null => .ok 80
  | .str s => if s = "full" then .ok 0 else .error .responseLimit
  | .num (.int n) => if n < 0 then .error .responseLimit else .ok n
  | _ => .error .responseLimit

def ofEntries (entries : Entries) : Checked Settings :=
  match textField? entries "project" with
  | none => .error (.required "project")
  | some project =>
    match textField? entries "file" with
    | none => .error (.required "file")
    | some file => do
      let serverItems ←
        match Value.field entries "servers" with
        | .seq items _ => pure items
        | _ => throw (.notList "servers")
      let serverList ← serversFrom 0 serverItems
      let names := Value.field entries "benchmarks"
      let benchmarks ←
        match names with
        | .seq items _ => pure items
        | v => if v.truthy then throw (.notList "benchmarks") else pure []
      let table ← methodTable (Value.field entries "methods")
      let table ← addTrigger (Value.field entries "trigger_character") table
      let line ← integer entries "line" 102 0
      let col ← integer entries "col" 15 0
      let iterations ← integer entries "iterations" 10 1
      let warmup ← integer entries "warmup" 2 0
      let timeout ← number entries "timeout" (.int 10) 0 true
      let indexTimeout ← number entries "index_timeout" (.int 15) 0 true
      let output ← outputPath (Value.field entries "output")
      let benchmarks ← benchmarks.mapM shown
      let limit ← limitOf (Value.field entries "response")
      let languageId ← shownField entries "language_id" "solidity"
      return {
        project := Path.ofString project, file := file, servers := serverList
        line := line, col := col, iterations := iterations, warmup := warmup
        timeout := timeout, indexTimeout := indexTimeout, output := some output
        benchmarks := benchmarks, responseLimit := limit
        languageId := languageId, methods := table }

def ofValue : Value → Checked Settings
  | .map entries _ => ofEntries entries
  | _ => .error .notMapping

end Latency.Settings
