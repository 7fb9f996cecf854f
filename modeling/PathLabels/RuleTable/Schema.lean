import PathLabels.Decimal.Shortest
import PathLabels.Settings
import PathLabels.Text.Quoted
import PathLabels.Toml.Document

/-!
# The written form of a rule table

A rule table is written as a document with the keys `settings` and `rules`. Its members are read
in the order in which they are written, so of several faults the first one counts; missing members
are noticed after all others. A table may also be written as an array of its members in the order
of their declaration, and a surplus of items is passed over.
-/

namespace PathLabels

open Toml (Value Table)

/-- A rule as it is written. -/
structure RawRule where
  label : String
  dirs : List String
  exclusions : List String := []
  deriving Repr, DecidableEq, Inhabited

/-- A rule table as it is written. -/
structure RawTable where
  settings : Settings := {}
  rules : List RawRule := []
  deriving Repr, DecidableEq, Inhabited

/-- What is wrong with a document as a rule table. -/
inductive SchemaFault where
  /-- A value of another kind than the expected one. -/
  | wrongType (found expected : String)
  /-- A value of the expected kind that cannot stand here. -/
  | wrongValue (found expected : String)
  | wrongLength (length : Nat) (expected : String)
  | unknownField (name : String) (expected : List String)
  | missingField (name : String)
  | unknownPolicy (name : String)
  /-- A policy that is neither a text nor a table. -/
  | wantedTextOrTable
  /-- A policy given by a table that does not name exactly one. -/
  | wantedOneElement (few : Bool)
  /-- A policy given by a table, with something in it. -/
  | wantedEmpty (kind : String)
  /-- A policy given by a table, with something else than a table for it. -/
  | wantedTable (found : String)
  deriving Repr, DecidableEq

namespace SchemaFault

/-- A name between backquotes. -/
def backquoted (name : String) : String := "`" ++ name ++ "`"

/-- A list of names from which one is expected. -/
def oneOf : List String → String
  | [a, b] => backquoted a ++ " or " ++ backquoted b
  | names => "one of " ++ String.intercalate ", " (names.map backquoted)

/-- The text shown for a fault. -/
def message : SchemaFault → String
  | wrongType found expected => s!"invalid type: {found}, expected {expected}"
  | wrongValue found expected => s!"invalid value: {found}, expected {expected}"
  | wrongLength length expected => s!"invalid length {length}, expected {expected}"
  | unknownField name expected =>
    "unknown field " ++ backquoted name ++ ", expected " ++ oneOf expected
  | missingField name => "missing field " ++ backquoted name
  | unknownPolicy name =>
    "unknown variant " ++ backquoted name ++ ", expected " ++ oneOf (Policy.every.map Policy.name)
  | wantedTextOrTable => "wanted string or table"
  | wantedOneElement true => "wanted exactly 1 element, found 0 elements"
  | wantedOneElement false => "wanted exactly 1 element, more than 1 element"
  | wantedEmpty kind => s!"expected empty {kind}"
  | wantedTable found => s!"expected table, found {found}"

/-- How a value is named when another one is expected. A date or time counts as a table. -/
def describe : Value → String
  | .string s => "string " ++ Text.quoted s
  | .integer n => "integer " ++ backquoted (toString n)
  | .float x => "floating point " ++ backquoted (Decimal.floatText x)
  | .boolean b => "boolean " ++ backquoted (if b then "true" else "false")
  | .datetime => "map"
  | .array _ => "sequence"
  | .table _ => "map"

end SchemaFault

namespace Schema

/-- The result of reading a part of a document. -/
abbrev Read (α : Type) := Except SchemaFault α

def wrongType {α : Type} (v : Value) (expected : String) : Read α :=
  .error (.wrongType (SchemaFault.describe v) expected)

def text : Value → Read String
  | .string s => .ok s
  | v => wrongType v "a string"

def boolean : Value → Read Bool
  | .boolean b => .ok b
  | v => wrongType v "a boolean"

def count : Value → Read Nat
  | .integer (.ofNat n) => .ok n
  | .integer n => .error (.wrongValue ("integer " ++ SchemaFault.backquoted (toString n)) "usize")
  | v => wrongType v "usize"

def items {α : Type} (item : Value → Read α) : Value → Read (List α)
  | .array vs => vs.mapM item
  | v => wrongType v "a sequence"

/-- A policy: its name, or a table with its name as the only key and nothing under it. -/
def policy : Value → Read Policy
  | .string s => named s
  | .table [] => .error (.wantedOneElement true)
  | .table [(key, v)] => do
    let p ← named key
    match v with
    | .table [] | .array [] => return p
    | .table _ => throw (.wantedEmpty "table")
    | .array _ => throw (.wantedEmpty "array")
    | .string _ => throw (.wantedTable "string")
    | .integer _ => throw (.wantedTable "integer")
    | .float _ => throw (.wantedTable "float")
    | .boolean _ => throw (.wantedTable "boolean")
    | .datetime => throw (.wantedTable "datetime")
  | .table _ => .error (.wantedOneElement false)
  | _ => .error .wantedTextOrTable
where
  named (name : String) : Read Policy :=
    match Policy.ofName? name with
    | some p => .ok p
    | none => .error (.unknownPolicy name)

/-- The key under which a date or time shows its content. -/
def datetimeKey : String := "$__toml_private_datetime"

/-- The members of a value that is read as a structure with named fields. -/
def members? : Value → Option Table
  | .table entries => some entries
  | .datetime => some [(datetimeKey, .string "")]
  | _ => none

/-- Changes one setting. -/
def setting (s : Settings) (key : String) (v : Value) : Read Settings := do
  match key with
  | "policy" => return { s with policy := ← policy v }
  | "max_labels" => return { s with maxLabels := ← count v }
  | "skip_if_labeled" => return { s with skipIfLabeled := ← boolean v }
  | "ignore" => return { s with ignore := ← items text v }
  | _ => throw (.unknownField key settingNames)
where
  settingNames : List String := ["policy", "max_labels", "skip_if_labeled", "ignore"]

def settings (v : Value) : Read Settings :=
  match v, members? v with
  | _, some entries => entries.foldlM (fun s (key, v) => setting s key v) {}
  | .array vs, none => (setting.settingNames.zip vs).foldlM (fun s (key, v) => setting s key v) {}
  | v, none => wrongType v "struct Settings"

/-- The members of a rule that have been read. -/
structure PartialRule where
  label : Option String := none
  dirs : Option (List String) := none
  exclusions : Option (List String) := none

/-- Reads one member of a rule. -/
def ruleMember (r : PartialRule) (key : String) (v : Value) : Read PartialRule := do
  match key with
  | "label" => return { r with label := some (← text v) }
  | "dirs" => return { r with dirs := some (← items text v) }
  | "exclusions" => return { r with exclusions := some (← items text v) }
  | _ => throw (.unknownField key ruleNames)
where
  ruleNames : List String := ["label", "dirs", "exclusions"]

/-- The rule that its members make; `missing` is the fault for a missing one. -/
def PartialRule.complete (r : PartialRule) (missing : Nat → String → SchemaFault) :
    Read RawRule :=
  match r.label, r.dirs with
  | none, _ => .error (missing 0 "label")
  | _, none => .error (missing 1 "dirs")
  | some label, some dirs => .ok { label, dirs, exclusions := r.exclusions.getD [] }

def rule (v : Value) : Read RawRule :=
  match v, members? v with
  | _, some entries => do
    let r ← entries.foldlM (fun r (key, v) => ruleMember r key v) {}
    r.complete fun _ name => .missingField name
  | .array vs, none => do
    let r ← (ruleMember.ruleNames.zip vs).foldlM (fun r (key, v) => ruleMember r key v) {}
    r.complete fun n _ => .wrongLength n "struct RawRule with 3 elements"
  | v, none => wrongType v "struct RawRule"

/-- Reads a member of a whole document. -/
def tableMember (t : RawTable) (key : String) (v : Value) : Read RawTable := do
  match key with
  | "settings" => return { t with settings := ← settings v }
  | "rules" => return { t with rules := ← items rule v }
  | _ => throw (.unknownField key ["settings", "rules"])

end Schema

/-- Reads a document as a rule table. -/
def RawTable.ofDocument (document : Table) : Except SchemaFault RawTable :=
  document.foldlM (fun t (key, v) => Schema.tableMember t key v) {}

end PathLabels
