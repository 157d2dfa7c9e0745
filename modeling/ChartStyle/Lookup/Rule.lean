import ChartStyle.Attributes
import ChartStyle.Instruction.Parser
import ChartStyle.Lookup.Normal
import ChartStyle.Names

/-!
# Lookup rules

A `LookupRule` says how features of one object class and geometry are drawn when their attributes
meet its constraints. `LookupRule.matchesAttributes` decides that now; `LookupRule.conditions`
are the same constraints for the renderer.
-/

set_option autoImplicit false

namespace ChartStyle

/-- A requirement on one attribute. -/
structure Constraint where
  code : String
  /-- The normal form that the value must have; with none it is enough that there is a value. -/
  expected : Option String
  deriving DecidableEq, Inhabited

namespace Constraint

/-- The attributes meet the constraint. -/
def holds (c : Constraint) (a : AttributeSet) : Bool :=
  a.has c.code &&
    match c.expected with
    | none => true
    | some expected => (a.raw c.code).normalForm == expected

/-- The constraint for the renderer. -/
def condition (c : Constraint) : Expr :=
  match c.expected with
  | none => .has c.code
  | some expected => .equal (.toText (.get c.code)) (.text expected)

/-- The constraint in the name of a rule. -/
def label (c : Constraint) : String := c.code ++ c.expected.getD ""

end Constraint

/-- One presentation rule. -/
structure LookupRule where
  objectClass : String
  tableSet : TableSet
  constraints : List Constraint
  /-- The instruction string as it stands in the table. -/
  instruction : String
  /-- Lower priorities are drawn first. -/
  priority : Int
  category : DisplayCategory
  viewingGroup : Int
  /-- The position in the table file. -/
  index : Int
  /-- The instruction string, read. -/
  calls : List Call
  deriving Inhabited

namespace LookupRule

/-- The name of a rule in messages: class, table set, constraints and position. -/
def name (r : LookupRule) : String :=
  let labels := ",".intercalate (r.constraints.map Constraint.label)
  s!"{r.objectClass}[{r.tableSet.name}]({labels})#{r.index}"

/-- All constraints are met. -/
def matchesAttributes (r : LookupRule) (a : AttributeSet) : Bool :=
  r.constraints.all (·.holds a)

/-- The constraints for the renderer. -/
def conditions (r : LookupRule) : List Expr := r.constraints.map (·.condition)

/-! ## Reading a record -/

/-- A fault in a field of a rule as the error that names the rule: a missing field, a value of
the wrong type or one that cannot be read. Other faults stay as they are. -/
def blame {α : Type} (label : String) : Except Fault α → Except Fault α
  | .error (.data fault) =>
    match fault.faultClass with
    | .missingKey | .wrongType | .badValue =>
      .error (.configuration (.invalidRule fault) (some label))
    | _ => .error (.data fault)
  | outcome => outcome

/-- The fields of a rule before its constraints and its instruction string are read. -/
structure Header where
  objectClass : String
  tableSet : TableSet
  instruction : String
  priority : Int
  category : DisplayCategory
  viewingGroup : Int

/-- Reads the fields of a record. -/
def Header.ofEntries (entries : Entries) : Except Fault Header := do
  let objectClass ← entries.require "object_class"
  let tableSet ← TableSet.parse (← entries.require "table_set")
  let instruction := (entries.getD "instruction").orElse (.text "")
  let priority ← (← entries.require "priority").toInt
  let category ← DisplayCategory.parse ((entries.get? "category").getD (.text "STANDARD"))
  let viewingGroup ← ((entries.get? "viewing_group").getD (.int 0)).toInt
  return {
    objectClass := Text.upper (Text.trimmed objectClass.plain)
    tableSet
    instruction := instruction.plain
    priority
    category
    viewingGroup }

/-- Reads the constraints of a record. -/
def constraintsOf (v : Value) (label : String) : Except Fault (List Constraint) :=
  match v.orElse (.map []) with
  | .map entries =>
    .ok (entries.map fun (code, value) =>
      { code := Text.upper (Text.trimmed code.plain)
        expected :=
          match value with
          | .null => none
          | v => some v.normalForm })
  | _ => .error (.configuration .attributesNotAMapping (some label))

/-- Reads a rule from an entry of a table file. -/
def ofRecord (record : Value) (index : Int) : Except Fault LookupRule := do
  let entries ← record.entries
  let objectClass := (entries.get? "object_class").getD (.text "?")
  let label := s!"#{index} {objectClass.plain}"
  let header ← blame label (Header.ofEntries entries)
  let constraints ← constraintsOf (entries.getD "attributes") label
  let calls ← parseInstructions header.instruction (some s!"{label} {header.instruction}")
  return {
    objectClass := header.objectClass
    tableSet := header.tableSet
    constraints
    instruction := header.instruction
    priority := header.priority
    category := header.category
    viewingGroup := header.viewingGroup
    index
    calls }

end LookupRule

end ChartStyle
