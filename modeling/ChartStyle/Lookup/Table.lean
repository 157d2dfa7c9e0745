import ChartStyle.Lookup.Rule

/-!
# The lookup table

The rules of one object class and table set are tried in canonical order: more constraints first,
equal counts in file order. The first rule whose constraints are all met draws the feature.
`LookupTable.exclusiveFilter` tells the renderer exactly for which features that is a given rule.
-/

set_option autoImplicit false

namespace ChartStyle

/-- The rules of one object class and table set, in canonical order. -/
structure RuleGroup where
  objectClass : String
  tableSet : TableSet
  rules : List LookupRule
  deriving Inhabited

/-- A table of presentation rules, group by group in the order of their first rules. -/
structure LookupTable where
  groups : List RuleGroup
  deriving Inhabited

namespace LookupTable

/-! ## Building a table -/

/-- Canonical order: more constraints first, then file order. -/
def precedes (a b : LookupRule) : Bool :=
  decide (b.constraints.length < a.constraints.length)
    || (a.constraints.length == b.constraints.length && decide (a.index ≤ b.index))

/-- The object class and table set of a rule. -/
def key (r : LookupRule) : String × TableSet := (r.objectClass, r.tableSet)

/-- The rules of one object class and table set in canonical order. -/
def groupOf (rules : List LookupRule) (k : String × TableSet) : RuleGroup :=
  { objectClass := k.1
    tableSet := k.2
    rules := (rules.filter fun r => key r == k).mergeSort precedes }

/-- The position in the file of the first rule of a group. -/
def RuleGroup.position (g : RuleGroup) : Int := (g.rules.head?.map (·.index)).getD 0

/-- The members of a list without repetitions, in the order of their first occurrence. -/
def distinct {α : Type} [BEq α] (xs : List α) : List α :=
  xs.foldl (fun seen x => if seen.contains x then seen else seen ++ [x]) []

/-- The table of a list of rules. -/
def ofRules (rules : List LookupRule) : LookupTable :=
  { groups := ((distinct (rules.map key)).map (groupOf rules)).mergeSort fun g h =>
      decide (RuleGroup.position g ≤ RuleGroup.position h) }

/-- Reads the records of a table from a position on. -/
def readRecords : Int → List Value → Except Fault (List LookupRule)
  | _, [] => .ok []
  | index, record :: records => do
    let rule ← LookupRule.ofRecord record index
    return rule :: (← readRecords (index + 1) records)

/-- Reads a table from the entries of a table file. -/
def ofRecords (records : List Value) : Except Fault LookupTable :=
  (readRecords 0 records).map ofRules

/-! ## Using a table -/

/-- All rules, group by group. -/
def rules (t : LookupTable) : List LookupRule := t.groups.flatMap (·.rules)

/-- The rules for an object class and table set in canonical order. -/
def rulesFor (t : LookupTable) (objectClass : String) (tableSet : TableSet) : List LookupRule :=
  match t.groups.find? fun g => g.objectClass == objectClass && g.tableSet == tableSet with
  | some g => g.rules
  | none => []

/-- The first rule in canonical order that the attributes meet. -/
def select (t : LookupTable) (a : AttributeSet) (tableSet : TableSet) : Option LookupRule :=
  (t.rulesFor a.objectClass tableSet).find? (·.matchesAttributes a)

/-- The negation of a rule's conditions; a rule without any adds nothing. -/
def refusal : List Expr → Option Expr
  | [] => none
  | [condition] => some (.not condition)
  | conditions => some (.not (.all conditions))

/-- The rules of its group that come before a rule. -/
def earlier (t : LookupTable) (r : LookupRule) : List LookupRule :=
  (t.rulesFor r.objectClass r.tableSet).takeWhile fun e => e.index != r.index

/-- The conditions under which a rule wins: its own, and the negation of each rule of its group
that comes before it. -/
def winningConditions (t : LookupTable) (r : LookupRule) : List Expr :=
  r.conditions ++ (t.earlier r).filterMap fun e => refusal e.conditions

/-- The filter that accepts the features for which a rule wins. -/
def exclusiveFilter (t : LookupTable) (r : LookupRule) : Expr := .all (t.winningConditions r)

/-- The object classes of the table, in the order of its rules. -/
def objectClasses (t : LookupTable) : List String := distinct (t.rules.map (·.objectClass))

end LookupTable

end ChartStyle
