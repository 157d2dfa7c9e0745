import ChartStyle.Lookup.Table

/-!
# The bundled rules

The lookup table that comes with the library. Rules of one object class and table set are tried in
canonical order, so the fallback of a class may stand anywhere among its rules.
-/

set_option autoImplicit false

namespace ChartStyle.Bundled

/-- A rule as the table lists it. -/
structure RuleRow where
  objectClass : String
  tableSet : TableSet
  /-- The constraints: an expected value, or none where it is enough that there is one. -/
  constraints : List (String × Option String)
  instruction : String
  priority : Int
  category : DisplayCategory
  viewingGroup : Int

/-- The bundled rules. -/
def ruleRows : List RuleRow := [
  ⟨"DEPARE", .areas, [], "CS(DEPARE01)", 1, .displayBase, 13030⟩,
  ⟨"DRGARE", .areas, [], "CS(DEPARE01)", 1, .displayBase, 13030⟩,
  ⟨"LNDARE", .areas, [], "AC(LANDA)", 1, .displayBase, 12010⟩,
  ⟨"BUAARE", .areas, [], "AC(CHBRN,2);LS(SOLD,1,LANDF)", 2, .standard, 22240⟩,
  ⟨"OBSTRN", .areas, [], "CS(OBSTRN04)", 4, .base, 34050⟩,
  ⟨"WRECKS", .areas, [], "CS(WRECKS02)", 4, .base, 34050⟩,
  ⟨"RESARE", .areas, [("RESTRN", some "7")], "AP(FOULAR01);LS(DASH,2,TRFCD)", 2, .standard, 26010⟩,
  ⟨"RESARE", .areas, [], "LS(DASH,2,TRFCD)", 2, .standard, 26010⟩,
  ⟨"SEAARE", .areas, [("OBJNAM", none)], "TX(OBJNAM,1,2,3,'15112',0,0,CHBLK,26)", 2, .other, 26⟩,
  ⟨"DEPCNT", .lines, [], "CS(DEPCNT02)", 3, .base, 33020⟩,
  ⟨"COALNE", .lines, [], "LS(SOLD,2,CSTLN)", 4, .displayBase, 12410⟩,
  ⟨"CBLSUB", .lines, [], "LC(CBLSUB06)", 3, .other, 34070⟩,
  ⟨"PIPSOL", .lines, [], "LC(PIPSOL06)", 3, .other, 34070⟩,
  ⟨"NAVLNE", .lines, [], "LS(DASH,1,CHGRD)", 3, .standard, 25010⟩,
  ⟨"BOYLAT", .points, [("CATLAM", some "1"), ("COLOUR", some "3")],
    "SY(BOYLAT13);TE('%s','OBJNAM',3,1,2,'15110',1,0,CHBLK,21)", 5, .base, 17010⟩,
  ⟨"BOYLAT", .points, [("CATLAM", some "2"), ("COLOUR", some "4")],
    "SY(BOYLAT14);TE('%s','OBJNAM',3,1,2,'15110',1,0,CHBLK,21)", 5, .base, 17010⟩,
  ⟨"BOYLAT", .points, [("CATLAM", some "1")], "SY(BOYLAT12)", 5, .base, 17010⟩,
  ⟨"BOYLAT", .points, [("CATLAM", some "2")], "SY(BOYLAT24)", 5, .base, 17010⟩,
  ⟨"BOYLAT", .points, [], "SY(BOYDEF03)", 5, .base, 17010⟩,
  ⟨"BOYCAR", .points, [("CATCAM", some "1")], "SY(BOYCAR01)", 5, .base, 17010⟩,
  ⟨"BOYCAR", .points, [("CATCAM", some "2")], "SY(BOYCAR02)", 5, .base, 17010⟩,
  ⟨"BOYCAR", .points, [("CATCAM", some "3")], "SY(BOYCAR03)", 5, .base, 17010⟩,
  ⟨"BOYCAR", .points, [("CATCAM", some "4")], "SY(BOYCAR04)", 5, .base, 17010⟩,
  ⟨"BOYCAR", .points, [], "SY(BOYDEF03)", 5, .base, 17010⟩,
  ⟨"BCNLAT", .points, [("CATLAM", some "1")], "SY(BCNLAT15,ORIENT)", 5, .base, 17010⟩,
  ⟨"BCNLAT", .points, [("CATLAM", some "2")], "SY(BCNLAT16,ORIENT)", 5, .base, 17010⟩,
  ⟨"BCNLAT", .points, [], "SY(BCNDEF13)", 5, .base, 17010⟩,
  ⟨"LIGHTS", .points, [], "CS(LIGHTS05)", 6, .standard, 27070⟩,
  ⟨"SOUNDG", .points, [], "CS(SOUNDG02)", 4, .other, 33010⟩,
  ⟨"WRECKS", .points, [], "CS(WRECKS02)", 4, .base, 34050⟩,
  ⟨"OBSTRN", .points, [], "CS(OBSTRN04)", 4, .base, 34050⟩,
  ⟨"LNDMRK", .points, [("OBJNAM", none)], "SY(DANGER01);TX(OBJNAM,3,2,2,'15110',1,0,CHBLK,26)",
    5, .standard, 22220⟩]

/-- The rule of a row at a position of the table. -/
def RuleRow.rule (row : RuleRow) (index : Nat) : Except Fault LookupRule := do
  let calls ← parseInstructions row.instruction (some row.objectClass)
  return {
    objectClass := row.objectClass
    tableSet := row.tableSet
    constraints := row.constraints.map fun (code, expected) => { code, expected }
    instruction := row.instruction
    priority := row.priority
    category := row.category
    viewingGroup := row.viewingGroup
    index
    calls }

/-- The bundled lookup table. -/
def table : Except Fault LookupTable := do
  let rules ← ruleRows.zipIdx.mapM fun (row, index) => row.rule index
  return LookupTable.ofRules rules

end ChartStyle.Bundled
