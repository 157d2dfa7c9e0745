import ChartStyle.Proofs.ExclusiveFilter
import ChartStyle.Proofs.LayerOrder

/-!
# The values that a filter pins

A layer of a group holds what was computed from the values of the group. Its filter pins these
values: it accepts a tile feature only with the same values (`compileFeature_pins`), except for an
attribute that the rule merely asks to be there. Of such an attribute the filter says no more than
the rule, so the layer is drawn for features with other values too
(`compileFeature_presence_unpinned`).
-/

set_option autoImplicit false

namespace ChartStyle

/-- The rule looks at the attribute, but only to see that it is there. -/
def LookupRule.AsksPresence (rule : LookupRule) (code : String) : Prop :=
  (∃ c ∈ rule.constraints, c.code = code) ∧
    ∀ c ∈ rule.constraints, c.code = code → c.expected = none

/-- The text that the renderer has for an attribute, the empty one when the feature lacks it. -/
def Renderer.textOf (r : Renderer) (T : TileFeature) (code : String) : String :=
  r.text ((T.find? code).getD .null)

/-- The renderer draws the layer for a tile feature of its source layer. -/
def Layer.drawsFor (r : Renderer) (T : TileFeature) (l : Layer) : Bool :=
  match l.filter with
  | some filter => r.accepts T filter
  | none => true

section Conditions

variable {r : Renderer} {T : TileFeature} {code : String}

theorem eval_textOf (code s : String) :
    r.eval T (.equal (.toText (.get code)) (.text s)) = some (.bool (r.textOf T code == s)) := by
  simp [Renderer.eval, Expr.text, Renderer.textOf, Value.equals]

/-- A feature with a text for an attribute has the attribute. -/
theorem isSome_of_textOf_ne (h : r.textOf T code ≠ "") : (T.find? code).isSome = true := by
  cases hfind : T.find? code with
  | some v => rfl
  | none =>
    rw [Renderer.textOf, hfind] at h
    exact absurd r.text_null h

theorem textOf_of_condition {c : Constraint} {expected : String} (hc : c.expected = some expected)
    (h : r.eval T c.condition = some (.bool true)) : r.textOf T c.code = expected := by
  rw [Constraint.condition, hc] at h
  simpa [eval_textOf] using h

theorem has_of_condition {c : Constraint} (hc : c.expected = none)
    (h : r.eval T c.condition = some (.bool true)) : (T.find? c.code).isSome = true := by
  rw [Constraint.condition, hc] at h
  simpa [Renderer.eval] using h

end Conditions

namespace AttributeSet

variable {a : AttributeSet} {code : String}

theorem has_of_isKnown (h : a.isKnown code = true) : a.has code = true := by
  rw [isKnown, Bool.and_eq_true] at h
  exact h.1

theorem mem_codes_of_has (h : a.has code = true) : code ∈ a.entries.map (·.1) := by
  rw [has] at h
  cases hfind : a.find? code with
  | none =>
    rw [hfind] at h
    cases h
  | some v =>
    obtain ⟨before, after, hentries, -⟩ := List.lookup_eq_some_iff.1 hfind
    rw [hentries]
    simp

end AttributeSet

namespace Presentation

variable {p : Presentation} {rule : LookupRule} {f : Feature} {code : String}

/-- The codes of a group that its rule does not constrain are pinned. -/
theorem mem_pinnedCodes (hknown : f.attributeSet.isKnown code = true)
    (hfree : ∀ c ∈ rule.constraints, c.code ≠ code) : code ∈ pinnedCodes rule f := by
  have hcode := AttributeSet.mem_codes_of_has (AttributeSet.has_of_isKnown hknown)
  have hany : rule.constraints.any (·.code == code) = false := by
    rw [List.any_eq_false]
    intro c hc
    simpa using hfree c hc
  rw [pinnedCodes, List.mem_filter, List.mem_mergeSort, hany, hknown]
  exact ⟨hcode, rfl⟩

/-- A filter looks at the geometry, at the conditions under which its rule wins, and at the values
that are pinned. -/
theorem accepts_filter_iff {r : Renderer} {T : TileFeature} (hlong : f.longName.isPresent = false) :
    r.accepts T (p.filter rule f) = true ↔
      T.geometry = f.tableSet.geometry ∧
      (∀ e ∈ p.table.winningConditions rule, r.eval T e = some (.bool true)) ∧
      ∀ code ∈ pinnedCodes rule f, r.textOf T code = (f.attributeSet.raw code).normalForm := by
  rw [filter, hlong, if_neg Bool.false_ne_true, Renderer.accepts_all_iff, List.forall_mem_cons,
    List.forall_mem_append, List.forall_mem_map]
  refine and_congr ?_ (and_congr Iff.rfl (forall₂_congr fun code _ => ?_))
  · simp [Renderer.eval, Expr.text, Value.equals]
  · rw [pin, eval_textOf]
    simp

/-- The constraints of its rule hold where a filter accepts. -/
theorem condition_of_accepts {r : Renderer} {T : TileFeature} (hlong : f.longName.isPresent = false)
    (haccepts : r.accepts T (p.filter rule f) = true) {c : Constraint} (hc : c ∈ rule.constraints) :
    r.eval T c.condition = some (.bool true) :=
  ((accepts_filter_iff hlong).1 haccepts).2.1 _ (List.mem_append_left _ (List.mem_map_of_mem hc))

theorem normalForm_of_holds {c : Constraint} {a : AttributeSet} {expected : String}
    (hc : c.expected = some expected) (h : c.holds a = true) :
    (a.raw c.code).normalForm = expected := by
  rw [Constraint.holds, hc, Bool.and_eq_true] at h
  exact eq_of_beq h.2

/-- A filter pins the values of the group, save those that the rule only asks to be there. -/
theorem filter_pins {r : Renderer} {T : TileFeature}
    (hselect : p.table.select f.attributeSet f.tableSet = some rule)
    (hlong : f.longName.isPresent = false) (haccepts : r.accepts T (p.filter rule f) = true)
    (hknown : f.attributeSet.isKnown code = true) (hpresence : ¬ rule.AsksPresence code) :
    r.textOf T code = (f.attributeSet.raw code).normalForm := by
  obtain ⟨-, -, hpinned⟩ := (accepts_filter_iff hlong).1 haccepts
  rw [LookupTable.select] at hselect
  have hmatches := List.find?_some hselect
  rw [LookupRule.matchesAttributes, List.all_eq_true] at hmatches
  by_cases hfree : ∀ c ∈ rule.constraints, c.code ≠ code
  -- What the rule does not constrain has a pin of its own.
  · exact hpinned code (mem_pinnedCodes hknown hfree)
  -- The rule expects a text, and it was selected because the group has just this text.
  · simp only [not_forall, not_not] at hfree
    obtain ⟨c, hc, hcode⟩ := hfree
    obtain ⟨c, hc, rfl, hexpected⟩ : ∃ c ∈ rule.constraints, c.code = code ∧ c.expected ≠ none := by
      by_contra hnone
      simp only [not_exists, not_and, not_not] at hnone
      exact hpresence ⟨⟨c, hc, hcode⟩, hnone⟩
    obtain ⟨expected, hexpected⟩ := Option.ne_none_iff_exists'.1 hexpected
    rw [textOf_of_condition hexpected (condition_of_accepts hlong haccepts hc),
      normalForm_of_holds hexpected (hmatches c hc)]

/-- The layers of a group are drawn only for tile features that carry the values which the group was
compiled with. A value without a text is not told from a missing one; and of an attribute that the
rule only asks to be there, the feature may have any value. -/
theorem compileFeature_pins (p : Presentation) (s : Settings) (r : Renderer) {index : Nat}
    {f : Feature} {layers : List RankedLayer} (hlong : f.longName.isPresent = false)
    (hlayers : (p.compileFeature s index f).outcome = .ok layers) {ranked : RankedLayer}
    (hranked : ranked ∈ layers) {T : TileFeature} (hdraws : ranked.layer.drawsFor r T = true) :
    ∃ rule, p.table.select f.attributeSet f.tableSet = some rule ∧
      ∀ code, f.attributeSet.isKnown code = true →
        (¬ rule.AsksPresence code → r.textOf T code = (f.attributeSet.raw code).normalForm) ∧
        (rule.AsksPresence code ∨ (f.attributeSet.raw code).normalForm ≠ "" →
          (T.find? code).isSome = true) := by
  obtain ⟨drawn, rfl, -, hdrawn⟩ := p.compileFeature_drawn s hlayers
  obtain ⟨d, hd, rfl⟩ := List.mem_map.1 hranked
  obtain ⟨⟨hselect, -⟩, hplace⟩ := (hdrawn d).1 hd
  obtain ⟨rfl, rfl⟩ := Prod.mk.inj hplace
  have haccepts : r.accepts T (p.filter d.rule d.feature) = true := hdraws
  refine ⟨d.rule, hselect, fun code hknown => ?_⟩
  have hpins := filter_pins hselect hlong haccepts hknown
  refine ⟨hpins, fun h => ?_⟩
  by_cases hpresence : d.rule.AsksPresence code
  · obtain ⟨⟨c, hc, rfl⟩, hnone⟩ := hpresence
    exact has_of_condition (hnone c hc rfl) (condition_of_accepts hlong haccepts hc)
  · refine isSome_of_textOf_ne (r := r) ?_
    rw [hpins hpresence]
    exact h.resolve_left hpresence

/-! ## Named sea areas -/

/-- A rule that writes the name on sea areas of the second category that have a name. -/
def seaNameRule : LookupRule where
  objectClass := "SEAARE"
  tableSet := .areas
  constraints := [⟨"CATSEA", some "2"⟩, ⟨"OBJNAM", none⟩]
  instruction := "TX(OBJNAM)"
  priority := 2
  category := .other
  viewingGroup := 26
  index := 0
  calls := [⟨.tx, [.attribute "OBJNAM"]⟩]

/-- A chart with this rule. -/
def seaChart : Presentation where
  table := ⟨[⟨"SEAARE", .areas, [seaNameRule]⟩]⟩
  registry := default
  palette :=
    { day := [("CHBLK", "#000000"), ("NODTA", "#c9edff")]
      dusk := [("CHBLK", "#888888"), ("NODTA", "#3d75a3")]
      night := [("CHBLK", "#444444"), ("NODTA", "#1d3950")] }
  checked := by decide +kernel

/-- A group of sea areas with one name. -/
def northSea : Feature where
  objectClass := "SEAARE"
  tableSet := .areas
  attributes := [("CATSEA", .int 2), ("OBJNAM", .text "North Sea"), ("SCAMIN", .int 500)]
  longName := .null

/-- A sea area of the group, but for its name. -/
def seaArea (name : String) : TileFeature where
  id := .null
  geometry := "Polygon"
  properties := [("CATSEA", .int 2), ("OBJNAM", .text name), ("SCAMIN", .int 500)]

/-- The fragment writes this very text on every feature. -/
def writes (fragment : Fragment) (text : String) : Bool :=
  match fragment.layout.lookup "text-field" with
  | some (.value (.text s)) => s == text
  | _ => false

/-- The layer of an outcome with one layer. -/
def soleLayer? : Except Fault (List RankedLayer) → Option RankedLayer
  | .ok [ranked] => some ranked
  | _ => none

theorem outcome_of_soleLayer? {outcome : Except Fault (List RankedLayer)} {ranked : RankedLayer}
    (h : soleLayer? outcome = some ranked) : outcome = .ok [ranked] := by
  unfold soleLayer? at h
  split at h
  · cases h
    rfl
  · cases h

theorem select_northSea :
    seaChart.table.select northSea.attributeSet northSea.tableSet = some seaNameRule := by
  have hmatches : seaNameRule.matchesAttributes northSea.attributeSet = true := by decide +kernel
  exact List.find?_cons_of_pos hmatches

theorem isNormal_southSea : (seaArea "South Sea").IsNormal .standard := by
  intro code v hv
  obtain ⟨before, after, hproperties, -⟩ := List.lookup_eq_some_iff.1 hv
  have hmem : (code, v) ∈ (seaArea "South Sea").properties := by
    rw [hproperties]
    simp
  simp only [seaArea, List.mem_cons, Prod.mk.injEq, List.not_mem_nil, or_false] at hmem
  rcases hmem with ⟨rfl, rfl⟩ | ⟨rfl, rfl⟩ | ⟨rfl, rfl⟩
  · exact ⟨rfl, by decide +kernel⟩
  · exact ⟨rfl, by decide +kernel⟩
  · exact ⟨rfl, by decide +kernel⟩

/-- The filter of the group accepts sea areas of any name. -/
theorem accepts_seaArea (name : String) :
    Renderer.standard.accepts (seaArea name) (seaChart.filter seaNameRule northSea) = true := by
  refine (accepts_filter_iff rfl).2 ⟨rfl, ?_, ?_⟩
  · have hconditions : seaChart.table.winningConditions seaNameRule = seaNameRule.conditions := rfl
    rw [hconditions]
    intro e he
    simp only [LookupRule.conditions, seaNameRule, List.map_cons, List.map_nil, List.mem_cons,
      List.not_mem_nil, or_false] at he
    rcases he with rfl | rfl
    · exact (eval_textOf "CATSEA" "2").trans rfl
    · rfl
  · intro code hcode
    obtain ⟨hkey, hpinned⟩ := List.mem_filter.1 hcode
    rw [List.mem_mergeSort] at hkey
    simp only [northSea, List.map_cons, List.map_nil, List.mem_cons, List.not_mem_nil, or_false]
      at hkey
    rcases hkey with rfl | rfl | rfl
    · exact absurd hpinned (by decide)
    · exact absurd hpinned (by decide)
    · have hnormal : (northSea.attributeSet.raw "SCAMIN").normalForm = "500" := by decide +kernel
      rw [hnormal]
      rfl

/-- The name of the group is written on a sea area with another name. -/
theorem exists_layer_southSea :
    ∃ ranked, (seaChart.compileFeature {} 0 northSea).outcome = .ok [ranked] ∧
      ranked.layer.drawsFor .standard (seaArea "South Sea") = true ∧
      writes ranked.layer.fragment "North Sea" = true := by
  have hcompile : (soleLayer? (seaChart.compileFeature {} 0 northSea).outcome).any
      (writes ·.layer.fragment "North Sea") = true := by decide +kernel
  obtain ⟨ranked, hsole, hwrites⟩ := (Option.any_eq_true _ _).1 hcompile
  have houtcome := outcome_of_soleLayer? hsole
  obtain ⟨drawn, hlayers, -, hdrawn⟩ := seaChart.compileFeature_drawn {} houtcome
  obtain ⟨d, hd, rfl⟩ := List.mem_map.1 (hlayers ▸ List.mem_singleton_self ranked)
  obtain ⟨⟨hselect, -⟩, hplace⟩ := (hdrawn d).1 hd
  obtain ⟨hfeature, -⟩ := Prod.mk.inj hplace
  rw [hfeature, select_northSea] at hselect
  refine ⟨_, houtcome, ?_, hwrites⟩
  show Renderer.standard.accepts _ (seaChart.filter d.rule d.feature) = true
  rw [hfeature, ← Option.some.inj hselect]
  exact accepts_seaArea "South Sea"

/-- The layers of a group with a name that its rule only asks to be there are drawn for features
with another name. -/
theorem compileFeature_presence_unpinned :
    ∃ layers, (seaChart.compileFeature {} 0 northSea).outcome = .ok layers ∧
      northSea.longName.isPresent = false ∧ northSea.attributeSet.isKnown "OBJNAM" = true ∧
      ∃ ranked ∈ layers, (seaArea "South Sea").IsNormal .standard ∧
        ranked.layer.drawsFor .standard (seaArea "South Sea") = true ∧
        writes ranked.layer.fragment "North Sea" = true ∧
        Renderer.standard.textOf (seaArea "South Sea") "OBJNAM" ≠
          (northSea.attributeSet.raw "OBJNAM").normalForm := by
  obtain ⟨ranked, houtcome, hdraws, hwrites⟩ := exists_layer_southSea
  exact ⟨[ranked], houtcome, rfl, rfl, ranked, List.mem_singleton_self ranked, isNormal_southSea,
    hdraws, hwrites, by decide +kernel⟩

/-- The category and the scale of the group are pinned for the sea area with another name. -/
theorem compileFeature_pins_southSea :
    ∃ ranked, (seaChart.compileFeature {} 0 northSea).outcome = .ok [ranked] ∧
      ranked.layer.drawsFor .standard (seaArea "South Sea") = true ∧
      ∃ rule, seaChart.table.select northSea.attributeSet northSea.tableSet = some rule ∧
        ∀ code, northSea.attributeSet.isKnown code = true →
          (¬ rule.AsksPresence code → Renderer.standard.textOf (seaArea "South Sea") code =
            (northSea.attributeSet.raw code).normalForm) ∧
          (rule.AsksPresence code ∨ (northSea.attributeSet.raw code).normalForm ≠ "" →
            ((seaArea "South Sea").find? code).isSome = true) := by
  obtain ⟨ranked, houtcome, hdraws, -⟩ := exists_layer_southSea
  exact ⟨ranked, houtcome, hdraws, compileFeature_pins seaChart {} .standard rfl houtcome
    (List.mem_singleton_self ranked) hdraws⟩

end Presentation

end ChartStyle
