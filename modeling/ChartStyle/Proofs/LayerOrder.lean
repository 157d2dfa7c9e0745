import ChartStyle.Presentation
import ChartStyle.Proofs.Outcomes
import Mathlib.Data.List.Pairwise
import Mathlib.Data.Prod.Lex

/-!
# The order of the layers

A build draws the features of each table set in turn, the fragments of each feature in turn, and
sorts what it has by priority alone. Since the sort is stable, the layers come out ordered by
priority, then table set, then feature, then fragment; and there is one layer for each fragment of
each feature with a rule (`build_layers_ordered`).
-/

set_option autoImplicit false

namespace ChartStyle

/-! ## Numbering and stable sorting -/

section

variable {α : Type} {a b : α} {xs : List α}

theorem pairwise_zipIdx (xs : List α) (n : Nat) :
    (xs.zipIdx n).Pairwise fun a b => a.2 < b.2 := by
  induction xs generalizing n with
  | nil => exact .nil
  | cons x xs ih =>
    refine List.pairwise_cons.2 ⟨fun entry hentry => ?_, ih (n + 1)⟩
    have hle := (List.mem_zipIdx hentry).1
    show n < entry.2
    omega

theorem pair_sublist_or_swap (ha : a ∈ xs) (hb : b ∈ xs) (hne : a ≠ b) :
    [a, b].Sublist xs ∨ [b, a].Sublist xs := by
  have hsymm : Std.Symm fun a b : α => [a, b].Sublist xs ∨ [b, a].Sublist xs :=
    ⟨fun _ _ => Or.symm⟩
  have hpairs : xs.Pairwise fun a b => [a, b].Sublist xs ∨ [b, a].Sublist xs :=
    List.pairwise_iff_forall_sublist.2 .inl
  exact hpairs.forall ha hb hne

theorem not_pair_sublist_swap (hnodup : xs.Nodup) (hab : [a, b].Sublist xs) :
    ¬[b, a].Sublist xs := by
  induction xs with
  | nil => cases hab
  | cons x xs ih =>
    obtain ⟨hx, hxs⟩ := List.nodup_cons.1 hnodup
    intro hba
    cases hab with
    | cons _ hab =>
      cases hba with
      | cons _ hba => exact ih hxs hab hba
      | cons_cons _ hba => exact hx (hab.subset (by simp))
    | cons_cons _ hab =>
      cases hba with
      | cons _ hba => exact hx (hba.subset (by simp))
      | cons_cons _ hba => exact hx (hab.subset (by simp))

/-- A stable sort keeps the order of those that it does not tell apart. -/
theorem pairwise_mergeSort_of_pairwise {le : α → α → Bool} {R : α → α → Prop}
    (trans : ∀ a b c, le a b = true → le b c = true → le a c = true)
    (total : ∀ a b, (le a b || le b a) = true) (hnodup : xs.Nodup) (h : xs.Pairwise R) :
    (xs.mergeSort le).Pairwise fun a b => le a b = true ∧ (le b a = true → R a b) := by
  have hperm := List.mergeSort_perm xs le
  have hsorted : (xs.mergeSort le).Nodup := hperm.nodup_iff.2 hnodup
  refine (List.pairwise_mergeSort trans total xs).and (List.pairwise_iff_forall_sublist.2 ?_)
  intro a b hab hle
  have hne : a ≠ b := List.pairwise_iff_forall_sublist.1 hsorted hab
  have ha : a ∈ xs := hperm.mem_iff.1 (hab.subset (by simp))
  have hb : b ∈ xs := hperm.mem_iff.1 (hab.subset (by simp))
  cases pair_sublist_or_swap ha hb hne with
  | inl hxs => exact List.pairwise_iff_forall_sublist.1 h hxs
  | inr hxs =>
    -- Sorting would have kept them in the other order.
    have hba := List.pair_sublist_mergeSort trans total hle hxs
    exact absurd hba (not_pair_sublist_swap hsorted hab)

end

/-! ## Drawn fragments -/

/-- The place of a table set among those of one priority. -/
def TableSet.drawingRank : TableSet → Nat
  | .areas => 0
  | .lines => 1
  | .points => 2

/-- A fragment with the feature and the rule that it is drawn for, and with the places of the
feature in the catalog and of the fragment among those of the rule. -/
structure Drawn where
  index : Nat
  feature : Feature
  rule : LookupRule
  position : Nat
  fragment : Fragment

namespace Drawn

variable (p : Presentation) (s : Settings)

/-- The layer of a fragment. -/
def layer (d : Drawn) : Layer := p.layerOf s d.index d.feature d.rule d.position d.fragment

/-- The layer with the priority of its rule. -/
def ranked (d : Drawn) : Presentation.RankedLayer := ⟨d.rule.priority, d.layer p s⟩

/-- The order in which a build draws: by table set, feature and fragment. -/
def arrival (d : Drawn) : ℕ ×ₗ ℕ ×ₗ ℕ :=
  toLex (d.feature.tableSet.drawingRank, toLex (d.index, d.position))

/-- The order of the layers: by the priority of the rule, then as they are drawn. -/
def key (d : Drawn) : ℤ ×ₗ ℕ ×ₗ ℕ ×ₗ ℕ := toLex (d.rule.priority, d.arrival)

/-- The rule is the one of the feature, and the fragment stands in its place among those that the
rule's calls draw. -/
def IsDrawn (d : Drawn) : Prop :=
  p.table.select d.feature.attributeSet d.feature.tableSet = some d.rule ∧
  ∃ fragments,
    (Call.drawAll d.feature.attributeSet (p.context s d.feature.tableSet) d.rule.calls).outcome =
      .ok fragments ∧
    fragments[d.position]? = some d.fragment

end Drawn

/-- The place of a feature in the order in which a build draws. -/
def featureKey (entry : Feature × Nat) : ℕ ×ₗ ℕ := toLex (entry.1.tableSet.drawingRank, entry.2)

theorem Drawn.arrival_lt_of_featureKey_lt {d e : Drawn}
    (h : featureKey (d.feature, d.index) < featureKey (e.feature, e.index)) :
    d.arrival < e.arrival := by
  simp only [featureKey, Prod.Lex.toLex_lt_toLex] at h
  simp only [Drawn.arrival, Prod.Lex.toLex_lt_toLex]
  cases h with
  | inl hrank => exact .inl hrank
  | inr hindex => exact .inr ⟨hindex.1, .inl hindex.2⟩

theorem Drawn.key_lt_of_arrival_lt {d e : Drawn} (hpriority : d.rule.priority ≤ e.rule.priority)
    (h : e.rule.priority ≤ d.rule.priority → d.arrival < e.arrival) : d.key < e.key := by
  simp only [Drawn.key, Prod.Lex.toLex_lt_toLex]
  cases lt_or_ge d.rule.priority e.rule.priority with
  | inl hlt => exact .inl hlt
  | inr hge => exact .inr ⟨Int.le_antisymm hpriority hge, h hge⟩

namespace Presentation

variable (p : Presentation) (s : Settings)

/-- What a feature adds to a build. -/
theorem compileFeature_drawn {index : Nat} {f : Feature} {layers : List RankedLayer}
    (h : (p.compileFeature s index f).outcome = .ok layers) :
    ∃ drawn : List Drawn, layers = drawn.map (Drawn.ranked p s) ∧
      drawn.Pairwise (fun d e => d.arrival < e.arrival) ∧
      ∀ d, d ∈ drawn ↔ d.IsDrawn p s ∧ (d.feature, d.index) = (f, index) := by
  rw [compileFeature] at h
  cases hrule : p.table.select f.attributeSet f.tableSet with
  | none =>
    rw [hrule] at h
    cases h
    refine ⟨[], rfl, .nil, fun d => ⟨fun hd => absurd hd List.not_mem_nil, ?_⟩⟩
    -- Nothing is drawn for a feature without a rule.
    rintro ⟨⟨hselect, -⟩, hplace⟩
    cases hplace
    rw [hrule] at hselect
    cases hselect
  | some rule =>
    rw [hrule] at h
    obtain ⟨fragments, hfragments, hlayers⟩ := Report.outcome_bind_eq_ok_iff.1 h
    cases hlayers
    refine ⟨fragments.zipIdx.map fun entry => ⟨index, f, rule, entry.2, entry.1⟩, ?_, ?_,
      fun d => ?_⟩
    · rw [List.map_map]
      rfl
    · refine List.pairwise_map.2 ((pairwise_zipIdx fragments 0).imp fun hlt => ?_)
      simp only [Drawn.arrival, Prod.Lex.toLex_lt_toLex]
      exact .inr ⟨trivial, .inr ⟨trivial, hlt⟩⟩
    · constructor
      · intro hd
        obtain ⟨⟨fragment, position⟩, hmem, rfl⟩ := List.mem_map.1 hd
        exact ⟨⟨hrule, fragments, hfragments, List.mem_zipIdx_iff_getElem?.1 hmem⟩, rfl⟩
      · rintro ⟨⟨hselect, fragments', hfragments', hfragment⟩, hplace⟩
        obtain ⟨index', f', rule', position, fragment⟩ := d
        cases hplace
        cases hrule.symm.trans hselect
        cases hfragments.symm.trans hfragments'
        exact List.mem_map.2 ⟨(fragment, position), List.mem_zipIdx_iff_getElem?.2 hfragment, rfl⟩

/-- What several features add to a build, one after the other. -/
theorem compileAll_drawn {features : List (Feature × Nat)} {layers : List RankedLayer}
    (h : (p.compileAll s features).outcome = .ok layers)
    (hfeatures : features.Pairwise fun a b => featureKey a < featureKey b) :
    ∃ drawn : List Drawn, layers = drawn.map (Drawn.ranked p s) ∧
      drawn.Pairwise (fun d e => d.arrival < e.arrival) ∧
      ∀ d, d ∈ drawn ↔ d.IsDrawn p s ∧ (d.feature, d.index) ∈ features := by
  induction features generalizing layers with
  | nil =>
    cases h
    exact ⟨[], rfl, .nil, by simp⟩
  | cons entry features ih =>
    obtain ⟨f, index⟩ := entry
    obtain ⟨hfirst, hrest⟩ := List.pairwise_cons.1 hfeatures
    obtain ⟨own, hown, hlater⟩ := Report.outcome_bind_eq_ok_iff.1 h
    obtain ⟨others, hothers, happend⟩ := Report.outcome_bind_eq_ok_iff.1 hlater
    cases happend
    obtain ⟨drawn, rfl, harrival, hmem⟩ := p.compileFeature_drawn s hown
    obtain ⟨drawn', rfl, harrival', hmem'⟩ := ih hothers hrest
    refine ⟨drawn ++ drawn', List.map_append.symm, ?_, fun d => ?_⟩
    · refine List.pairwise_append.2 ⟨harrival, harrival', ?_⟩
      -- What is drawn for the first feature arrives before what is drawn for the others.
      intro d hd e he
      have hplace := ((hmem d).1 hd).2
      apply Drawn.arrival_lt_of_featureKey_lt
      rw [hplace]
      exact hfirst _ ((hmem' e).1 he).2
    · rw [List.mem_append, hmem, hmem', List.mem_cons, ← and_or_left]

/-- The features of a catalog come table set by table set, each with its place. -/
theorem mem_arranged {catalog : Catalog} {f : Feature} {index : Nat} :
    (f, index) ∈ arranged catalog ↔ catalog[index]? = some f := by
  rw [arranged, List.mem_flatMap]
  constructor
  · rintro ⟨tableSet, -, hmem⟩
    exact List.mem_zipIdx_iff_getElem?.1 (List.mem_filter.1 hmem).1
  · intro h
    have hset : f.tableSet ∈ drawingOrder := by cases f.tableSet <;> decide
    exact ⟨f.tableSet, hset,
      List.mem_filter.2 ⟨List.mem_zipIdx_iff_getElem?.2 h, beq_self_eq_true _⟩⟩

theorem pairwise_arranged (catalog : Catalog) :
    (arranged catalog).Pairwise fun a b => featureKey a < featureKey b := by
  have hset {t : TableSet} {entry : Feature × Nat}
      (h : entry ∈ catalog.zipIdx.filter fun entry => entry.1.tableSet == t) :
      entry.1.tableSet = t :=
    eq_of_beq (List.mem_filter.1 h).2
  rw [arranged]
  refine List.pairwise_flatMap.2 ⟨fun t _ => ?_, ?_⟩
  -- Within one table set the features keep their places.
  · refine List.Pairwise.imp_of_mem ?_ ((pairwise_zipIdx catalog 0).filter _)
    intro a b ha hb hlt
    simp only [featureKey, Prod.Lex.toLex_lt_toLex, hset ha, hset hb]
    exact .inr ⟨trivial, hlt⟩
  -- The table sets themselves come in the drawing order.
  · have horder : drawingOrder.Pairwise fun t u => t.drawingRank < u.drawingRank := by decide
    apply horder.imp
    intro t u hlt a ha b hb
    simp only [featureKey, Prod.Lex.toLex_lt_toLex, hset ha, hset hb]
    exact .inl hlt

/-- The layers of a build are one for each fragment that is drawn for a feature with a rule, sorted
by the priority of the rule from the order of their arrival. -/
theorem exists_drawn_of_build {catalog : Option Catalog} {layers : List Layer}
    (h : (p.build s catalog).outcome = .ok layers) :
    ∃ drawn : List Drawn,
      layers = (drawn.mergeSort fun d e => decide (d.rule.priority ≤ e.rule.priority)).map
        (Drawn.layer p s) ∧
      drawn.Pairwise (fun d e => d.arrival < e.arrival) ∧
      ∀ d, d ∈ drawn ↔
        d.IsDrawn p s ∧ (catalog.getD (Catalog.ofTable p.table))[d.index]? = some d.feature := by
  obtain ⟨ranked, hranked, hlayers⟩ := Report.outcome_bind_eq_ok_iff.1 h
  cases hlayers
  obtain ⟨-, -, hranked⟩ := Report.outcome_bind_eq_ok_iff.1 hranked
  obtain ⟨arrived, harrived, hranked⟩ := Report.outcome_bind_eq_ok_iff.1 hranked
  cases hranked
  obtain ⟨drawn, rfl, harrival, hmem⟩ := p.compileAll_drawn s harrived (pairwise_arranged _)
  have hsort : sortLayers (drawn.map (Drawn.ranked p s)) =
      (drawn.mergeSort fun d e => decide (d.rule.priority ≤ e.rule.priority)).map
        (Drawn.ranked p s) := by
    rw [sortLayers]
    exact (List.map_mergeSort (f := Drawn.ranked p s) fun _ _ _ _ => rfl).symm
  refine ⟨drawn, ?_, harrival, fun d => ?_⟩
  · rw [hsort, List.map_map]
    rfl
  · rw [hmem, mem_arranged]

/-- No fragment arrives twice. -/
theorem nodup_of_arrivals {drawn : List Drawn}
    (h : drawn.Pairwise fun d e => d.arrival < e.arrival) : drawn.Nodup :=
  h.imp fun hlt => ne_of_apply_ne Drawn.arrival hlt.ne

/-- The layers of a build are one for each fragment that is drawn for a feature with a rule, and
they are strictly ordered by the priority of the rule, the table set, the place of the feature in
the catalog, and the place of the fragment in the rule. -/
theorem build_layers_ordered {catalog : Option Catalog} {layers : List Layer}
    (h : (p.build s catalog).outcome = .ok layers) :
    ∃ drawn : List Drawn, layers = drawn.map (Drawn.layer p s) ∧
      drawn.Pairwise (fun d e => d.key < e.key) ∧
      ∀ d, d ∈ drawn ↔
        d.IsDrawn p s ∧ (catalog.getD (Catalog.ofTable p.table))[d.index]? = some d.feature := by
  obtain ⟨drawn, rfl, harrival, hmem⟩ := p.exists_drawn_of_build s h
  refine ⟨drawn.mergeSort fun d e => decide (d.rule.priority ≤ e.rule.priority), rfl, ?_,
    fun d => ?_⟩
  -- Sorting keeps the order of arrival among fragments of one priority.
  · refine (pairwise_mergeSort_of_pairwise ?_ ?_ (nodup_of_arrivals harrival) harrival).imp
      fun h => ?_
    · intro a b c hab hbc
      exact decide_eq_true (Int.le_trans (of_decide_eq_true hab) (of_decide_eq_true hbc))
    · intro a b
      rw [Bool.or_eq_true, decide_eq_true_iff, decide_eq_true_iff]
      exact Int.le_total _ _
    · exact Drawn.key_lt_of_arrival_lt (of_decide_eq_true h.1) fun hge => h.2 (decide_eq_true hge)
  · rw [(List.mergeSort_perm drawn _).mem_iff, hmem]

/-! ## A small chart -/

/-- A rule that draws every area in a colour, with an outline. -/
def areaRule : LookupRule where
  objectClass := "DEPARE"
  tableSet := .areas
  constraints := []
  instruction := "AC(DEPVS);LS(SOLD,1,CHGRD)"
  priority := 1
  category := .displayBase
  viewingGroup := 13030
  index := 0
  calls := [⟨.ac, [.text "DEPVS"]⟩, ⟨.ls, [.text "SOLD", .int 1, .text "CHGRD"]⟩]

/-- A rule of the same priority that draws every contour. -/
def contourRule : LookupRule where
  objectClass := "DEPCNT"
  tableSet := .lines
  constraints := []
  instruction := "LS(DASH,1,CHGRD)"
  priority := 1
  category := .displayBase
  viewingGroup := 33020
  index := 1
  calls := [⟨.ls, [.text "DASH", .int 1, .text "CHGRD"]⟩]

/-- A chart with the two rules. -/
def smallChart : Presentation where
  table := ⟨[⟨"DEPARE", .areas, [areaRule]⟩, ⟨"DEPCNT", .lines, [contourRule]⟩]⟩
  registry := default
  palette :=
    { day := [("DEPVS", "#61b7ff"), ("CHGRD", "#4c5b63")]
      dusk := [("DEPVS", "#3d75a3"), ("CHGRD", "#303a3f")]
      night := [("DEPVS", "#1d3950"), ("CHGRD", "#171c1f")] }
  checked := by decide +kernel

/-- A contour, a feature of a class without rules, and an area, in the order of their arrival. -/
def smallCatalog : Catalog :=
  [⟨"DEPCNT", .lines, [], .null⟩, ⟨"LNDMRK", .points, [], .null⟩, ⟨"DEPARE", .areas, [], .null⟩]

theorem isOk_build_smallChart : (smallChart.build {} (some smallCatalog)).outcome.isOk = true := by
  decide +kernel

/-- The small chart can be built, so its layers are ordered. -/
theorem build_layers_ordered_smallChart :
    ∃ layers, (smallChart.build {} (some smallCatalog)).outcome = .ok layers ∧
      ∃ drawn : List Drawn, layers = drawn.map (Drawn.layer smallChart {}) ∧
        drawn.Pairwise (fun d e => d.key < e.key) ∧
        ∀ d, d ∈ drawn ↔
          d.IsDrawn smallChart {} ∧ smallCatalog[d.index]? = some d.feature := by
  cases h : (smallChart.build {} (some smallCatalog)).outcome with
  | error fault =>
    have hok := isOk_build_smallChart
    rw [h] at hok
    cases hok
  | ok layers => exact ⟨layers, rfl, build_layers_ordered smallChart {} h⟩

end Presentation

end ChartStyle
