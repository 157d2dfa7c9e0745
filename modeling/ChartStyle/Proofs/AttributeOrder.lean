import ChartStyle.Proofs.DrawnCalls
import ChartStyle.Proofs.LostLayers
import ChartStyle.Proofs.ProcedureDependence

/-!
# The order of attributes

The attributes of a feature are a mapping that is kept as a list. Almost everything reads it by
code: features whose lists have the same entries, each code once, agree on every code
(`Feature.IsReordering.agrees`), so rules, procedures and texts do not tell them apart. The filter
of a group goes through the list itself, and sorts its codes, for which there is one way
(`Presentation.pinnedCodes_reordered`). Catalogs that differ in the order of attributes alone give
the same layers with the same events (`Presentation.build_reordered`).
-/

set_option autoImplicit false

namespace ChartStyle

/-! ## Lists of entries in another order -/

section

variable {β : Type} {entries entries' : List (String × β)}

/-- An entry is found under its name where no other entry has that name. -/
theorem lookup_eq_some_iff_mem (h : (entries.map (·.1)).Nodup) {name : String} {value : β} :
    entries.lookup name = some value ↔ (name, value) ∈ entries := by
  constructor
  · exact mem_of_lookup_eq_some
  · intro hmem
    obtain ⟨before, after, rfl⟩ := List.append_of_mem hmem
    rw [List.map_append, List.map_cons, List.nodup_append] at h
    refine List.lookup_eq_some_iff.2 ⟨before, after, rfl, ?_⟩
    intro entry hentry
    exact bne_iff_ne.2 (h.2.2 entry.1 (List.mem_map_of_mem hentry) name List.mem_cons_self).symm

theorem lookup_eq_of_perm (hperm : entries.Perm entries') (h : (entries.map (·.1)).Nodup)
    (name : String) : entries.lookup name = entries'.lookup name := by
  have h' : (entries'.map (·.1)).Nodup := (hperm.map _).nodup_iff.1 h
  apply Option.ext
  intro value
  rw [lookup_eq_some_iff_mem h, lookup_eq_some_iff_mem h', hperm.mem_iff]

/-- Texts have one ascending order. -/
theorem mergeSort_eq_of_perm {names names' : List String} (hperm : names.Perm names') :
    (names.mergeSort fun c d => decide (c ≤ d)) = names'.mergeSort fun c d => decide (c ≤ d) := by
  have hsorted (names : List String) :
      (names.mergeSort fun c d => decide (c ≤ d)).Pairwise fun c d => decide (c ≤ d) = true := by
    apply List.pairwise_mergeSort
    · intro c d e hcd hde
      exact decide_eq_true (le_trans (of_decide_eq_true hcd) (of_decide_eq_true hde))
    · intro c d
      rw [Bool.or_eq_true, decide_eq_true_iff, decide_eq_true_iff]
      exact le_total c d
  refine List.Perm.eq_of_pairwise ?_ (hsorted names) (hsorted names')
    ((List.mergeSort_perm _ _).trans (hperm.trans (List.mergeSort_perm _ _).symm))
  intro c d _ _ hcd hdc
  exact le_antisymm (of_decide_eq_true hcd) (of_decide_eq_true hdc)

end

/-! ## What is read by code -/

namespace AttributeSet

/-- Attributes of one object class that have the same value under every code. -/
structure Agrees (a b : AttributeSet) : Prop where
  objectClass : a.objectClass = b.objectClass
  find? : ∀ code, a.find? code = b.find? code

namespace Agrees

variable {a b : AttributeSet} (h : a.Agrees b)

include h

theorem agreeOn (codes : List String) : a.AgreeOn codes b := by
  intro code _
  exact h.find? code

theorem raw (code : String) : a.raw code = b.raw code := by
  unfold AttributeSet.raw has
  rw [h.find? code]

theorem holds (constraint : Constraint) : constraint.holds a = constraint.holds b := by
  unfold Constraint.holds has
  rw [h.raw, h.find? constraint.code]

theorem select (table : LookupTable) (tableSet : TableSet) :
    table.select a tableSet = table.select b tableSet := by
  have hmatches : (fun r : LookupRule => r.matchesAttributes a) =
      fun r : LookupRule => r.matchesAttributes b := by
    funext r
    have hholds : (fun constraint : Constraint => constraint.holds a) =
        fun constraint => constraint.holds b := funext h.holds
    rw [LookupRule.matchesAttributes, LookupRule.matchesAttributes, hholds]
  rw [LookupTable.select, LookupTable.select, h.objectClass, hmatches]

theorem fill (field : Text.Field) (code : String) :
    Template.fill field code a = Template.fill field code b := by
  unfold Template.fill
  rw [isKnown_congr (h.find? code), getText_congr (h.find? code),
    getReal_congr (h.find? code) h.objectClass]

theorem fillAll (pieces : List Text.Piece) (codes : List String) :
    Template.fillAll a pieces codes = Template.fillAll b pieces codes := by
  induction pieces generalizing codes with
  | nil => rfl
  | cons piece pieces ih =>
    cases piece with
    | literal s => rw [Template.fillAll, Template.fillAll, ih]
    | field f =>
      cases codes with
      | nil => rw [Template.fillAll, Template.fillAll, ih]
      | cons code codes => rw [Template.fillAll, Template.fillAll, h.fill, ih]

variable (c : DrawingContext)

theorem drawPlain (call : Call) : call.drawPlain a c = call.drawPlain b c := by
  by_cases hte : call.primitive = .te
  -- A template is filled with the values of many attributes.
  · unfold Call.drawPlain
    rw [hte]
    dsimp only
    unfold drawFormattedText Template.format
    rw [h.fillAll]
  · apply Call.drawPlain_congr c h.objectClass hte
    intro code _
    exact known?_congr (h.find? code)

theorem drawAllPlain (calls : List Call) :
    Call.drawAllPlain a c calls = Call.drawAllPlain b c calls := by
  induction calls with
  | nil => rfl
  | cons call calls ih => rw [Call.drawAllPlain, Call.drawAllPlain, h.drawPlain, ih]

theorem draw (call : Call) : call.draw a c = call.draw b c := by
  have hrun (procedure : Procedure) :
      (procedure.evaluate a c.settings c.tableSet >>= Call.drawAllPlain a c) =
        procedure.evaluate b c.settings c.tableSet >>= Call.drawAllPlain b c := by
    rw [Procedure.evaluate_congr h.objectClass _ _ (h.agreeOn procedure.codes)]
    exact congrArg _ (funext (h.drawAllPlain c))
  unfold Call.draw
  apply congrArg
  funext procedure?
  cases procedure? with
  | none => exact h.drawPlain c call
  | some procedure => exact hrun procedure

theorem drawAll (calls : List Call) : Call.drawAll a c calls = Call.drawAll b c calls := by
  induction calls with
  | nil => rfl
  | cons call calls ih => rw [Call.drawAll, Call.drawAll, h.draw, ih]

end Agrees

end AttributeSet

/-! ## Features and catalogs -/

/-- The same feature with its attributes in another order, each of them once. -/
structure Feature.IsReordering (f g : Feature) : Prop where
  objectClass : f.objectClass = g.objectClass
  tableSet : f.tableSet = g.tableSet
  longName : f.longName = g.longName
  attributes : f.attributes.Perm g.attributes
  nodup : (f.attributes.map (·.1)).Nodup

theorem Feature.IsReordering.agrees {f g : Feature} (h : f.IsReordering g) :
    f.attributeSet.Agrees g.attributeSet :=
  ⟨h.objectClass, lookup_eq_of_perm h.attributes h.nodup⟩

namespace Presentation

section

variable {f g : Feature} (h : f.IsReordering g)

include h

/-- The pinned codes are sorted, so they do not tell in which order the codes came. -/
theorem pinnedCodes_reordered (rule : LookupRule) : pinnedCodes rule f = pinnedCodes rule g := by
  have hknown (code : String) : f.attributeSet.isKnown code = g.attributeSet.isKnown code :=
    AttributeSet.isKnown_congr (h.agrees.find? code)
  unfold pinnedCodes
  rw [mergeSort_eq_of_perm (h.attributes.map (·.1))]
  simp only [hknown]

theorem filter_reordered (p : Presentation) (rule : LookupRule) :
    p.filter rule f = p.filter rule g := by
  have hpin (code : String) : pin f.attributeSet code = pin g.attributeSet code := by
    rw [pin, pin, h.agrees.raw]
  unfold filter
  simp only [h.longName, h.tableSet, pinnedCodes_reordered h, hpin]

theorem compileFeature_reordered (p : Presentation) (s : Settings) (index : Nat) :
    p.compileFeature s index f = p.compileFeature s index g := by
  have hselect := h.agrees.select p.table f.tableSet
  unfold compileFeature
  rw [hselect, h.tableSet]
  cases p.table.select g.attributeSet g.tableSet with
  | none => rfl
  | some rule =>
    have hlayer (position : Nat) (fragment : Fragment) :
        p.layerOf s index f rule position fragment =
          p.layerOf s index g rule position fragment := by
      rw [layerOf, layerOf, filter_reordered h, h.objectClass]
    dsimp only
    rw [h.agrees.drawAll]
    simp only [hlayer]

end

/-- The same place with the feature reordered. -/
def EntryReordered (entry entry' : Feature × Nat) : Prop :=
  entry.1.IsReordering entry'.1 ∧ entry.2 = entry'.2

theorem compileAll_reordered (p : Presentation) (s : Settings)
    {entries entries' : List (Feature × Nat)} (h : List.Forall₂ EntryReordered entries entries') :
    p.compileAll s entries = p.compileAll s entries' := by
  induction h with
  | nil => rfl
  | @cons entry entry' entries entries' hentry _ ih =>
    obtain ⟨f, index⟩ := entry
    obtain ⟨g, index'⟩ := entry'
    obtain ⟨hfeature, rfl⟩ : f.IsReordering g ∧ index = index' := hentry
    rw [compileAll, compileAll, compileFeature_reordered hfeature, ih]

theorem zipIdx_reordered {catalog catalog' : Catalog}
    (h : List.Forall₂ Feature.IsReordering catalog catalog') (first : Nat) :
    List.Forall₂ EntryReordered (catalog.zipIdx first) (catalog'.zipIdx first) := by
  induction h generalizing first with
  | nil => exact .nil
  | cons hfeature _ ih => exact .cons ⟨hfeature, rfl⟩ (ih (first + 1))

theorem arranged_reordered {catalog catalog' : Catalog}
    (h : List.Forall₂ Feature.IsReordering catalog catalog') :
    List.Forall₂ EntryReordered (arranged catalog) (arranged catalog') := by
  have hsame : List.Forall₂ (· = ·) drawingOrder drawingOrder := List.forall₂_refl _
  refine List.rel_flatMap hsame ?_
  rintro tableSet _ rfl
  refine List.rel_filter ?_ (zipIdx_reordered h 0)
  rintro ⟨f, index⟩ ⟨g, index'⟩ ⟨hfeature, -⟩
  have htableSet : f.tableSet = g.tableSet := hfeature.tableSet
  simp only [htableSet]

/-- Catalogs that differ in nothing but the order in which each feature lists its attributes have
the same build: the same layers with the same filters, or the same fault, and the same events
before. -/
theorem build_reordered (p : Presentation) (s : Settings) {catalog catalog' : Catalog}
    (h : List.Forall₂ Feature.IsReordering catalog catalog') :
    p.build s (some catalog) = p.build s (some catalog') := by
  rw [build, build, buildRanked, buildRanked, Option.getD_some, Option.getD_some,
    compileAll_reordered p s (arranged_reordered h)]

/-- A shallow wreck with its category and the quality of its sounding. -/
def shallowWreck : Feature :=
  ⟨"WRECKS", .points, [("VALSOU", .int 2), ("CATWRK", .int 1), ("QUASOU", .text "6")], .null⟩

/-- The same wreck, its attributes in the order of a list. -/
def listedWreck : Feature :=
  ⟨"WRECKS", .points, [("CATWRK", .int 1), ("QUASOU", .text "6"), ("VALSOU", .int 2)], .null⟩

/-- Both wrecks are drawn alike, in two layers whose filters pin all their attributes. -/
theorem build_reordered_shallowWreck :
    [shallowWreck].Forall₂ Feature.IsReordering [listedWreck] ∧
      beaconedChart.build {} (some [shallowWreck]) = beaconedChart.build {} (some [listedWreck]) ∧
      ∃ layers, (beaconedChart.build {} (some [listedWreck])).outcome = .ok layers ∧
        layers.length = 2 := by
  have hreordering : [shallowWreck].Forall₂ Feature.IsReordering [listedWreck] := by
    refine .cons ⟨rfl, rfl, rfl, ?_, by decide⟩ .nil
    exact (List.perm_append_comm : ([_] ++ [_, _]).Perm ([_, _] ++ [_]))
  refine ⟨hreordering, build_reordered beaconedChart {} hreordering, ?_⟩
  have hdrawn : (beaconedChart.compileAll {} (arranged [listedWreck])).outcome.toOption.map
      List.length = some 2 := by decide +kernel
  cases h : (beaconedChart.build {} (some [listedWreck])).outcome with
  | error fault =>
    have hok : (beaconedChart.build {} (some [listedWreck])).outcome.isOk = true := by
      decide +kernel
    rw [h] at hok
    cases hok
  | ok layers => exact ⟨layers, rfl, Option.some.inj ((length_of_build h).symm.trans hdrawn)⟩

end Presentation

end ChartStyle
