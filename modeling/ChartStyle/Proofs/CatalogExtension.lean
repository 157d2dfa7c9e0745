import ChartStyle.Proofs.LayerOrder
import ChartStyle.Proofs.UnusableValues
import Mathlib.Data.List.Flatten

/-!
# Longer catalogs

A build of a catalog that is continued by another one draws the features of both, table set by
table set, and sorts all layers together. Without the layers of the later features it is the build
of the first catalog alone, with the same layers in the same order, and the diagnostics of that
build are found in the same order among those of the longer one (`build_append`). What carries this
is that a feature is compiled by itself (`compileAll_of_sublist`), and that a stable sort does not
mind whether layers are left out before it or after it (`filter_mergeSort`).
-/

set_option autoImplicit false

namespace ChartStyle

/-! ## Sorting what is kept -/

section

variable {α : Type} {le : α → α → Bool}
  (trans : ∀ a b c, le a b = true → le b c = true → le a c = true)
  (total : ∀ a b, (le a b || le b a) = true)

include trans total

/-- A stable sort puts the first member behind those that belong before it, and in front of all
others. -/
theorem mergeSort_cons_eq (a : α) (xs : List α) :
    (a :: xs).mergeSort le =
      (xs.mergeSort le).filter (fun b => !le a b) ++ a :: (xs.mergeSort le).filter (le a) := by
  obtain ⟨before, after, hcons, hrest, hbefore⟩ := List.mergeSort_cons trans total a xs
  have hsorted := List.pairwise_mergeSort trans total (a :: xs)
  rw [hcons, List.pairwise_append, List.pairwise_cons] at hsorted
  obtain ⟨-, ⟨hafter, -⟩, -⟩ := hsorted
  have hleft : (before ++ after).filter (fun b => !le a b) = before := by
    rw [List.filter_append, List.filter_eq_self.2 hbefore, List.filter_eq_nil_iff.2,
      List.append_nil]
    intro b hb
    simp [hafter b hb]
  have hright : (before ++ after).filter (le a) = after := by
    rw [List.filter_append, List.filter_eq_self.2 hafter, List.filter_eq_nil_iff.2,
      List.nil_append]
    intro b hb
    simpa using hbefore b hb
  rw [hcons, hrest, hleft, hright]

/-- It does not matter whether members are left out of a list before it is sorted or after. -/
theorem filter_mergeSort (keep : α → Bool) (xs : List α) :
    (xs.mergeSort le).filter keep = (xs.filter keep).mergeSort le := by
  induction xs with
  | nil => simp
  | cons a xs ih =>
    cases ha : keep a with
    | true =>
      have hswap (side : α → Bool) : ((xs.mergeSort le).filter side).filter keep =
          ((xs.filter keep).mergeSort le).filter side := by
        rw [← ih, List.filter_filter, List.filter_filter]
        simp only [Bool.and_comm]
      rw [mergeSort_cons_eq trans total, List.filter_append, List.filter_cons_of_pos ha, hswap,
        hswap, List.filter_cons_of_pos ha, mergeSort_cons_eq trans total]
    | false =>
      obtain ⟨before, after, hcons, hrest, -⟩ := List.mergeSort_cons trans total a xs
      have hno : ¬ keep a = true := by simp [ha]
      rw [hcons, List.filter_append, List.filter_cons_of_neg hno, List.filter_cons_of_neg hno,
        ← List.filter_append, ← hrest, ih]

end

/-- The fragment is drawn for one of the features with which the catalog begins. -/
def Drawn.comesFrom (d : Drawn) (catalog : Catalog) : Bool := decide (d.index < catalog.length)

namespace Presentation

variable (p : Presentation) (s : Settings)

/-! ## Features that are left out -/

/-- Some of the features compile when all do, and what is noted for them is noted for all. -/
theorem compileAll_of_sublist {features all : List (Feature × Nat)} (h : features.Sublist all)
    (hok : IsOk (p.compileAll s all).outcome) :
    IsOk (p.compileAll s features).outcome ∧
      (p.compileAll s features).events.Sublist (p.compileAll s all).events := by
  induction h with
  | slnil => exact ⟨hok, .refl _⟩
  | cons entry _ ih =>
    obtain ⟨f, index⟩ := entry
    obtain ⟨hown, hrest⟩ := isOk_append_iff.1 hok
    obtain ⟨hfeatures, hevents⟩ := ih hrest
    refine ⟨hfeatures, ?_⟩
    rw [compileAll, events_append hown hrest]
    exact hevents.trans (List.sublist_append_right _ _)
  | cons_cons entry _ ih =>
    obtain ⟨f, index⟩ := entry
    obtain ⟨hown, hrest⟩ := isOk_append_iff.1 hok
    obtain ⟨hfeatures, hevents⟩ := ih hrest
    refine ⟨isOk_append_iff.2 ⟨hown, hfeatures⟩, ?_⟩
    rw [compileAll, compileAll, events_append hown hrest, events_append hown hfeatures]
    exact hevents.append_left _

/-- A longer catalog has the features of a shorter one at the same places. -/
theorem arranged_sublist_append (catalog more : Catalog) :
    (arranged catalog).Sublist (arranged (catalog ++ more)) := by
  rw [arranged, arranged]
  refine List.Sublist.flatMap_right drawingOrder fun tableSet _ => ?_
  rw [List.zipIdx_append, List.filter_append]
  exact List.sublist_append_left _ _

/-- What the features of a catalog add to a build they add to the build of a longer one as well,
where it is what is drawn for them. -/
theorem compileAll_append {catalog more : Catalog} {layers : List RankedLayer}
    (h : (p.compileAll s (arranged (catalog ++ more))).outcome = .ok layers) :
    ∃ drawn : List Drawn, layers = drawn.map (Drawn.ranked p s) ∧
      (∀ d, d ∈ drawn ↔ d.IsDrawn p s ∧ (catalog ++ more)[d.index]? = some d.feature) ∧
      (p.compileAll s (arranged catalog)).outcome =
        .ok ((drawn.filter (·.comesFrom catalog)).map (Drawn.ranked p s)) := by
  obtain ⟨drawn, hlayers, harrival, hmem⟩ := p.compileAll_drawn s h (pairwise_arranged _)
  obtain ⟨own, hown⟩ := (p.compileAll_of_sublist s (arranged_sublist_append catalog more)
    ⟨layers, h⟩).1
  obtain ⟨drawn', rfl, harrival', hmem'⟩ := p.compileAll_drawn s hown (pairwise_arranged _)
  simp only [mem_arranged] at hmem hmem'
  refine ⟨drawn, hlayers, hmem, ?_⟩
  -- Both lists are strictly ordered and have the same members.
  have hsame : drawn' = drawn.filter (·.comesFrom catalog) := by
    have hfilter := harrival.filter (·.comesFrom catalog)
    have hnodup {ds : List Drawn} (hds : ds.Pairwise fun d e => d.arrival < e.arrival) :
        ds.Nodup := hds.imp fun hlt => ne_of_apply_ne Drawn.arrival hlt.ne
    refine List.Perm.eq_of_pairwise (fun d e _ _ hde hed => absurd hde hed.not_gt) harrival' hfilter
      ((List.perm_ext_iff_of_nodup (hnodup harrival') (hnodup hfilter)).2 fun d => ?_)
    rw [hmem', List.mem_filter, hmem, and_assoc, Drawn.comesFrom, decide_eq_true_iff]
    refine and_congr_right fun _ => ?_
    constructor
    · intro hd
      obtain ⟨hlt, -⟩ := List.getElem?_eq_some_iff.1 hd
      exact ⟨(List.getElem?_append_left hlt).trans hd, hlt⟩
    · rintro ⟨hd, hlt⟩
      exact (List.getElem?_append_left hlt).symm.trans hd
  rw [hown, hsame]

/-! ## Builds -/

/-- Layers that are sorted are those of the fragments sorted by the priorities of their rules. -/
theorem sortLayers_ranked (drawn : List Drawn) :
    (sortLayers (drawn.map (Drawn.ranked p s))).map (·.layer) =
      (drawn.mergeSort fun d e => decide (d.rule.priority ≤ e.rule.priority)).map
        (Drawn.layer p s) := by
  rw [sortLayers, ← List.map_mergeSort (f := Drawn.ranked p s) fun _ _ _ _ => rfl, List.map_map]
  rfl

theorem build_eq (catalog : Catalog) :
    p.build s (some catalog) = s.validate >>= fun _ => p.compileAll s (arranged catalog) >>=
      fun ranked => pure ((sortLayers ranked).map (·.layer)) := by
  unfold build buildRanked
  simp only [bind_assoc, pure_bind, Option.getD_some]

/-- When the build of a catalog that is continued by another one succeeds, so does the build of the
catalog alone. It gives the layers of the longer build without those that are drawn for the later
features, in the same order, and its diagnostics are found among those of the longer build in the
same order. -/
theorem build_append {catalog more : Catalog} {layers : List Layer}
    (h : (p.build s (some (catalog ++ more))).outcome = .ok layers) :
    ∃ drawn : List Drawn, layers = drawn.map (Drawn.layer p s) ∧
      (∀ d, d ∈ drawn ↔ d.IsDrawn p s ∧ (catalog ++ more)[d.index]? = some d.feature) ∧
      (p.build s (some catalog)).outcome =
        .ok ((drawn.filter (·.comesFrom catalog)).map (Drawn.layer p s)) ∧
      (p.build s (some catalog)).diagnostics.Sublist
        (p.build s (some (catalog ++ more))).diagnostics := by
  rw [build_eq] at h
  obtain ⟨⟨⟩, hvalid, h⟩ := Report.outcome_bind_eq_ok_iff.1 h
  obtain ⟨ranked, hranked, h⟩ := Report.outcome_bind_eq_ok_iff.1 h
  cases h
  obtain ⟨drawn, rfl, hmem, hown⟩ := p.compileAll_append s hranked
  have hevents := (p.compileAll_of_sublist s (arranged_sublist_append catalog more)
    ⟨_, hranked⟩).2
  refine ⟨drawn.mergeSort fun d e => decide (d.rule.priority ≤ e.rule.priority),
    p.sortLayers_ranked s drawn, fun d => List.mem_mergeSort.trans (hmem d), ?_, ?_⟩
  · rw [filter_mergeSort]
    · rw [build_eq, Report.bind_of_ok hvalid, Report.bind_of_ok hown, ← p.sortLayers_ranked s]
      rfl
    · intro a b c hab hbc
      exact decide_eq_true (Int.le_trans (of_decide_eq_true hab) (of_decide_eq_true hbc))
    · intro a b
      rw [Bool.or_eq_true, decide_eq_true_iff, decide_eq_true_iff]
      exact Int.le_total _ _
  · rw [build_eq, build_eq, Report.bind_of_ok hvalid, Report.bind_of_ok hvalid,
      Report.bind_of_ok hown, Report.bind_of_ok hranked]
    exact ((hevents.append_right _).append_left _).filterMap _

/-- An area that is added to a chart with a contour is drawn before the contour, which stays as it
was. -/
theorem build_append_smallChart :
    ∃ layers, (smallChart.build {} (some (smallCatalog.take 1 ++ smallCatalog.drop 1))).outcome =
        .ok layers ∧
      ∃ drawn : List Drawn, layers = drawn.map (Drawn.layer smallChart {}) ∧
        (smallChart.build {} (some (smallCatalog.take 1))).outcome =
          .ok ((drawn.filter (·.comesFrom (smallCatalog.take 1))).map
            (Drawn.layer smallChart {})) := by
  cases h : (smallChart.build {} (some (smallCatalog.take 1 ++ smallCatalog.drop 1))).outcome with
  | error fault =>
    have hok := isOk_build_smallChart
    rw [← List.take_append_drop 1 smallCatalog, h] at hok
    cases hok
  | ok layers =>
    obtain ⟨drawn, hlayers, -, hbuild, -⟩ := build_append smallChart {} h
    exact ⟨layers, rfl, drawn, hlayers, hbuild⟩

end Presentation

end ChartStyle
