import ChartStyle.Proofs.CatalogExtension
import ChartStyle.Proofs.LayerNames
import ChartStyle.Proofs.LostSymbols
import ChartStyle.Proofs.SymbolLookups

/-!
# Layers without some symbols

A build with some symbols taken out of the registry gives what is left of the layers of the build with
all symbols, in the same order and with nothing changed but the numbers of the fragments, which close
up; and it notes each symbol that it looks up in vain (`build_without`).
-/

set_option autoImplicit false

namespace ChartStyle

/-! ## Layers -/

/-- A name without the number at its end. -/
def withoutNumber (id : String) : String :=
  String.ofList (id.toList.reverse.dropWhile (· != '-')).reverse

theorem withoutNumber_append (front : String) (n : Nat) :
    withoutNumber (front ++ "-" ++ toString n) = front ++ "-" := by
  have hlist : (front ++ "-" ++ toString n).toList.reverse =
      (toString n).toList.reverse ++ '-' :: front.toList.reverse := by
    simp
  have hdigits : ∀ ch ∈ (toString n).toList.reverse, (ch != '-') = true := by
    intro ch hch
    rw [bne_iff_ne]
    rintro rfl
    exact dash_notMem_toString n (List.mem_reverse.1 hch)
  apply String.toList_injective
  rw [withoutNumber, hlist, List.dropWhile_append_of_pos hdigits]
  simp

namespace Layer

/-- The layer draws something still. -/
def remains (gone : String → Bool) (l : Layer) : Bool := l.fragment.remains gone

/-- The layer with the empty image for each icon that is gone among those that it picks from. -/
def blanked (gone : String → Bool) (l : Layer) : Layer :=
  { l with fragment := l.fragment.blanked gone }

/-- The layer without the number of its fragment. -/
def unnumbered (l : Layer) : Layer := { l with id := withoutNumber l.id }

end Layer

namespace Presentation

/-- The presentation without the symbols that are gone; the checks do not look at symbols. -/
def without (p : Presentation) (gone : String → Bool) : Presentation :=
  { p with registry := p.registry.without gone }

namespace RankedLayer

/-- The layer without the number of its fragment. -/
def unnumbered (l : RankedLayer) : RankedLayer := { l with layer := l.layer.unnumbered }

/-- The layer draws something still. -/
def remains (gone : String → Bool) (l : RankedLayer) : Bool := l.layer.remains gone

/-- The layer with the empty image for each icon that is gone among those that it picks from. -/
def blanked (gone : String → Bool) (l : RankedLayer) : RankedLayer :=
  { l with layer := l.layer.blanked gone }

/-- What is left of several layers, apart from the numbers of their fragments. -/
def left (gone : String → Bool) (layers : List RankedLayer) : List RankedLayer :=
  ((layers.filter (remains gone)).map (blanked gone)).map unnumbered

end RankedLayer

section

variable (p : Presentation) (s : Settings) (gone : String → Bool)

/-- The layers of several fragments are told apart by their numbers only. -/
theorem unnumbered_layers (index : Nat) (f : Feature) (rule : LookupRule)
    (fragments : List Fragment) :
    (fragments.zipIdx.map fun (fragment, position) =>
        RankedLayer.mk rule.priority (p.layerOf s index f rule position fragment)).map
      RankedLayer.unnumbered =
      fragments.map fun fragment =>
        RankedLayer.unnumbered ⟨rule.priority, p.layerOf s index f rule 0 fragment⟩ := by
  have hid (position : Nat) (fragment : Fragment) :
      (p.layerOf s index f rule position fragment).unnumbered =
        (p.layerOf s index f rule 0 fragment).unnumbered := by
    have hname (n : Nat) : (p.layerOf s index f rule n fragment).id =
        f.objectClass ++ "-" ++ toString index ++ "-" ++ toString n := rfl
    simp only [Layer.unnumbered, hname, withoutNumber_append]
    rfl
  -- The right side has no positions; they are put in so that both sides run over the same list.
  have hplaces := (List.zipIdx_map_fst 0 fragments).symm
  conv_rhs => rw [hplaces]
  rw [List.map_map, List.map_map]
  refine List.map_congr_left fun entry _ => ?_
  exact congrArg (RankedLayer.mk rule.priority) (hid entry.2 entry.1)

/-- It does not matter whether the numbers are taken off first. -/
theorem RankedLayer.left_eq (layers : List RankedLayer) :
    left gone layers = ((layers.map unnumbered).filter (remains gone)).map (blanked gone) := by
  rw [left, List.filter_map, List.map_map, List.map_map]
  rfl

theorem compileFeature_without {index : Nat} {f : Feature} {layers : List RankedLayer}
    (h : (p.compileFeature s index f).outcome = .ok layers) :
    ∃ layers', ((p.without gone).compileFeature s index f).outcome = .ok layers' ∧
      layers'.map RankedLayer.unnumbered = RankedLayer.left gone layers := by
  have hselect : (p.without gone).table.select = p.table.select := rfl
  unfold compileFeature at h ⊢
  rw [hselect]
  cases hrule : p.table.select f.attributeSet f.tableSet with
  | none =>
    rw [hrule] at h
    cases h
    exact ⟨[], rfl, rfl⟩
  | some rule =>
    rw [hrule] at h
    obtain ⟨fragments, hfragments, h⟩ := Report.outcome_bind_eq_ok_iff.1 h
    cases h
    refine ⟨_, Report.outcome_bind_eq_ok_iff.2 ⟨_, Call.drawAll_without hfragments, rfl⟩, ?_⟩
    have hleft := (p.without gone).unnumbered_layers s index f rule (Fragment.left gone fragments)
    refine hleft.trans ?_
    rw [RankedLayer.left_eq, p.unnumbered_layers s index f rule fragments, Fragment.left,
      List.filter_map, List.map_map, List.map_map]
    rfl

theorem compileAll_without {features : List (Feature × Nat)} {layers : List RankedLayer}
    (h : (p.compileAll s features).outcome = .ok layers) :
    ∃ layers', ((p.without gone).compileAll s features).outcome = .ok layers' ∧
      layers'.map RankedLayer.unnumbered = RankedLayer.left gone layers := by
  induction features generalizing layers with
  | nil =>
    cases h
    exact ⟨[], rfl, rfl⟩
  | cons entry features ih =>
    obtain ⟨f, index⟩ := entry
    obtain ⟨own, hown, h⟩ := Report.outcome_bind_eq_ok_iff.1 h
    obtain ⟨others, hothers, h⟩ := Report.outcome_bind_eq_ok_iff.1 h
    cases h
    obtain ⟨own', hown', hownLeft⟩ := p.compileFeature_without s gone hown
    obtain ⟨others', hothers', hothersLeft⟩ := ih hothers
    refine ⟨own' ++ others', Report.outcome_bind_eq_ok_iff.2 ⟨own', hown', ?_⟩, ?_⟩
    · exact Report.outcome_bind_eq_ok_iff.2 ⟨others', hothers', rfl⟩
    · rw [List.map_append, hownLeft, hothersLeft]
      simp only [RankedLayer.left, List.filter_append, List.map_append]

/-- Sorting looks at priorities alone. -/
theorem sortLayers_map (g : RankedLayer → RankedLayer) (hg : ∀ l, (g l).priority = l.priority)
    (layers : List RankedLayer) : (sortLayers layers).map g = sortLayers (layers.map g) := by
  refine List.map_mergeSort fun a _ b _ => ?_
  rw [hg, hg]

theorem sortLayers_filter (keep : RankedLayer → Bool) (layers : List RankedLayer) :
    (sortLayers layers).filter keep = sortLayers (layers.filter keep) := by
  apply filter_mergeSort
  · intro a b c hab hbc
    exact decide_eq_true (Int.le_trans (of_decide_eq_true hab) (of_decide_eq_true hbc))
  · intro a b
    rw [Bool.or_eq_true, decide_eq_true_iff, decide_eq_true_iff]
    exact Int.le_total _ _

theorem sortLayers_left (layers : List RankedLayer) :
    RankedLayer.left gone (sortLayers layers) = sortLayers (RankedLayer.left gone layers) := by
  rw [RankedLayer.left, sortLayers_filter, sortLayers_map (RankedLayer.blanked gone) fun _ => rfl,
    sortLayers_map RankedLayer.unnumbered fun _ => rfl]
  rfl

/-- What is left of layers without a look at their priorities. -/
theorem map_layer_left (layers : List RankedLayer) :
    (RankedLayer.left gone layers).map (·.layer) =
      (((layers.map (·.layer)).filter (Layer.remains gone)).map (Layer.blanked gone)).map
        Layer.unnumbered := by
  rw [RankedLayer.left, List.filter_map, List.map_map, List.map_map, List.map_map, List.map_map]
  rfl

/-- When a build succeeds, it succeeds without some of the symbols. Its layers are those of the build
with all symbols, in the same order: layers of which the icon or the pattern is a lost symbol are
absent, and so are those that pick their icons from symbols of which none is left; where one is left,
the lost ones are replaced by the empty image with no offset. All else is the same but for the numbers
of the fragments. Each symbol that is looked up and not found is noted, with the object class of the
feature. -/
theorem build_without {catalog : Option Catalog} {layers : List Layer}
    (h : (p.build s catalog).outcome = .ok layers) :
    ∃ layers', ((p.without gone).build s catalog).outcome = .ok layers' ∧
      layers'.map Layer.unnumbered =
        ((layers.filter (Layer.remains gone)).map (Layer.blanked gone)).map Layer.unnumbered ∧
      ((p.without gone).build s catalog).missing =
        (arranged (catalog.getD (Catalog.ofTable p.table))).flatMap fun entry =>
          (p.without gone).missingFor s entry.1 := by
  obtain ⟨ranked, hranked, h⟩ := Report.outcome_bind_eq_ok_iff.1 h
  cases h
  obtain ⟨⟨⟩, hvalid, hranked⟩ := Report.outcome_bind_eq_ok_iff.1 hranked
  obtain ⟨arrived, harrived, hranked⟩ := Report.outcome_bind_eq_ok_iff.1 hranked
  cases hranked
  obtain ⟨arrived', harrived', hleft⟩ := p.compileAll_without s gone harrived
  have hbuild : ((p.without gone).build s catalog).outcome =
      .ok ((sortLayers arrived').map (·.layer)) := by
    refine Report.outcome_bind_eq_ok_iff.2 ⟨sortLayers arrived', ?_, rfl⟩
    refine Report.outcome_bind_eq_ok_iff.2 ⟨(), hvalid, ?_⟩
    exact Report.outcome_bind_eq_ok_iff.2 ⟨arrived', harrived', rfl⟩
  refine ⟨_, hbuild, ?_, build_missing ⟨_, hbuild⟩⟩
  -- Layers of one priority stay in order, so they may be left out before sorting or after it.
  calc ((sortLayers arrived').map (·.layer)).map Layer.unnumbered
      = ((sortLayers arrived').map RankedLayer.unnumbered).map (·.layer) := by
        rw [List.map_map, List.map_map]
        rfl
    _ = (RankedLayer.left gone (sortLayers arrived)).map (·.layer) := by
        rw [sortLayers_map RankedLayer.unnumbered fun _ => rfl, hleft, sortLayers_left]
    _ = _ := map_layer_left gone _

end

/-- Sorting loses no layers. -/
theorem length_of_build {p : Presentation} {s : Settings} {catalog : Option Catalog}
    {layers : List Layer} (h : (p.build s catalog).outcome = .ok layers) :
    (p.compileAll s (arranged (catalog.getD (Catalog.ofTable p.table)))).outcome.toOption.map
      List.length = some layers.length := by
  obtain ⟨ranked, hranked, h⟩ := Report.outcome_bind_eq_ok_iff.1 h
  cases h
  obtain ⟨-, -, hranked⟩ := Report.outcome_bind_eq_ok_iff.1 hranked
  obtain ⟨arrived, harrived, hranked⟩ := Report.outcome_bind_eq_ok_iff.1 hranked
  cases hranked
  rw [harrived, List.length_map, sortLayers, List.length_mergeSort]
  rfl

/-- A rule that draws a wreck by its procedure, with a beacon beside it. -/
def beaconedRule : LookupRule where
  objectClass := "WRECKS"
  tableSet := .points
  constraints := []
  instruction := "CS(WRECKS02);SY(BCNLAT15)"
  priority := 4
  category := .displayBase
  viewingGroup := 34050
  index := 0
  calls := [⟨.cs, [.text "WRECKS02"]⟩, ⟨.sy, [.text "BCNLAT15"]⟩]

/-- A chart with that rule. -/
def beaconedChart : Presentation where
  table := ⟨[⟨"WRECKS", .points, [beaconedRule]⟩]⟩
  registry := Bundled.registry
  palette := Bundled.palette
  checked := by decide +kernel

/-- A wreck whose depth only the renderer knows. -/
def deferredWreck : Catalog := [⟨"WRECKS", .points, [("VALSOU", .perFeature)], .null⟩]

/-- The symbols of the beacon and of isolated dangers. -/
def lostNames (name : String) : Bool := name == "BCNLAT15" || name == "ISODGR01"

/-- Without both symbols the beacon is absent, and the wreck is drawn unless it is a danger. -/
theorem build_without_beaconedChart :
    ∃ layers layers', (beaconedChart.build {} (some deferredWreck)).outcome = .ok layers ∧
      ((beaconedChart.without lostNames).build {} (some deferredWreck)).outcome = .ok layers' ∧
      layers'.map Layer.unnumbered =
        ((layers.filter (Layer.remains lostNames)).map (Layer.blanked lostNames)).map
          Layer.unnumbered ∧
      layers.length = 2 ∧ layers'.length = 1 ∧
      ((beaconedChart.without lostNames).build {} (some deferredWreck)).missing.map
        Diagnostic.message = ["Missing symbol: ISODGR01", "Missing symbol: BCNLAT15"] := by
  have hdrawn : (beaconedChart.compileAll {} (arranged deferredWreck)).outcome.toOption.map
      List.length = some 2 := by decide +kernel
  have hleft : ((beaconedChart.without lostNames).compileAll {}
      (arranged deferredWreck)).outcome.toOption.map List.length = some 1 := by decide +kernel
  have hmissing : ((beaconedChart.without lostNames).build {} (some deferredWreck)).missing.map
      Diagnostic.message = ["Missing symbol: ISODGR01", "Missing symbol: BCNLAT15"] := by
    decide +kernel
  cases h : (beaconedChart.build {} (some deferredWreck)).outcome with
  | error fault =>
    have hok : (beaconedChart.build {} (some deferredWreck)).outcome.isOk = true := by decide +kernel
    rw [h] at hok
    cases hok
  | ok layers =>
    obtain ⟨layers', hlayers', hsame, -⟩ := build_without beaconedChart {} lostNames h
    exact ⟨layers, layers', rfl, hlayers', hsame,
      Option.some.inj ((length_of_build h).symm.trans hdrawn),
      Option.some.inj ((length_of_build hlayers').symm.trans hleft), hmissing⟩

end Presentation

end ChartStyle
