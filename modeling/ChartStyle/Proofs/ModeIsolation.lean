import ChartStyle.Proofs.ColourErasure
import ChartStyle.Proofs.LayerOrder
import ChartStyle.Style
import Mathlib

/-!
# Isolation of the display mode

Compiling a style in two display modes notes the same and fails alike or gives two documents that
differ in nothing but the sprite and the values of colours (`compileStyle_modeIsolated`). The step
is `draw_agrees`: a call reads the mode only where it looks up a colour. What remains is that
nothing after it, the order of the layers included, depends on colours.
-/

set_option autoImplicit false

namespace ChartStyle

/-! ## Colourless documents -/

/-- A layer without the values of its colours. -/
def Layer.colourless (l : Layer) : Layer := { l with fragment := l.fragment.colourless }

/-- A ranked layer without the values of its colours. -/
def Presentation.RankedLayer.colourless (l : Presentation.RankedLayer) :
    Presentation.RankedLayer :=
  { l with layer := l.layer.colourless }

/-- A document without its sprite and without the values of its colours. -/
def StyleDocument.colourless (d : StyleDocument) : StyleDocument :=
  { d with sprite := "", layers := d.layers.map Layer.colourless }

namespace Presentation

variable (p : Presentation) (s : Settings) (hp : p.palette.IsUniform) (m₁ m₂ : DisplayMode)

/-! ## Building in two modes -/

/-- The layers of a feature, without the values of their colours, are the layers of its fragments
without theirs. -/
theorem layers_colourless (index : Nat) (f : Feature) (rule : LookupRule)
    (fragments : List Fragment) (mode : DisplayMode) :
    ((fragments.zipIdx.map fun (fragment, position) =>
        RankedLayer.mk rule.priority
          (p.layerOf (s.inMode mode) index f rule position fragment)).map
      RankedLayer.colourless) =
      (fragments.map Fragment.colourless).zipIdx.map fun (fragment, position) =>
        ⟨rule.priority, p.layerOf s index f rule position fragment⟩ := by
  rw [List.zipIdx_map, List.map_map, List.map_map]
  rfl

include hp

theorem compileFeature_agrees (index : Nat) (f : Feature) :
    (p.compileFeature (s.inMode m₁) index f).through (List.map RankedLayer.colourless) =
      (p.compileFeature (s.inMode m₂) index f).through (List.map RankedLayer.colourless) := by
  rw [compileFeature, compileFeature]
  -- The rule is selected without a look at the settings.
  cases p.table.select f.attributeSet f.tableSet with
  | none => rfl
  | some rule =>
    have hdraw := drawAll_agrees (c := p.context s f.tableSet) hp m₁ m₂ f.attributeSet rule.calls
    apply Report.through_bind hdraw
    intro fragments₁ fragments₂ hfragments
    refine congrArg (Report.mk []) (congrArg Except.ok ?_)
    rw [layers_colourless, layers_colourless, hfragments]

theorem compileAll_agrees (features : List (Feature × Nat)) :
    (p.compileAll (s.inMode m₁) features).through (List.map RankedLayer.colourless) =
      (p.compileAll (s.inMode m₂) features).through (List.map RankedLayer.colourless) := by
  induction features with
  | nil => rfl
  | cons entry features ih =>
    obtain ⟨f, index⟩ := entry
    rw [compileAll, compileAll]
    exact Report.through_append (p.compileFeature_agrees s hp m₁ m₂ index f) ih

omit hp in
/-- Sorting looks at priorities alone. -/
theorem sortLayers_colourless (layers : List RankedLayer) :
    (sortLayers layers).map RankedLayer.colourless =
      sortLayers (layers.map RankedLayer.colourless) := by
  rw [sortLayers]
  exact List.map_mergeSort fun _ _ _ _ => rfl

theorem build_agrees (catalog : Option Catalog) :
    (p.build (s.inMode m₁) catalog).through (List.map Layer.colourless) =
      (p.build (s.inMode m₂) catalog).through (List.map Layer.colourless) := by
  have hlayers (layers : List RankedLayer) : (layers.map (·.layer)).map Layer.colourless =
      (layers.map RankedLayer.colourless).map (·.layer) := by
    rw [List.map_map, List.map_map]
    rfl
  have hranked : (p.buildRanked (s.inMode m₁) catalog).through (List.map RankedLayer.colourless) =
      (p.buildRanked (s.inMode m₂) catalog).through (List.map RankedLayer.colourless) := by
    show ((s.validate >>= _).through _) = ((s.validate >>= _).through _)
    apply Report.through_bind_same
    intro _
    apply Report.through_bind (p.compileAll_agrees s hp m₁ m₂ _)
    intro layers₁ layers₂ heq
    refine congrArg (Report.mk []) (congrArg Except.ok ?_)
    rw [sortLayers_colourless, sortLayers_colourless, heq]
  rw [build, build]
  apply Report.through_bind hranked
  intro layers₁ layers₂ heq
  refine congrArg (Report.mk []) (congrArg Except.ok ?_)
  rw [hlayers, hlayers, heq]

end Presentation

/-! ## Compiling in two modes -/

/-- The mode in which a style is compiled: the one that is given, else that of the settings. -/
def StyleRequest.modeOf (r : StyleRequest) : Option Value → Except Fault DisplayMode
  | some v => DisplayMode.parse v
  | none => .ok r.settings.mode

namespace Presentation

variable (p : Presentation)

/-- A style of which the mode is known is built with the settings in that mode. -/
theorem compileStyle_of_modeOf {r : StyleRequest} {mode : Option Value} {m : DisplayMode}
    (h : r.modeOf mode = .ok m) {source : Entries} (hsource : r.source = .map source) :
    p.compileStyle r mode = do
      let layers ← p.build (r.settings.inMode m) r.catalog
      return {
        name := r.name
        sprite := spriteUrl r.sprite m
        sourceId := r.settings.source.plain
        source
        layers } := by
  rw [compileStyle, hsource]
  cases mode with
  | none =>
    cases h
    rfl
  | some v =>
    have hparse : DisplayMode.parse v = .ok m := h
    simp only [hparse]
    rfl

theorem compileStyle_through {r : StyleRequest} (hp : p.palette.IsUniform)
    {mode₁ mode₂ : Option Value} {m₁ m₂ : DisplayMode} (h₁ : r.modeOf mode₁ = .ok m₁)
    (h₂ : r.modeOf mode₂ = .ok m₂) :
    (p.compileStyle r mode₁).through StyleDocument.colourless =
      (p.compileStyle r mode₂).through StyleDocument.colourless := by
  cases hsource : r.source with
  | map source =>
    rw [p.compileStyle_of_modeOf h₁ hsource, p.compileStyle_of_modeOf h₂ hsource]
    apply Report.through_bind (p.build_agrees r.settings hp m₁ m₂ r.catalog)
    intro layers₁ layers₂ heq
    refine congrArg (Report.mk []) (congrArg Except.ok ?_)
    show StyleDocument.mk r.name "" _ source _ = StyleDocument.mk r.name "" _ source _
    rw [heq]
  -- Without a source there is no style in either mode.
  | null | bool b | int n | real x | text t | list items | perFeature =>
    rw [compileStyle, compileStyle, hsource]

/-- With a palette that was read, compiling one style in two display modes notes the same events,
diagnostics among them, and either fails with one fault in both or gives documents that are equal
without their sprites and the values of their colours. -/
theorem compileStyle_modeIsolated {v : Value} (hpalette : Palette.ofValue v = .ok p.palette)
    (r : StyleRequest) {mode₁ mode₂ : Option Value} {m₁ m₂ : DisplayMode}
    (h₁ : r.modeOf mode₁ = .ok m₁) (h₂ : r.modeOf mode₂ = .ok m₂) :
    (p.compileStyle r mode₁).events = (p.compileStyle r mode₂).events ∧
      (p.compileStyle r mode₁).diagnostics = (p.compileStyle r mode₂).diagnostics ∧
      ((∃ fault, (p.compileStyle r mode₁).outcome = .error fault ∧
          (p.compileStyle r mode₂).outcome = .error fault) ∨
        ∃ d₁ d₂, (p.compileStyle r mode₁).outcome = .ok d₁ ∧
          (p.compileStyle r mode₂).outcome = .ok d₂ ∧ d₁.colourless = d₂.colourless) := by
  have hagree := p.compileStyle_through (Palette.isUniform_of_ofValue hpalette) h₁ h₂
  obtain ⟨hevents, houtcome⟩ := Report.mk.inj hagree
  exact ⟨hevents, congrArg Report.diagnosticsOf hevents, except_view_eq_iff.1 houtcome⟩

/-- The colours of the small chart as a file gives them. -/
def smallColours : Value :=
  .ofFields [
    ("DAY", .ofFields [("DEPVS", .text "#61b7ff"), ("CHGRD", .text "#4c5b63")]),
    ("DUSK", .ofFields [("DEPVS", .text "#3d75a3"), ("CHGRD", .text "#303a3f")]),
    ("NIGHT", .ofFields [("DEPVS", .text "#1d3950"), ("CHGRD", .text "#171c1f")])]

/-- A style of the small chart; its settings are for the day. -/
def smallRequest : StyleRequest := { source := .map [], catalog := some smallCatalog }

theorem ofValue_smallColours : Palette.ofValue smallColours = .ok smallChart.palette := by cbv

theorem parse_night : DisplayMode.parse (.text "night") = .ok .night := by cbv

theorem isOk_compileStyle_smallChart :
    (smallChart.compileStyle smallRequest none).outcome.isOk = true := by
  decide +kernel

/-- By day and by night the style of the small chart is the same but for its colours. -/
theorem compileStyle_modeIsolated_smallChart :
    Palette.ofValue smallColours = .ok smallChart.palette ∧
      ∃ d₁ d₂, (smallChart.compileStyle smallRequest none).outcome = .ok d₁ ∧
        (smallChart.compileStyle smallRequest (some (.text "night"))).outcome = .ok d₂ ∧
        d₁.colourless = d₂.colourless := by
  obtain ⟨-, -, hfault | hdocuments⟩ := compileStyle_modeIsolated smallChart ofValue_smallColours
    smallRequest (show smallRequest.modeOf none = .ok .day from rfl)
    (show smallRequest.modeOf (some (.text "night")) = .ok .night from parse_night)
  · obtain ⟨fault, hday, -⟩ := hfault
    have hok := isOk_compileStyle_smallChart
    rw [hday] at hok
    cases hok
  · exact ⟨ofValue_smallColours, hdocuments⟩

end Presentation

end ChartStyle
