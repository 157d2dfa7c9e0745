import ChartStyle.Proofs.ModeIsolation

/-!
# The names of the layers

A layer is named by the object class of its feature, the place of the feature in the catalog and the
place of the fragment among those of the feature. Object classes are any texts, dashes and digits
included, but a number holds no dash: read from its end, a name gives back both places
(`Drawn.places_of_id_eq`). No two fragments of a build share their places (`Drawn.eq_of_places`), so
no two layers share a name, and all of them draw from the one source of the document
(`build_ids_distinct`).
-/

set_option autoImplicit false

namespace ChartStyle

/-! ## Numbers behind dashes -/

theorem dash_notMem_toString (n : Nat) : '-' ∉ (toString n).toList := by
  intro hmem
  rw [Nat.toString_eq_repr, Nat.toList_repr] at hmem
  have hdigit : '-'.isDigit = true := Nat.isDigit_of_mem_toDigits (by decide) (by decide) hmem
  exact absurd hdigit (by decide)

/-- Only the last dash of a text has none behind it. -/
theorem eq_of_append_dash {as bs ds es : List Char} (hds : '-' ∉ ds) (hes : '-' ∉ es)
    (h : as ++ '-' :: ds = bs ++ '-' :: es) : as = bs ∧ ds = es := by
  rcases List.append_eq_append_iff.1 h with ⟨between, rfl, hrest⟩ | ⟨between, rfl, hrest⟩
  · cases between with
    | nil =>
      obtain ⟨-, rfl⟩ := List.cons.inj hrest
      exact ⟨(List.append_nil as).symm, rfl⟩
    | cons c between =>
      obtain ⟨-, rfl⟩ := List.cons.inj hrest
      exact absurd (List.mem_append_right between List.mem_cons_self) hds
  · cases between with
    | nil =>
      obtain ⟨-, rfl⟩ := List.cons.inj hrest
      exact ⟨List.append_nil bs, rfl⟩
    | cons c between =>
      obtain ⟨-, rfl⟩ := List.cons.inj hrest
      exact absurd (List.mem_append_right between List.mem_cons_self) hes

theorem eq_of_append_number {s t : String} {m n : Nat}
    (h : s ++ "-" ++ toString m = t ++ "-" ++ toString n) : s = t ∧ m = n := by
  have hlists : s.toList ++ '-' :: (toString m).toList = t.toList ++ '-' :: (toString n).toList := by
    simpa using congrArg String.toList h
  obtain ⟨hfront, hnumber⟩ :=
    eq_of_append_dash (dash_notMem_toString m) (dash_notMem_toString n) hlists
  exact ⟨String.toList_injective hfront, Nat.repr_injective (String.toList_injective hnumber)⟩

/-! ## Names of fragments -/

namespace Drawn

variable {p : Presentation} {s : Settings} {catalog : Catalog} {d e : Drawn}

/-- Fragments whose layers share a name stand in the same places. -/
theorem places_of_id_eq (h : (d.layer p s).id = (e.layer p s).id) :
    d.index = e.index ∧ d.position = e.position := by
  have hname (x : Drawn) : (x.layer p s).id =
      x.feature.objectClass ++ "-" ++ toString x.index ++ "-" ++ toString x.position := rfl
  rw [hname, hname] at h
  obtain ⟨hfront, hposition⟩ := eq_of_append_number h
  exact ⟨(eq_of_append_number hfront).2, hposition⟩

/-- The place of a feature in the catalog determines its rule and with it what is drawn, of which
the second place picks one fragment. -/
theorem eq_of_places (hd : d.IsDrawn p s) (he : e.IsDrawn p s)
    (hdfeature : catalog[d.index]? = some d.feature)
    (hefeature : catalog[e.index]? = some e.feature)
    (hindex : d.index = e.index) (hposition : d.position = e.position) : d = e := by
  obtain ⟨hdrule, fragments, hdfragments, hdfragment⟩ := hd
  obtain ⟨herule, fragments', hefragments, hefragment⟩ := he
  obtain ⟨index, feature, rule, position, fragment⟩ := d
  obtain ⟨index', feature', rule', position', fragment'⟩ := e
  dsimp only at *
  subst hindex hposition
  cases hdfeature.symm.trans hefeature
  cases hdrule.symm.trans herule
  cases hdfragments.symm.trans hefragments
  cases hdfragment.symm.trans hefragment
  rfl

end Drawn

namespace Presentation

variable (p : Presentation) {s : Settings}

/-- Settings that are valid name their source. -/
theorem exists_source_of_validate (h : s.validate.outcome = .ok ()) :
    ∃ source, s.source = .text source := by
  obtain ⟨shallow, -, h⟩ := Report.outcome_bind_eq_ok_iff.1 h
  obtain ⟨safety, -, h⟩ := Report.outcome_bind_eq_ok_iff.1 h
  obtain ⟨deep, -, h⟩ := Report.outcome_bind_eq_ok_iff.1 h
  cases hsource : s.source with
  | text source => exact ⟨source, rfl⟩
  | null | bool b | int n | real x | list items | map entries | perFeature =>
    rw [hsource] at h
    cases h

/-- The layers of a build have names that are all different, and all draw from the source that the
settings name. A style that is compiled from the same settings and the same catalog has these layers,
and this source alone. -/
theorem build_ids_distinct {catalog : Option Catalog} {layers : List Layer}
    (h : (p.build s catalog).outcome = .ok layers) :
    layers.Pairwise (fun l m => l.id ≠ m.id) ∧
      ∃ source, s.source = .text source ∧ (∀ l ∈ layers, l.source = source) ∧
        ∀ (r : StyleRequest) (mode : Option Value) (m : DisplayMode) (description : Entries),
          r.source = .map description → r.modeOf mode = .ok m → r.settings.inMode m = s →
          r.catalog = catalog →
          ∃ d, (p.compileStyle r mode).outcome = .ok d ∧ d.layers = layers ∧
            d.fields.lookup "sources" = some (.map [(.text source, .map d.sourceEntries)]) := by
  obtain ⟨drawn, hlayers, harrival, hmem⟩ := p.exists_drawn_of_build s h
  have hsorted := List.mergeSort_perm drawn fun d e => decide (d.rule.priority ≤ e.rule.priority)
  obtain ⟨ranked, hranked, -⟩ := Report.outcome_bind_eq_ok_iff.1 h
  obtain ⟨⟨⟩, hvalid, -⟩ := Report.outcome_bind_eq_ok_iff.1 hranked
  obtain ⟨source, hsource⟩ := exists_source_of_validate hvalid
  refine ⟨?_, source, hsource, ?_, ?_⟩
  -- Two layers of one name would be drawn for one fragment, which is drawn once.
  · rw [hlayers]
    have hnodup := hsorted.nodup_iff.2 (nodup_of_arrivals harrival)
    refine List.pairwise_map.2 (hnodup.imp_of_mem fun {d e} hd he hne hid => hne ?_)
    obtain ⟨hindex, hposition⟩ := Drawn.places_of_id_eq hid
    obtain ⟨hddrawn, hdfeature⟩ := (hmem d).1 (hsorted.mem_iff.1 hd)
    obtain ⟨hedrawn, hefeature⟩ := (hmem e).1 (hsorted.mem_iff.1 he)
    exact Drawn.eq_of_places hddrawn hedrawn hdfeature hefeature hindex hposition
  · intro l hl
    rw [hlayers] at hl
    obtain ⟨d, -, rfl⟩ := List.mem_map.1 hl
    show s.source.plain = source
    rw [hsource]
    rfl
  · rintro r mode m description hdescription hmode rfl rfl
    rw [p.compileStyle_of_modeOf hmode hdescription, Report.bind_of_ok h]
    refine ⟨_, rfl, rfl, ?_⟩
    have hplain : r.settings.source.plain = source := by
      have hsource' : r.settings.source = .text source := hsource
      rw [hsource']
      rfl
    show some (Value.ofFields [(r.settings.source.plain, _)]) = _
    rw [hplain]
    rfl

/-! ## A class with a dash -/

/-- A chart with two classes of areas, of which one has the name of the other and a number. -/
def dashedChart : Presentation :=
  { smallChart with
    table := ⟨[⟨"DEPARE", .areas, [areaRule]⟩,
      ⟨"DEPARE-1", .areas, [{ areaRule with objectClass := "DEPARE-1" }]⟩]⟩
    checked := by decide +kernel }

/-- An area of either class. -/
def dashedCatalog : Catalog :=
  [⟨"DEPARE-1", .areas, [], .null⟩, ⟨"DEPARE", .areas, [], .null⟩]

/-- The names of the layers of such a chart, such as `DEPARE-1-0-0` and `DEPARE-1-0`, start alike and
are different. -/
theorem build_ids_distinct_dashedChart :
    ∃ layers, (dashedChart.build {} (some dashedCatalog)).outcome = .ok layers ∧
      layers.Pairwise (fun l m => l.id ≠ m.id) ∧ ∀ l ∈ layers, l.source = "enc" := by
  cases h : (dashedChart.build {} (some dashedCatalog)).outcome with
  | error fault =>
    have hok : (dashedChart.build {} (some dashedCatalog)).outcome.isOk = true := by decide +kernel
    rw [h] at hok
    cases hok
  | ok layers =>
    obtain ⟨hdistinct, source, hsource, hlayers, -⟩ := build_ids_distinct dashedChart h
    cases hsource
    exact ⟨layers, rfl, hdistinct, hlayers⟩

end Presentation

end ChartStyle
