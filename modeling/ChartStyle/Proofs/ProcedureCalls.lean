import ChartStyle.Drawing.Draw
import ChartStyle.Proofs.Outcomes

/-!
# The calls that procedures give

Whatever the attributes and the settings, the calls that come of a procedure are `Procedure.IsOwn`:
their colours, symbols, widths and line styles are taken from fixed lists, or picked by the renderer
among members of these lists (`Procedure.evaluate_gives_own`). So what has to hold of palettes and
symbols for drawing them can be said once, for the lists.
-/

set_option autoImplicit false

namespace ChartStyle

/-! ## What an operation gives -/

/-- Whatever the operation gives has the property. -/
def Report.Gives {α : Type} (r : Report α) (property : α → Prop) : Prop :=
  ∀ x, r.outcome = .ok x → property x

namespace Report.Gives

variable {α β : Type} {property : α → Prop} {property' : β → Prop}

theorem pure {a : α} (h : property a) : (Pure.pure a : Report α).Gives property := by
  rintro _ ⟨⟩
  exact h

theorem bind {x : Report α} {f : α → Report β} (hx : x.Gives property)
    (hf : ∀ a, property a → (f a).Gives property') : (x >>= f).Gives property' := by
  intro b hb
  obtain ⟨a, ha, hb⟩ := outcome_bind_eq_ok_iff.1 hb
  exact hf a (hx a ha) b hb

/-- The property may follow from the last operation alone. -/
theorem bind_any {x : Report α} {f : α → Report β} (hf : ∀ a, (f a).Gives property') :
    (x >>= f).Gives property' := by
  intro b hb
  obtain ⟨a, -, hb⟩ := outcome_bind_eq_ok_iff.1 hb
  exact hf a b hb

end Report.Gives

/-! ## Options -/

namespace Choice

/-- Every option has the property, and the renderer has the operator: labels are lists. -/
structure Offers (c : Choice) (property : Value → Prop) : Prop where
  options : ∀ v ∈ c.options, property v
  operator :
    match c.operator with
    | .step | .case => True
    | .pick => ∀ stop ∈ c.stops, ∃ labels, stop.1 = .value (.list labels)
    | .unknown _ => False

end Choice

/-- A literal with the property, or a choice among options with the property. -/
def Argument.Offers (property : Value → Prop) : Argument → Prop
  | .literal v => property v
  | .choice c => c.Offers property
  | _ => False

/-- A text of the list. -/
def IsTextIn (texts : List String) (v : Value) : Prop := ∃ text ∈ texts, v = .text text

theorem Argument.offers_text {texts : List String} {text : String} (h : text ∈ texts) :
    (Argument.text text).Offers (IsTextIn texts) := ⟨text, h, rfl⟩

/-- What has the one property has the other. -/
theorem Argument.Offers.mono {property property' : Value → Prop} {arg : Argument}
    (h : arg.Offers property) (himp : ∀ v, property v → property' v) : arg.Offers property' := by
  cases arg with
  | literal v => exact himp v h
  | choice c => exact ⟨fun v hv => himp v (h.options v hv), h.operator⟩
  | _ => exact h.elim

theorem Choice.offers_branch {property : Value → Prop} (condition : Expr) {option default : Value}
    (hoption : property option) (hdefault : property default) :
    (Procedure.branch condition option default).Offers property := by
  refine ⟨?_, trivial⟩
  intro v hv
  simp only [options, Procedure.branch, List.map_cons, List.map_nil, List.mem_cons,
    List.not_mem_nil, or_false] at hv
  rcases hv with rfl | rfl
  · exact hdefault
  · exact hoption

namespace Procedure

/-! ## The lists -/

/-- The colours of depth areas. -/
def areaColours : List String := ["DEPIT", "DEPVS", "DEPMS", "DEPMD", "DEPDW"]

/-- The colours of soundings. -/
def soundingColours : List String := ["SNDG1", "SNDG2", "SNDG3"]

/-- The colours of lines and texts. -/
def strokeColours : List String := ["CHBLK", "CHGRF", "DEPCN", "DEPSC"]

/-- The colours that procedures name. -/
def ownColours : List String := areaColours ++ soundingColours ++ strokeColours

/-- The symbols that procedures name. -/
def ownSymbols : List String :=
  ["LIGHTS11", "LIGHTS12", "LIGHTS13", "LITDEF11", "WRECKS01", "WRECKS04", "WRECKS05", "OBSTRN01",
    "OBSTRN11", "ISODGR01"]

/-- The pattern of dredged areas. -/
def ownPattern : String := "DRGARE01"

/-- The character styles of the texts. -/
def ownStyles : List String := ["15108", "15110"]

/-- A width that lines can have. -/
def IsLineWidth (v : Value) : Prop := ∃ units, v = .int units ∧ (lineWidth? units).isSome = true

/-- A text that a procedure writes: fixed, computed by the renderer, or an attribute whose value is
not known now. -/
def IsOwnText (a : AttributeSet) : Argument → Prop
  | .literal v => ∃ s, v = .text s
  | .computed _ => True
  | .attribute code => a.known? code = none
  | .choice _ => False

/-- The calls that procedures give for a feature. -/
inductive IsOwn (a : AttributeSet) : Call → Prop where
  | fill {colour : Argument} (hcolour : colour.Offers (IsTextIn ownColours)) :
      IsOwn a ⟨.ac, [colour]⟩
  | pattern : IsOwn a ⟨.ap, [.text ownPattern]⟩
  | line {style : String} {width colour : Argument} (hstyle : style ∈ ["SOLD", "DASH", "DOTT"])
      (hwidth : width.Offers IsLineWidth) (hcolour : colour.Offers (IsTextIn ownColours)) :
      IsOwn a (lineCall style width colour)
  | text {text colour : Argument} {hjust vjust : Int} {chars : String} {x y group : Int}
      (htext : IsOwnText a text) (hchars : chars ∈ ownStyles)
      (hcolour : colour.Offers (IsTextIn ownColours)) :
      IsOwn a (textCall text hjust vjust chars x y colour group)
  /-- A symbol that the renderer picks may have the empty name of no symbol. -/
  | symbol {symbol : Argument} (hsymbol : symbol.Offers (IsTextIn ("" :: ownSymbols)))
      (hnamed : symbol ≠ .text "") : IsOwn a ⟨.sy, [symbol]⟩
  | flare {symbol : Argument} {turn : Double} (hsymbol : symbol.Offers (IsTextIn ownSymbols)) :
      IsOwn a ⟨.sy, [symbol, .literal (.real turn)]⟩

theorem IsOwn.primitive_ne_cs {a : AttributeSet} {call : Call} (h : IsOwn a call) :
    call.primitive ≠ .cs := by
  cases h <;> simp [lineCall, textCall]

theorem isTextIn_cons {texts : List String} {v : Value} (h : IsTextIn texts v) (text : String) :
    IsTextIn (text :: texts) v := by
  obtain ⟨member, hmember, rfl⟩ := h
  exact ⟨member, List.mem_cons_of_mem _ hmember, rfl⟩

/-- The symbols that procedures name have names. -/
theorem ne_unnamed {symbol : Argument} (h : symbol.Offers (IsTextIn ownSymbols)) :
    symbol ≠ .text "" := by
  rintro rfl
  obtain ⟨name, hname, heq⟩ := h
  obtain rfl : "" = name := Value.text.inj heq
  revert hname
  decide

theorem isOwn_symbol {a : AttributeSet} {symbol : Argument}
    (h : symbol.Offers (IsTextIn ownSymbols)) : IsOwn a ⟨.sy, [symbol]⟩ :=
  .symbol (h.mono fun _ hv => isTextIn_cons hv "") (ne_unnamed h)

theorem areaColour_mem (band : DepthBand) : band.areaColour ∈ ownColours := by
  cases band <;> decide

theorem soundingColour_mem (band : DepthBand) : band.soundingColour ∈ ownColours := by
  cases band <;> decide

/-! ## Depths -/

/-- A colour that depends on the depth is the colour of some band at every break. -/
theorem options_of_colourStops {colour : Double → Except Fault String} {texts : List String}
    (hcolour : ∀ x token, colour x = .ok token → token ∈ texts) {previous : String}
    {breaks : List Double} {stops : List (Expr × Value)}
    (h : colourStops colour previous breaks = .ok stops) :
    ∀ stop ∈ stops, IsTextIn texts stop.2 := by
  induction breaks generalizing previous stops with
  | nil =>
    cases h
    exact fun stop hstop => absurd hstop List.not_mem_nil
  | cons x breaks ih =>
    obtain ⟨token, htoken, h⟩ := except_bind_eq_ok_iff.1 h
    obtain ⟨rest, hrest, h⟩ := except_bind_eq_ok_iff.1 h
    cases h
    -- Equal neighbours are merged, so the break may have no stop.
    split
    · exact ih hrest
    · exact List.forall_mem_cons.2 ⟨⟨token, hcolour x token htoken, rfl⟩, ih hrest⟩

theorem depthChoice_offers {code : String} {fallback : Value} {s : Settings}
    {colours : DepthBand → String} {texts : List String} (hcolours : ∀ band, colours band ∈ texts)
    {c : Choice} (h : depthChoice code fallback s colours = .ok c) : c.Offers (IsTextIn texts) := by
  obtain ⟨breaks, -, h⟩ := except_bind_eq_ok_iff.1 h
  obtain ⟨default, hdefault, h⟩ := except_bind_eq_ok_iff.1 h
  obtain ⟨stops, hstops, h⟩ := except_bind_eq_ok_iff.1 h
  cases h
  have hcolour (x : Double) (token : String)
      (h : (do return colours (← depthBand (.real x) s) : Except Fault String) = .ok token) :
      token ∈ texts := by
    obtain ⟨band, -, h⟩ := except_bind_eq_ok_iff.1 h
    cases h
    exact hcolours band
  refine ⟨?_, trivial⟩
  intro v hv
  rcases List.mem_cons.1 hv with rfl | hv
  · exact ⟨default, hcolour _ default hdefault, rfl⟩
  · obtain ⟨stop, hstop, rfl⟩ := List.mem_map.1 hv
    exact options_of_colourStops hcolour hstops stop hstop

variable {a : AttributeSet} {s : Settings} {t : TableSet}

/-- There is a depth unless the value is not known now. -/
theorem depth?_gives {code : String} {standIn : Double} :
    (depth? a code standIn).Gives fun depth => depth = none → a.known? code = none := by
  unfold depth?
  split
  · refine .bind_any fun x => .pure ?_
    rintro ⟨⟩
  · next h => exact .pure fun _ => if_neg h

theorem areaColour_gives : (areaColour a s).Gives (Argument.Offers (IsTextIn ownColours)) := by
  unfold areaColour
  split
  · refine .bind (fun c hc => depthChoice_offers areaColour_mem hc) fun c hc => ?_
    exact .pure hc
  · refine .bind_any fun depth => .bind_any fun band => ?_
    exact .pure (Argument.offers_text (areaColour_mem band))

/-! ## Dangers -/

/-- The symbol is one of the list, or picked among its members. -/
def SymbolPick.IsOwn (symbol : SymbolPick) : Prop :=
  symbol.toArgument.Offers (IsTextIn ownSymbols)

theorem guarded_offers {symbol : SymbolPick} (h : symbol.IsOwn) (condition : Expr)
    (hcase : ∀ c, symbol = .choice c → c.operator = .case) :
    (symbol.guarded condition).Offers (IsTextIn ("" :: ownSymbols)) := by
  have hdanger : IsTextIn ("" :: ownSymbols) (.text dangerSymbol) := ⟨_, by decide, rfl⟩
  cases symbol with
  | fixed name => exact Choice.offers_branch condition hdanger (isTextIn_cons h "")
  | choice c =>
    refine ⟨?_, trivial⟩
    intro v hv
    simp only [Choice.options, SymbolPick.guarded, branch, List.map_cons, List.mem_cons] at hv
    rcases hv with rfl | rfl | hv
    · exact isTextIn_cons (h.options _ List.mem_cons_self) ""
    · exact hdanger
    · exact isTextIn_cons (h.options _ (List.mem_cons_of_mem _ hv)) ""

theorem isOwn_outline : IsOwn a (lineCall "DOTT" (.int 2) (.text "CHBLK")) :=
  .line (by decide) ⟨2, rfl, by decide⟩ (Argument.offers_text (by decide))

theorem isOwn_dangerFill : IsOwn a ⟨.ac, [.text "DEPVS"]⟩ :=
  .fill (Argument.offers_text (by decide))

theorem isOwn_dangerSymbol : IsOwn a ⟨.sy, [.text dangerSymbol]⟩ :=
  isOwn_symbol (Argument.offers_text (by decide))

theorem isOwn_dangerCalls {symbol : SymbolPick} (h : symbol.IsOwn)
    (hcase : ∀ c, symbol = .choice c → c.operator = .case) (d : Danger) :
    ∀ call ∈ dangerCalls d t symbol, IsOwn a call := by
  have hsymbol : IsOwn a ⟨.sy, [symbol.toArgument]⟩ := isOwn_symbol h
  have hguarded (condition : Expr) : IsOwn a ⟨.sy, [.choice (symbol.guarded condition)]⟩ :=
    .symbol (guarded_offers h condition hcase) (by simp [Argument.text])
  have hmark (condition : Expr) :
      IsOwn a ⟨.sy, [.choice (branch condition (.text dangerSymbol) (.text ""))]⟩ :=
    .symbol (Choice.offers_branch condition ⟨_, by decide, rfl⟩ ⟨_, by decide, rfl⟩)
      (by simp [Argument.text])
  -- Each table set draws its own list of calls.
  cases t with
  | areas =>
    rcases d with (_ | _) | condition
    · simp [dangerCalls, isOwn_dangerFill, isOwn_outline]
    · simp [dangerCalls, isOwn_dangerFill, isOwn_outline, isOwn_dangerSymbol]
    · simp [dangerCalls, isOwn_dangerFill, isOwn_outline, hmark]
  | lines => simp [dangerCalls, isOwn_outline]
  | points =>
    rcases d with (_ | _) | condition
    · simp [dangerCalls, hsymbol]
    · simp [dangerCalls, isOwn_dangerSymbol]
    · simp [dangerCalls, hguarded]

theorem wreckName_mem (category : Option Int) :
    (category.bind fun code => wreckSymbols.lookup code).getD defaultWreck ∈ ownSymbols := by
  cases h : category.bind fun code => wreckSymbols.lookup code with
  | none => decide
  | some name =>
    obtain ⟨code, -, hname⟩ := Option.bind_eq_some_iff.1 h
    simp only [wreckSymbols, List.lookup_cons, List.lookup_nil] at hname
    split at hname
    · cases hname
      decide
    · split at hname
      · cases hname
        decide
      · cases hname

theorem wreckSymbol_gives : (wreckSymbol a).Gives fun symbol =>
    symbol.IsOwn ∧ ∀ c, symbol = .choice c → c.operator = .case := by
  unfold wreckSymbol
  split
  · refine .pure ⟨⟨?_, trivial⟩, ?_⟩
    · intro v hv
      simp only [Choice.options, wreckSymbols, List.map_cons, List.map_nil, List.mem_cons,
        List.not_mem_nil, or_false] at hv
      rcases hv with rfl | rfl | rfl
      · exact ⟨_, by decide, rfl⟩
      · exact ⟨_, by decide, rfl⟩
      · exact ⟨_, by decide, rfl⟩
    · rintro c ⟨⟩
      rfl
  · refine .bind_any fun category => .pure ⟨?_, ?_⟩
    · exact Argument.offers_text (wreckName_mem category)
    · rintro c ⟨⟩

theorem isOwn_obstructionSymbol : (obstructionSymbol a).IsOwn ∧
    ∀ c, obstructionSymbol a = .choice c → c.operator = .case := by
  unfold obstructionSymbol
  split
  · refine ⟨Choice.offers_branch _ ⟨_, by decide, rfl⟩ ⟨_, by decide, rfl⟩, ?_⟩
    rintro c ⟨⟩
    rfl
  · split
    · exact ⟨Argument.offers_text (by decide), by rintro c ⟨⟩⟩
    · exact ⟨Argument.offers_text (by decide), by rintro c ⟨⟩⟩

/-! ## Lights -/

theorem flareSymbol_mem (colours : List Int) : flareSymbol colours ∈ ownSymbols := by
  unfold flareSymbol
  split
  · decide
  · next colour rest =>
    cases h : flareSymbols.find? fun entry => entry.1.contains colour with
    | none => decide
    | some entry =>
      have hall : ∀ entry ∈ flareSymbols, entry.2 ∈ ownSymbols := by decide
      exact hall entry (List.mem_of_find?_eq_some h)

theorem flareChoice_offers : flareChoice.Offers (IsTextIn ownSymbols) := by
  constructor
  · intro v hv
    simp only [Choice.options, flareChoice, flareSymbols, List.map_cons, List.map_nil,
      List.mem_cons, List.not_mem_nil, or_false] at hv
    rcases hv with rfl | rfl | rfl | rfl
    all_goals exact ⟨_, by decide, rfl⟩
  · intro stop hstop
    obtain ⟨entry, -, rfl⟩ := List.mem_map.1 hstop
    exact ⟨_, rfl⟩

theorem flareArgument_gives :
    (flareArgument a).Gives (Argument.Offers (IsTextIn ownSymbols)) := by
  unfold flareArgument
  split
  · exact .pure flareChoice_offers
  · exact .bind_any fun colours => .pure (Argument.offers_text (flareSymbol_mem colours))

theorem descriptionArgument?_gives : (descriptionArgument? a).Gives fun description =>
    ∀ text ∈ description, IsOwnText a text := by
  unfold descriptionArgument?
  split
  · refine .pure ?_
    rintro _ ⟨⟩
    exact trivial
  · refine .bind_any fun description => ?_
    split
    · refine .pure ?_
      rintro _ ⟨⟩
    · refine .pure ?_
      rintro _ ⟨⟩
      exact ⟨description, rfl⟩

/-! ## All procedures -/

theorem offers_lineWidth {units : Int} (h : (lineWidth? units).isSome = true) :
    (Argument.int units).Offers IsLineWidth := ⟨units, rfl, h⟩

theorem depthArea_gives_own :
    (depthArea a s).Gives fun calls => ∀ call ∈ calls, IsOwn a call := by
  refine .bind areaColour_gives fun colour hcolour => ?_
  split
  · refine .pure ?_
    simp only [List.forall_mem_cons, List.not_mem_nil, false_implies, implies_true, and_true]
    exact ⟨.fill hcolour, .pattern,
      .line (by decide) (offers_lineWidth (by decide)) (Argument.offers_text (by decide))⟩
  · exact .pure (List.forall_mem_singleton.2 (.fill hcolour))

theorem contour_gives_own : (contour a s).Gives fun calls => ∀ call ∈ calls, IsOwn a call := by
  refine .bind_any fun depth => .bind_any fun quality => ?_
  have hstyle : (if isApproximate quality then "DASH" else "SOLD") ∈ ["SOLD", "DASH", "DOTT"] := by
    split <;> decide
  have hfixed (units : Int) (token : String) (hunits : (lineWidth? units).isSome = true)
      (htoken : token ∈ ownColours) :
      IsOwn a (lineCall (if isApproximate quality then "DASH" else "SOLD") (.int units)
        (.text token)) := .line hstyle (offers_lineWidth hunits) (Argument.offers_text htoken)
  dsimp only
  split
  · refine .pure (List.forall_mem_singleton.2 (.line hstyle ?_ ?_))
    · exact Choice.offers_branch _ ⟨2, rfl, by decide⟩ ⟨1, rfl, by decide⟩
    · exact Choice.offers_branch _ ⟨_, by decide, rfl⟩ ⟨_, by decide, rfl⟩
  · cases depth with
    | none => exact .pure (List.forall_mem_singleton.2 (hfixed 1 _ (by decide) (by decide)))
    | some depth =>
      dsimp only
      split
      · exact .pure (List.forall_mem_singleton.2 (hfixed 2 _ (by decide) (by decide)))
      · exact .pure (List.forall_mem_singleton.2 (hfixed 1 _ (by decide) (by decide)))

theorem light_gives_own : (light a).Gives fun calls => ∀ call ∈ calls, IsOwn a call := by
  refine .bind flareArgument_gives fun symbol hsymbol => .bind_any fun turn => ?_
  refine .bind descriptionArgument?_gives fun description hdescription => ?_
  cases description with
  | none => exact .pure (List.forall_mem_singleton.2 (.flare hsymbol))
  | some description =>
    refine .pure ?_
    simp only [List.forall_mem_cons, List.not_mem_nil, false_implies, implies_true, and_true]
    exact ⟨.flare hsymbol,
      .text (hdescription description rfl) (by decide) (Argument.offers_text (by decide))⟩

theorem sounding_gives_own : (sounding a s).Gives fun calls => ∀ call ∈ calls, IsOwn a call := by
  refine .bind depth?_gives fun depth hdepth => ?_
  cases depth with
  | none =>
    refine .bind (fun c hc => depthChoice_offers soundingColour_mem hc) fun c hc => ?_
    exact .pure (List.forall_mem_singleton.2 (.text (hdepth rfl) (by decide) hc))
  | some depth =>
    refine .bind_any fun band => .pure (List.forall_mem_singleton.2 ?_)
    exact .text ⟨_, rfl⟩ (by decide) (Argument.offers_text (soundingColour_mem band))

/-- Whatever the attributes and the settings, a procedure gives calls of its own kind. -/
theorem evaluate_gives_own (p : Procedure) (a : AttributeSet) (s : Settings) (t : TableSet) :
    (p.evaluate a s t).Gives fun calls => ∀ call ∈ calls, IsOwn a call := by
  cases p with
  | depare01 => exact depthArea_gives_own
  | depcnt02 => exact contour_gives_own
  | lights05 => exact light_gives_own
  | obstrn04 =>
    obtain ⟨hown, hcase⟩ := isOwn_obstructionSymbol (a := a)
    exact .bind_any fun d => .pure (isOwn_dangerCalls hown hcase d)
  | soundg02 => exact sounding_gives_own
  | wrecks02 =>
    refine .bind wreckSymbol_gives fun symbol hsymbol => ?_
    exact .bind_any fun d => .pure (isOwn_dangerCalls hsymbol.1 hsymbol.2 d)

end Procedure

/-! ## Drawing a call -/

namespace Call

variable {call : Call} (a : AttributeSet) (c : DrawingContext)

theorem draw_of_plain (h : call.primitive ≠ .cs) : call.draw a c = call.drawPlain a c := by
  have hnone : call.procedure? = .ok none := by
    unfold procedure?
    split
    · next hcs => exact absurd hcs h
    · rfl
  unfold draw
  rw [hnone]
  rfl

theorem draw_of_procedure {p : Procedure} (h : call.procedure? = .ok (some p)) :
    call.draw a c = p.evaluate a c.settings c.tableSet >>= drawAllPlain a c := by
  unfold draw
  rw [h]
  rfl

end Call

end ChartStyle
