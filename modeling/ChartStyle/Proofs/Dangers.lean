import ChartStyle.Proofs.DepthBanding
import ChartStyle.Proofs.SettledCalls

/-!
# Dangers in the renderer

A wreck or an obstruction is drawn by its depth and, for wrecks, by its category. Either may be left
to the renderer. Whichever of the two is, the calls settle for a feature of a tile to the calls that
come of its depth and category when both are known (`dangers_settle`). Whether it is a danger is one
verdict, known now or found by a condition (`danger_decides`), and the symbol for no danger is one
name (`wreckSymbol_names`, `obstructionSymbol_names`); from these two the calls follow
(`dangerCalls_settle`).
-/

set_option autoImplicit false

namespace ChartStyle

/-- An attribute is absent, or it is the finite number. -/
inductive IsNumber : Option Value → Option Double → Prop where
  | absent : IsNumber none none
  | finite {v : Value} {x : Double} (h : v.finite? = some x) : IsNumber (some v) (some x)

/-- The attribute is known to the renderer only, or it is absent or the finite number. -/
def DeferredOrNumber (v : Option Value) (x : Option Double) : Prop :=
  v = some .perFeature ∨ IsNumber v x

theorem Settings.eq_toValue_of_numeric? {v : Value} {n : Number} (h : numeric? v = some n) :
    v = n.toValue := by
  cases v with
  | int | real =>
    cases h
    rfl
  | null | bool b | text s | list items | map entries | perFeature => cases h

namespace Procedure

variable {r : Renderer} {f : TileFeature} {a : AttributeSet} {s : Settings} {safety : Number}
  {depth category : Option Double}

/-! ## The verdict -/

/-- The depth, when there is one, is less than the safety depth. -/
def isDangerous (safety : Number) : Option Double → Bool
  | some depth => (Number.real depth).less safety
  | none => false

/-- The verdict is known, or the renderer finds it for the feature. -/
def Danger.Decides (r : Renderer) (f : TileFeature) : Danger → Bool → Prop
  | .known dangerous, verdict => dangerous = verdict
  | .deferred condition, verdict => r.eval f condition = some (.bool verdict)

theorem shallowerThan_safetyDepth (hs : Settings.numeric? s.safetyDepth = some safety)
    (x : Double) :
    shallowerThan (.real x) s.safetyDepth = .ok ((Number.real x).less safety) := by
  rw [Settings.eq_toValue_of_numeric? hs]
  cases safety <;> rfl

theorem measure_safetyDepth (hs : Settings.numeric? s.safetyDepth = some safety) :
    s.safetyDepth.measure? = some safety := by
  rw [Settings.eq_toValue_of_numeric? hs]
  cases safety <;> rfl

/-- The renderer's condition: there is a depth, and it is less than the safety depth. -/
theorem eval_dangerCondition (hs : Settings.numeric? s.safetyDepth = some safety)
    (hf : IsNumber (f.find? "VALSOU") depth) :
    r.eval f (.all [.has "VALSOU",
        .less (numericAttribute "VALSOU" (.real 0)) (.value s.safetyDepth)]) =
      some (.bool (isDangerous safety depth)) := by
  rw [Renderer.eval, Renderer.evalAll, Renderer.eval]
  generalize hfind : f.find? "VALSOU" = v at hf
  cases hf with
  -- Without a depth the conjunction stops at its first member.
  | absent => rfl
  | @finite v x hx =>
    have heval : r.eval f (numericAttribute "VALSOU" (.real 0)) = some (.real x) := by
      apply r.eval_numericAttribute
      rw [hfind]
      exact hx
    have hless : r.eval f (.less (numericAttribute "VALSOU" (.real 0)) (.value s.safetyDepth)) =
        some (.bool ((Number.real x).less safety)) := by
      rw [Renderer.eval, heval, Renderer.eval]
      show (s.safetyDepth.measure?.bind fun n => some (Value.bool ((Number.real x).less n))) = _
      rw [measure_safetyDepth hs]
      rfl
    show r.evalAll f [_] = _
    rw [Renderer.evalAll, hless, isDangerous]
    cases (Number.real x).less safety with
    | true =>
      show r.evalAll f [] = _
      rw [Renderer.evalAll]
    | false => rfl

/-- The verdict on a depth that is known, or known to be absent. -/
theorem danger_of_number (hs : Settings.numeric? s.safetyDepth = some safety)
    (ha : IsNumber (a.find? "VALSOU") depth) :
    danger a s = pure (.known (isDangerous safety depth)) := by
  rw [danger]
  generalize hfind : a.find? "VALSOU" = v at ha
  cases ha with
  | absent =>
    obtain ⟨hknown, hper⟩ := AttributeSet.isKnown_of_absent hfind
    rw [hper, depth?_of_unknown hknown]
    rfl
  | @finite v x hx =>
    rw [(AttributeSet.isKnown_of_finite hfind hx).2, depth?_of_finite hfind hx]
    show (liftM (shallowerThan (.real x) s.safetyDepth) >>= _) = _
    rw [shallowerThan_safetyDepth hs]
    rfl

theorem danger_decides (hs : Settings.numeric? s.safetyDepth = some safety)
    (hf : IsNumber (f.find? "VALSOU") depth) (ha : DeferredOrNumber (a.find? "VALSOU") depth) :
    ∃ d, danger a s = pure d ∧ d.Decides r f (isDangerous safety depth) := by
  cases ha with
  | inl hdeferred =>
    rw [danger, if_pos (AttributeSet.isPerFeature_of_perFeature hdeferred).2]
    exact ⟨_, rfl, eval_dangerCondition hs hf⟩
  | inr hnumber => exact ⟨_, danger_of_number hs hnumber, rfl⟩

/-! ## The symbol -/

/-- The symbol has the name, or it is a choice by conditions that the renderer settles by it. -/
def SymbolPick.Names (r : Renderer) (f : TileFeature) : SymbolPick → String → Prop
  | .fixed n, name => n = name
  | .choice c, name => c.operator = .case ∧ r.pick f c = some (.text name)

/-- The whole number that a category is. -/
def categoryCode (category : Option Double) : Option Int :=
  category.bind fun x => if x.isWhole then some x.truncate else none

/-- The name of the symbol of a wreck by its category. -/
def wreckName (category : Option Double) : String :=
  ((categoryCode category).bind fun code => wreckSymbols.lookup code).getD defaultWreck

/-- The renderer compares a number with the codes of a table one after the other; a known number is
looked up in the table. -/
theorem evalCases_codes {x : Double} (hx : x.isFinite = true) {selector : Expr}
    (h : r.eval f selector = some (.real x)) (default : String) (table : List (Int × String)) :
    r.evalCases f (some (.text default)) (table.map fun (code, name) =>
        (.equal selector (.value (.int code)), .value (.text name))) =
      some (.text (((categoryCode (some x)).bind fun code => table.lookup code).getD default)) := by
  have hequal (code : Int) : r.eval f (.equal selector (.value (.int code))) =
      some (.bool (decide (x.isWhole = true ∧ x.truncate = code))) := by
    rw [Renderer.eval, h, Renderer.eval]
    show some (Value.bool ((Number.real x).same (.whole code))) = _
    rw [Bool.eq_iff_iff.2 ((Number.same_whole_iff hx code).trans decide_eq_true_iff.symm)]
  rw [categoryCode, Option.bind_some]
  -- Down the table the cases and the look-up part at the same entry.
  induction table with
  | nil =>
    rw [List.map_nil, Renderer.evalCases]
    split <;> rfl
  | cons entry table ih =>
    obtain ⟨code, name⟩ := entry
    rw [List.map_cons, Renderer.evalCases_cons (hequal code), ih]
    by_cases hwhole : x.isWhole = true
    · simp only [hwhole, true_and, if_true, Option.bind_some, List.lookup_cons, decide_eq_true_eq]
      by_cases hcode : x.truncate = code
      · rw [if_pos hcode, beq_iff_eq.2 hcode]
        rfl
      · rw [if_neg hcode, beq_false_of_ne hcode]
    · simp [hwhole]

theorem getInt_of_finite {code : String} {v : Value} {x : Double} (hv : a.find? code = some v)
    (hx : v.finite? = some x) (standIn : Value) :
    (a.getInt code standIn).outcome = .ok (if x.isWhole then some x.truncate else none) := by
  rw [AttributeSet.getInt, AttributeSet.getReal_of_finite hv hx]
  show (if x.isWhole then pure (some x.truncate) else _ : Report (Option Int)).outcome = _
  split <;> rfl

theorem getInt_of_absent {code : String} (h : a.find? code = none) (standIn : Value) :
    a.getInt code standIn = pure none := by
  have hknown : a.known? code = none := by
    rw [AttributeSet.known?, (AttributeSet.isKnown_of_absent h).1]
    rfl
  have hreal : a.getReal code .null = pure none := by
    rw [AttributeSet.getReal, hknown]
  rw [AttributeSet.getInt, hreal]
  rfl

/-- The symbol of a wreck whose category is known, or known to be absent. -/
theorem wreckSymbol_of_number (ha : IsNumber (a.find? "CATWRK") category) :
    (wreckSymbol a).outcome = .ok (.fixed (wreckName category)) := by
  rw [wreckSymbol]
  generalize hfind : a.find? "CATWRK" = v at ha
  cases ha with
  | absent =>
    rw [(AttributeSet.isKnown_of_absent hfind).2, getInt_of_absent hfind]
    rfl
  | finite hx =>
    rw [(AttributeSet.isKnown_of_finite hfind hx).2, if_neg Bool.false_ne_true]
    exact Report.outcome_bind_eq_ok_iff.2 ⟨_, getInt_of_finite hfind hx .null, rfl⟩

theorem wreckSymbol_names (hf : IsNumber (f.find? "CATWRK") category)
    (ha : DeferredOrNumber (a.find? "CATWRK") category) :
    ∃ symbol, (wreckSymbol a).outcome = .ok symbol ∧ symbol.Names r f (wreckName category) := by
  cases ha with
  | inr hnumber => exact ⟨_, wreckSymbol_of_number hnumber, rfl⟩
  | inl hdeferred =>
    rw [wreckSymbol, if_pos (AttributeSet.isPerFeature_of_perFeature hdeferred).2]
    refine ⟨_, rfl, rfl, ?_⟩
    rw [Renderer.pick_of_case rfl]
    generalize htile : f.find? "CATWRK" = w at hf
    cases hf with
    | absent =>
      -- A category that is missing counts as zero, which no code is.
      have hzero : ((f.find? "CATWRK").getD (.int 0)).finite? = some 0 := by
        rw [htile]
        decide +kernel
      have hdefault : wreckName (some 0) = wreckName none := by decide +kernel
      rw [← hdefault]
      exact evalCases_codes (by decide +kernel) (r.eval_numericAttribute hzero) defaultWreck
        wreckSymbols
    | @finite w x hx =>
      have hcategory : ((f.find? "CATWRK").getD (.int 0)).finite? = some x := by
        rw [htile]
        exact hx
      exact evalCases_codes (Value.isFinite_of_finite? hx) (r.eval_numericAttribute hcategory)
        defaultWreck wreckSymbols

/-- The name of the symbol of an obstruction by its depth. -/
def obstructionName : Option Double → String
  | some _ => "OBSTRN01"
  | none => "OBSTRN11"

/-- The symbol of an obstruction whose depth is known, or known to be absent. -/
theorem obstructionSymbol_of_number (ha : IsNumber (a.find? "VALSOU") depth) :
    obstructionSymbol a = .fixed (obstructionName depth) := by
  rw [obstructionSymbol]
  generalize hfind : a.find? "VALSOU" = v at ha
  cases ha with
  | absent =>
    obtain ⟨hknown, hper⟩ := AttributeSet.isKnown_of_absent hfind
    rw [hknown, hper]
    rfl
  | finite hx =>
    obtain ⟨hknown, hper⟩ := AttributeSet.isKnown_of_finite hfind hx
    rw [hknown, hper]
    rfl

theorem obstructionSymbol_names (hf : IsNumber (f.find? "VALSOU") depth)
    (ha : DeferredOrNumber (a.find? "VALSOU") depth) :
    (obstructionSymbol a).Names r f (obstructionName depth) := by
  cases ha with
  | inr hnumber =>
    rw [obstructionSymbol_of_number hnumber]
    rfl
  | inl hdeferred =>
    rw [obstructionSymbol, if_pos (AttributeSet.isPerFeature_of_perFeature hdeferred).2]
    refine ⟨rfl, ?_⟩
    have hhas : r.eval f (.has "VALSOU") = some (.bool (f.find? "VALSOU").isSome) := by
      rw [Renderer.eval]
    rw [Renderer.pick_of_case rfl]
    show r.evalCases f _ [(_, .value _)] = _
    rw [Renderer.evalCases_cons hhas, Renderer.evalCases]
    generalize f.find? "VALSOU" = w at hf
    cases hf with
    | absent | finite => rfl

/-! ## The calls -/

/-- The danger symbol in front of a symbol is settled by the verdict. -/
theorem pick_guarded {condition : Expr} {verdict : Bool} {symbol : SymbolPick} {name : String}
    (hcondition : r.eval f condition = some (.bool verdict)) (hname : symbol.Names r f name) :
    r.pick f (symbol.guarded condition) =
      some (.text (if verdict then dangerSymbol else name)) := by
  cases symbol with
  | fixed n =>
    obtain rfl : n = name := hname
    rw [SymbolPick.guarded, Renderer.pick_of_case rfl]
    show r.evalCases f _ [(_, .value _)] = _
    rw [Renderer.evalCases_cons hcondition, Renderer.evalCases]
    cases verdict <;> rfl
  | choice c =>
    obtain ⟨hcase, hpick⟩ := hname
    rw [Renderer.pick_of_case hcase] at hpick
    rw [SymbolPick.guarded, Renderer.pick_of_case rfl]
    show r.evalCases f (some c.default) ((_, .value _) :: _) = _
    rw [Renderer.evalCases_cons hcondition, hpick]
    cases verdict <;> rfl

/-- A symbol by itself settles to the symbol of its name, or to nothing where that is empty. -/
theorem settle_symbol {arg : Argument} {name : String}
    (harg : r.settleArgument f arg = some (.text name)) :
    r.settle f [⟨.sy, [arg]⟩] = some (if name = "" then [] else [⟨.sy, [.text name]⟩]) := by
  have hargs : r.settleArguments f (⟨.sy, [arg]⟩ : Call).args = some [.text name] := by
    rw [Renderer.settleArguments, harg]
    rfl
  rw [Renderer.settle_cons hargs (rfl : r.settle f [] = some [])]
  show some (if (name == "") = true then _ else _) = _
  simp only [beq_iff_eq]

/-- The calls settle by the verdict and the name of the symbol alone. -/
theorem dangerCalls_settle {d : Danger} {verdict : Bool} {symbol : SymbolPick} {name : String}
    (hd : d.Decides r f verdict) (hsymbol : symbol.Names r f name) (hname : name ≠ "")
    (t : TableSet) :
    r.settle f (dangerCalls d t symbol) =
      some (dangerCalls (.known verdict) t (.fixed name)) := by
  cases t with
  | lines => rfl
  | areas =>
    cases d with
    | known dangerous =>
      obtain rfl : dangerous = verdict := hd
      cases dangerous <;> rfl
    | deferred condition =>
      have hempty : (SymbolPick.fixed "").Names r f "" := rfl
      have hpick : r.settleArgument f
          (.choice (branch condition (.text dangerSymbol) (.text ""))) =
          some (.text (if verdict then dangerSymbol else "")) :=
        congrArg (Option.map Argument.literal) (pick_guarded hd hempty)
      -- The symbol without a name, which stands for no danger, is left out.
      have hlast := settle_symbol hpick
      show r.settle f [_, _, _] = _
      rw [Renderer.settle_cons rfl (Renderer.settle_cons rfl hlast)]
      cases verdict <;> rfl
  | points =>
    have hpoint (arg : Argument) {n : String} (harg : r.settleArgument f arg = some (.text n))
        (hn : n ≠ "") : r.settle f [⟨.sy, [arg]⟩] = some [⟨.sy, [.text n]⟩] := by
      rw [settle_symbol harg, if_neg hn]
    cases d with
    | known dangerous =>
      obtain rfl : dangerous = verdict := hd
      cases dangerous with
      | true => rfl
      | false =>
        apply hpoint _ _ hname
        cases symbol with
        | fixed n => exact congrArg (fun n => some (Argument.text n)) hsymbol
        | choice c => exact congrArg (Option.map Argument.literal) hsymbol.2
    | deferred condition =>
      have hpick := congrArg (Option.map Argument.literal) (pick_guarded hd hsymbol)
      cases verdict with
      | true => exact hpoint (.choice (symbol.guarded condition)) hpick (by decide)
      | false => exact hpoint (.choice (symbol.guarded condition)) hpick hname

theorem wreckName_ne_empty (category : Option Double) : wreckName category ≠ "" := by
  rw [wreckName]
  cases hname : (categoryCode category).bind fun code => wreckSymbols.lookup code with
  | none => decide
  | some name =>
    obtain ⟨code, -, hlookup⟩ := Option.bind_eq_some_iff.1 hname
    obtain ⟨before, after, htable, -⟩ := List.lookup_eq_some_iff.1 hlookup
    have hnames : ∀ entry ∈ wreckSymbols, entry.2 ≠ "" := by decide
    exact hnames (code, name) (by simp [htable])

theorem obstructionName_ne_empty (depth : Option Double) : obstructionName depth ≠ "" := by
  cases depth with
  | none | some x => simp [obstructionName]

/-! ## The procedures -/

section

variable (hs : Settings.numeric? s.safetyDepth = some safety) (t : TableSet)

include hs

theorem wreck_of_numbers (hdepth : IsNumber (a.find? "VALSOU") depth)
    (hcategory : IsNumber (a.find? "CATWRK") category) :
    (wreck a s t).outcome =
      .ok (dangerCalls (.known (isDangerous safety depth)) t (.fixed (wreckName category))) := by
  refine Report.outcome_bind_eq_ok_iff.2 ⟨_, wreckSymbol_of_number hcategory, ?_⟩
  rw [danger_of_number hs hdepth]
  rfl

theorem obstruction_of_number (hdepth : IsNumber (a.find? "VALSOU") depth) :
    obstruction a s t =
      pure (dangerCalls (.known (isDangerous safety depth)) t
        (.fixed (obstructionName depth))) := by
  rw [obstruction, danger_of_number hs hdepth, obstructionSymbol_of_number hdepth]
  rfl

variable (hdepth : IsNumber (f.find? "VALSOU") depth)
  (ha : DeferredOrNumber (a.find? "VALSOU") depth)

include hdepth ha

theorem wreck_settles (hcategory : IsNumber (f.find? "CATWRK") category)
    (ha' : DeferredOrNumber (a.find? "CATWRK") category) :
    ∃ calls, (wreck a s t).outcome = .ok calls ∧
      r.settle f calls =
        some (dangerCalls (.known (isDangerous safety depth)) t (.fixed (wreckName category))) := by
  obtain ⟨d, hd, hdecides⟩ := danger_decides hs hdepth ha
  obtain ⟨symbol, hsymbol, hnames⟩ := wreckSymbol_names hcategory ha'
  refine ⟨dangerCalls d t symbol, Report.outcome_bind_eq_ok_iff.2 ⟨symbol, hsymbol, ?_⟩,
    dangerCalls_settle hdecides hnames (wreckName_ne_empty category) t⟩
  rw [hd]
  rfl

theorem obstruction_settles :
    ∃ calls, (obstruction a s t).outcome = .ok calls ∧
      r.settle f calls =
        some (dangerCalls (.known (isDangerous safety depth)) t
          (.fixed (obstructionName depth))) := by
  obtain ⟨d, hd, hdecides⟩ := danger_decides hs hdepth ha
  refine ⟨dangerCalls d t (obstructionSymbol a), ?_,
    dangerCalls_settle hdecides (obstructionSymbol_names hdepth ha)
      (obstructionName_ne_empty depth) t⟩
  rw [obstruction, hd]
  rfl

end

/-- The attributes that the symbols of wrecks and obstructions depend on. -/
def dangerCodes : List String := ["VALSOU", "CATWRK"]

/-- A wreck or an obstruction whose depth or category is left to the renderer settles, for each
feature of a tile, to the calls that come of the depth and the category of that feature when both
are known. -/
theorem dangers_settle (r : Renderer) (s : Settings) {safety : Number}
    (hsafety : Settings.numeric? s.safetyDepth = some safety) {p : Procedure}
    (hp : p = .wrecks02 ∨ p = .obstrn04) (t : TableSet) {f : TileFeature}
    {a known : AttributeSet} {number : String → Option Double}
    (htile : ∀ code ∈ dangerCodes, IsNumber (f.find? code) (number code))
    (hknown : ∀ code ∈ dangerCodes, IsNumber (known.find? code) (number code))
    (ha : ∀ code ∈ dangerCodes, DeferredOrNumber (a.find? code) (number code)) :
    ∃ calls drawn, (p.evaluate a s t).outcome = .ok calls ∧
      (p.evaluate known s t).outcome = .ok drawn ∧ r.settle f calls = some drawn := by
  have hdepth : "VALSOU" ∈ dangerCodes := by decide
  have hcategory : "CATWRK" ∈ dangerCodes := by decide
  cases hp with
  | inl hwreck =>
    obtain ⟨calls, hcalls, hsettled⟩ := wreck_settles (r := r) hsafety t (htile _ hdepth)
      (ha _ hdepth) (htile _ hcategory) (ha _ hcategory)
    rw [hwreck]
    exact ⟨calls, _, hcalls,
      wreck_of_numbers hsafety t (hknown _ hdepth) (hknown _ hcategory), hsettled⟩
  | inr hobstruction =>
    obtain ⟨calls, hcalls, hsettled⟩ := obstruction_settles (r := r) hsafety t (htile _ hdepth)
      (ha _ hdepth)
    rw [hobstruction]
    exact ⟨calls, _, hcalls,
      congrArg Report.outcome (obstruction_of_number hsafety t (hknown _ hdepth)), hsettled⟩

/-- The numbers of a wreck of the second category whose depth is not known. -/
def unsoundedNumbers (code : String) : Option Double := if code = "CATWRK" then some 2 else none

/-- Such a wreck is no danger, although its category and its depth are left to the renderer. -/
theorem dangers_settle_unsoundedWreck :
    ∃ calls,
      (wrecks02.evaluate ⟨"WRECKS", [("VALSOU", .perFeature), ("CATWRK", .perFeature)]⟩ {}
        .points).outcome = .ok calls ∧
      Renderer.standard.settle ⟨.null, "Point", [("CATWRK", .int 2)]⟩ calls =
        some [⟨.sy, [.text "WRECKS05"]⟩] := by
  have htwo : (Value.int 2).finite? = some 2 := by decide +kernel
  have htile : ∀ code ∈ dangerCodes, IsNumber
      ((⟨.null, "Point", [("CATWRK", .int 2)]⟩ : TileFeature).find? code) (unsoundedNumbers code) :=
    List.forall_mem_cons.2 ⟨.absent, List.forall_mem_cons.2 ⟨.finite htwo, nofun⟩⟩
  have hknown : ∀ code ∈ dangerCodes, IsNumber
      ((⟨"WRECKS", [("CATWRK", .int 2)]⟩ : AttributeSet).find? code) (unsoundedNumbers code) :=
    List.forall_mem_cons.2 ⟨.absent, List.forall_mem_cons.2 ⟨.finite htwo, nofun⟩⟩
  obtain ⟨calls, drawn, hcalls, hdrawn, hsettled⟩ := dangers_settle .standard {} rfl (.inl rfl)
    .points (a := ⟨"WRECKS", [("VALSOU", .perFeature), ("CATWRK", .perFeature)]⟩) htile hknown
    (List.forall_mem_cons.2 ⟨.inl rfl, List.forall_mem_cons.2 ⟨.inl rfl, nofun⟩⟩)
  have hname : wreckName (unsoundedNumbers "CATWRK") = "WRECKS05" := by decide +kernel
  have hwreck := wreck_of_numbers (s := {}) rfl .points (hknown "VALSOU" (by decide))
    (hknown "CATWRK" (by decide))
  rw [hname] at hwreck
  cases hwreck.symm.trans hdrawn
  exact ⟨calls, hcalls, hsettled⟩

end Procedure

end ChartStyle
