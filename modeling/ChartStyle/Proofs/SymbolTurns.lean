import ChartStyle.Bundled.Presentation
import ChartStyle.Proofs.FiniteTurns

/-!
# The turns of symbols

A symbol should be turned by a finite number of degrees within a full turn, or by an attribute that
only the renderer knows, and by nothing that is no number (`Argument.TurnsSoundly`). The symbols of
procedures stand upright, except for the flare of a light (`Procedure.evaluate_gives_upright`),
whose turn is no number just when its sector is too wide for the doubles
(`Procedure.flareTurn_isFinite_iff`). Such lights, and stray literals in the text of an instruction,
are what puts not-a-number into the style; all other calls turn their symbols as they should
(`CallSource.draw_turnsSoundly_iff`).
-/

set_option autoImplicit false

namespace ChartStyle

/-! ## Drawing a symbol -/

/-- A symbol call draws nothing, or its symbol with the turn that its argument gives. -/
theorem Call.exists_turn_of_draw {call : Call} (hsy : call.primitive = .sy) {a : AttributeSet}
    {c : DrawingContext} {fragments : List Fragment}
    (h : (call.draw a c).outcome = .ok fragments) :
    fragments = [] ∨ ∃ icon turn, (Turn.ofArgument (call.arg 1 (.int 0)) a).outcome = .ok turn ∧
      fragments = [symbolFragment icon turn.reduce (call.arg 1 (.int 0))] := by
  have hplain : call.primitive ≠ .cs := by
    rw [hsy]
    decide
  rw [Call.draw_of_plain a c hplain, Call.drawPlain, hsy] at h
  dsimp only at h
  rw [drawSymbol_eq] at h
  obtain ⟨icon, -, h⟩ := Report.outcome_bind_eq_ok_iff.1 h
  cases icon with
  | none =>
    cases h
    exact .inl rfl
  | some icon =>
    obtain ⟨turn, hturn, h⟩ := Report.outcome_bind_eq_ok_iff.1 h
    cases h
    exact .inr ⟨icon, turn, hturn, rfl⟩

/-! ## The calls of procedures -/

/-- The limits of the sector of a light are read as numbers whose difference is not finite. -/
def AttributeSet.HasWideSector (a : AttributeSet) : Prop :=
  ∃ u v first second, a.known? "SECTR1" = some u ∧ u.asReal = .usable first ∧
    a.known? "SECTR2" = some v ∧ v.asReal = .usable second ∧ (second - first).isFinite = false

theorem AttributeSet.getReal_eq_some_iff {a : AttributeSet} {code : String} {standIn : Value}
    {x : Double} : (a.getReal code standIn).outcome = .ok (some x) ↔
      ∃ v, a.known? code = some v ∧ v.asReal = .usable x := by
  rw [AttributeSet.getReal_eq]
  cases a.known? code with
  | none =>
    constructor
    · intro h
      cases h
    · rintro ⟨v, hv, -⟩
      cases hv
  | some v =>
    simp only [Option.some.injEq, exists_eq_left']
    cases v.asReal with
    | usable y =>
      constructor
      · intro h
        cases h
        rfl
      · intro h
        cases h
        rfl
    | unusable => exact iff_of_false nofun nofun
    | beyond fault => exact iff_of_false nofun nofun

theorem AttributeSet.hasWideSector_iff {a : AttributeSet} {first second : Option Double}
    (hfirst : (a.getReal "SECTR1" .null).outcome = .ok first)
    (hsecond : (a.getReal "SECTR2" .null).outcome = .ok second) :
    a.HasWideSector ↔ ∃ x y, first = some x ∧ second = some y ∧ (y - x).isFinite = false := by
  constructor
  · rintro ⟨u, v, x, y, hu, hx, hv, hy, hdifference⟩
    have hfirst' : (a.getReal "SECTR1" .null).outcome = .ok (some x) :=
      getReal_eq_some_iff.2 ⟨u, hu, hx⟩
    have hsecond' : (a.getReal "SECTR2" .null).outcome = .ok (some y) :=
      getReal_eq_some_iff.2 ⟨v, hv, hy⟩
    rw [hfirst] at hfirst'
    rw [hsecond] at hsecond'
    exact ⟨x, y, Except.ok.inj hfirst', Except.ok.inj hsecond', hdifference⟩
  · rintro ⟨x, y, rfl, rfl, hdifference⟩
    obtain ⟨u, hu, hx⟩ := getReal_eq_some_iff.1 hfirst
    obtain ⟨v, hv, hy⟩ := getReal_eq_some_iff.1 hsecond
    exact ⟨u, v, x, y, hu, hx, hv, hy, hdifference⟩

namespace Procedure

variable {a : AttributeSet}

/-- The turn of a flare is no number just when the sector is too wide. -/
theorem flareTurn_isFinite_iff {turn : Double} (h : (flareTurn a).outcome = .ok turn) :
    turn.isFinite = false ↔ a.HasWideSector := by
  obtain ⟨first, hfirst, h⟩ := Report.outcome_bind_eq_ok_iff.1 h
  obtain ⟨second, hsecond, h⟩ := Report.outcome_bind_eq_ok_iff.1 h
  rw [AttributeSet.hasWideSector_iff hfirst hsecond]
  have hdefault : ¬ defaultTurn.isFinite = false := by decide +kernel
  -- Where a limit is missing the flare has its default turn.
  cases first with
  | none =>
    obtain rfl : defaultTurn = turn := Except.ok.inj h
    refine iff_of_false hdefault ?_
    rintro ⟨x, y, hx, -⟩
    cases hx
  | some x =>
    cases second with
    | none =>
      obtain rfl : defaultTurn = turn := Except.ok.inj h
      refine iff_of_false hdefault ?_
      rintro ⟨x, y, -, hy, -⟩
      cases hy
    | some y =>
      obtain rfl : sectorTurn x y = turn := Except.ok.inj h
      obtain ⟨u, -, hx⟩ := AttributeSet.getReal_eq_some_iff.1 hfirst
      have hfinite := (Value.toDouble_of_asReal hx).2
      cases hdifference : (y - x).isFinite with
      | false =>
        rw [Double.sectorTurn_of_not_finite hdifference]
        exact iff_of_true rfl ⟨x, y, rfl, rfl, hdifference⟩
      | true =>
        have hturn := (Double.sectorTurn_isWithin hfinite hdifference).isFinite
        refine iff_of_false ?_ ?_
        · rw [hturn]
          decide
        · rintro ⟨_, _, ⟨⟩, ⟨⟩, hwide⟩
          rw [hdifference] at hwide
          cases hwide

/-- The symbol of a light is its flare, and it is turned by the turn of the flare. -/
theorem exists_flareTurn {calls : List Call} (h : (light a).outcome = .ok calls) {call : Call}
    (hcall : call ∈ calls) (hsy : call.primitive = .sy) :
    ∃ turn, (flareTurn a).outcome = .ok turn ∧ call.arg 1 (.int 0) = .literal (.real turn) := by
  obtain ⟨symbol, -, h⟩ := Report.outcome_bind_eq_ok_iff.1 h
  obtain ⟨turn, hturn, h⟩ := Report.outcome_bind_eq_ok_iff.1 h
  obtain ⟨description, -, h⟩ := Report.outcome_bind_eq_ok_iff.1 h
  refine ⟨turn, hturn, ?_⟩
  cases description with
  | none =>
    cases h
    obtain rfl := List.mem_singleton.1 hcall
    rfl
  | some description =>
    cases h
    rcases List.mem_cons.1 hcall with rfl | hcall
    · rfl
    · obtain rfl := List.mem_singleton.1 hcall
      cases hsy

/-- The symbols among the calls are not turned. -/
def StandUpright (calls : List Call) : Prop :=
  ∀ call ∈ calls, call.primitive = .sy → call.arg 1 (.int 0) = .int 0

theorem standUpright_nil : StandUpright [] := by
  intro call hcall
  cases hcall

theorem StandUpright.cons {call : Call} {calls : List Call} (h : call.primitive ≠ .sy)
    (hcalls : StandUpright calls) : StandUpright (call :: calls) := by
  intro other hother hsy
  rcases List.mem_cons.1 hother with rfl | hother
  · exact absurd hsy h
  · exact hcalls other hother hsy

theorem standUpright_symbol (symbol : Argument) : StandUpright [⟨.sy, [symbol]⟩] := by
  intro call hcall _
  obtain rfl := List.mem_singleton.1 hcall
  rfl

theorem standUpright_dangerCalls (d : Danger) (t : TableSet) (symbol : SymbolPick) :
    StandUpright (dangerCalls d t symbol) := by
  cases t with
  | areas =>
    rcases d with (_ | _) | condition
    · exact .cons nofun (.cons nofun standUpright_nil)
    · exact .cons nofun (.cons nofun (standUpright_symbol _))
    · exact .cons nofun (.cons nofun (standUpright_symbol _))
  | lines => exact .cons nofun standUpright_nil
  | points =>
    rcases d with (_ | _) | condition
    · exact standUpright_symbol _
    · exact standUpright_symbol _
    · exact standUpright_symbol _

/-- No procedure turns a symbol, except that for lights. -/
theorem evaluate_gives_upright {p : Procedure} (hp : p ≠ .lights05) (a : AttributeSet)
    (s : Settings) (t : TableSet) : (p.evaluate a s t).Gives StandUpright := by
  cases p with
  | depare01 =>
    refine .bind_any fun colour => ?_
    split
    · exact .pure (.cons nofun (.cons nofun (.cons nofun standUpright_nil)))
    · exact .pure (.cons nofun standUpright_nil)
  | depcnt02 =>
    refine .bind_any fun depth => .bind_any fun quality => ?_
    dsimp only
    split
    · exact .pure (.cons nofun standUpright_nil)
    · cases depth with
      | none => exact .pure (.cons nofun standUpright_nil)
      | some depth =>
        dsimp only
        split
        · exact .pure (.cons nofun standUpright_nil)
        · exact .pure (.cons nofun standUpright_nil)
  | lights05 => exact absurd rfl hp
  | obstrn04 =>
    refine .bind_any fun d => .pure ?_
    exact standUpright_dangerCalls d t _
  | soundg02 =>
    refine .bind_any fun depth => ?_
    cases depth with
    | none =>
      refine .bind_any fun colour => .pure ?_
      exact .cons nofun standUpright_nil
    | some depth =>
      refine .bind_any fun band => .pure ?_
      exact .cons nofun standUpright_nil
  | wrecks02 =>
    refine .bind_any fun symbol => .bind_any fun d => .pure ?_
    exact standUpright_dangerCalls d t symbol

end Procedure

/-! ## Where calls come from -/

/-- Where a call comes from: the text of an instruction, or a procedure that is run for a feature.
-/
inductive CallSource where
  | text (s : String) (label : Option String)
  | procedure (p : Procedure) (a : AttributeSet) (s : Settings) (t : TableSet)

namespace CallSource

/-- All calls that come from there. -/
def calls : CallSource → Except Fault (List Call)
  | .text s label => parseInstructions s label
  | .procedure p a s t => (p.evaluate a s t).outcome

/-- The call is one of them. -/
def Gives (source : CallSource) (call : Call) : Prop :=
  ∃ calls, source.calls = .ok calls ∧ call ∈ calls

/-- A symbol call gets a turn that is not finite: it is written so in a text, or the call belongs to
a light whose sector is too wide. -/
def TurnsAstray (call : Call) : CallSource → Prop
  | .text _ _ => (call.arg 1 (.int 0)).IsStray
  | .procedure p a _ _ => p = .lights05 ∧ a.HasWideSector

variable {source : CallSource} {call : Call}

/-- The turn of a symbol call is a written argument, and a stray one in the two cases alone. -/
theorem Gives.isWritten_turn (h : source.Gives call) (hsy : call.primitive = .sy) :
    (call.arg 1 (.int 0)).IsWritten ∧
      ((call.arg 1 (.int 0)).IsStray ↔ source.TurnsAstray call) := by
  obtain ⟨calls, hcalls, hcall⟩ := h
  cases source with
  | text s label =>
    obtain ⟨letters, body, hread⟩ := isRead_of_parseInstructions hcalls hcall
    refine ⟨?_, Iff.rfl⟩
    have hargs := Argument.isWritten_of_parseAll hread.args
    rw [Call.arg, List.getD_eq_getElem?_getD]
    cases hget : call.args[1]? with
    | none => exact .int 0
    | some arg => exact hargs arg (List.mem_of_getElem? hget)
  | procedure p a s t =>
    by_cases hp : p = .lights05
    · subst hp
      obtain ⟨turn, hturn, harg⟩ := Procedure.exists_flareTurn hcalls hcall hsy
      rw [harg]
      refine ⟨.real turn, ?_⟩
      have hwide := Procedure.flareTurn_isFinite_iff hturn
      constructor
      · rintro (- | hx)
        exact ⟨rfl, hwide.1 hx⟩
      · rintro ⟨-, hsector⟩
        exact .real (hwide.2 hsector)
    · have harg := Procedure.evaluate_gives_upright hp a s t calls hcalls call hcall hsy
      rw [harg]
      refine ⟨.int 0, iff_of_false ?_ fun h => hp h.1⟩
      intro hstray
      cases hstray

section

variable {a : AttributeSet} {c : DrawingContext} {fragments : List Fragment}

/-- A turn that is not finite turns the symbol by not-a-number. -/
theorem turn?_of_turnsAstray (hgives : source.Gives call) (hsy : call.primitive = .sy)
    (hastray : source.TurnsAstray call) (hdrawn : (call.draw a c).outcome = .ok fragments) :
    ∀ f ∈ fragments, f.turn? = some (.value (.real .nan)) := by
  obtain ⟨hwritten, hstray⟩ := hgives.isWritten_turn hsy
  intro f hf
  rcases Call.exists_turn_of_draw hsy hdrawn with rfl | ⟨icon, turn, hturn, rfl⟩
  · cases hf
  · obtain rfl := List.mem_singleton.1 hf
    have hsettles := Turn.settles_of_isWritten hwritten hturn
    rw [Turn.turn?_symbolFragment]
    exact hsettles.shown?_of_isStray (hstray.2 hastray)

/-- The symbols of a call are turned by attributes that only the renderer knows, or by finite
numbers within a full turn, just when nothing is drawn where a turn is not finite. Where one is not
finite, each symbol is turned by not-a-number. -/
theorem draw_turnsSoundly_iff (hgives : source.Gives call) (hsy : call.primitive = .sy)
    (hdrawn : (call.draw a c).outcome = .ok fragments) :
    ((call.arg 1 (.int 0)).TurnsSoundly a fragments ↔
      (source.TurnsAstray call → fragments = [])) ∧
    (source.TurnsAstray call → ∀ f ∈ fragments, f.turn? = some (.value (.real .nan))) := by
  refine ⟨?_, fun hastray => turn?_of_turnsAstray hgives hsy hastray hdrawn⟩
  obtain ⟨hwritten, hstray⟩ := hgives.isWritten_turn hsy
  rcases Call.exists_turn_of_draw hsy hdrawn with rfl | ⟨icon, turn, hturn, rfl⟩
  · exact iff_of_true ⟨nofun, fun _ => nofun⟩ fun _ => rfl
  · have hsettles := Turn.settles_of_isWritten hwritten hturn
    rw [hsettles.turnsSoundly_iff icon, hstray]
    constructor
    · intro hsound hastray
      exact absurd hastray hsound
    · intro hnothing hastray
      cases hnothing hastray

end

/-- What calls are drawn with by default. -/
def defaultContext : DrawingContext := ⟨{}, Bundled.palette, Bundled.registry, .points⟩

/-- A beacon that is turned by its orientation. -/
def orientedBeacon : Call := ⟨.sy, [.text "BCNLAT15", .attribute "ORIENT"]⟩

/-- A beacon with an orientation of more than a full turn. -/
def beyondNorth : AttributeSet := ⟨"BCNLAT", [("ORIENT", .int 400)]⟩

/-- The beacon is turned by its orientation, and soundly. -/
theorem draw_turnsSoundly_orientedBeacon :
    (text "SY(BCNLAT15,ORIENT)" none).Gives orientedBeacon ∧
      ∃ fragments, (orientedBeacon.draw beyondNorth defaultContext).outcome = .ok fragments ∧
        (orientedBeacon.arg 1 (.int 0)).TurnsSoundly beyondNorth fragments ∧
        fragments.map (·.turn?.isSome) = [true] := by
  have hgives : (text "SY(BCNLAT15,ORIENT)" none).Gives orientedBeacon :=
    ⟨[orientedBeacon], by with_unfolding_all rfl, List.mem_singleton_self _⟩
  have hturns : (orientedBeacon.draw beyondNorth defaultContext).outcome.toOption.map
      (List.map (·.turn?.isSome)) = some [true] := by
    decide +kernel
  cases h : (orientedBeacon.draw beyondNorth defaultContext).outcome with
  | error fault =>
    rw [h] at hturns
    cases hturns
  | ok fragments =>
    rw [h] at hturns
    refine ⟨hgives, fragments, rfl, ?_, Option.some.inj hturns⟩
    exact (draw_turnsSoundly_iff hgives rfl h).1.2 nofun

/-- A buoy whose turn is written as a word that reads as not-a-number. -/
def spunBuoy : Call := ⟨.sy, [.text "BOYLAT13", .text "nan"]⟩

/-- A light with a sector from one end of the doubles to the other. -/
def wideLight : AttributeSet :=
  ⟨"LIGHTS", [("SECTR1", .text "-1.5e308"), ("SECTR2", .text "1.5e308")]⟩

theorem hasWideSector_wideLight : wideLight.HasWideSector := by
  have hreal (s : String) (negative : Bool)
      (hread : Text.readDouble? s = some (.ofDecimal negative 15 307))
      (hfinite : (Double.ofDecimal negative 15 307).isFinite) :
      (Value.text s).asReal = .usable (.ofDecimal negative 15 307) := by
    simp only [Value.asReal, Value.toDouble, hread, hfinite, if_true]
  have hfirst := hreal "-1.5e308" true (by decide +kernel) (by decide +kernel)
  have hsecond := hreal "1.5e308" false (by decide +kernel) (by decide +kernel)
  exact ⟨_, _, _, _, rfl, hfirst, rfl, hsecond, by decide +kernel⟩

/-- The buoy is turned by not-a-number, and the procedure for lights gives a flare of such a turn.
-/
theorem draw_turns_astray :
    ((text "SY(BOYLAT13,nan)" none).Gives spunBuoy ∧
      ∃ fragments, (spunBuoy.draw ⟨"BOYLAT", []⟩ defaultContext).outcome = .ok fragments ∧
        fragments ≠ [] ∧ (∀ f ∈ fragments, f.turn? = some (.value (.real .nan))) ∧
        ¬ (spunBuoy.arg 1 (.int 0)).TurnsSoundly ⟨"BOYLAT", []⟩ fragments) ∧
    ∃ flare, (procedure .lights05 wideLight {} .points).Gives flare ∧ flare.primitive = .sy ∧
      (procedure .lights05 wideLight {} .points).TurnsAstray flare := by
  constructor
  · have hgives : (text "SY(BOYLAT13,nan)" none).Gives spunBuoy :=
      ⟨[spunBuoy], by with_unfolding_all rfl, List.mem_singleton_self _⟩
    have hastray : (text "SY(BOYLAT13,nan)" none).TurnsAstray spunBuoy := by
      have hread : Text.readDouble? "nan" = some .nan := by decide +kernel
      exact .text hread rfl
    have hdrawn : (spunBuoy.draw ⟨"BOYLAT", []⟩ defaultContext).outcome.toOption.map List.length =
        some 1 := by
      decide +kernel
    cases h : (spunBuoy.draw ⟨"BOYLAT", []⟩ defaultContext).outcome with
    | error fault =>
      rw [h] at hdrawn
      cases hdrawn
    | ok fragments =>
      rw [h] at hdrawn
      obtain ⟨f, rfl⟩ := List.length_eq_one_iff.1 (Option.some.inj hdrawn)
      have hturn := turn?_of_turnsAstray hgives rfl hastray h
      refine ⟨hgives, [f], rfl, by simp, hturn, ?_⟩
      have hf := List.mem_singleton_self f
      exact Argument.not_turnsSoundly hf (hturn f hf)
  · have hcalls : (Procedure.evaluate .lights05 wideLight {} .points).outcome.toOption.map
        (List.map (·.primitive)) = some [.sy] := by
      decide +kernel
    cases h : (Procedure.evaluate .lights05 wideLight {} .points).outcome with
    | error fault =>
      rw [h] at hcalls
      cases hcalls
    | ok calls =>
      rw [h] at hcalls
      obtain ⟨flare, rfl, hsy⟩ := List.map_eq_singleton_iff.1 (Option.some.inj hcalls)
      refine ⟨flare, ⟨[flare], h, List.mem_singleton_self flare⟩, hsy, rfl, ?_⟩
      exact hasWideSector_wideLight

end CallSource

end ChartStyle
