import ChartStyle.Proofs.NumberText
import ChartStyle.Proofs.Readings

/-!
# What typed getters report

A getter gives the reading of a value, or its fallback where the value is missing or cannot be read,
and in the last case it notes one diagnostic (`Getter.get_eq`). What the caller should learn from it
is `Getter.IsExact`: the diagnostic names the attribute, the object class, the value and the
fallback that the caller got. A whole number is first read as a number, without the caller's
default, so a value that is no number at all is reported as replaced by nothing while the caller
gets the default. This is the only way in which a getter reports something else than what it did
(`Getter.isExact_iff`).
-/

set_option autoImplicit false

namespace ChartStyle

/-! ## Values that are shown -/

namespace Value

theorem readDouble?_none : Text.readDouble? "None" = none := by decide

/-- Nothing but the missing value is shown as it is. -/
theorem shown_eq_none_iff {v : Value} : v.shown = "None" ↔ v = .null := by
  constructor
  · intro h
    cases v with
    | null => rfl
    -- A number can be read from what it is shown as.
    | int n =>
      have hread := readDouble?_toString n
      rw [show toString n = "None" from h, readDouble?_none] at hread
      cases hread
    | real x =>
      have hread := Double.readDouble?_toText x
      rw [show x.toText = "None" from h, readDouble?_none] at hread
      cases hread
    -- All else begins with another character.
    | bool b => cases b <;> exact absurd h (by decide)
    | text s =>
      have hfirst := congrArg (fun t => t.toList.head?) h
      simp only [shown, Text.quoted, String.toList_ofList] at hfirst
      unfold Text.quoteFor at hfirst
      split at hfirst <;> exact absurd hfirst (by simp)
    | list items =>
      have hfirst := congrArg (fun t => t.toList.head?) h
      simp [shown] at hfirst
    | map entries =>
      have hfirst := congrArg (fun t => t.toList.head?) h
      simp [shown] at hfirst
    | perFeature => exact absurd h (by decide)
  · rintro rfl
    rfl

/-- A value as a text; the items of a list are joined by commas. -/
def asText : Value → String
  | .list items => ",".intercalate (items.map plain)
  | v => v.plain

/-- A value that says nothing now: it is missing, empty, or left to the renderer. -/
inductive IsUnstated : Value → Prop where
  | null : IsUnstated .null
  | emptyText : IsUnstated (.text "")
  | emptyList : IsUnstated (.list [])
  | perFeature : IsUnstated .perFeature

theorem isKnown_eq_false_iff {v : Value} : v.isKnown = false ↔ v.IsUnstated := by
  constructor
  · intro h
    cases v with
    | null => exact .null
    | text s =>
      obtain rfl : s = "" := by simpa [isKnown, isStated] using h
      exact .emptyText
    | list items =>
      obtain rfl : items = [] := by simpa [isKnown, isStated] using h
      exact .emptyList
    | perFeature => exact .perFeature
    | bool b | int n | real x | map entries => cases h
  · intro h
    cases h <;> rfl

end Value

theorem AttributeSet.known?_eq_none_iff {a : AttributeSet} {code : String} :
    a.known? code = none ↔ ∀ v, a.find? code = some v → v.IsUnstated := by
  rw [known?_eq, Option.filter_eq_none_iff]
  apply forall₂_congr
  intro v _
  rw [Bool.not_eq_true, Value.isKnown_eq_false_iff]

/-! ## Getters -/

/-- The ways in which a caller asks for the value of an attribute. -/
inductive Getter where
  | text
  | real
  | whole
  | items
  deriving DecidableEq

namespace Getter

/-- What a getter makes of a value. -/
def verdict (g : Getter) (v : Value) : Verdict Value :=
  match g with
  | .text => .usable (.text v.asText)
  | .real => v.asReal.andThen fun x => .usable (.real x)
  | .whole => v.asWhole.andThen fun n => .usable (.int n)
  | .items => v.asItems.andThen fun ns => .usable (.list (ns.map .int))

/-- What the caller gets in place of a value: the default, or an empty list. -/
def fallback (g : Getter) (default : Value) : Value :=
  match g with
  | .items => .list []
  | _ => default

/-- What the caller gets. -/
def get (g : Getter) (a : AttributeSet) (code : String) (default : Value) : Report Value :=
  match g with
  | .text => pure ((a.getText code).elim default .text)
  | .real => do return (← a.getReal code default).elim default .real
  | .whole => do return (← a.getInt code default).elim default .int
  | .items => do return .list ((← a.getInts code).map .int)

/-- What the diagnostic calls the fallback for a value that cannot be used. -/
def named (g : Getter) (v default : Value) : Value :=
  match g, v.asReal with
  | .whole, .unusable => .null
  | _, _ => g.fallback default

variable {a : AttributeSet} {code : String} {v default : Value}

theorem getText_eq (a : AttributeSet) (code : String) :
    a.getText code = (a.known? code).map Value.asText := by
  unfold AttributeSet.getText
  rcases a.known? code with _ | v
  · rfl
  · cases v <;> rfl

/-- A value that is no number is reported before the default is known. -/
theorem getInt_of_known (h : a.known? code = some v) :
    a.getInt code default = a.heed code v (whole.named v default) v.asWhole := by
  unfold AttributeSet.getInt
  rw [AttributeSet.getReal_eq, h]
  simp only [Value.asWhole, named]
  cases v.asReal with
  | usable x =>
    simp only [AttributeSet.heed, Verdict.andThen, pure_bind, AttributeSet.find?_of_known? h,
      Option.getD_some]
    split <;> rfl
  | unusable => rfl
  | beyond fault => rfl

/-- A getter gives its reading of a known value, or its fallback with one diagnostic; only a value
beyond the range of the doubles is a fault. -/
theorem get_eq (g : Getter) (a : AttributeSet) (code : String) (default : Value) :
    g.get a code default =
      match a.known? code with
      | none => pure (g.fallback default)
      | some v =>
        match g.verdict v with
        | .usable w => pure w
        | .unusable => do
          Report.diagnose (.malformedAttribute code v (g.named v default)) a.objectClass
          return g.fallback default
        | .beyond fault => .fail (.data fault) := by
  cases hv : a.known? code with
  | none =>
    cases g with
    | text => simp [get, getText_eq, hv, fallback]
    | real => simp [get, AttributeSet.getReal_eq, hv, fallback]
    | whole => simp [get, AttributeSet.getInt, AttributeSet.getReal_eq, hv, fallback]
    | items => simp [get, AttributeSet.getInts_eq, hv, fallback]
  | some v =>
    cases g with
    | text => simp [get, getText_eq, hv, verdict]
    | real =>
      simp only [get, AttributeSet.getReal_eq, hv, verdict]
      cases v.asReal <;> rfl
    | whole =>
      simp only [get, getInt_of_known hv, verdict]
      cases v.asWhole <;> rfl
    | items =>
      simp only [get, AttributeSet.getInts_eq, hv, verdict]
      cases v.asItems <;> rfl

theorem get_of_unknown (g : Getter) (h : a.known? code = none) :
    g.get a code default = pure (g.fallback default) := by
  rw [get_eq, h]

theorem get_of_usable {g : Getter} {w : Value} (h : a.known? code = some v)
    (hw : g.verdict v = .usable w) : g.get a code default = pure w := by
  rw [get_eq, h]
  simp only [hw]

theorem get_of_unusable {g : Getter} (h : a.known? code = some v) (hv : g.verdict v = .unusable) :
    g.get a code default =
      ⟨[.diagnostic ⟨.malformedAttribute code v (g.named v default), some a.objectClass⟩],
        .ok (g.fallback default)⟩ := by
  rw [get_eq, h]
  simp only [hv]
  rfl

/-- A getter gives a value unless the attribute lies beyond the range of the doubles. -/
theorem get_isOk_iff (g : Getter) : (∃ w, (g.get a code default).outcome = .ok w) ↔
    ∀ v fault, a.known? code = some v → g.verdict v ≠ .beyond fault := by
  cases hv : a.known? code with
  | none =>
    rw [get_of_unknown g hv]
    exact iff_of_true ⟨_, rfl⟩ nofun
  | some v =>
    have hfound : (∀ u fault, some v = some u → g.verdict u ≠ .beyond fault) ↔
        ∀ fault, g.verdict v ≠ .beyond fault := by
      constructor
      · intro h fault
        exact h v fault rfl
      · rintro h u fault hu
        obtain rfl : v = u := Option.some.inj hu
        exact h fault
    rw [hfound]
    cases hverdict : g.verdict v with
    | usable w =>
      rw [get_of_usable hv hverdict]
      exact iff_of_true ⟨w, rfl⟩ nofun
    | unusable =>
      rw [get_of_unusable hv hverdict]
      exact iff_of_true ⟨_, rfl⟩ nofun
    | beyond fault =>
      rw [get_eq, hv]
      simp only [hverdict]
      exact iff_of_false nofun fun h => h fault rfl

/-! ## Exact reports -/

/-- The getter reports exactly what it did. A value that says nothing now gives the fallback and a
value that can be read its reading, both without a note; any other value gives the fallback and one
diagnostic with the attribute, the object class, the value and this fallback. -/
structure IsExact (g : Getter) (a : AttributeSet) (code : String) (default : Value) : Prop where
  unstated : (∀ v, a.find? code = some v → v.IsUnstated) →
    g.get a code default = pure (g.fallback default)
  usable : ∀ v w, a.known? code = some v → g.verdict v = .usable w →
    g.get a code default = pure w
  unusable : ∀ v, a.known? code = some v → g.verdict v = .unusable →
    ∃ d : Diagnostic, g.get a code default = ⟨[.diagnostic d], .ok (g.fallback default)⟩ ∧
      d.kind = .malformedAttribute ∧ d.name = .text code ∧ d.objectClass = some a.objectClass ∧
      d.message = s!"Attribute {code}={v.shown} is not valid, using {(g.fallback default).shown}"

/-- An exact report stands and falls with the fallback that its diagnostic names. -/
theorem isExact_iff_named (g : Getter) : g.IsExact a code default ↔
    ∀ v, a.known? code = some v → g.verdict v = .unusable →
      (g.named v default).shown = (g.fallback default).shown := by
  constructor
  · intro hexact v hv hverdict
    obtain ⟨d, hget, -, -, -, hmessage⟩ := hexact.unusable v hv hverdict
    rw [get_of_unusable hv hverdict, Report.mk.injEq] at hget
    obtain ⟨hevents, -⟩ := hget
    -- The one diagnostic is the one that the getter notes.
    obtain rfl : _ = d := by simpa using hevents
    simp only [Diagnostic.message] at hmessage
    exact (String.append_right_inj _).1 hmessage
  · intro hnamed
    constructor
    · intro hunstated
      exact get_of_unknown g (AttributeSet.known?_eq_none_iff.2 hunstated)
    · intro v w hv hw
      exact get_of_usable hv hw
    · intro v hv hverdict
      refine ⟨_, get_of_unusable hv hverdict, rfl, rfl, rfl, ?_⟩
      simp only [Diagnostic.message, hnamed v hv hverdict]

theorem named_shown_eq_iff (g : Getter) :
    (g.named v default).shown = (g.fallback default).shown ↔
      ¬ (g = .whole ∧ default ≠ .null ∧ v.asReal = .unusable) := by
  unfold named fallback
  split
  · next hv =>
    have hnull : Value.null.shown = default.shown ↔ default = .null := by
      rw [eq_comm]
      exact Value.shown_eq_none_iff
    simp [hv, hnull]
  · next hother =>
    refine iff_of_true rfl ?_
    rintro ⟨rfl, -, hv⟩
    exact hother rfl hv

theorem verdict_whole (h : v.asReal = .unusable) : whole.verdict v = .unusable := by
  simp [verdict, Value.asWhole, h, Verdict.andThen]

/-- A getter gives a value unless the attribute lies beyond the range of the doubles, and it reports
exactly what it did unless a caller asks for a whole number, with a default, where there is a value
that is no finite number. -/
theorem isExact_iff (g : Getter) (a : AttributeSet) (code : String) (default : Value) :
    ((∃ w, (g.get a code default).outcome = .ok w) ↔
      ∀ v fault, a.known? code = some v → g.verdict v ≠ .beyond fault) ∧
    (g.IsExact a code default ↔
      ¬ (g = .whole ∧ default ≠ .null ∧ ∃ v, a.known? code = some v ∧ v.asReal = .unusable)) := by
  refine ⟨get_isOk_iff g, ?_⟩
  rw [isExact_iff_named]
  constructor
  · rintro h ⟨rfl, hdefault, v, hv, hreal⟩
    exact (named_shown_eq_iff whole).1 (h v hv (verdict_whole hreal)) ⟨rfl, hdefault, hreal⟩
  · intro h v hv _
    rw [named_shown_eq_iff]
    rintro ⟨rfl, hdefault, hreal⟩
    exact h ⟨rfl, hdefault, v, hv, hreal⟩

/-- A contour with words for the quality of its position. -/
def wordedContour : AttributeSet := ⟨"DEPCNT", [("QUAPOS", .text "approximate")]⟩

/-- Whoever asks for the quality with zero as the default gets zero, and reads that nothing was used
in place of the words. -/
theorem get_wordedContour : ¬ whole.IsExact wordedContour "QUAPOS" (.int 0) ∧
    (whole.get wordedContour "QUAPOS" (.int 0)).diagnostics.map Diagnostic.message =
      ["Attribute QUAPOS='approximate' is not valid, using None"] := by
  have hmessages : (whole.get wordedContour "QUAPOS" (.int 0)).diagnostics.map Diagnostic.message =
      ["Attribute QUAPOS='approximate' is not valid, using None"] := by
    decide +kernel
  refine ⟨fun hexact => ?_, hmessages⟩
  have hread : Text.readDouble? "approximate" = none := by decide +kernel
  have hverdict : whole.verdict (.text "approximate") = .unusable := by
    apply verdict_whole
    simp only [Value.asReal, Value.toDouble, hread]
  obtain ⟨d, hget, -, -, -, hmessage⟩ := hexact.unusable (.text "approximate") rfl hverdict
  rw [hget] at hmessages
  have hfound : d.message = "Attribute QUAPOS='approximate' is not valid, using None" :=
    List.singleton_inj.1 hmessages
  rw [hfound] at hmessage
  revert hmessage
  decide +kernel

end Getter

end ChartStyle
