import ChartStyle.Proofs.DrawnCalls
import ChartStyle.Proofs.MonotoneRounding
import ChartStyle.Proofs.ReadCalls

/-!
# Turns of finite numbers

A finite number of degrees, of whatever size, is reduced to one within a full turn
(`Number.reduceTurn_isTurn`), and an infinite one to not-a-number. Since attributes are read as
finite numbers, only a literal can give the latter: a word that reads as an infinity or as
not-a-number, or a row of digits that is too long (`Argument.IsStray`). What an argument gives is
one of three things (`Turn.Settles`), and its symbol is turned as it should be unless the argument
is such a literal (`Turn.Settles.turnsSoundly_iff`). For the same reason the flare of a sector has a
turn unless the difference of the limits is not finite (`Double.sectorTurn_isWithin`).
-/

set_option autoImplicit false

namespace ChartStyle

/-! ## Numbers of degrees -/

namespace Number

/-- A number that is neither infinite nor not-a-number. -/
def isFinite : Number → Bool
  | .whole _ => true
  | .real x => x.isFinite

/-- A finite number from zero to a full turn. -/
structure IsTurn (n : Number) : Prop where
  finite : n.isFinite = true
  nonneg : (whole 0).lessEq n = true
  le_full : n.lessEq (whole fullTurn) = true

theorem isTurn_of_isWithin {x : Double} (h : x.IsWithin fullTurn) : (real x).IsTurn := by
  obtain ⟨place, rfl, hplace⟩ := h
  have hnonneg : ¬ (Double.magnitudeAt place : Int) < 0 * Double.unitsPerOne := by omega
  have hle : ¬ (fullTurn * Double.unitsPerOne : Int) < Double.magnitudeAt place := by
    exact_mod_cast Nat.not_lt.2 hplace
  exact ⟨rfl, congrArg not (decide_eq_false hnonneg), congrArg not (decide_eq_false hle)⟩

/-- A number stands for something unless it is zero. -/
theorem isPresent_toValue (n : Number) : n.toValue.isPresent = !n.same (.whole 0) := by
  cases n with
  | whole n =>
    simp only [toValue, Value.isPresent, same, lessEq, isNan, less]
    rw [Bool.eq_iff_iff]
    simp
    omega
  | real x =>
    cases x with
    | nan => rfl
    | infinite negative => cases negative <;> rfl
    | finite negative place =>
      have hzero : place.val = 0 ↔ (Double.finite negative place).units = 0 := by
        rw [← Int.natAbs_eq_zero, Double.natAbs_units]
        constructor
        · intro h
          rw [h, Double.magnitudeAt_zero]
        · intro h
          apply Nat.eq_zero_of_not_pos
          intro hpos
          exact absurd h (Nat.ne_of_gt (Double.magnitudeAt_pos hpos))
      simp only [toValue, Value.isPresent, Double.isZero, same, lessEq, isNan, less, wholeLess,
        lessWhole]
      rw [Bool.eq_iff_iff]
      simp [hzero]
      omega

/-- Every finite number is reduced to a turn. -/
theorem reduceTurn_isTurn {n : Number} (h : n.isFinite = true) : n.reduceTurn.IsTurn := by
  unfold reduceTurn
  split
  · next hwithin =>
    obtain ⟨hnonneg, hfull⟩ := Bool.and_eq_true_iff.1 hwithin
    exact ⟨h, hnonneg, hfull⟩
  · cases n with
    | whole n =>
      have hnonneg : 0 ≤ n % (fullTurn : Int) := Int.emod_nonneg n (by decide)
      have hlt : n % (fullTurn : Int) < fullTurn := Int.emod_lt_of_pos n (by decide)
      refine ⟨rfl, ?_, ?_⟩
      · simpa [lessEq, isNan, less] using hnonneg
      · simpa [lessEq, isNan, less] using Int.le_of_lt hlt
    | real x =>
      exact isTurn_of_isWithin (Double.floorMod_isWithin h (by decide) (by decide))

/-- What is not finite lies on no circle. -/
theorem reduceTurn_of_not_finite {x : Double} (h : x.isFinite = false) :
    (real x).reduceTurn = .real .nan := by
  cases x with
  | nan => rfl
  | infinite negative => cases negative <;> rfl
  | finite negative place => cases h

end Number

namespace Double

variable {first second : Double}

theorem fullTurn_le : fullTurn ≤ 2 * binade := by decide

/-- The flare of a sector is turned within a full turn when the limits have a finite difference. -/
theorem sectorTurn_isWithin (hfirst : first.isFinite = true)
    (h : (second - first).isFinite = true) : (sectorTurn first second).IsWithin fullTurn := by
  have hdifference : ((second - first).floorMod 360).IsWithin fullTurn :=
    floorMod_isWithin h (by decide) fullTurn_le
  unfold sectorTurn
  dsimp only
  generalize hspan : (if ((second - first).floorMod 360).isZero = true then (360 : Double)
    else (second - first).floorMod 360) = span
  -- Limits that are equal bound a full circle.
  have hwithin : span.IsWithin fullTurn := by
    rw [← hspan]
    split
    · exact ofNat_isWithin (Nat.le_refl 360) fullTurn_le
    · exact hdifference
  have hbisector := isFinite_add hfirst (hwithin.half fullTurn_le) fullTurn_le
  have hhalfTurn : (180 : Double).IsWithin fullTurn := ofNat_isWithin (by decide) fullTurn_le
  have hreciprocal := isFinite_add hbisector hhalfTurn fullTurn_le
  exact (floorMod_isWithin hreciprocal (by decide) fullTurn_le).roundPlaces fullTurn_le 1

/-- Else the turn is no number. -/
theorem sectorTurn_of_not_finite (h : (second - first).isFinite = false) :
    sectorTurn first second = .nan := by
  have hnan : (second - first).floorMod 360 = .nan := if_neg (Bool.eq_false_iff.1 h)
  have hadd (x : Double) : x + .nan = .nan := by
    cases x <;> rfl
  have hspan : (Double.nan / 2 : Double) = .nan := rfl
  have hnonzero : Double.nan.isZero = false := rfl
  unfold sectorTurn
  dsimp only
  rw [hnan, hnonzero, if_neg Bool.false_ne_true, hspan, hadd]
  rfl

end Double

/-! ## Sound turns -/

namespace Value

/-- The value is a whole number of any size, or is read as a finite double. -/
def IsFiniteNumber (v : Value) : Prop :=
  (∃ n, v = .int n) ∨ ∃ x, v.toDouble = .ok x ∧ x.isFinite = true

theorem toDouble_of_asReal {v : Value} {x : Double} (h : v.asReal = .usable x) :
    v.toDouble = .ok x ∧ x.isFinite = true := by
  rw [asReal_eq] at h
  split at h
  · next y hdouble =>
    split at h
    · next hy =>
      cases h
      exact ⟨hdouble, hy⟩
    · cases h
  · cases h
  · cases h

end Value

/-- What a symbol is turned by, when it is turned at all. -/
def Fragment.turn? (f : Fragment) : Option Expr := f.layout.lookup "icon-rotate"

namespace Argument

/-- The argument is a literal, or an attribute with a known value, and no finite number. -/
def IsNoNumber (arg : Argument) (a : AttributeSet) : Prop :=
  ∃ v : Value, ¬ v.IsFiniteNumber ∧
    (arg = .literal v ∨ ∃ code, arg = .attribute code ∧ a.known? code = some v)

theorem IsNoNumber.of_literal {v : Value} {a : AttributeSet}
    (h : (Argument.literal v).IsNoNumber a) : ¬ v.IsFiniteNumber := by
  obtain ⟨own, hown, hsame | ⟨code, hsame, -⟩⟩ := h
  · cases hsame
    exact hown
  · cases hsame

theorem IsNoNumber.of_attribute {code : String} {v : Value} {a : AttributeSet}
    (h : (Argument.attribute code).IsNoNumber a) (hcode : a.known? code = some v) :
    ¬ v.IsFiniteNumber := by
  obtain ⟨own, hown, hsame | ⟨code, hsame, hcode'⟩⟩ := h
  · cases hsame
  · cases hsame
    rw [hcode] at hcode'
    cases hcode'
    exact hown

/-- An attribute that is not known, or a finite number other than zero within a full turn. -/
def IsSoundTurn (arg : Argument) (a : AttributeSet) (e : Expr) : Prop :=
  (∃ code, arg = .attribute code ∧ a.known? code = none ∧ e = .get code) ∨
    ∃ n : Number, n.IsTurn ∧ n.same (.whole 0) = false ∧ e = .value n.toValue

/-- Symbols are turned by attributes that are not known, and by finite numbers other than zero
within a full turn; what is no finite number does not turn them. -/
structure TurnsSoundly (arg : Argument) (a : AttributeSet) (fragments : List Fragment) : Prop where
  sound : ∀ f ∈ fragments, ∀ e, f.turn? = some e → arg.IsSoundTurn a e
  upright : arg.IsNoNumber a → ∀ f ∈ fragments, f.turn? = none

theorem turnsSoundly_singleton {arg : Argument} {a : AttributeSet} {f : Fragment}
    (hsound : ∀ e, f.turn? = some e → arg.IsSoundTurn a e)
    (hupright : arg.IsNoNumber a → f.turn? = none) : arg.TurnsSoundly a [f] := by
  constructor
  · exact List.forall_mem_singleton.2 hsound
  · intro hno
    exact List.forall_mem_singleton.2 (hupright hno)

/-- Not-a-number is no turn. -/
theorem not_turnsSoundly {arg : Argument} {a : AttributeSet} {fragments : List Fragment}
    {f : Fragment} (hf : f ∈ fragments) (hturn : f.turn? = some (.value (.real .nan))) :
    ¬ arg.TurnsSoundly a fragments := by
  intro hsound
  rcases hsound.sound f hf _ hturn with ⟨code, -, -, hget⟩ | ⟨n, hn, -, hvalue⟩
  · cases hget
  · cases n with
    | whole n => cases hvalue
    | real x =>
      cases hvalue
      exact absurd hn.finite (by decide)

/-- A literal that is read as a double which is not finite. -/
inductive IsStray : Argument → Prop where
  | text {s : String} {x : Double} (hread : Text.readDouble? s = some x)
      (hx : x.isFinite = false) : IsStray (.text s)
  | real {x : Double} (hx : x.isFinite = false) : IsStray (.literal (.real x))

end Argument

/-! ## Reading an argument -/

namespace Turn

/-- What a turn is written as, when there is one. -/
def shown? (turn : Turn) : Option Expr :=
  if turn.isZero then none
  else
    match turn with
    | .fixed v => some (.value v)
    | .attribute code => some (.get code)

theorem turn?_symbolFragment (icon : Icon) (turn : Turn) (arg : Argument) :
    (symbolFragment icon turn arg).turn? = turn.shown? := by
  show (turn.properties arg).lookup "icon-rotate" = turn.shown?
  unfold properties shown?
  split
  · rfl
  · cases turn <;> rfl

theorem shown?_fixed (n : Number) : (Turn.fixed n.toValue).shown? =
    if n.same (.whole 0) then none else some (.value n.toValue) := by
  unfold shown? isZero
  simp only [Number.isPresent_toValue, Bool.not_not]

/-- What is read of a written argument: an attribute that is not known, a finite number, which is
zero in place of what is none, or a stray. -/
inductive Settles (arg : Argument) (a : AttributeSet) : Turn → Prop where
  | deferred {code : String} (harg : arg = .attribute code) (hcode : a.known? code = none) :
      Settles arg a (.attribute code)
  | number {n : Number} (harg : ¬ arg.IsStray) (hn : n.isFinite = true)
      (hnone : arg.IsNoNumber a → n = .whole 0) : Settles arg a (.fixed n.toValue)
  | stray {x : Double} (harg : arg.IsStray) (hx : x.isFinite = false) :
      Settles arg a (.fixed (.real x))

section

variable {arg : Argument} {a : AttributeSet} {turn : Turn}

theorem settles_text (s : String) : Settles (.text s) a (.fixed (ofLiteral (.text s))) := by
  cases hread : Text.readDouble? s with
  | none =>
    have hturn : ofLiteral (.text s) = .int 0 := by
      simp only [ofLiteral, Value.number?, Value.toDouble, hread]
    rw [hturn]
    refine .number (n := .whole 0) ?_ rfl fun _ => rfl
    rintro (⟨hread', -⟩ | -)
    rw [hread] at hread'
    cases hread'
  | some x =>
    have hturn : ofLiteral (.text s) = .real x := by
      simp only [ofLiteral, Value.number?, Value.toDouble, hread]
    rw [hturn]
    cases hx : x.isFinite with
    | false => exact .stray (.text hread hx) hx
    | true =>
      have hnumber : (Value.text s).IsFiniteNumber := by
        refine .inr ⟨x, ?_, hx⟩
        simp only [Value.toDouble, hread]
      refine .number (n := .real x) ?_ hx fun hnone => absurd hnumber (hnone.of_literal)
      rintro (⟨hread', hx'⟩ | -)
      rw [hread] at hread'
      cases hread'
      rw [hx] at hx'
      cases hx'

theorem settles_int (n : Int) : Settles (.int n) a (.fixed (.int n)) := by
  refine .number (n := .whole n) nofun rfl fun hnone => ?_
  exact absurd (.inl ⟨n, rfl⟩) hnone.of_literal

theorem settles_real (x : Double) : Settles (.literal (.real x)) a (.fixed (.real x)) := by
  cases hx : x.isFinite with
  | false => exact .stray (.real hx) hx
  | true =>
    refine .number (n := .real x) ?_ hx fun hnone => ?_
    · rintro (- | hx')
      rw [hx] at hx'
      cases hx'
    · exact absurd (.inr ⟨x, rfl, hx⟩) hnone.of_literal

theorem settles_attribute {code : String}
    (h : (Turn.ofArgument (.attribute code) a).outcome = .ok turn) :
    Settles (.attribute code) a turn := by
  rw [Turn.ofArgument, AttributeSet.isKnown_eq, AttributeSet.getReal_eq] at h
  cases hv : a.known? code with
  | none =>
    rw [hv] at h
    cases h
    exact .deferred rfl hv
  | some v =>
    rw [hv, Option.isSome_some, if_pos rfl] at h
    obtain ⟨x, hx, h⟩ := Report.outcome_bind_eq_ok_iff.1 h
    cases h
    cases hread : v.asReal with
    | usable y =>
      simp only [hread] at hx
      obtain rfl : some y = x := Except.ok.inj hx
      obtain ⟨hdouble, hy⟩ := Value.toDouble_of_asReal hread
      have hnumber : v.IsFiniteNumber := .inr ⟨y, hdouble, hy⟩
      dsimp only [Option.getD_some]
      split
      · exact .number (n := .whole y.truncate) nofun rfl fun hnone =>
          absurd hnumber (hnone.of_attribute hv)
      · exact .number (n := .real y) nofun hy fun hnone =>
          absurd hnumber (hnone.of_attribute hv)
    | unusable =>
      -- Zero takes the place of what is no finite number.
      simp only [hread] at hx
      obtain rfl : none = x := Except.ok.inj hx
      have hwhole : Double.isWhole 0 = true := by decide +kernel
      have htruncate : Double.truncate 0 = 0 := by decide +kernel
      dsimp only [Option.getD_none]
      rw [if_pos hwhole, htruncate]
      exact .number (n := .whole 0) nofun rfl fun _ => rfl
    | beyond fault =>
      simp only [hread] at hx
      cases hx

/-- A written argument is read as one of the three. -/
theorem settles_of_isWritten (harg : arg.IsWritten)
    (h : (Turn.ofArgument arg a).outcome = .ok turn) : Settles arg a turn := by
  cases harg with
  | text s =>
    cases h
    exact settles_text s
  | int n =>
    cases h
    exact settles_int n
  | real x =>
    cases h
    exact settles_real x
  | «attribute» => exact settles_attribute h

theorem reduce_fixed (n : Number) :
    (Turn.fixed n.toValue).reduce = .fixed n.reduceTurn.toValue := by
  cases n <;> rfl

theorem Settles.shown?_of_isStray (h : Settles arg a turn) (harg : arg.IsStray) :
    turn.reduce.shown? = some (.value (.real .nan)) := by
  cases h with
  | deferred hcode =>
    subst hcode
    cases harg
  | number hother => exact absurd harg hother
  | @stray x _ hx =>
    rw [show Turn.fixed (.real x) = .fixed (Number.real x).toValue from rfl, reduce_fixed,
      Number.reduceTurn_of_not_finite hx]
    rfl

/-- The symbol of a turn that is read is turned soundly unless the argument is a stray. -/
theorem Settles.turnsSoundly_iff (h : Settles arg a turn) (icon : Icon) :
    arg.TurnsSoundly a [symbolFragment icon turn.reduce arg] ↔ ¬ arg.IsStray := by
  have hturn : (symbolFragment icon turn.reduce arg).turn? = turn.reduce.shown? :=
    turn?_symbolFragment icon turn.reduce arg
  constructor
  · intro hsound harg
    rw [h.shown?_of_isStray harg] at hturn
    exact Argument.not_turnsSoundly (List.mem_singleton_self _) hturn hsound
  · intro hother
    apply Argument.turnsSoundly_singleton
    all_goals rw [hturn]
    · intro e he
      cases h with
      | @deferred code harg hcode =>
        cases he
        exact .inl ⟨code, harg, hcode, rfl⟩
      | @number n _ hn _ =>
        rw [reduce_fixed, shown?_fixed] at he
        split at he
        · cases he
        · next hzero =>
          cases he
          exact .inr ⟨_, Number.reduceTurn_isTurn hn, Bool.eq_false_iff.2 hzero, rfl⟩
      | stray harg => exact absurd harg hother
    · intro hno
      cases h with
      | deferred harg hcode =>
        subst harg
        obtain ⟨v, -, hliteral | ⟨code, hattribute, hknown⟩⟩ := hno
        · cases hliteral
        · cases hattribute
          rw [hcode] at hknown
          cases hknown
      | number _ _ hnone =>
        rw [hnone hno]
        rfl
      | stray harg => exact absurd harg hother

end

end Turn

end ChartStyle
