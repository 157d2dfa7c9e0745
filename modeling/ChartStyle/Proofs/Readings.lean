import ChartStyle.Attributes
import ChartStyle.Proofs.AttributeReading
import ChartStyle.Proofs.Outcomes

/-!
# Reading attributes

What a typed reading makes of a value is said here once, apart from the readers: the value is
usable, or it is not and a stand-in takes its place, or it lies beyond the range of the doubles, and
reading it is a fault (`Verdict`). The readers do what the verdict says (`AttributeSet.getReal_eq`,
`getInt_eq`, `getInts_eq`). `AttributeSet.read` is a reading without its result: it fails just when
the value exceeds the range, and notes a diagnostic just when it cannot be used
(`readAll_outcome_eq_ok_iff`, `readAll_events`).
-/

set_option autoImplicit false

namespace ChartStyle

/-! ## Entries by name -/

section

variable {β : Type} {entries : List (String × β)} {name : String} {value : β}

theorem lookup_filter (keep : String → Bool) (entries : List (String × β)) (name : String) :
    (entries.filter fun entry => keep entry.1).lookup name =
      if keep name then entries.lookup name else none := by
  induction entries with
  | nil => exact (ite_self none).symm
  | cons entry entries ih =>
    obtain ⟨first, value⟩ := entry
    by_cases hname : name = first
    · subst hname
      cases hkeep : keep name <;> simp [hkeep, ih]
    · have hne : (name == first) = false := beq_false_of_ne hname
      cases hkeep : keep first <;> simp [hkeep, hne, List.lookup_cons, ih]

theorem mem_of_lookup_eq_some (h : entries.lookup name = some value) : (name, value) ∈ entries := by
  obtain ⟨before, after, rfl, -⟩ := List.lookup_eq_some_iff.1 h
  exact List.mem_append_right before List.mem_cons_self

theorem isSome_lookup_of_mem (h : (name, value) ∈ entries) :
    (entries.lookup name).isSome = true := by
  rw [Option.isSome_iff_ne_none]
  intro hnone
  have hne := List.lookup_eq_none_iff.1 hnone _ h
  simp at hne

end

/-! ## Reports as a monad -/

namespace Report

variable {α β γ : Type}

theorem id_map_report (r : Report α) : id <$> r = r := by
  obtain ⟨events, outcome⟩ := r
  cases outcome with
  | error fault => rfl
  | ok a =>
    show (⟨events ++ [], .ok a⟩ : Report α) = _
    rw [List.append_nil]

theorem bind_assoc_report (r : Report α) (f : α → Report β) (g : β → Report γ) :
    r >>= f >>= g = r >>= fun a => f a >>= g := by
  obtain ⟨events, outcome⟩ := r
  cases outcome with
  | error fault => rfl
  | ok a =>
    show andThen ⟨events ++ (f a).events, (f a).outcome⟩ g =
      ⟨events ++ (andThen (f a) g).events, (andThen (f a) g).outcome⟩
    cases h : (f a).outcome with
    | error fault => simp only [andThen, h]
    | ok b => simp only [andThen, h, List.append_assoc]

instance : LawfulMonad Report :=
  LawfulMonad.mk' Report id_map_report (fun _ _ => rfl) bind_assoc_report

/-- An operation that notes nothing and succeeds only gives its value. -/
theorem eq_pure {r : Report α} {a : α} (hevents : r.events = [])
    (houtcome : r.outcome = .ok a) : r = pure a := by
  obtain ⟨events, outcome⟩ := r
  obtain rfl : events = [] := hevents
  obtain rfl : outcome = .ok a := houtcome
  rfl

theorem exists_eq_pure {r : Report α} (hevents : r.events = [])
    (houtcome : ∃ a, r.outcome = .ok a) : ∃ a, r = pure a := by
  obtain ⟨a, ha⟩ := houtcome
  exact ⟨a, eq_pure hevents ha⟩

end Report

/-! ## Verdicts -/

/-- What a typed reading makes of a value. -/
inductive Verdict (α : Type) where
  /-- The value can be used. -/
  | usable (x : α)
  /-- A stand-in takes the place of the value. -/
  | unusable
  /-- The value lies beyond the range of the doubles. -/
  | beyond (fault : DataFault)

namespace Verdict

variable {α β : Type}

/-- One reading after another. -/
def andThen (v : Verdict α) (f : α → Verdict β) : Verdict β :=
  match v with
  | .usable x => f x
  | .unusable => .unusable
  | .beyond fault => .beyond fault

/-- The items of a list, of which the first that cannot be used decides. -/
def all (item : β → Verdict α) : List β → Verdict (List α)
  | [] => .usable []
  | v :: vs => (item v).andThen fun x => (all item vs).andThen fun xs => .usable (x :: xs)

end Verdict

namespace Value

/-- A value as a finite double. -/
def asReal : Value → Verdict Double
  | .int n =>
    match Double.ofInt? n with
    | some x => .usable x
    | none => .beyond .intTooLarge
  | v =>
    match v.toDouble with
    | .ok x => if x.isFinite then .usable x else .unusable
    | .error _ => .unusable

/-- A value as a whole number; it must have no fraction. -/
def asWhole (v : Value) : Verdict Int :=
  v.asReal.andThen fun x => if x.isWhole then .usable x.truncate else .unusable

/-- An item of a list as a whole number, cut toward zero. -/
def asItem (v : Value) : Verdict Int :=
  match v.toDouble with
  | .ok (.infinite _) => .beyond .infinityToInt
  | _ => v.asReal.andThen fun x => .usable x.truncate

/-- A value as a list of whole numbers. -/
def asItems (v : Value) : Verdict (List Int) := Verdict.all asItem (AttributeSet.listItems v)

theorem asReal_eq (v : Value) : v.asReal =
    match v.toDouble with
    | .ok x => if x.isFinite then .usable x else .unusable
    | .error (.data .intTooLarge) => .beyond .intTooLarge
    | .error _ => .unusable := by
  cases v with
  | int n =>
    simp only [asReal, toDouble]
    cases hn : Double.ofInt? n with
    | none => rfl
    | some x => exact (if_pos (Double.isFinite_of_ofInt? hn)).symm
  | text s =>
    simp only [asReal, toDouble]
    cases Text.readDouble? s <;> rfl
  | null | bool b | real x | list items | map entries | perFeature => rfl

end Value

/-! ## The readers by their verdicts -/

namespace AttributeSet

variable {α β : Type}

/-- What a reader does with a known value. -/
def heed (a : AttributeSet) (code : String) (v standIn : Value) : Verdict α → Report (Option α)
  | .usable x => pure (some x)
  | .unusable => a.malformed code v standIn
  | .beyond fault => .fail (.data fault)

theorem getReal_eq (a : AttributeSet) (code : String) (standIn : Value) :
    a.getReal code standIn =
      match a.known? code with
      | none => pure none
      | some v => a.heed code v standIn v.asReal := by
  unfold getReal
  cases a.known? code with
  | none => rfl
  | some v =>
    simp only [Value.asReal_eq]
    cases v.toDouble with
    | ok x =>
      dsimp only
      split <;> rfl
    | error fault =>
      cases fault with
      | data fault => cases fault <;> rfl
      | configuration | registry | parameter | file | malformedJson | malformedYaml => rfl

theorem find?_of_known? {a : AttributeSet} {code : String} {v : Value}
    (h : a.known? code = some v) : a.find? code = some v := by
  rw [known?] at h
  split at h
  · exact h
  · cases h

theorem getInt_eq (a : AttributeSet) (code : String) :
    a.getInt code .null =
      match a.known? code with
      | none => pure none
      | some v => a.heed code v .null v.asWhole := by
  unfold getInt
  rw [getReal_eq]
  cases hv : a.known? code with
  | none => rfl
  | some v =>
    simp only [Value.asWhole]
    cases v.asReal with
    | usable x =>
      simp only [heed, Verdict.andThen, pure_bind, find?_of_known? hv, Option.getD_some]
      split <;> rfl
    | unusable => rfl
    | beyond fault => rfl

/-- What an operation gives where a verdict is expected of it: its own fault for what lies beyond
the range, and any other fault for what cannot be used. -/
def Answers (outcome : Except Fault α) : Verdict α → Prop
  | .usable x => outcome = .ok x
  | .beyond fault => outcome = .error (.data fault) ∧
      (fault = .intTooLarge ∨ fault = .infinityToInt)
  | .unusable => ∃ fault, outcome = .error fault ∧
      fault ≠ .data .intTooLarge ∧ fault ≠ .data .infinityToInt

theorem toDouble_ne_infinityToInt (v : Value) : v.toDouble ≠ .error (.data .infinityToInt) := by
  cases v with
  | int n =>
    simp only [Value.toDouble]
    cases Double.ofInt? n <;> simp
  | text s =>
    simp only [Value.toDouble]
    cases Text.readDouble? s <;> simp
  | null | bool b | real x | list items | map entries | perFeature => simp [Value.toDouble]

theorem itemToInt_answers (item : Value) : Answers (itemToInt item) item.asItem := by
  have hinfinity := toDouble_ne_infinityToInt item
  unfold Value.asItem itemToInt
  rw [Value.asReal_eq]
  cases h : item.toDouble with
  | ok x =>
    cases x with
    | nan => exact ⟨_, rfl, by simp, by simp⟩
    | infinite negative => exact ⟨rfl, .inr rfl⟩
    | finite negative place => exact rfl
  | error fault =>
    cases fault with
    | data fault =>
      cases fault with
      | intTooLarge => exact ⟨rfl, .inl rfl⟩
      | infinityToInt => exact absurd h hinfinity
      | _ => exact ⟨_, rfl, by simp, by simp⟩
    | _ => exact ⟨_, rfl, by simp, by simp⟩

theorem Answers.bind {x : Except Fault α} {f : α → Except Fault β} {v : Verdict α}
    {g : α → Verdict β} (hx : Answers x v) (hf : ∀ a, Answers (f a) (g a)) :
    Answers (x >>= f) (v.andThen g) := by
  cases v with
  | usable a =>
    obtain rfl : x = .ok a := hx
    exact hf a
  | unusable =>
    obtain ⟨fault, rfl, hfault⟩ := hx
    exact ⟨fault, rfl, hfault⟩
  | beyond fault =>
    obtain ⟨rfl, hfault⟩ := hx
    exact ⟨rfl, hfault⟩

/-- The first item that cannot be used decides over a list. -/
theorem mapM_itemToInt_answers (items : List Value) :
    Answers (items.mapM itemToInt) (Verdict.all Value.asItem items) := by
  induction items with
  | nil => exact rfl
  | cons item items ih =>
    rw [List.mapM_cons]
    exact (itemToInt_answers item).bind fun n => ih.bind fun ns => rfl

theorem getInts_eq (a : AttributeSet) (code : String) :
    a.getInts code =
      match a.known? code with
      | none => pure []
      | some v => (a.heed code v (.list []) v.asItems) >>= fun items => pure (items.getD []) := by
  unfold getInts
  cases a.known? code with
  | none => rfl
  | some v =>
    have hanswers := mapM_itemToInt_answers (listItems v)
    simp only [Value.asItems]
    cases hverdict : Verdict.all Value.asItem (listItems v) with
    | usable items =>
      rw [hverdict] at hanswers
      have heq : (listItems v).mapM itemToInt = .ok items := hanswers
      simp only [heq]
      rfl
    | beyond fault =>
      rw [hverdict] at hanswers
      obtain ⟨heq, rfl | rfl⟩ := hanswers
      · simp only [heq]
        rfl
      · simp only [heq]
        rfl
    | unusable =>
      rw [hverdict] at hanswers
      obtain ⟨fault, heq, hlarge, hinfinite⟩ := hanswers
      simp only [heq]
      rfl

end AttributeSet

/-! ## Readings -/

/-- How an attribute is read. -/
inductive ReadingKind where
  /-- As a number, with a number that stands in for what is none. -/
  | real (standIn : Option Number)
  /-- As a whole number. -/
  | whole
  /-- As a list of whole numbers. -/
  | items
  deriving DecidableEq

/-- One typed reading of an attribute. -/
structure Reading where
  code : String
  kind : ReadingKind
  deriving DecidableEq

namespace Reading

/-- What takes the place of a value that cannot be used; null for none at all. -/
def standIn (r : Reading) : Value :=
  match r.kind with
  | .real (some n) => n.toValue
  | .real none => .null
  | .whole => .null
  | .items => .list []

/-- What a reading makes of a value. -/
def verdict (r : Reading) (v : Value) : Verdict Unit :=
  match r.kind with
  | .real _ => v.asReal.andThen fun _ => .usable ()
  | .whole => v.asWhole.andThen fun _ => .usable ()
  | .items => v.asItems.andThen fun _ => .usable ()

end Reading

/-- A value that says something now. -/
def Value.isKnown (v : Value) : Bool :=
  match v with
  | .perFeature => false
  | v => v.isStated

namespace AttributeSet

/-- A reading without its result: the diagnostic or the fault that it leads to. -/
def read (a : AttributeSet) (r : Reading) : Report Unit :=
  match a.known? r.code with
  | none => pure ()
  | some v =>
    match r.verdict v with
    | .usable _ => pure ()
    | .unusable => Report.diagnose (.malformedAttribute r.code v r.standIn) a.objectClass
    | .beyond fault => .fail (.data fault)

/-- Several readings, one after the other. -/
def readAll (a : AttributeSet) : List Reading → Report Unit
  | [] => pure ()
  | r :: rs => do
    a.read r
    a.readAll rs

/-- The value of the attribute lies beyond the range of a reading. -/
def Exceeds (a : AttributeSet) (r : Reading) : Prop :=
  ∃ v fault, a.known? r.code = some v ∧ r.verdict v = .beyond fault

/-- The diagnostic that a reading leads to. -/
def finding? (a : AttributeSet) (r : Reading) : Option Diagnostic :=
  (a.known? r.code).bind fun v =>
    match r.verdict v with
    | .unusable => some ⟨.malformedAttribute r.code v r.standIn, some a.objectClass⟩
    | _ => none

variable {a : AttributeSet} {rs : List Reading} {r : Reading}

theorem known?_eq (a : AttributeSet) (code : String) :
    a.known? code = (a.find? code).filter Value.isKnown := by
  unfold known? isKnown has isPerFeature
  cases h : a.find? code with
  | none => rfl
  | some v =>
    cases v with
    | text s => by_cases hs : s = "" <;> simp [Value.isKnown, Value.isStated, Option.filter, hs]
    | list items => cases items <;> rfl
    | null | bool b | int n | real x | map entries | perFeature => rfl

theorem isKnown_eq (a : AttributeSet) (code : String) :
    a.isKnown code = (a.known? code).isSome := by
  unfold known?
  cases h : a.isKnown code with
  | false => rfl
  | true =>
    have hhas : a.has code = true := by
      rw [isKnown, Bool.and_eq_true] at h
      exact h.1
    rw [if_pos rfl]
    unfold has at hhas
    cases hfind : a.find? code with
    | none =>
      rw [hfind] at hhas
      cases hhas
    | some v => rfl

/-! ## All readings -/

theorem read_outcome_eq_ok_iff : (a.read r).outcome = .ok () ↔ ¬ a.Exceeds r := by
  unfold read Exceeds
  cases a.known? r.code with
  | none => simp [pure, Report.done]
  | some v =>
    cases h : r.verdict v with
    | usable x => simp [h, pure, Report.done]
    | unusable => simp [h, Report.diagnose, Report.note]
    | beyond fault => simp [h, Report.fail]

/-- The readings succeed together just when none of them exceeds the range. -/
theorem readAll_outcome_eq_ok_iff :
    (a.readAll rs).outcome = .ok () ↔ ∀ r ∈ rs, ¬ a.Exceeds r := by
  induction rs with
  | nil => simp [readAll, pure, Report.done]
  | cons r rs ih =>
    rw [readAll, Report.outcome_bind_eq_ok_iff, List.forall_mem_cons, ← ih,
      ← read_outcome_eq_ok_iff]
    exact ⟨fun ⟨⟨⟩, hr, hrs⟩ => ⟨hr, hrs⟩, fun ⟨hr, hrs⟩ => ⟨(), hr, hrs⟩⟩

/-- The readings note a diagnostic for each value that they cannot use. -/
theorem readAll_events (h : (a.readAll rs).outcome = .ok ()) :
    (a.readAll rs).events = (rs.filterMap a.finding?).map Event.diagnostic := by
  induction rs with
  | nil => rfl
  | cons r rs ih =>
    obtain ⟨⟨⟩, hr, hrs⟩ := Report.outcome_bind_eq_ok_iff.1 h
    have hread : (a.read r).events = (a.finding? r).toList.map Event.diagnostic := by
      unfold read finding?
      cases a.known? r.code with
      | none => rfl
      | some v => cases hv : r.verdict v <;> simp [hv] <;> rfl
    rw [readAll, Report.bind_of_ok hr, List.filterMap_cons]
    show (a.read r).events ++ (a.readAll rs).events = _
    rw [hread, ih hrs]
    cases a.finding? r <;> rfl

end AttributeSet

end ChartStyle
