import ChartStyle.Proofs.Readings

/-!
# Mended attributes

`AttributeSet.mend` puts stand-ins in the place of the values that some readings cannot use. A
reader does its reading and then what it does on the mended attributes, where it finds nothing to
complain of (`IsReader.mends`); and what is composed of readers does all their readings, and then
what it does on the mended attributes (`Mends.bind`).
-/

set_option autoImplicit false

namespace ChartStyle

namespace AttributeSet

variable {rs : List Reading} {r : Reading} {a : AttributeSet} {code : String}

/-- The value that takes the place of an attribute's value: the stand-in of the first reading of the
attribute when that cannot use the value. -/
def mended (rs : List Reading) (code : String) (v : Value) : Value :=
  match rs.find? (·.code == code) with
  | none => v
  | some r =>
    if v.isKnown then
      match r.verdict v with
      | .unusable => r.standIn
      | _ => v
    else v

/-- The attributes with stand-ins for the values that the readings cannot use. -/
def mend (a : AttributeSet) (rs : List Reading) : AttributeSet :=
  { a with entries := a.entries.map fun (code, v) => (code, mended rs code v) }

theorem find?_mend (a : AttributeSet) (rs : List Reading) (code : String) :
    (a.mend rs).find? code = (a.find? code).map (mended rs code) := by
  obtain ⟨objectClass, entries⟩ := a
  show (entries.map fun (entry : String × Value) => (entry.1, mended rs entry.1 entry.2)).lookup
    code = (entries.lookup code).map (mended rs code)
  induction entries with
  | nil => rfl
  | cons entry entries ih =>
    obtain ⟨c, v⟩ := entry
    rw [List.map_cons, List.lookup_cons, List.lookup_cons, ih]
    cases h : code == c with
    | true => rw [eq_of_beq h]; rfl
    | false => rfl

/-- Without readings there is nothing to mend. -/
theorem mend_nil (a : AttributeSet) : a.mend [] = a := by
  obtain ⟨objectClass, entries⟩ := a
  exact congrArg (AttributeSet.mk objectClass) (List.map_id entries)

theorem mended_of_find? (hfind : rs.find? (·.code == r.code) = some r) {v : Value}
    (hv : v.isKnown = true) :
    mended rs r.code v =
      match r.verdict v with
      | .unusable => r.standIn
      | _ => v := by
  simp only [mended, hfind, hv, if_true]

theorem known?_mend (hfind : rs.find? (·.code == r.code) = some r) (a : AttributeSet) :
    (a.mend rs).known? r.code =
      (a.known? r.code).bind fun v =>
        match r.verdict v with
        | .unusable => if r.standIn.isKnown then some r.standIn else none
        | _ => some v := by
  rw [known?_eq, known?_eq, find?_mend]
  cases a.find? r.code with
  | none => rfl
  | some v =>
    cases hv : v.isKnown with
    | false => simp [mended, hfind, hv, Option.filter]
    | true =>
      simp only [Option.map_some, Option.filter_some, hv, if_true, Option.bind_some,
        mended_of_find? hfind hv]
      cases r.verdict v <;> simp [hv]

theorem known?_mend_of_unread (hfind : rs.find? (·.code == code) = none) (a : AttributeSet) :
    (a.mend rs).known? code = a.known? code := by
  rw [known?_eq, known?_eq, find?_mend]
  cases a.find? code with
  | none => rfl
  | some v => simp [mended, hfind]

/-- A value whose stand-in says something is known before and after. -/
theorem isSome_known?_mend (hfind : rs.find? (·.code == r.code) = some r)
    (hstandIn : r.standIn.isKnown = true) (a : AttributeSet) :
    ((a.mend rs).known? r.code).isSome = (a.known? r.code).isSome := by
  rw [known?_mend hfind]
  cases a.known? r.code with
  | none => rfl
  | some v =>
    rw [Option.bind_some]
    split
    · rw [if_pos hstandIn]
      rfl
    · rfl

theorem isPerFeature_iff : a.isPerFeature code = true ↔ a.find? code = some .perFeature := by
  unfold isPerFeature
  split
  · next h => exact iff_of_true rfl h
  · next h => exact iff_of_false Bool.false_ne_true h

theorem standIn_ne_perFeature (r : Reading) : r.standIn ≠ .perFeature := by
  obtain ⟨code, kind⟩ := r
  rcases kind with (_ | _ | _) | _ | _ <;> simp [Reading.standIn, Number.toValue]

theorem known?_of_isPerFeature (h : a.isPerFeature code = true) : a.known? code = none := by
  rw [known?_eq, isPerFeature_iff.1 h]
  rfl

/-- Mending changes nothing about attributes that only the renderer knows. -/
theorem isPerFeature_mend (a : AttributeSet) (rs : List Reading) (code : String) :
    (a.mend rs).isPerFeature code = a.isPerFeature code := by
  have hmended (v : Value) : mended rs code v = .perFeature ↔ v = .perFeature := by
    unfold mended
    split
    · rfl
    · next r _ =>
      split
      · next hv =>
        have hne : v ≠ .perFeature := by
          rintro rfl
          cases hv
        split
        · exact iff_of_false (standIn_ne_perFeature r) hne
        · rfl
      · rfl
  rw [Bool.eq_iff_iff, isPerFeature_iff, isPerFeature_iff, find?_mend]
  simp [hmended]

end AttributeSet

/-! ## Operations that read attributes -/

/-- The first operation does the readings and then what the second one does; and where the readings
succeed, the second one has nothing to note and succeeds. -/
structure Mends {α : Type} (a : AttributeSet) (rs : List Reading) (x mended : Report α) : Prop where
  eq : x = a.readAll rs >>= fun _ => mended
  settled : (a.readAll rs).outcome = .ok () → ∃ value, mended = pure value

namespace Mends

variable {α β : Type} {a : AttributeSet} {rs rs' : List Reading}

theorem pure (value : α) : Mends a [] (Pure.pure value) (Pure.pure value) :=
  ⟨rfl, fun _ => ⟨value, rfl⟩⟩

/-- An operation that reads nothing. -/
theorem of_eq_pure {x mended : Report α}
    (h : ∃ value, x = Pure.pure value ∧ mended = Pure.pure value) :
    Mends a [] x mended := by
  obtain ⟨value, rfl, rfl⟩ := h
  exact pure value

/-- Readings of attributes that are not known do nothing. -/
theorem of_unknown {x mended : Report α} (hrs : ∀ r ∈ rs, a.known? r.code = none)
    (h : ∃ value, x = Pure.pure value ∧ mended = Pure.pure value) : Mends a rs x mended := by
  have hread : a.readAll rs = Pure.pure () := by
    induction rs with
    | nil => rfl
    | cons r rs ih =>
      obtain ⟨hr, hrs⟩ := List.forall_mem_cons.1 hrs
      rw [AttributeSet.readAll, AttributeSet.read, hr, ih hrs]
      rfl
  obtain ⟨value, rfl, rfl⟩ := h
  exact ⟨by rw [hread]; rfl, fun _ => ⟨value, rfl⟩⟩

theorem readAll_append (a : AttributeSet) (rs rs' : List Reading) :
    a.readAll (rs ++ rs') = a.readAll rs >>= fun _ => a.readAll rs' := by
  induction rs with
  | nil => rfl
  | cons r rs ih =>
    rw [List.cons_append, AttributeSet.readAll, AttributeSet.readAll, ih, bind_assoc]

theorem outcome_eq_ok {x x' : Report α} (hx : Mends a rs x x') {value : α}
    (hvalue : x' = Pure.pure value) (hread : (a.readAll rs).outcome = .ok ()) :
    x.outcome = .ok value := by
  rw [hx.eq, hvalue]
  exact Report.outcome_bind_eq_ok_iff.2 ⟨(), hread, rfl⟩

/-- What is composed of two such operations does the readings of both. -/
theorem bind {x x' : Report α} {f f' : α → Report β} (hx : Mends a rs x x')
    (hf : ∀ value, x.outcome = .ok value → x' = Pure.pure value →
      Mends a rs' (f value) (f' value)) :
    Mends a (rs ++ rs') (x >>= f) (x' >>= f') := by
  constructor
  · rw [hx.eq, readAll_append, bind_assoc, bind_assoc]
    cases hread : (a.readAll rs).outcome with
    | error fault => rw [Report.bind_of_error hread, Report.bind_of_error hread]
    | ok _ =>
      -- The mended operation has a value, so the readings behind it can be put in front of it.
      obtain ⟨value, hvalue⟩ := hx.settled hread
      refine congrArg (a.readAll rs >>= ·) (funext fun _ => ?_)
      rw [hvalue, pure_bind, pure_bind]
      exact (hf value (hx.outcome_eq_ok hvalue hread) hvalue).eq
  · intro hread
    rw [readAll_append] at hread
    obtain ⟨⟨⟩, hrs, hrs'⟩ := Report.outcome_bind_eq_ok_iff.1 hread
    obtain ⟨value, hvalue⟩ := hx.settled hrs
    rw [hvalue, pure_bind]
    exact (hf value (hx.outcome_eq_ok hvalue hrs) hvalue).settled hrs'

/-- What follows need not read anything. -/
theorem bind_pure {x x' : Report α} {f f' : α → Report β} (hx : Mends a rs x x')
    (hf : ∀ value, x.outcome = .ok value → x' = Pure.pure value →
      ∃ result, f value = Pure.pure result ∧ f' value = Pure.pure result) :
    Mends a rs (x >>= f) (x' >>= f') := by
  have h := hx.bind fun value hvalue hvalue' => of_eq_pure (a := a) (hf value hvalue hvalue')
  rwa [List.append_nil] at h

end Mends

/-! ## Readers -/

/-- A reader of one attribute: without a known value it gives a default, and with one what it makes
of it. A value that cannot be used counts as the stand-in, or as none when that says nothing. -/
structure IsReader {β γ : Type} (X : AttributeSet → Report β) (r : Reading)
    (verdict : Value → Verdict γ) (value : Option γ → β) (default : β) : Prop where
  reads : ∀ a : AttributeSet, X a =
    match a.known? r.code with
    | none => pure default
    | some v => a.heed r.code v r.standIn (verdict v) >>= fun x => pure (value x)
  verdict_eq : ∀ v, r.verdict v = (verdict v).andThen fun _ => .usable ()
  standIn_eq :
    if r.standIn.isKnown then ∃ x, verdict r.standIn = .usable x ∧ value (some x) = value none
    else value none = default

namespace IsReader

variable {β γ : Type} {X : AttributeSet → Report β} {r : Reading} {verdict : Value → Verdict γ}
  {value : Option γ → β} {default : β} {rs : List Reading} {a : AttributeSet}

section

variable (hreader : IsReader X r verdict value default)
  (hfind : rs.find? (·.code == r.code) = some r)

include hreader hfind

theorem mended_of_none (h : a.known? r.code = none) : X (a.mend rs) = pure default := by
  rw [hreader.reads, AttributeSet.known?_mend hfind, h]
  rfl

theorem mended_of_usable {v : Value} {x : γ} (h : a.known? r.code = some v)
    (hv : verdict v = .usable x) : X (a.mend rs) = pure (value (some x)) := by
  rw [hreader.reads, AttributeSet.known?_mend hfind, h]
  simp only [Option.bind_some, hreader.verdict_eq, hv, Verdict.andThen]
  rfl

/-- The stand-in is read as what takes the place of a value that cannot be used. -/
theorem mended_of_unusable {v : Value} (h : a.known? r.code = some v)
    (hv : verdict v = .unusable) : X (a.mend rs) = pure (value none) := by
  have hstandIn := hreader.standIn_eq
  rw [hreader.reads, AttributeSet.known?_mend hfind, h]
  simp only [Option.bind_some, hreader.verdict_eq, hv, Verdict.andThen]
  by_cases hknown : r.standIn.isKnown = true
  · rw [if_pos hknown] at hstandIn
    obtain ⟨x, hx, hvalue⟩ := hstandIn
    rw [if_pos hknown, ← hvalue]
    simp only [hx]
    rfl
  · rw [if_neg hknown] at hstandIn
    rw [if_neg hknown, hstandIn]

end

/-- A reader does its reading, and then what it does on the mended attributes. -/
theorem mends (hreader : IsReader X r verdict value default)
    (hfind : rs.find? (·.code == r.code) = some r) (a : AttributeSet) :
    Mends a [r] (X a) (X (a.mend rs)) := by
  have hone : a.readAll [r] = a.read r := by
    rw [AttributeSet.readAll, AttributeSet.readAll]
    exact bind_pure_unit
  constructor
  · rw [hone, hreader.reads a, AttributeSet.read]
    cases h : a.known? r.code with
    | none =>
      rw [hreader.mended_of_none hfind h]
      rfl
    | some v =>
      cases hv : verdict v with
      | usable x =>
        rw [hreader.mended_of_usable hfind h hv]
        simp only [hreader.verdict_eq, hv]
        rfl
      | beyond fault =>
        simp only [hreader.verdict_eq, hv]
        rfl
      | unusable =>
        rw [hreader.mended_of_unusable hfind h hv]
        simp only [hreader.verdict_eq, hv, AttributeSet.heed, AttributeSet.malformed, bind_assoc,
          pure_bind]
        rfl
  -- On the mended attributes there is a value, unless the one that is read is beyond the range.
  · intro hread
    rw [hone, AttributeSet.read_outcome_eq_ok_iff] at hread
    cases h : a.known? r.code with
    | none => exact ⟨_, hreader.mended_of_none hfind h⟩
    | some v =>
      cases hv : verdict v with
      | usable x => exact ⟨_, hreader.mended_of_usable hfind h hv⟩
      | unusable => exact ⟨_, hreader.mended_of_unusable hfind h hv⟩
      | beyond fault =>
        refine absurd ⟨v, fault, h, ?_⟩ hread
        rw [hreader.verdict_eq, hv]
        rfl

end IsReader

theorem isReader_getReal (code : String) :
    IsReader (·.getReal code .null) ⟨code, .real none⟩ Value.asReal id none := by
  refine ⟨fun a => ?_, fun v => rfl, rfl⟩
  rw [AttributeSet.getReal_eq]
  cases a.known? code with
  | none => rfl
  | some v => exact (bind_pure _).symm

theorem isReader_getInt (code : String) :
    IsReader (·.getInt code .null) ⟨code, .whole⟩ Value.asWhole id none := by
  refine ⟨fun a => ?_, fun v => rfl, rfl⟩
  rw [AttributeSet.getInt_eq]
  cases a.known? code with
  | none => rfl
  | some v => exact (bind_pure _).symm

theorem isReader_getInts (code : String) :
    IsReader (·.getInts code) ⟨code, .items⟩ Value.asItems (·.getD []) [] :=
  ⟨fun a => a.getInts_eq code, fun _ => rfl, rfl⟩

end ChartStyle
