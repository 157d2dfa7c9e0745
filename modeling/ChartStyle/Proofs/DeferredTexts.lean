import ChartStyle.Proofs.ExactRounding
import ChartStyle.Proofs.FormattedTexts
import ChartStyle.Proofs.LightDescriptions
import ChartStyle.Proofs.ProcedureDependence
import ChartStyle.Proofs.WholeNumbers

/-!
# Deferred texts

A field whose value only the renderer knows is left to it as an expression, and it is to write there
what would have been written had the value been known (`Template.format_deferred`). So it does for a
text or a whole number without decimal places, and for any number in a field that states its decimal
places, unless the number lies halfway between two that have them. A field for whole numbers keeps
the fraction of a value, and a field for decimals that states no places writes none
(`Template.format_deferred_unlike`).
-/

set_option autoImplicit false

namespace ChartStyle

/-! ## Rounding to decimal places -/

/-- The whole number is at most a half from `n / d`. -/
def IsNearest (m n d : Nat) : Prop := 2 * n ≤ (2 * m + 1) * d ∧ 2 * m * d ≤ 2 * n + d

theorem isNearest_roundHalfEven (n : Nat) {d : Nat} (hd : 0 < d) :
    IsNearest (roundHalfEven n d) n d := by
  have hdiv := Nat.div_add_mod n d
  have hmod := Nat.mod_lt n hd
  have hcomm : d * (n / d) = n / d * d := Nat.mul_comm d (n / d)
  have hparity := Nat.mod_two_eq_zero_or_one (n / d)
  have hbelow : 2 * (n % d) ≤ d → IsNearest (n / d) n d := by
    intro h
    constructor <;> simp only [Nat.add_mul, Nat.mul_assoc] <;> omega
  have habove : d ≤ 2 * (n % d) → IsNearest (n / d + 1) n d := by
    intro h
    constructor <;> simp only [Nat.mul_add, Nat.add_mul, Nat.mul_assoc] <;> omega
  unfold roundHalfEven
  dsimp only
  split
  · next hlt => exact hbelow (Nat.le_of_lt hlt)
  · split
    · next hlt => exact habove (Nat.le_of_lt hlt)
    · rcases hparity with heven | hodd
      · rw [heven]
        exact hbelow (by omega)
      · rw [hodd]
        exact habove (by omega)

/-- There is one nearest whole number, unless two are a half away. -/
theorem eq_of_isNearest {m m' n d : Nat} (h : IsNearest m n d) (h' : IsNearest m' n d)
    (htie : ∀ k, 2 * n ≠ (2 * k + 1) * d) : m = m' := by
  -- Of two nearest ones the lesser is at least a half below, and the greater as much above.
  have hle {k l : Nat} (hk : IsNearest k n d) (hl : IsNearest l n d) : l ≤ k := by
    by_contra! hlt
    have hupper : (2 * k + 1) * d ≤ (2 * l - 1) * d := Nat.mul_le_mul_right d (by omega)
    have hlower : 2 * l * d = (2 * l - 1) * d + d := by
      conv_lhs => rw [show 2 * l = (2 * l - 1) + 1 by omega, Nat.add_mul, Nat.one_mul]
    have htight : 2 * n = (2 * k + 1) * d := by
      have hbelow := hk.1
      have habove := hl.2
      omega
    exact htie k htight
  exact Nat.le_antisymm (hle h' h) (hle h h')

namespace Double

/-- A number of units of the last of so many decimal places, written out. -/
def fixedText (negative : Bool) (n places : Nat) : String :=
  let digits := Nat.toDigits 10 n
  let padded := List.replicate (places + 1 - digits.length) '0' ++ digits
  let whole := padded.take (padded.length - places)
  let fraction := padded.drop (padded.length - places)
  (if negative then "-" else "") ++ String.ofList whole
    ++ (if places = 0 then "" else "." ++ String.ofList fraction)

/-- The number lies halfway between two with so many decimal places. -/
def IsTie (x : Double) (places : Nat) : Prop :=
  ∃ k, 2 * (x.units.natAbs * Nat.pow 10 places) = (2 * k + 1) * unitsPerOne

theorem isTie_iff {x : Double} {places : Nat} : x.IsTie places ↔
    2 * (x.units.natAbs * Nat.pow 10 places) % (2 * unitsPerOne) = unitsPerOne := by
  have hpos := unitsPerOne_pos
  constructor
  · rintro ⟨k, hk⟩
    rw [hk, Nat.add_mul, Nat.one_mul, Nat.mul_right_comm, Nat.mul_add_mod_self_left,
      Nat.mod_eq_of_lt (by omega)]
  · intro h
    have hsplit := Nat.div_add_mod (2 * (x.units.natAbs * Nat.pow 10 places)) (2 * unitsPerOne)
    rw [h, Nat.mul_right_comm] at hsplit
    refine ⟨2 * (x.units.natAbs * Nat.pow 10 places) / (2 * unitsPerOne), ?_⟩
    rw [Nat.add_mul, Nat.one_mul]
    exact hsplit.symm

instance (x : Double) (places : Nat) : Decidable (x.IsTie places) :=
  decidable_of_iff _ isTie_iff.symm

theorem toFixed_eq {x : Double} (hx : x.isFinite = true) (places : Nat) :
    x.toFixed places = fixedText x.isNegative
      (roundHalfEven (x.units.natAbs * Nat.pow 10 places) unitsPerOne) places := by
  cases x with
  | finite negative place => rfl
  | nan | infinite negative => cases hx

end Double

/-! ## How a renderer writes numbers -/

/-- What style languages document of numbers. -/
structure Renderer.WritesNumbers (r : Renderer) : Prop where
  /-- There is one kind of number: a whole one has no fraction, whatever it came from. -/
  text_whole : ∀ x : Double, x.isWhole = true → x.truncate.natAbs ≤ 0x20000000000000 →
    r.text (.real x) = toString x.truncate
  /-- A number is rounded to its decimal places, and they are all written. -/
  fixed_nearest : ∀ (x : Double) (places : Nat), x.isFinite = true →
    ∃ n, IsNearest n (x.units.natAbs * Nat.pow 10 places) Double.unitsPerOne ∧
      r.fixed x places = Double.fixedText x.isNegative n places

namespace Renderer

theorem standard_writesNumbers : standard.WritesNumbers where
  text_whole _ hx _ := if_pos hx
  fixed_nearest x places hx :=
    ⟨_, isNearest_roundHalfEven _ Double.unitsPerOne_pos, x.toFixed_eq hx places⟩

/-- A renderer writes what the library writes, except for ties. -/
theorem WritesNumbers.fixed_eq {r : Renderer} (hr : r.WritesNumbers) {x : Double} {places : Nat}
    (hx : x.isFinite = true) (htie : ¬ x.IsTie places) : r.fixed x places = x.toFixed places := by
  obtain ⟨n, hn, hfixed⟩ := hr.fixed_nearest x places hx
  have hrounded := isNearest_roundHalfEven (x.units.natAbs * Nat.pow 10 places)
    Double.unitsPerOne_pos
  rw [hfixed, Double.toFixed_eq hx, eq_of_isNearest hn hrounded fun k hk => htie ⟨k, hk⟩]

end Renderer

/-! ## One field -/

/-- The values that a field writes now as the renderer does later: texts that say something and whole
numbers up to `2 ^ 53` where it states no decimal places, and where it does any finite number that is
no tie. -/
inductive Text.Field.Defers (f : Text.Field) : Value → Prop where
  | text {s : String} (hf : f.conversion = .text) (hs : s ≠ "") : Defers f (.text s)
  | int {n : Int} (hf : f.conversion ≠ .decimal) (hn : n.natAbs ≤ 0x20000000000000) :
    Defers f (.int n)
  | whole {x : Double} (hf : f.conversion = .whole) (hx : x.isWhole = true)
    (hle : x.truncate.natAbs ≤ 0x20000000000000) : Defers f (.real x)
  | decimal {v : Value} {x : Double} {places : Nat} (hf : f.conversion = .decimal)
    (hplaces : f.precision = some places) (hmax : places ≤ Template.maxPlaces)
    (hv : v.finite? = some x) (htie : ¬ x.IsTie places) : Defers f v

/-- The attributes with what the tiles say of those that are not known. -/
def AttributeSet.learning (a : AttributeSet) (T : TileFeature) : AttributeSet :=
  { a with entries := T.properties.filter (fun entry => !a.isKnown entry.1) ++ a.entries }

section

variable {a : AttributeSet} {T : TileFeature} {code : String}

theorem AttributeSet.find?_learning (a : AttributeSet) (T : TileFeature) (code : String) :
    (a.learning T).find? code =
      if a.isKnown code then a.find? code else (T.find? code).or (a.find? code) := by
  have hlookup : (a.learning T).find? code =
      (if !a.isKnown code then T.find? code else none).or (a.find? code) := by
    rw [find?, learning, List.lookup_append, lookup_filter (fun code => !a.isKnown code)]
    rfl
  rw [hlookup]
  cases a.isKnown code <;> rfl

theorem Value.asReal_of_finite? {v : Value} {x : Double} (h : v.finite? = some x) :
    v.asReal = .usable x := by
  rw [asReal_eq, toDouble_of_finite? h]
  exact if_pos (isFinite_of_finite? h)

end

namespace Text.Field

variable {f : Text.Field} {v : Value}

theorem Defers.isKnown (h : f.Defers v) : v.isKnown = true := by
  cases h with
  | text hf hs => exact bne_iff_ne.2 hs
  | int | whole => rfl
  | decimal hf hplaces hmax hv htie =>
    cases v with
    | int n | real x => rfl
    | null | bool b | text s | list items | map entries | perFeature => cases hv

theorem ofInt?_of_le {n : Int} (hn : n.natAbs ≤ 0x20000000000000) :
    Double.ofInt? n = some (Double.ofInt n) := if_pos (Double.truncate_ofInt hn).1

/-- A field can write such a value. -/
theorem Defers.fits (h : f.Defers v) : (∀ fault, v.asReal ≠ .beyond fault) ∧
    (f.conversion = .decimal → f.precision.getD Template.defaultPlaces ≤ Template.maxPlaces) := by
  cases h with
  | text hf hs =>
    refine ⟨Value.asReal_ne_beyond fun n hn => ?_, fun hdecimal => ?_⟩
    · cases hn
    · cases hf.symm.trans hdecimal
  | @int n hf hn =>
    refine ⟨Value.asReal_ne_beyond fun m hm => ?_, fun hdecimal => absurd hdecimal hf⟩
    cases hm
    rw [ofInt?_of_le hn]
    rfl
  | whole hf =>
    refine ⟨Value.asReal_ne_beyond fun n hn => ?_, fun hdecimal => ?_⟩
    · cases hn
    · cases hf.symm.trans hdecimal
  | decimal hf hplaces hmax hv htie =>
    rw [Value.asReal_of_finite? hv, hplaces]
    refine ⟨fun fault hfault => ?_, fun _ => hmax⟩
    cases hfault

/-- A field without decimal places leaves the text of the value to the renderer. -/
theorem eval_deferred_of_ne_decimal {r : Renderer} {T : TileFeature} {code : String}
    (hf : f.conversion ≠ .decimal) (hcode : T.find? code = some v) :
    r.eval T (Template.deferred f code) = some (.text (r.text v)) := by
  have hdeferred : Template.deferred f code = .toText (.get code) := by
    unfold Template.deferred
    split
    · next hdecimal _ => exact absurd hdecimal hf
    · rfl
  rw [hdeferred, r.eval_toText_get, hcode]
  rfl

/-- What a field writes of such a value, the renderer writes of it later. -/
theorem Defers.eval {r : Renderer} (hr : r.WritesNumbers) {T : TileFeature} {code : String}
    (h : f.Defers v) (hcode : T.find? code = some v) :
    ∃ text, f.write? v = some text ∧ r.eval T (Template.deferred f code) = some (.text text) := by
  unfold write?
  cases h with
  | @text s hf hs =>
    refine ⟨s, ?_, ?_⟩
    · rw [hf]
      rfl
    · rw [eval_deferred_of_ne_decimal (by simp [hf]) hcode, r.text_text]
  | @int n hf hn =>
    refine ⟨toString n, ?_, ?_⟩
    · have hreal : (Value.int n).asReal = .usable (Double.ofInt n) :=
        Value.asReal_of_finite? (ofInt?_of_le hn)
      rw [hreal]
      cases hconversion : f.conversion with
      | text => rfl
      | whole => exact congrArg (fun n : Int => some (toString n)) (Double.truncate_ofInt hn).2.2
      | decimal => exact absurd hconversion hf
    · rw [eval_deferred_of_ne_decimal hf hcode, r.text_int n hn]
  | @whole x hf hx hle =>
    refine ⟨toString x.truncate, ?_, ?_⟩
    · have hfinite : x.isFinite = true := by
        cases x with
        | finite negative place => rfl
        | nan | infinite negative => cases hx
      have hreal : (Value.real x).asReal = .usable x := if_pos hfinite
      rw [hf, hreal]
    · rw [eval_deferred_of_ne_decimal (by simp [hf]) hcode, hr.text_whole x hx hle]
  | @decimal _ x places hf hplaces hmax hv htie =>
    refine ⟨x.toFixed places, ?_, ?_⟩
    · rw [hf, hplaces, Value.asReal_of_finite? hv]
      rfl
    · have hget : r.eval T (.get code) = some v := by
        rw [Renderer.eval, hcode, Option.getD_some]
      have hnumber : r.eval T (.toNumber [.get code]) = some (.real x) :=
        Renderer.eval_toNumber hget hv
      have hdeferred : Template.deferred f code = .numberFormat (.toNumber [.get code]) places := by
        rw [Template.deferred, hf, hplaces]
      rw [hdeferred, Renderer.eval, hnumber]
      show some (Value.text (r.fixed x places)) = _
      rw [hr.fixed_eq (Value.isFinite_of_finite? hv) htie]

end Text.Field

namespace Template

/-! ## All fields -/

/-- A template filled now, and filled with what the renderer knows: both with the same fault, or both
to nothing, or to expressions that the renderer evaluates to the texts. -/
inductive Meets (r : Renderer) (T : TileFeature) :
    Except Fault (Option (List Expr)) → Except Fault (Option (List Expr)) → Prop where
  | fault (fault : Fault) : Meets r T (.error fault) (.error fault)
  | nothing : Meets r T (.ok none) (.ok none)
  | texts {es : List Expr} {texts : List String}
    (h : r.evalTexts T es = some (String.join texts)) :
    Meets r T (.ok (some es)) (.ok (some (texts.map .text)))

variable {r : Renderer} {T : TileFeature} {a : AttributeSet}

theorem Meets.cons {e : Expr} {text : String} (he : r.eval T e = some (.text text))
    {x y : Report (Option (List Expr))} (h : Meets r T x.outcome y.outcome) :
    Meets r T (x >>= fun es => pure (es.map (e :: ·))).outcome
      (y >>= fun es => pure (es.map (.text text :: ·))).outcome := by
  generalize hx : x.outcome = u at h
  generalize hy : y.outcome = v at h
  cases h with
  | fault fault =>
    rw [Report.bind_of_error hx, Report.bind_of_error hy]
    exact .fault fault
  | nothing =>
    rw [Report.bind_of_ok hx, Report.bind_of_ok hy]
    exact .nothing
  | @texts es texts h =>
    rw [Report.bind_of_ok hx, Report.bind_of_ok hy]
    have htexts : r.evalTexts T (e :: es) = some (String.join (text :: texts)) := by
      rw [String.join_cons]
      exact Renderer.evalTexts_cons he h
    exact .texts htexts

theorem fill_of_written {f : Text.Field} {code text : String} {v : Value}
    (hcode : a.known? code = some v) (htext : f.write? v = some text)
    (hrange : ∀ fault, v.asReal ≠ .beyond fault)
    (hfits : f.conversion = .decimal → f.precision.getD defaultPlaces ≤ maxPlaces) :
    (fill f code a).outcome = .ok (some (.text text)) := by
  rcases fill_of_known hcode hrange hfits with ⟨hunwritable, -⟩ | ⟨text', htext', hfill⟩
  · exact absurd hunwritable (Slot.Gives.known hcode htext).not_isUnwritable
  · cases htext.symm.trans htext'
    exact hfill

/-- A known value is written as a text. -/
theorem text_of_fill {f : Text.Field} {code : String} {e : Expr} (hcode : a.isKnown code = true)
    (h : (fill f code a).outcome = .ok (some e)) : ∃ text, e = .text text := by
  unfold fill at h
  rw [if_pos hcode] at h
  split at h
  · cases h
    exact ⟨_, rfl⟩
  · obtain ⟨x, -, h⟩ := Report.outcome_bind_eq_ok_iff.1 h
    cases x with
    | none => cases h
    | some x =>
      obtain ⟨text, -, h⟩ := Report.outcome_bind_eq_ok_iff.1 h
      cases h
      exact ⟨text, rfl⟩

/-- A known value is written in the same way when more values are known. -/
theorem fill_learning {f : Text.Field} {code : String} (hcode : a.isKnown code = true) :
    fill f code (a.learning T) = fill f code a := by
  have hfind : (a.learning T).find? code = a.find? code := by
    rw [AttributeSet.find?_learning, if_pos hcode]
  unfold fill
  rw [AttributeSet.isKnown_congr hfind, AttributeSet.getText_congr hfind,
    AttributeSet.getReal_congr hfind rfl]

/-- A value that is learnt from the tiles is written as the renderer writes it. -/
theorem fill_learnt (hr : r.WritesNumbers) {f : Text.Field} {code : String} {v : Value}
    (hcode : a.isKnown code = false) (hv : T.find? code = some v) (hdefers : f.Defers v) :
    ∃ text, (fill f code (a.learning T)).outcome = .ok (some (.text text)) ∧
      r.eval T (deferred f code) = some (.text text) := by
  obtain ⟨text, hwrite, heval⟩ := hdefers.eval hr hv
  obtain ⟨hrange, hfits⟩ := hdefers.fits
  have hknown : (a.learning T).known? code = some v := by
    rw [AttributeSet.known?_eq, AttributeSet.find?_learning, hcode, if_neg Bool.false_ne_true, hv]
    exact Option.filter_eq_some_iff.2 ⟨rfl, hdefers.isKnown⟩
  exact ⟨text, fill_of_written hknown hwrite hrange hfits, heval⟩

theorem fillAll_meets (hr : r.WritesNumbers) {pieces : List Text.Piece} {codes : List String}
    (h : ∀ entry ∈ filled pieces codes, a.isKnown entry.2 = false →
      ∃ v, T.find? entry.2 = some v ∧ entry.1.Defers v) :
    Meets r T (fillAll a pieces codes).outcome (fillAll (a.learning T) pieces codes).outcome := by
  induction pieces generalizing codes with
  | nil =>
    have hnil : r.evalTexts T [] = some (String.join []) := by
      rw [Renderer.evalTexts]
      rfl
    exact .texts hnil
  | cons piece pieces ih =>
    cases piece with
    | literal s =>
      refine (ih h).cons ?_
      rw [Expr.text, Renderer.eval]
    | field f =>
      cases codes with
      | nil => exact ih fun entry hentry => by simp [filled] at hentry
      | cons code codes =>
        obtain ⟨hfirst, hrest⟩ := List.forall_mem_cons.1 h
        cases hcode : a.isKnown code with
        | true =>
          rw [fillAll, fillAll, fill_learning hcode]
          cases hfill : (fill f code a).outcome with
          | error fault =>
            rw [Report.bind_of_error hfill, Report.bind_of_error hfill]
            exact .fault fault
          | ok e =>
            rw [Report.bind_of_ok hfill, Report.bind_of_ok hfill]
            cases e with
            | none => exact .nothing
            | some e =>
              obtain ⟨text, rfl⟩ := text_of_fill hcode hfill
              refine (ih hrest).cons ?_
              rw [Expr.text, Renderer.eval]
        -- What the renderer is left to write now is known later.
        | false =>
          obtain ⟨v, hv, hdefers⟩ := hfirst hcode
          obtain ⟨text, hfill, heval⟩ := fill_learnt hr hcode hv hdefers
          have hunknown : a.known? code = none := by
            rw [AttributeSet.known?, if_neg (by simp [hcode])]
          rw [fillAll, fillAll, fill_of_unknown hunknown, pure_bind, Report.bind_of_ok hfill]
          exact (ih hrest).cons heval

/-! ## The text of a template -/

theorem evalTexts_texts (r : Renderer) (T : TileFeature) (texts : List String) :
    r.evalTexts T (texts.map .text) = some (String.join texts) := by
  induction texts with
  | nil =>
    rw [List.map_nil, Renderer.evalTexts]
    rfl
  | cons text texts ih =>
    rw [List.map_cons, String.join_cons]
    refine Renderer.evalTexts_cons ?_ ih
    rw [Expr.text, Renderer.eval]

theorem join_texts (texts : List String) : join (texts.map .text) = .text (String.join texts) := by
  rw [join, mapM_text?_eq_some_iff.2 rfl]

/-- The renderer joins what is joined now. -/
theorem eval_join {es : List Expr} {text : String} (h : r.evalTexts T es = some text) :
    r.eval T (join es) = some (.text text) := by
  obtain ⟨texts, rfl, hjoin⟩ | ⟨-, hjoin⟩ := join_cases es
  · rw [evalTexts_texts] at h
    cases h
    rw [hjoin, Expr.text, Renderer.eval]
  · rw [hjoin]
    exact Renderer.eval_concat h

/-- Where the tiles give values that its fields write alike, a template that leaves them to the
renderer comes to the text that it gives once they are known. -/
theorem format_deferred (hr : r.WritesNumbers) (template : String) (codes : List String)
    (h : ∀ f code, (f, code) ∈ filled (Text.pieces template.toList) codes →
      a.isKnown code = false → ∃ v, T.find? code = some v ∧ f.Defers v) :
    (∀ fault, (format template codes a).outcome = .error fault ↔
        (format template codes (a.learning T)).outcome = .error fault) ∧
      ((format template codes a).outcome = .ok none ↔
        (format template codes (a.learning T)).outcome = .ok none) ∧
      ∀ e, (format template codes a).outcome = .ok (some e) →
        ∃ text, (format template codes (a.learning T)).outcome = .ok (some (.text text)) ∧
          r.eval T e = some (.text text) := by
  have hmeets := fillAll_meets hr fun entry hentry => h entry.1 entry.2 hentry
  unfold format
  generalize hx : (fillAll a (Text.pieces template.toList) codes).outcome = x at hmeets
  generalize hy : (fillAll (a.learning T) (Text.pieces template.toList) codes).outcome = y at hmeets
  cases hmeets with
  | fault fault =>
    rw [Report.bind_of_error hx, Report.bind_of_error hy]
    refine ⟨fun _ => Iff.rfl, Iff.rfl, fun e he => ?_⟩
    cases he
  | nothing =>
    rw [Report.bind_of_ok hx, Report.bind_of_ok hy]
    refine ⟨fun _ => Iff.rfl, Iff.rfl, fun e he => ?_⟩
    cases he
  | @texts es texts htexts =>
    rw [Report.bind_of_ok hx, Report.bind_of_ok hy]
    refine ⟨fun fault => iff_of_false (fun h => ?_) fun h => ?_,
      iff_of_false (fun h => ?_) fun h => ?_, fun e he => ?_⟩
    · cases h
    · cases h
    · cases h
    · cases h
    cases he
    refine ⟨String.join texts, ?_, eval_join htexts⟩
    rw [← join_texts]
    rfl

/-- A template of one field whose value is known. -/
theorem format_of_field {template code text : String} {f : Text.Field} {v : Value}
    (hpieces : Text.pieces template.toList = [.field f]) (hcode : a.known? code = some v)
    (htext : f.write? v = some text) (hrange : ∀ fault, v.asReal ≠ .beyond fault)
    (hfits : f.conversion = .decimal → f.precision.getD defaultPlaces ≤ maxPlaces) :
    (format template [code] a).outcome = .ok (some (.text text)) := by
  rw [format, hpieces, fillAll, Report.bind_of_ok (fill_of_written hcode htext hrange hfits)]
  show Except.ok (some (Expr.text (String.join [text]))) = _
  rw [String.join_cons, show String.join [] = "" from rfl, String.append_empty]

/-- A light whose name, height and range the tiles give. -/
def namedLight : TileFeature where
  id := .null
  geometry := "Point"
  properties := [("OBJNAM", .text "Cape"), ("HEIGHT", .int 2),
    ("VALNMR", .real (.ofRatio false 47 10))]

/-- The name, the height and the range to one decimal place are written alike. -/
theorem format_deferred_namedLight : ∃ e text,
    (format "%s %d %.1lf" ["OBJNAM", "HEIGHT", "VALNMR"] ⟨"LIGHTS", []⟩).outcome = .ok (some e) ∧
      (format "%s %d %.1lf" ["OBJNAM", "HEIGHT", "VALNMR"]
        (AttributeSet.learning ⟨"LIGHTS", []⟩ namedLight)).outcome = .ok (some (.text text)) ∧
      Renderer.standard.eval namedLight e = some (.text text) := by
  have hpieces : Text.pieces "%s %d %.1lf".toList = [.field ⟨none, .text⟩, .literal [' '],
      .field ⟨none, .whole⟩, .literal [' '], .field ⟨some 1, .decimal⟩] := by decide +kernel
  have hvalues : ∀ f code, (f, code) ∈ filled (Text.pieces "%s %d %.1lf".toList)
      ["OBJNAM", "HEIGHT", "VALNMR"] → AttributeSet.isKnown ⟨"LIGHTS", []⟩ code = false →
        ∃ v, namedLight.find? code = some v ∧ f.Defers v := by
    intro f code hmem _
    rw [hpieces] at hmem
    simp only [filled, fields, List.filterMap_cons, List.filterMap_nil, List.zip_cons_cons,
      List.zip_nil_right, List.mem_cons, Prod.mk.injEq, List.not_mem_nil, or_false] at hmem
    rcases hmem with ⟨rfl, rfl⟩ | ⟨rfl, rfl⟩ | ⟨rfl, rfl⟩
    · exact ⟨.text "Cape", rfl, .text rfl (by decide)⟩
    · exact ⟨.int 2, rfl, .int (by decide) (by decide)⟩
    · have hfinite : (Double.ofRatio false 47 10).isFinite = true := by decide +kernel
      have htie : ¬ (Double.ofRatio false 47 10).IsTie 1 := by decide +kernel
      exact ⟨_, rfl, .decimal rfl rfl (by decide) (Value.finite?_real_iff.2 ⟨hfinite, rfl⟩) htie⟩
  have hdeferred : (format "%s %d %.1lf" ["OBJNAM", "HEIGHT", "VALNMR"] ⟨"LIGHTS", []⟩).outcome =
      .ok (some (.concat [.toText (.get "OBJNAM"), .text " ", .toText (.get "HEIGHT"), .text " ",
        .numberFormat (.toNumber [.get "VALNMR"]) 1])) := by
    rw [format, hpieces]
    rfl
  obtain ⟨-, -, htext⟩ := format_deferred Renderer.standard_writesNumbers "%s %d %.1lf"
    ["OBJNAM", "HEIGHT", "VALNMR"] hvalues
  obtain ⟨text, hknown, heval⟩ := htext _ hdeferred
  exact ⟨_, text, hdeferred, hknown, heval⟩

/-- A field for decimals that states no places leaves a number without any to the renderer, and a
field for whole numbers a number with its fraction. -/
theorem format_deferred_unlike :
    Renderer.standard.WritesNumbers ∧
      ((format "%f" ["HEIGHT"] ⟨"LIGHTS", []⟩).outcome =
          .ok (some (.concat [.toText (.get "HEIGHT")])) ∧
        Renderer.standard.eval namedLight (.concat [.toText (.get "HEIGHT")]) = some (.text "2") ∧
        (format "%f" ["HEIGHT"] (AttributeSet.learning ⟨"LIGHTS", []⟩ namedLight)).outcome =
          .ok (some (.text "2.000000"))) ∧
      (format "%d" ["VALNMR"] ⟨"LIGHTS", []⟩).outcome =
          .ok (some (.concat [.toText (.get "VALNMR")])) ∧
        Renderer.standard.eval namedLight (.concat [.toText (.get "VALNMR")]) = some (.text "4.7") ∧
        (format "%d" ["VALNMR"] (AttributeSet.learning ⟨"LIGHTS", []⟩ namedLight)).outcome =
          .ok (some (.text "4")) := by
  have hdecimal : Text.pieces "%f".toList = [.field ⟨none, .decimal⟩] := by decide +kernel
  have hwhole : Text.pieces "%d".toList = [.field ⟨none, .whole⟩] := by decide +kernel
  have hlight : Renderer.standard.text (.real (.ofRatio false 47 10)) = "4.7" := by decide +kernel
  refine ⟨Renderer.standard_writesNumbers, ⟨?_, rfl, ?_⟩, ?_, ?_, ?_⟩
  · rw [format, hdecimal]
    rfl
  · refine format_of_field hdecimal (v := .int 2) rfl (by decide +kernel) ?_ fun _ => by decide
    exact Value.asReal_ne_beyond fun n hn => by cases hn; decide +kernel
  · rw [format, hwhole]
    rfl
  · refine Renderer.eval_concat ?_
    rw [Renderer.evalTexts_cons (Renderer.eval_toText_get _ _ _) (by rw [Renderer.evalTexts])]
    exact congrArg some ((String.append_empty).trans hlight)
  · refine format_of_field hwhole (v := .real (.ofRatio false 47 10)) rfl (by decide +kernel) ?_
      fun hdecimal => ?_
    · exact Value.asReal_ne_beyond fun n hn => by cases hn
    · cases hdecimal

end Template

end ChartStyle
