import ChartStyle.Proofs.DrawnCalls

/-!
# Filled templates

When a template is filled: its fields take the codes in turn, and filling fails over a number that
is to be written with too many decimal places and over nothing else (`Template.fillAll_isOk`,
`Template.fits_of_fillAll`). Attributes that are not known leave a text exactly when the template
has some (`Template.fillAll_of_unknown`); a template without any leaves none for any feature
(`Template.fillAll_of_isVoid`).
-/

set_option autoImplicit false

namespace ChartStyle

namespace Template

/-! ## Fields and their codes -/

/-- The fields of a template. -/
def fields (pieces : List Text.Piece) : List Text.Field :=
  pieces.filterMap fun
    | .literal _ => none
    | .field f => some f

/-- The fields with the codes that they take in turn. -/
def filled (pieces : List Text.Piece) (codes : List String) : List (Text.Field × String) :=
  (fields pieces).zip codes

/-- No filled field is to have too many decimal places. -/
def Fits (pieces : List Text.Piece) (codes : List String) : Prop :=
  ∀ entry ∈ filled pieces codes, entry.1.conversion = .decimal →
    entry.1.precision.getD defaultPlaces ≤ maxPlaces

/-- The template has no text of its own and no filled field. -/
def IsVoid (pieces : List Text.Piece) (codes : List String) : Prop :=
  (∀ s, .literal s ∈ pieces → s = []) ∧ filled pieces codes = []

variable {a : AttributeSet} {f : Text.Field} {code : String}

/-! ## One field -/

theorem written_isOk_iff (x : Double) : IsOk (written f x) ↔
    (f.conversion = .decimal → f.precision.getD defaultPlaces ≤ maxPlaces) := by
  unfold written
  split
  · next hdecimal =>
    dsimp only
    split
    · next hlt =>
      exact iff_of_false (IsOk.not_error _) fun h => absurd (h hdecimal) (Nat.not_le.2 hlt)
    · next hle => exact iff_of_true (.ok _) fun _ => Nat.not_lt.1 hle
  · next hother => exact iff_of_true (.ok _) fun h => absurd h hother

theorem fill_isOk (hread : IsOk (a.getReal code .null).outcome)
    (hfits : f.conversion = .decimal → f.precision.getD defaultPlaces ≤ maxPlaces) :
    IsOk (fill f code a).outcome := by
  unfold fill
  split
  · split
    · exact .ok _
    · refine .report_bind hread fun x _ => ?_
      cases x with
      | none => exact .ok _
      | some x => exact .report_bind (.lift ((written_isOk_iff x).2 hfits)) fun _ _ => .ok _
  · exact .ok _

/-- A known number is written, unless it is to have too many decimal places. -/
theorem fits_of_fill {x : Double} (hread : a.getReal code .null = pure (some x))
    (hknown : a.isKnown code = true) {text : Option Expr} (h : (fill f code a).outcome = .ok text) :
    (f.conversion = .decimal → f.precision.getD defaultPlaces ≤ maxPlaces) ∧
      text.isSome = true := by
  unfold fill at h
  rw [if_pos hknown] at h
  split at h
  · next htext =>
    cases h
    exact ⟨fun hdecimal => absurd (htext.symm.trans hdecimal) (by decide), rfl⟩
  · rw [hread, pure_bind] at h
    obtain ⟨written, hwritten, h⟩ := Report.outcome_bind_eq_ok_iff.1 h
    cases h
    exact ⟨(written_isOk_iff x).1 ⟨written, hwritten⟩, rfl⟩

/-! ## All pieces -/

/-- A template whose decimal places fit is filled. -/
theorem fillAll_isOk (hread : ∀ code, IsOk (a.getReal code .null).outcome)
    {pieces : List Text.Piece} {codes : List String} (hfits : Fits pieces codes) :
    IsOk (fillAll a pieces codes).outcome := by
  -- The codes are used up by the fields, so the induction is over the pieces and all codes.
  induction pieces generalizing codes with
  | nil => exact .ok _
  | cons piece pieces ih =>
    cases piece with
    | literal s => exact .report_bind (ih hfits) fun _ _ => .ok _
    | field f =>
      cases codes with
      | nil => exact ih fun entry hentry => by simp [filled] at hentry
      | cons code codes =>
        obtain ⟨hfirst, hrest⟩ := List.forall_mem_cons.1 hfits
        refine .report_bind (fill_isOk (hread code) hfirst) fun text _ => ?_
        cases text with
        | none => exact .ok _
        | some e => exact .report_bind (ih hrest) fun _ _ => .ok _

/-- Filling with known numbers succeeds only if the decimal places fit. -/
theorem fits_of_fillAll {pieces : List Text.Piece} {codes : List String}
    (hknown : ∀ code ∈ codes, a.isKnown code = true ∧
      ∃ x, a.getReal code .null = pure (some x))
    (h : IsOk (fillAll a pieces codes).outcome) : Fits pieces codes := by
  induction pieces generalizing codes with
  | nil => exact fun entry hentry => absurd hentry List.not_mem_nil
  | cons piece pieces ih =>
    obtain ⟨result, h⟩ := h
    cases piece with
    | literal s =>
      obtain ⟨rest, hrest, -⟩ := Report.outcome_bind_eq_ok_iff.1 h
      exact ih hknown ⟨rest, hrest⟩
    | field f =>
      cases codes with
      | nil => exact fun entry hentry => by simp [filled] at hentry
      | cons code codes =>
        obtain ⟨⟨hcode, x, hread⟩, hknown⟩ := List.forall_mem_cons.1 hknown
        obtain ⟨text, htext, h⟩ := Report.outcome_bind_eq_ok_iff.1 h
        obtain ⟨hfits, hsome⟩ := fits_of_fill hread hcode htext
        obtain ⟨e, rfl⟩ := Option.isSome_iff_exists.1 hsome
        obtain ⟨rest, hrest, -⟩ := Report.outcome_bind_eq_ok_iff.1 h
        exact List.forall_mem_cons.2 ⟨hfits, ih hknown ⟨rest, hrest⟩⟩

/-- A template whose fields are texts is filled without a number. -/
theorem fillAll_of_texts {pieces : List Text.Piece}
    (htexts : ∀ f ∈ fields pieces, f.conversion = .text) (codes : List String) :
    ∃ es, fillAll a pieces codes = pure (some es) := by
  induction pieces generalizing codes with
  | nil => exact ⟨[], rfl⟩
  | cons piece pieces ih =>
    cases piece with
    | literal s =>
      obtain ⟨es, hes⟩ := ih htexts codes
      exact ⟨.text (String.ofList s) :: es, by rw [fillAll, hes]; rfl⟩
    | field f =>
      obtain ⟨htext, hrest⟩ := List.forall_mem_cons.1 htexts
      cases codes with
      | nil => exact ih hrest []
      | cons code codes =>
        obtain ⟨es, hes⟩ := ih hrest codes
        have hfill : ∃ e, fill f code a = pure (some e) := by
          unfold fill
          rw [htext]
          split
          · exact ⟨_, rfl⟩
          · exact ⟨_, rfl⟩
        obtain ⟨e, he⟩ := hfill
        refine ⟨e :: es, ?_⟩
        rw [fillAll, he, pure_bind]
        simp only [hes]
        rfl

/-! ## Texts that are left -/

theorem text?_eq_some_iff {e : Expr} {s : String} : text? e = some s ↔ e = .text s := by
  unfold text? Expr.text
  split
  · simp
  · next hother =>
    refine iff_of_false (fun h => ?_) (hother s)
    cases h

/-- All expressions are texts just when they are the given texts. -/
theorem mapM_text?_eq_some_iff {es : List Expr} {texts : List String} :
    es.mapM text? = some texts ↔ es = texts.map .text := by
  induction es generalizing texts with
  | nil => cases texts <;> simp
  | cons e es ih =>
    rw [List.mapM_cons]
    cases texts with
    | nil => cases text? e <;> cases es.mapM text? <;> simp
    | cons text texts =>
      rw [List.map_cons, List.cons.injEq, ← ih, ← text?_eq_some_iff]
      cases text? e <;> cases es.mapM text? <;> simp

theorem join_eq_empty_iff (texts : List String) :
    String.join texts = "" ↔ ∀ text ∈ texts, text = "" := by
  induction texts with
  | nil => exact iff_of_true rfl fun text htext => absurd htext List.not_mem_nil
  | cons text texts ih =>
    rw [String.join_cons, List.forall_mem_cons, ← ih]
    exact String.append_eq_empty_iff

/-- Nothing is left of texts just when all of them are empty. -/
theorem notEmpty_join_eq_none_iff (es : List Expr) :
    notEmpty (join es) = none ↔ ∀ e ∈ es, e = .text "" := by
  unfold join
  cases h : es.mapM text? with
  | some texts =>
    rw [mapM_text?_eq_some_iff.1 h, List.forall_mem_map]
    simp only [Expr.text, Expr.value.injEq, Value.text.injEq, notEmpty, ← join_eq_empty_iff]
    split <;> simp_all
  | none =>
    refine iff_of_false (by simp [notEmpty]) fun hempty => ?_
    -- Empty texts are texts.
    have htexts : es = (es.map fun _ => "").map .text := by
      rw [List.map_map]
      exact ((List.map_congr_left hempty).symm.trans (List.map_id es)).symm
    rw [mapM_text?_eq_some_iff.2 htexts] at h
    cases h

/-- A void template leaves empty texts, whatever the attributes. -/
theorem fillAll_of_isVoid {pieces : List Text.Piece} {codes : List String}
    (h : IsVoid pieces codes) :
    ∃ es, fillAll a pieces codes = pure (some es) ∧ ∀ e ∈ es, e = .text "" := by
  obtain ⟨hliterals, hfilled⟩ := h
  induction pieces generalizing codes with
  | nil => exact ⟨[], rfl, fun e he => absurd he List.not_mem_nil⟩
  | cons piece pieces ih =>
    have hrest : ∀ s, .literal s ∈ pieces → s = [] := fun s hs =>
      hliterals s (List.mem_cons_of_mem _ hs)
    cases piece with
    | literal s =>
      obtain ⟨es, hes, hempty⟩ := ih hrest hfilled
      obtain rfl := hliterals s List.mem_cons_self
      refine ⟨.text "" :: es, ?_, List.forall_mem_cons.2 ⟨rfl, hempty⟩⟩
      rw [fillAll, hes]
      rfl
    | field f =>
      cases codes with
      | nil => exact ih hrest (by simp [filled])
      | cons code codes => cases hfilled

/-- With attributes that are not known, each literal and each filled field has its text. -/
theorem fillAll_of_unknown (hunknown : ∀ code, a.isKnown code = false) (pieces : List Text.Piece)
    (codes : List String) :
    ∃ es, fillAll a pieces codes = pure (some es) ∧
      (∀ s, .literal s ∈ pieces → .text (String.ofList s) ∈ es) ∧
      ∀ entry ∈ filled pieces codes, deferred entry.1 entry.2 ∈ es := by
  induction pieces generalizing codes with
  | nil => exact ⟨[], rfl, fun s hs => absurd hs List.not_mem_nil,
      fun entry hentry => absurd hentry List.not_mem_nil⟩
  | cons piece pieces ih =>
    cases piece with
    | literal s =>
      obtain ⟨es, hes, hliterals, hfields⟩ := ih codes
      refine ⟨.text (String.ofList s) :: es, by rw [fillAll, hes]; rfl, ?_, ?_⟩
      · intro s' hs'
        rcases List.mem_cons.1 hs' with heq | hs'
        · cases heq
          exact List.mem_cons_self
        · exact List.mem_cons_of_mem _ (hliterals s' hs')
      · exact fun entry hentry => List.mem_cons_of_mem _ (hfields entry hentry)
    | field f =>
      have hliteral {s : List Char} (hs : .literal s ∈ Text.Piece.field f :: pieces) :
          .literal s ∈ pieces := (List.mem_cons.1 hs).resolve_left (by simp)
      cases codes with
      | nil =>
        obtain ⟨es, hes, hliterals, -⟩ := ih []
        exact ⟨es, hes, fun s hs => hliterals s (hliteral hs),
          fun entry hentry => by simp [filled] at hentry⟩
      | cons code codes =>
        obtain ⟨es, hes, hliterals, hfields⟩ := ih codes
        have hfill : fill f code a = pure (some (deferred f code)) := by
          rw [fill, hunknown]
          rfl
        refine ⟨deferred f code :: es, ?_, ?_, ?_⟩
        · rw [fillAll, hfill, pure_bind]
          simp only [hes]
          rfl
        · exact fun s hs => List.mem_cons_of_mem _ (hliterals s (hliteral hs))
        · exact List.forall_mem_cons.2 ⟨List.mem_cons_self,
            fun entry hentry => List.mem_cons_of_mem _ (hfields entry hentry)⟩

/-- So a text is left when the template has some. -/
theorem isVoid_of_unknown (hunknown : ∀ code, a.isKnown code = false) {pieces : List Text.Piece}
    {codes : List String} {es : List Expr} (h : fillAll a pieces codes = pure (some es))
    (hnone : notEmpty (join es) = none) : IsVoid pieces codes := by
  obtain ⟨es', hes', hliterals, hfields⟩ := fillAll_of_unknown hunknown pieces codes
  obtain rfl : es = es' := by
    have heq := congrArg Report.outcome (h.symm.trans hes')
    simpa [pure, Report.done] using heq
  have hempty := (notEmpty_join_eq_none_iff es).1 hnone
  constructor
  · intro s hs
    have heq := hempty _ (hliterals s hs)
    simpa [Expr.text] using heq
  · refine List.eq_nil_iff_forall_not_mem.2 fun entry hentry => ?_
    have heq := hempty _ (hfields entry hentry)
    unfold deferred Expr.text at heq
    split at heq <;> cases heq

end Template

end ChartStyle
