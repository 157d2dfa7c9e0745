import ChartStyle.Colour.Palette
import ChartStyle.Proofs.Agreement
import ChartStyle.Proofs.Outcomes

/-!
# The tokens of a palette

A palette that was read defines the same tokens in every mode (`Palette.isUniform_of_ofValue`), so
whether a token has a colour does not depend on the mode (`Palette.resolve_agrees`).
-/

set_option autoImplicit false

namespace ChartStyle

namespace Palette

/-- Every mode defines the same tokens. -/
def IsUniform (p : Palette) : Prop :=
  ∀ mode token, ((p.table mode).lookup token).isSome = (p.day.lookup token).isSome

theorem isSome_lookup_iff {table : ColourTable} {token : String} :
    (table.lookup token).isSome = true ↔ token ∈ tokensOf table := by
  rw [tokensOf]
  induction table with
  | nil => simp
  | cons entry table ih =>
    obtain ⟨t, colour⟩ := entry
    rw [List.lookup_cons, List.map_cons, List.mem_cons]
    cases h : token == t with
    | true => simp [eq_of_beq h]
    | false => simp [ih, ne_of_beq_false h]

theorem mem_tokensOf_of_difference_nil {a b : ColourTable} (h : difference a b = []) (t : String) :
    t ∈ tokensOf a ↔ t ∈ tokensOf b := by
  have happend := List.eq_nil_of_length_eq_zero
    ((List.length_mergeSort _).symm.trans (congrArg List.length h))
  obtain ⟨hleft, hright⟩ := List.append_eq_nil_iff.1 happend
  constructor
  · intro ha
    simpa using List.filter_eq_nil_iff.1 hleft t ha
  · intro hb
    simpa using List.filter_eq_nil_iff.1 hright t hb

theorem difference_nil_of_checkTokens {day table : ColourTable} {mode : DisplayMode}
    {tables : List (DisplayMode × ColourTable)} (h : checkTokens day tables = .ok ())
    (hmem : (mode, table) ∈ tables) : difference table day = [] := by
  induction tables with
  | nil => cases hmem
  | cons entry tables ih =>
    obtain ⟨m, first⟩ := entry
    rw [checkTokens] at h
    cases hdifference : difference first day with
    | cons token tokens =>
      rw [hdifference] at h
      cases h
    | nil =>
      rw [hdifference] at h
      cases List.mem_cons.1 hmem with
      | inl heq =>
        cases heq
        exact hdifference
      | inr hmem => exact ih h hmem

theorem exists_lookup_of_any {tables : List (DisplayMode × ColourTable)} {mode : DisplayMode}
    (h : tables.any (·.1 == mode) = true) :
    ∃ table, tables.lookup mode = some table ∧ (mode, table) ∈ tables := by
  induction tables with
  | nil => cases h
  | cons entry tables ih =>
    obtain ⟨m, table⟩ := entry
    rw [List.any_cons, Bool.or_eq_true] at h
    rw [List.lookup_cons]
    cases hm : mode == m with
    | true =>
      obtain rfl := eq_of_beq hm
      exact ⟨table, rfl, List.mem_cons_self⟩
    | false =>
      have hne : (m == mode) = false := by rwa [BEq.comm]
      obtain ⟨found, hlookup, hmem⟩ := ih (h.resolve_left (by rw [hne]; decide))
      exact ⟨found, hlookup, List.mem_cons_of_mem _ hmem⟩

/-- A palette that was read defines the same tokens in every mode. -/
theorem isUniform_of_ofValue {v : Value} {p : Palette} (h : ofValue v = .ok p) : p.IsUniform := by
  obtain ⟨read, -, h⟩ := except_bind_eq_ok_iff.1 h
  -- No mode is missing, or there would be no palette.
  cases hmissing : DisplayMode.all.filter fun mode => !(latest read).any (·.1 == mode) with
  | cons mode modes =>
    simp only [hmissing] at h
    cases h
  | nil =>
    simp only [hmissing] at h
    obtain ⟨⟨⟩, hcheck, hp⟩ := except_bind_eq_ok_iff.1 h
    cases hp
    have htable (mode : DisplayMode) : ∃ table, (latest read).lookup mode = some table ∧
        (mode, table) ∈ latest read := by
      apply exists_lookup_of_any
      have hall : mode ∈ DisplayMode.all := by cases mode <;> decide
      have hfound := List.filter_eq_nil_iff.1 hmissing mode hall
      simpa using hfound
    -- The table of every mode passed the comparison with that of the day.
    have hsame (mode : DisplayMode) (token : String) :
        ((((latest read).lookup mode).getD []).lookup token).isSome =
          ((((latest read).lookup .day).getD []).lookup token).isSome := by
      obtain ⟨table, hlookup, hmem⟩ := htable mode
      have hdifference := difference_nil_of_checkTokens hcheck hmem
      rw [hlookup, Bool.eq_iff_iff, isSome_lookup_iff, isSome_lookup_iff]
      exact mem_tokensOf_of_difference_nil hdifference token
    intro mode token
    cases mode with
    | day => rfl
    | dusk => exact hsame .dusk token
    | night => exact hsame .night token

/-- In any two modes a token has a colour in both, or the same fault in both. -/
theorem resolve_agrees {p : Palette} (h : p.IsUniform) (m₁ m₂ : DisplayMode) (token : String) :
    (p.resolve m₁ token).map (fun _ => ()) = (p.resolve m₂ token).map fun _ => () := by
  have hsome := (h m₁ token).trans (h m₂ token).symm
  rw [resolve, resolve]
  cases h₁ : (p.table m₁).lookup token with
  | none =>
    cases h₂ : (p.table m₂).lookup token with
    | none => rfl
    | some colour =>
      rw [h₁, h₂] at hsome
      cases hsome
  | some colour =>
    cases h₂ : (p.table m₂).lookup token with
    | none =>
      rw [h₁, h₂] at hsome
      cases hsome
    | some colour' => rfl

theorem resolveValue_agrees {p : Palette} (h : p.IsUniform) (m₁ m₂ : DisplayMode) (v : Value) :
    (p.resolveValue m₁ v).map (fun _ => ()) = (p.resolveValue m₂ v).map fun _ => () := by
  cases v with
  | text token => exact resolve_agrees h m₁ m₂ token
  | null | bool b | int n | real x | list items | map entries | perFeature => rfl

end Palette

end ChartStyle
