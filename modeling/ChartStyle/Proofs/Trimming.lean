import ChartStyle.Text.Blank

/-!
# Taking off blanks

A text that is `Tight` starts and ends with something else than blanks. Trimming takes the blanks
off around a tight text and nothing more (`trim_eq`), and what it leaves is tight or nothing at all
(`trimmed_trim`), so trimming again changes nothing.
-/

set_option autoImplicit false

namespace ChartStyle

/-- Nothing but blanks. -/
def Blanks (cs : List Char) : Prop := ∀ c ∈ cs, Text.isBlank c = true

instance (cs : List Char) : Decidable (Blanks cs) :=
  List.decidableBAll (fun c => Text.isBlank c = true) cs

/-- The text starts and ends with characters that are not blanks. -/
structure Tight (token : List Char) : Prop where
  ne_nil : token ≠ []
  head : ∀ c ∈ token.head?, Text.isBlank c = false
  last : ∀ c ∈ token.getLast?, Text.isBlank c = false

theorem Tight.reverse {token : List Char} (h : Tight token) : Tight token.reverse := by
  refine ⟨mt List.reverse_eq_nil_iff.1 h.ne_nil, ?_, ?_⟩
  · rw [List.head?_reverse]
    exact h.last
  · rw [List.getLast?_reverse]
    exact h.head

theorem Blanks.reverse {blanks : List Char} (h : Blanks blanks) : Blanks blanks.reverse :=
  fun c hc => h c (List.mem_reverse.1 hc)

theorem dropWhile_blanks_cons {blanks : List Char} (hblanks : Blanks blanks) {c : Char}
    (hc : Text.isBlank c = false) (rest : List Char) :
    (blanks ++ c :: rest).dropWhile Text.isBlank = c :: rest := by
  rw [List.dropWhile_append_of_pos hblanks]
  exact List.dropWhile_cons_of_neg (by simp [hc])

/-- The blanks in front of a tight text are dropped, and nothing else. -/
theorem dropWhile_blanks {blanks token : List Char} (hblanks : Blanks blanks) (h : Tight token)
    (rest : List Char) : (blanks ++ (token ++ rest)).dropWhile Text.isBlank = token ++ rest := by
  cases token with
  | nil => exact absurd rfl h.ne_nil
  | cons c cs => exact dropWhile_blanks_cons hblanks (h.head c rfl) (cs ++ rest)

theorem trim_eq {before token after : List Char} (hbefore : Blanks before) (h : Tight token)
    (hafter : Blanks after) : Text.trim (before ++ token ++ after) = token := by
  have hend := dropWhile_blanks hafter.reverse h.reverse []
  rw [List.append_nil] at hend
  rw [Text.trim, Text.stripWhile, List.append_assoc, dropWhile_blanks hbefore h,
    List.reverse_append, hend, List.reverse_reverse]

/-! ## What trimming leaves -/

/-- Trimming leaves the text as it is: nothing at all, or a tight text. -/
def Trimmed (cs : List Char) : Prop := cs = [] ∨ Tight cs

theorem Trimmed.trim_eq {cs : List Char} (h : Trimmed cs) : Text.trim cs = cs := by
  cases h with
  | inl h =>
    subst h
    rfl
  | inr h =>
    have hnil : Blanks [] := fun c hc => absurd hc List.not_mem_nil
    have heq := ChartStyle.trim_eq hnil h hnil
    rwa [List.nil_append, List.append_nil] at heq

theorem trimmed_of_noBlanks {cs : List Char} (h : ∀ c ∈ cs, Text.isBlank c = false) :
    Trimmed cs := by
  by_cases hne : cs = []
  · exact .inl hne
  · exact .inr ⟨hne, fun c hc => h c (List.mem_of_mem_head? hc),
      fun c hc => h c (List.mem_of_getLast? hc)⟩

theorem not_blank_of_head_dropWhile {cs : List Char} {c : Char}
    (hc : c ∈ (cs.dropWhile Text.isBlank).head?) : Text.isBlank c = false := by
  have hhead := List.head?_dropWhile_not Text.isBlank cs
  rw [Option.mem_def.1 hc] at hhead
  simpa using hhead

/-- What is left after trimming is tight, unless it is nothing at all. -/
theorem trimmed_trim (cs : List Char) : Trimmed (Text.trim cs) := by
  by_cases hne : Text.trim cs = []
  · exact .inl hne
  -- What is left starts as the text does whose blanks in front were dropped.
  have hprefix : Text.trim cs <+: cs.dropWhile Text.isBlank := by
    have hsuffix := List.dropWhile_suffix (l := (cs.dropWhile Text.isBlank).reverse) Text.isBlank
    have hreverse := List.reverse_prefix.2 hsuffix
    rwa [List.reverse_reverse] at hreverse
  refine .inr ⟨hne, fun c hc => ?_, fun c hc => ?_⟩
  · obtain ⟨rest, hrest⟩ := hprefix
    have hhead : c ∈ (cs.dropWhile Text.isBlank).head? := by
      rw [← hrest, List.head?_append, Option.mem_def.1 hc]
      rfl
    exact not_blank_of_head_dropWhile hhead
  · rw [Text.trim, Text.stripWhile, List.getLast?_reverse] at hc
    exact not_blank_of_head_dropWhile hc

theorem trimmed_trimmed (s : String) : Trimmed (Text.trimmed s).toList := by
  rw [Text.trimmed, String.toList_ofList]
  exact trimmed_trim s.toList

end ChartStyle
