import ChartStyle.Proofs.ReadCalls

/-!
# Parentheses outside quotes

A text is `Balanced` when its parentheses outside quoted strings are: read from the left, no more of
them are closed than were opened, and in the end all are closed. Reading an instruction string does
not ask for that. It cuts at separators where the depth is exactly zero, and takes the argument list
of a call up to the last parenthesis, so an unbalanced text is accepted just when the unbalance lies
inside an argument list, where it becomes part of a literal text
(`parseInstructions_balanced_iff`).
-/

set_option autoImplicit false

namespace ChartStyle

/-! ## Nesting -/

/-- The characters outside quoted strings, when the given quote is open. -/
def outsideQuotes : Option Char → List Char → List Char
  | _, [] => []
  | some quote, c :: cs =>
    if c = quote then outsideQuotes none cs else outsideQuotes (some quote) cs
  | none, c :: cs =>
    if Scan.isQuote c then outsideQuotes (some c) cs else c :: outsideQuotes none cs

/-- How often a character occurs outside quoted strings. -/
def countOutside (c : Char) (cs : List Char) : Nat := (outsideQuotes none cs).count c

/-- Inside so many open parentheses, the text closes no more than there are at any point, and in the
end it has closed what it has opened. -/
structure Nests (opened : Nat) (cs : List Char) : Prop where
  never : ∀ before, before <+: cs → countOutside ')' before ≤ countOutside '(' before + opened
  even : countOutside '(' cs = countOutside ')' cs

/-- The parentheses of a text outside quoted strings are balanced. -/
def Balanced (cs : List Char) : Prop := Nests 0 cs

namespace Scan

/-- The scan stays at depth zero or deeper and ends at the given depth. -/
def EndsAt (depth : Int) : Scan → List Char → Prop
  | s, [] => 0 ≤ s.depth ∧ s.depth = depth
  | s, c :: cs => 0 ≤ s.depth ∧ EndsAt depth (s.next c) cs

variable {s : Scan} {depth : Int} {cs : List Char}

theorem EndsAt.nonneg (h : s.EndsAt depth cs) : 0 ≤ s.depth := by
  cases cs with
  | nil => exact h.1
  | cons c cs => exact h.1

/-- The depth after a text counts its parentheses outside quotes. -/
theorem depth_after (s : Scan) (cs : List Char) :
    (s.after cs).depth = s.depth + (outsideQuotes s.quote cs).count '(' -
      (outsideQuotes s.quote cs).count ')' := by
  induction cs generalizing s with
  | nil => simp [after, outsideQuotes]
  | cons c cs ih =>
    obtain ⟨quote, depth⟩ := s
    show (after (next ⟨quote, depth⟩ c) cs).depth = _
    rw [ih]
    cases quote with
    | some quote =>
      by_cases hc : c = quote
      · simp [next, outsideQuotes, hc]
      · simp [next, outsideQuotes, hc]
    | none =>
      by_cases hquote : isQuote c = true
      · simp [next, outsideQuotes, hquote]
      · by_cases hopen : c = '('
        · subst hopen
          simp [next, outsideQuotes, isQuote]
          omega
        · by_cases hclose : c = ')'
          · subst hclose
            simp [next, outsideQuotes, isQuote]
            omega
          · simp [next, outsideQuotes, hquote, hopen, hclose]

/-- The scan stays at depth zero or deeper when it does so behind every beginning of the text. -/
theorem endsAt_iff : s.EndsAt depth cs ↔
    (∀ before, before <+: cs → 0 ≤ (s.after before).depth) ∧ (s.after cs).depth = depth := by
  induction cs generalizing s with
  | nil =>
    constructor
    · rintro ⟨hdepth, hend⟩
      refine ⟨fun before hbefore => ?_, hend⟩
      rw [List.prefix_nil.1 hbefore]
      exact hdepth
    · rintro ⟨hnever, hend⟩
      exact ⟨hnever [] List.nil_prefix, hend⟩
  | cons c cs ih =>
    show 0 ≤ s.depth ∧ (s.next c).EndsAt depth cs ↔ _
    rw [ih]
    constructor
    · rintro ⟨hdepth, hnever, hend⟩
      refine ⟨fun before hbefore => ?_, hend⟩
      rcases List.prefix_cons_iff.1 hbefore with rfl | ⟨rest, rfl, hrest⟩
      · exact hdepth
      · exact hnever rest hrest
    · rintro ⟨hnever, hend⟩
      refine ⟨hnever [] List.nil_prefix, fun before hbefore => ?_, hend⟩
      exact hnever (c :: before) (List.cons_prefix_cons.2 ⟨rfl, hbefore⟩)

end Scan

theorem nests_iff_endsAt {opened : Nat} {cs : List Char} :
    Nests opened cs ↔ Scan.EndsAt opened ⟨none, opened⟩ cs := by
  rw [Scan.endsAt_iff, Scan.depth_after]
  constructor
  · rintro ⟨hnever, heven⟩
    refine ⟨fun before hbefore => ?_, ?_⟩
    · have hle := hnever before hbefore
      rw [Scan.depth_after]
      simp only [countOutside] at hle ⊢
      omega
    · simp only [countOutside] at heven
      simp only
      omega
  · rintro ⟨hnever, heven⟩
    refine ⟨fun before hbefore => ?_, ?_⟩
    · have hle := hnever before hbefore
      rw [Scan.depth_after] at hle
      simp only [countOutside] at hle ⊢
      omega
    · simp only at heven
      simp only [countOutside]
      omega

/-! ## Parts -/

namespace Scan

variable {depth : Int}

/-- A text has a first part, which begins where the scan stands; each further part begins where a
text does, since a cut is made at depth zero. -/
theorem exists_parts_of_splitFrom {separator : Char} {s : Scan} {cs : List Char}
    {parts : List (List Char)} (h : splitFrom separator s cs = some parts) :
    ∃ part rest, parts = part :: rest ∧
      (s.EndsAt 0 cs ↔ s.EndsAt 0 part ∧ ∀ further ∈ rest, start.EndsAt 0 further) := by
  induction cs generalizing s parts with
  | nil =>
    rw [splitFrom] at h
    split at h
    · cases h
      exact ⟨[], [], rfl, by simp⟩
    · cases h
  | cons c cs ih =>
    rw [splitFrom] at h
    cases hcut : s.cutsAt separator c with
    | true =>
      rw [hcut, if_pos rfl] at h
      obtain ⟨parts, hparts, rfl⟩ := Option.map_eq_some_iff.1 h
      obtain ⟨rfl, hnext⟩ := eq_start_of_cutsAt hcut
      obtain ⟨part, rest, rfl, hiff⟩ := ih hparts
      refine ⟨[], part :: rest, rfl, ?_⟩
      have hstart : (0 : Int) ≤ start.depth := Int.le_refl 0
      have hnil : start.EndsAt 0 [] := ⟨hstart, rfl⟩
      show 0 ≤ start.depth ∧ (start.next c).EndsAt 0 cs ↔ _
      rw [hnext, hiff, List.forall_mem_cons]
      exact ⟨fun h => ⟨hnil, h.2⟩, fun h => ⟨hstart, h.2⟩⟩
    | false =>
      rw [hcut, if_neg Bool.false_ne_true] at h
      obtain ⟨parts, hparts, rfl⟩ := Option.map_eq_some_iff.1 h
      obtain ⟨part, rest, rfl, hiff⟩ := ih hparts
      refine ⟨c :: part, rest, rfl, ?_⟩
      show 0 ≤ s.depth ∧ (s.next c).EndsAt 0 cs ↔
        (0 ≤ s.depth ∧ (s.next c).EndsAt 0 part) ∧ ∀ further ∈ rest, start.EndsAt 0 further
      rw [hiff, and_assoc]

/-- A text that has parts leaves no quote open. -/
theorem quote_of_splitFrom {separator : Char} {s : Scan} {cs : List Char}
    {parts : List (List Char)} (h : splitFrom separator s cs = some parts) :
    (s.after cs).quote = none := by
  by_contra hquote
  rw [splitFrom_eq_none_iff.2 hquote] at h
  cases h

/-- Which quote is open does not depend on the depth. -/
theorem quote_after (quote : Option Char) (depth depth' : Int) (cs : List Char) :
    (after ⟨quote, depth⟩ cs).quote = (after ⟨quote, depth'⟩ cs).quote := by
  induction cs generalizing quote depth depth' with
  | nil => rfl
  | cons c cs ih =>
    have hnext : (next ⟨quote, depth⟩ c).quote = (next ⟨quote, depth'⟩ c).quote := by
      cases quote with
      | some quote => by_cases hc : c = quote <;> simp [next, hc]
      | none =>
        simp only [next]
        split
        · rfl
        · split
          · rfl
          · split <;> rfl
    show (after (next ⟨quote, depth⟩ c) cs).quote = (after (next ⟨quote, depth'⟩ c) cs).quote
    generalize next ⟨quote, depth⟩ c = s at hnext ⊢
    generalize next ⟨quote, depth'⟩ c = s' at hnext ⊢
    obtain ⟨open₁, current⟩ := s
    obtain ⟨open₂, current'⟩ := s'
    obtain rfl : open₁ = open₂ := hnext
    exact ih open₁ current current'

/-- Each character of a text is a separator or stands in one of its parts. -/
theorem mem_of_splitFrom {separator : Char} {s : Scan} {cs : List Char} {parts : List (List Char)}
    (h : splitFrom separator s cs = some parts) :
    ∀ c ∈ cs, c = separator ∨ ∃ part ∈ parts, c ∈ part := by
  induction parts generalizing s cs with
  | nil =>
    obtain ⟨_, _, heq⟩ := exists_cons_of_splitFrom h
    cases heq
  | cons part parts ih =>
    intro c hc
    obtain ⟨-, ⟨rfl, -⟩ | ⟨rest, rfl, -, hrest⟩⟩ := splitFrom_eq_some_cons.1 h
    · exact .inr ⟨_, List.mem_cons_self, hc⟩
    · rcases List.mem_append.1 hc with hc | hc
      · exact .inr ⟨part, List.mem_cons_self, hc⟩
      · rcases List.mem_cons.1 hc with rfl | hc
        · exact .inl rfl
        · refine (ih hrest c hc).imp_right ?_
          rintro ⟨further, hfurther, hmem⟩
          exact ⟨further, List.mem_cons_of_mem _ hfurther, hmem⟩

/-- Plain characters change nothing. -/
theorem endsAt_append_of_plain {depth current : Int} {plain : List Char}
    (hplain : ∀ c ∈ plain, isPlain c = true) (rest : List Char) :
    EndsAt depth ⟨none, current⟩ (plain ++ rest) ↔ EndsAt depth ⟨none, current⟩ rest := by
  induction plain with
  | nil => rfl
  | cons c plain ih =>
    obtain ⟨hc, hrest⟩ := List.forall_mem_cons.1 hplain
    have hnext : next ⟨none, current⟩ c = ⟨none, current⟩ := by
      simp only [isPlain, Bool.and_eq_true, Bool.not_eq_true', bne_iff_ne] at hc
      simp [next, hc]
    show 0 ≤ current ∧ EndsAt depth (next ⟨none, current⟩ c) (plain ++ rest) ↔ _
    rw [hnext, ih hrest]
    exact and_iff_right_of_imp EndsAt.nonneg

/-- A parenthesis behind a text closes what was open around it. -/
theorem endsAt_close {s : Scan} {depth : Int} {cs after : List Char} (hdepth : 0 ≤ depth)
    (hquote : (s.after cs).quote = none) (hafter : ∀ c ∈ after, isPlain c = true) :
    s.EndsAt depth (cs ++ ')' :: after) ↔ s.EndsAt (depth + 1) cs := by
  induction cs generalizing s with
  | nil =>
    obtain ⟨quote, current⟩ := s
    obtain rfl : quote = none := hquote
    have hplain : EndsAt depth ⟨none, current - 1⟩ (after ++ []) ↔
        EndsAt depth ⟨none, current - 1⟩ [] := endsAt_append_of_plain hafter []
    rw [List.append_nil] at hplain
    show 0 ≤ current ∧ EndsAt depth ⟨none, current - 1⟩ after ↔ 0 ≤ current ∧ current = depth + 1
    rw [hplain]
    show 0 ≤ current ∧ 0 ≤ current - 1 ∧ current - 1 = depth ↔ _
    omega
  | cons c cs ih =>
    show 0 ≤ s.depth ∧ (s.next c).EndsAt depth (cs ++ ')' :: after) ↔ _
    rw [ih hquote]
    rfl

end Scan

theorem isPlain_of_isBlank {c : Char} (h : Text.isBlank c = true) : Scan.isPlain c = true := by
  have hne {d : Char} (hd : Text.isBlank d = false) : c ≠ d := by
    rintro rfl
    rw [h] at hd
    cases hd
  simp [Scan.isPlain, Scan.isQuote, hne (d := '\'') (by decide), hne (d := '"') (by decide),
    hne (d := '(') (by decide), hne (d := ')') (by decide)]

theorem isPlain_of_isAlpha {c : Char} (h : c.isAlpha = true) : Scan.isPlain c = true := by
  have hbare := isBare_of_isAlpha h
  simp only [isBare, Bool.and_eq_true] at hbare
  exact hbare.1.1.2

/-! ## Calls -/

namespace Call

/-- The shape of a call: two letters, and an argument list between parentheses. -/
theorem eq_of_shape? {cs letters body : List Char} (h : shape? cs = some (letters, body)) :
    ∃ before between after, Blanks before ∧ Blanks between ∧ Blanks after ∧
      (∀ c ∈ letters, c.isAlpha = true) ∧
      cs = before ++ (letters ++ (between ++ '(' :: (body ++ ')' :: after))) := by
  have hblanks (cs : List Char) : Blanks (cs.takeWhile Text.isBlank) :=
    fun c hc => List.mem_takeWhile_imp hc
  unfold shape? at h
  split at h
  · next a b rest hname =>
    split at h
    · next hletters =>
      rw [Bool.and_eq_true] at hletters
      split at h
      · next inside hopen =>
        split at h
        · next reversed hclose =>
          cases h
          have hcs := List.takeWhile_append_dropWhile (p := Text.isBlank) (l := cs)
          have hrest := List.takeWhile_append_dropWhile (p := Text.isBlank) (l := rest)
          have hinside := List.takeWhile_append_dropWhile (p := Text.isBlank) (l := inside.reverse)
          rw [hname] at hcs
          rw [hopen] at hrest
          rw [hclose] at hinside
          -- The last parenthesis is the first one from the end.
          have hbody := congrArg List.reverse hinside
          simp only [List.reverse_append, List.reverse_cons, List.reverse_reverse,
            List.append_assoc, List.singleton_append] at hbody
          refine ⟨_, _, _, hblanks cs, hblanks rest, (hblanks inside.reverse).reverse, ?_, ?_⟩
          · simpa using hletters
          · rw [hbody]
            show cs = cs.takeWhile Text.isBlank ++ (a :: b :: (rest.takeWhile Text.isBlank ++ _))
            rw [hrest, hcs]
        · cases h
      · cases h
    · cases h
  · cases h

/-- A part that is read is balanced just when its argument list closes what it opens. -/
theorem balanced_iff_nests {cs letters body : List Char} {args : List Argument}
    (hshape : shape? cs = some (letters, body)) (hargs : Argument.parseAll body = .ok args) :
    Balanced cs ↔ Nests 1 body := by
  obtain ⟨before, between, after, hbefore, hbetween, hafter, hletters, rfl⟩ := eq_of_shape? hshape
  have hblank {cs : List Char} (h : Blanks cs) : ∀ c ∈ cs, Scan.isPlain c = true :=
    fun c hc => isPlain_of_isBlank (h c hc)
  have hquote : (Scan.after ⟨none, 1⟩ body).quote = none := by
    rcases Argument.parseAll_eq_ok hargs with ⟨hbody, -⟩ | ⟨parts, hparts, -⟩
    · rw [((neutral_of_blanks (.inl rfl) hbody) 1).2]
    · rw [Scan.quote_after none 1 0]
      exact Scan.quote_of_splitFrom hparts
  rw [Balanced, nests_iff_endsAt, nests_iff_endsAt]
  show Scan.EndsAt 0 ⟨none, 0⟩ _ ↔ Scan.EndsAt 1 ⟨none, 1⟩ body
  rw [Scan.endsAt_append_of_plain (hblank hbefore),
    Scan.endsAt_append_of_plain fun c hc => isPlain_of_isAlpha (hletters c hc),
    Scan.endsAt_append_of_plain (hblank hbetween)]
  show (0 : Int) ≤ 0 ∧ Scan.EndsAt 0 ⟨none, 1⟩ (body ++ ')' :: after) ↔ _
  rw [Scan.endsAt_close (Int.le_refl 0) hquote (hblank hafter)]
  exact and_iff_right (Int.le_refl 0)

end Call

/-! ## Arguments without parentheses -/

/-- The character is no parenthesis. -/
def IsNoParenthesis (c : Char) : Prop := c ≠ '(' ∧ c ≠ ')'

theorem isNoParenthesis_of_isDecimal {c : Char} (h : Text.isDecimal c = true) :
    IsNoParenthesis c := by
  constructor
  · rintro rfl
    exact absurd h (by decide +kernel)
  · rintro rfl
    exact absurd h (by decide +kernel)

theorem isNoParenthesis_of_isBlank {c : Char} (h : Text.isBlank c = true) : IsNoParenthesis c := by
  constructor
  · rintro rfl
    exact absurd h (by decide)
  · rintro rfl
    exact absurd h (by decide)

theorem nests_of_noParenthesis {cs : List Char} (h : ∀ c ∈ cs, IsNoParenthesis c) (opened : Nat) :
    Nests opened cs := by
  have houtside (quote : Option Char) (cs : List Char) :
      ∀ c ∈ outsideQuotes quote cs, c ∈ cs := by
    fun_induction outsideQuotes quote cs with
    | case1 => exact fun c hc => hc
    | case2 quote cs ih => exact fun c hc => List.mem_cons_of_mem _ (ih c hc)
    | case3 quote d cs _ ih => exact fun c hc => List.mem_cons_of_mem _ (ih c hc)
    | case4 d cs _ ih => exact fun c hc => List.mem_cons_of_mem _ (ih c hc)
    | case5 d cs _ ih =>
      intro c hc
      rcases List.mem_cons.1 hc with rfl | hc
      · exact List.mem_cons_self
      · exact List.mem_cons_of_mem _ (ih c hc)
  have hzero {before : List Char} (hbefore : before <+: cs) :
      countOutside '(' before = 0 ∧ countOutside ')' before = 0 := by
    have hmem {c : Char} (hc : c ∈ outsideQuotes none before) : IsNoParenthesis c :=
      h c (hbefore.subset (houtside none before c hc))
    exact ⟨List.count_eq_zero.2 fun hc => (hmem hc).1 rfl,
      List.count_eq_zero.2 fun hc => (hmem hc).2 rfl⟩
  refine ⟨fun before hbefore => ?_, ?_⟩
  · rw [(hzero hbefore).2]
    exact Nat.zero_le _
  · rw [(hzero (List.prefix_refl cs)).1, (hzero (List.prefix_refl cs)).2]

namespace Argument

/-- A literal text that holds a parenthesis. -/
def HoldsParenthesis (a : Argument) : Prop :=
  ∃ s, a = .text s ∧ ∃ c ∈ s.toList, ¬ IsNoParenthesis c

/-- A number has no parenthesis. -/
theorem isNoParenthesis_of_numeral? {cs : List Char} {found : Bool × List Char × Option (List Char)}
    (h : numeral? cs = some found) : ∀ c ∈ cs, IsNoParenthesis c := by
  intro c hc
  rcases mem_numeral? h c hc with hdecimal | rfl | rfl | rfl
  · exact isNoParenthesis_of_isDecimal hdecimal
  all_goals exact ⟨by decide, by decide⟩

/-- The token of an argument that is no text with parentheses has none either. -/
theorem isNoParenthesis_of_parse {cs : List Char} {a : Argument} (h : parse cs = .ok a)
    (ha : ¬ a.HoldsParenthesis) : ∀ c ∈ cs, IsNoParenthesis c := by
  have htext {contents : List Char} (hcontents : a = .text (String.ofList contents)) :
      ∀ c ∈ contents, IsNoParenthesis c := by
    intro c hc
    by_contra hparenthesis
    refine ha ⟨_, hcontents, c, ?_, hparenthesis⟩
    rwa [String.toList_ofList]
  have htoken : ∀ c ∈ Text.trim cs, IsNoParenthesis c := by
    rcases parse_cases h with ⟨contents, hquoted, hcontents⟩ | ⟨v, hnumber, -⟩ | ⟨hcode, -⟩ | hbare
    · obtain ⟨quote, hquote, htoken⟩ := eq_of_unquoted? hquoted
      have hmark : IsNoParenthesis quote := by
        simp only [Scan.isQuote, Bool.or_eq_true, beq_iff_eq] at hquote
        rcases hquote with rfl | rfl <;> exact ⟨by decide, by decide⟩
      rw [htoken]
      refine List.forall_mem_cons.2 ⟨hmark, List.forall_mem_append.2 ⟨htext hcontents, ?_⟩⟩
      exact List.forall_mem_singleton.2 hmark
    · obtain ⟨found, hfound, -⟩ := Option.map_eq_some_iff.1 hnumber
      exact isNoParenthesis_of_numeral? hfound
    · intro c hc
      rw [isAttributeCode, Bool.and_eq_true, List.all_eq_true] at hcode
      have hupper := hcode.2 c hc
      constructor
      · rintro rfl
        exact absurd hupper (by decide)
      · rintro rfl
        exact absurd hupper (by decide)
    · exact htext hbare
  intro c hc
  rcases mem_trim hc with hblank | hc
  · exact isNoParenthesis_of_isBlank hblank
  · exact htoken c hc

/-- An argument list without parentheses in its texts closes what it opens. -/
theorem nests_of_parseAll {body : List Char} {args : List Argument}
    (h : parseAll body = .ok args) (hargs : ∀ a ∈ args, ¬ a.HoldsParenthesis) :
    Nests 1 body := by
  refine nests_of_noParenthesis (fun c hc => ?_) 1
  rcases parseAll_eq_ok h with ⟨hbody, -⟩ | ⟨parts, hparts, hread⟩
  · exact isNoParenthesis_of_isBlank (hbody c hc)
  · rcases Scan.mem_of_splitFrom hparts c hc with rfl | ⟨part, hpart, hmem⟩
    · exact ⟨by decide, by decide⟩
    · obtain ⟨a, ha, hparse⟩ := exists_mem_of_forall₂ (List.Forall₂.flip hread) hpart
      exact isNoParenthesis_of_parse hparse (hargs a ha) c hmem

end Argument

/-! ## Instruction strings -/

/-- The argument lists of an instruction string as they are written. -/
def argumentLists (cs : List Char) : List (List Char) :=
  (statedParts ((splitOutsideQuotes ';' cs).getD [])).filterMap fun part =>
    (Call.shape? part).map (·.2)

theorem balanced_of_blanks {cs : List Char} (h : Blanks cs) : Balanced cs :=
  nests_of_noParenthesis (fun c hc => isNoParenthesis_of_isBlank (h c hc)) 0

/-- A text is balanced just when all its parts are. -/
theorem balanced_iff_parts {separator : Char} {cs : List Char} {parts : List (List Char)}
    (h : splitOutsideQuotes separator cs = some parts) :
    Balanced cs ↔ ∀ part ∈ parts, Balanced part := by
  have hscan (cs : List Char) : Balanced cs ↔ Scan.start.EndsAt 0 cs := nests_iff_endsAt
  obtain ⟨first, rest, rfl, hsplit⟩ := Scan.exists_parts_of_splitFrom h
  rw [hscan, hsplit, List.forall_mem_cons, hscan first]
  exact and_congr_right fun _ => forall₂_congr fun part _ => (hscan part).symm

/-- The parts that are read as calls hold their argument lists, and are balanced just when these
close what they open. -/
theorem argumentLists_of_parts {rule : Option String} {parts : List (List Char)} {calls : List Call}
    (h : List.Forall₂ (fun part call => Call.parse (String.ofList part) rule = .ok call) parts
      calls) :
    List.Forall₂ (fun body (call : Call) => Argument.parseAll body = .ok call.args)
        (parts.filterMap fun part => (Call.shape? part).map (·.2)) calls ∧
      ((∀ part ∈ parts, Balanced part) ↔
        ∀ body ∈ parts.filterMap fun part => (Call.shape? part).map (·.2), Nests 1 body) := by
  induction h with
  | nil => exact ⟨.nil, by simp⟩
  | cons hpart _ ih =>
    obtain ⟨letters, body, hshape, hread⟩ := Call.isRead_of_parse hpart
    rw [String.toList_ofList] at hshape
    obtain ⟨hlists, hiff⟩ := ih
    rw [List.filterMap_cons_some (by rw [hshape]; rfl)]
    refine ⟨.cons hread.args hlists, ?_⟩
    rw [List.forall_mem_cons, List.forall_mem_cons, hiff,
      Call.balanced_iff_nests hshape hread.args]

/-- An instruction string that is accepted is balanced just when each of its argument lists closes
what it opens; and it is when no literal text of its calls holds a parenthesis. So an unbalanced
text that is accepted leaves its parenthesis in a literal text. -/
theorem parseInstructions_balanced_iff {text : String} {rule : Option String} {calls : List Call}
    (h : parseInstructions text rule = .ok calls) :
    List.Forall₂ (fun body (call : Call) => Argument.parseAll body = .ok call.args)
        (argumentLists text.toList) calls ∧
      (Balanced text.toList ↔ ∀ body ∈ argumentLists text.toList, Nests 1 body) ∧
      ((∀ call ∈ calls, ∀ a ∈ call.args, ¬ a.HoldsParenthesis) → Balanced text.toList) := by
  obtain ⟨parts, hparts, hcalls⟩ := exists_parts_of_parseInstructions h
  have hlists : argumentLists text.toList =
      (statedParts parts).filterMap fun part => (Call.shape? part).map (·.2) := by
    rw [argumentLists, hparts, Option.getD_some]
  obtain ⟨hread, hstated⟩ := argumentLists_of_parts hcalls
  rw [hlists]
  have hiff : Balanced text.toList ↔
      ∀ body ∈ (statedParts parts).filterMap fun part => (Call.shape? part).map (·.2),
        Nests 1 body := by
    rw [← hstated, balanced_iff_parts hparts]
    constructor
    · exact fun h part hpart => h part (List.mem_filter.1 hpart).1
    · -- Blank parts are balanced, so the parts that are read decide.
      intro h part hpart
      by_cases hblank : part.all Text.isBlank = true
      · exact balanced_of_blanks (List.all_eq_true.1 hblank)
      · exact h part (List.mem_filter.2 ⟨hpart, by simpa using hblank⟩)
  refine ⟨hread, hiff, fun hargs => hiff.2 fun body hbody => ?_⟩
  obtain ⟨call, hcall, hbody⟩ := exists_mem_of_forall₂ (List.Forall₂.flip hread) hbody
  exact Argument.nests_of_parseAll hbody (hargs call hcall)

/-! ## Stray parentheses -/

/-- A call with a parenthesis too many, and a further call. -/
def strayText : String := "SY(BOYLAT13));SY(BOYLAT14)"

set_option maxRecDepth 10000 in
/-- The text is accepted, though it is not balanced, and its second call has become part of the name
of the symbol that the first one draws. -/
theorem parseInstructions_stray :
    parseInstructions strayText (some "r") = .ok [⟨.sy, [.text "BOYLAT13));SY(BOYLAT14"]⟩] ∧
      ¬ Balanced strayText.toList := by
  refine ⟨by with_unfolding_all rfl, fun h => ?_⟩
  exact absurd h.even (by decide)

/-- Parentheses in a quoted string and around a name in an argument are balanced, and read. -/
def nestedText : String := "SY('a(b');TX(OBJNAM,f(x))"

set_option maxRecDepth 10000 in
theorem parseInstructions_balanced_nested :
    parseInstructions nestedText none =
        .ok [⟨.sy, [.text "a(b"]⟩, ⟨.tx, [.attribute "OBJNAM", .text "f(x)"]⟩] ∧
      (Balanced nestedText.toList ↔ ∀ body ∈ argumentLists nestedText.toList, Nests 1 body) := by
  have hread : parseInstructions nestedText none =
      .ok [⟨.sy, [.text "a(b"]⟩, ⟨.tx, [.attribute "OBJNAM", .text "f(x)"]⟩] := by
    with_unfolding_all rfl
  exact ⟨hread, (parseInstructions_balanced_iff hread).2.1⟩

end ChartStyle
