import ChartStyle.Proofs.NumeralReading
import ChartStyle.Proofs.Trimming
import ChartStyle.Text.Upper
import Mathlib.Data.List.Basic

/-!
# Text in upper case

No character of an upper-case form has a form other than itself, and none is blank unless it stands
for itself (`upperChar_of_mem`). That is read off the tables: the code points that are reached are
others than those that are left and those of blanks (`leftCodes_disjoint`). So a text that was
trimmed and brought into upper case stays as it is when that is done again
(`upper_trimmed_of_upper_trimmed`).
-/

set_option autoImplicit false

namespace ChartStyle.Text

/-! ## Code points of the tables -/

/-- The code points from a first to a last one, in steps. -/
def codesOf (first last step : Nat) : List Nat :=
  List.range' first ((last - first) / step + 1) step

/-- The characters that have an upper-case form other than themselves. -/
def leftCodes : List Nat :=
  codesOf 0x61 0x7a 1
    ++ (upperRuns.flatMap (fun (first, last, step, _) => codesOf first last step)
      ++ upperExpansions.map (·.1))

/-- The characters of those forms. -/
def reachedCodes : List Nat :=
  codesOf 0x41 0x5a 1
    ++ (upperRuns.flatMap (fun (first, last, step, move) =>
        (codesOf first last step).map fun n : Nat => (n + move).toNat)
      ++ upperExpansions.flatMap (·.2))

/-- The blanks. -/
def blankCodes : List Nat :=
  codesOf 9 13 1 ++ codesOf 0x1c 0x20 1 ++ codesOf 0x2000 0x200a 1
    ++ [0x85, 0xa0, 0x1680, 0x2028, 0x2029, 0x202f, 0x205f, 0x3000]

/-- A set of code points as the number with their bits. -/
def mask (codes : List Nat) : Nat := codes.foldl (fun bits n => bits ||| 1 <<< n) 0

theorem testBit_mask (codes : List Nat) (n : Nat) : (mask codes).testBit n = decide (n ∈ codes) := by
  have key : ∀ (codes : List Nat) (bits : Nat),
      (codes.foldl (fun bits n => bits ||| 1 <<< n) bits).testBit n =
        (bits.testBit n || decide (n ∈ codes)) := by
    intro codes
    induction codes with
    | nil => simp
    | cons code codes ih =>
      intro bits
      rw [List.foldl_cons, ih, Nat.testBit_or, Nat.one_shiftLeft, Nat.testBit_two_pow]
      simp only [List.mem_cons, Bool.decide_or, Bool.or_assoc, eq_comm]
  rw [mask, key, Nat.zero_testBit, Bool.false_or]

-- One operation on the masks decides this; a search of the one list for each code point of the other
-- would go through millions of pairs.
set_option maxRecDepth 10000 in
theorem masks_disjoint : mask (leftCodes ++ blankCodes) &&& mask reachedCodes = 0 := by
  decide +kernel

theorem leftCodes_disjoint {n : Nat} (h : n ∈ reachedCodes) : n ∉ leftCodes ∧ n ∉ blankCodes := by
  have hbit : (mask (leftCodes ++ blankCodes) &&& mask reachedCodes).testBit n = false := by
    rw [masks_disjoint, Nat.zero_testBit]
  rw [Nat.testBit_and, testBit_mask, testBit_mask, decide_eq_true h, Bool.and_true,
    decide_eq_false_iff_not, List.mem_append, not_or] at hbit
  exact hbit

set_option maxRecDepth 10000 in
/-- The code points that are reached are those of characters. -/
theorem reachedCodes_valid : ∀ n ∈ reachedCodes, n.isValidChar := by decide +kernel

theorem mem_codesOf {first last step n : Nat} (hfirst : first ≤ n) (hlast : n ≤ last)
    (hstep : (n - first) % step = 0) : n ∈ codesOf first last step := by
  refine List.mem_range'.2 ⟨(n - first) / step, ?_, ?_⟩
  · exact Nat.lt_succ_of_le (Nat.div_le_div_right (Nat.sub_le_sub_right hlast first))
  · have hdiv := Nat.div_add_mod (n - first) step
    omega

theorem mem_codesOf_one_iff {first last n : Nat} (h : first ≤ last) :
    n ∈ codesOf first last 1 ↔ first ≤ n ∧ n ≤ last := by
  rw [codesOf, Nat.div_one, List.mem_range'_1]
  omega

theorem mem_blankCodes {c : Char} (h : isBlank c = true) : c.toNat ∈ blankCodes := by
  simp (disch := decide) only [isBlank, blankCodes, List.mem_append, List.mem_cons,
    List.not_mem_nil, or_false, mem_codesOf_one_iff, Bool.or_eq_true, decide_eq_true_eq,
    beq_iff_eq] at h ⊢
  omega

/-! ## Upper-case forms -/

/-- In ASCII the small letters have capitals, and all other characters stand for themselves. -/
theorem toUpper_ascii {c : Char} (hc : c.toNat < 0x80) :
    (c.isLower = false ∧ c.toUpper = c) ∨ (c.isLower = true ∧ c.toUpper.isUpper = true) := by
  have hascii : ∀ n < 0x80,
      ((Char.ofNat n).isLower = false ∧ (Char.ofNat n).toUpper = Char.ofNat n) ∨
        ((Char.ofNat n).isLower = true ∧ (Char.ofNat n).toUpper.isUpper = true) := by
    decide +kernel
  exact forall_ascii (P := fun c => (c.isLower = false ∧ c.toUpper = c) ∨
    (c.isLower = true ∧ c.toUpper.isUpper = true)) hascii hc

/-- A character that no table has a form for stands for itself. -/
theorem upperChar_of_notMem {c : Char} (h : c.toNat ∉ leftCodes) : upperChar c = [c] := by
  simp only [leftCodes, List.mem_append, not_or] at h
  obtain ⟨hascii, hruns, hexpansions⟩ := h
  unfold upperChar
  split
  · next hc =>
    rcases toUpper_ascii hc with ⟨-, hself⟩ | ⟨hlower, -⟩
    · rw [hself]
    · rw [isLower_iff] at hlower
      exact absurd (mem_codesOf hlower.1 hlower.2 (Nat.mod_one _)) hascii
  · have hexpansion : upperExpansions.find? (·.1 == c.toNat) = none := by
      rw [List.find?_eq_none]
      intro row hrow hcode
      exact hexpansions (List.mem_map.2 ⟨row, hrow, eq_of_beq hcode⟩)
    have hrun : (upperRuns.find? fun (first, last, step, _) =>
        decide (first ≤ c.toNat ∧ c.toNat ≤ last ∧ (c.toNat - first) % step = 0)) = none := by
      rw [List.find?_eq_none]
      rintro ⟨first, last, step, move⟩ hrow hcode
      obtain ⟨hfirst, hlast, hstep⟩ := of_decide_eq_true hcode
      exact hruns (List.mem_flatMap.2 ⟨_, hrow, mem_codesOf hfirst hlast hstep⟩)
    rw [hexpansion, hrun]

theorem toNat_ofNat_of_reached {n : Nat} (h : n ∈ reachedCodes) :
    (Char.ofNat n).toNat ∈ reachedCodes := by
  have hvalid : (Char.ofNat n).toNat = n := by
    rw [Char.ofNat, dif_pos (reachedCodes_valid n h)]
    rfl
  rw [hvalid]
  exact h

/-- A character stands for itself, or it has a form of characters that are reached. -/
theorem upperChar_cases (c : Char) :
    upperChar c = [c] ∨ ∀ u ∈ upperChar c, u.toNat ∈ reachedCodes := by
  unfold upperChar
  split
  · next hc =>
    rcases toUpper_ascii hc with ⟨-, hself⟩ | ⟨-, hupper⟩
    · exact .inl (congrArg (fun u => [u]) hself)
    · refine .inr fun u hu => ?_
      obtain rfl := List.mem_singleton.1 hu
      rw [isUpper_iff] at hupper
      exact List.mem_append_left _ (mem_codesOf hupper.1 hupper.2 (Nat.mod_one _))
  · split
    · next code codes hfind =>
      refine .inr fun u hu => ?_
      obtain ⟨n, hn, rfl⟩ := List.mem_map.1 hu
      refine toNat_ofNat_of_reached (List.mem_append_right _ (List.mem_append_right _ ?_))
      exact List.mem_flatMap.2 ⟨_, List.mem_of_find?_eq_some hfind, hn⟩
    · split
      · next first last step move hfind =>
        refine .inr fun u hu => ?_
        obtain rfl := List.mem_singleton.1 hu
        have hrow := List.find?_some hfind
        obtain ⟨hfirst, hlast, hstep⟩ := of_decide_eq_true hrow
        refine toNat_ofNat_of_reached (List.mem_append_right _ (List.mem_append_left _ ?_))
        refine List.mem_flatMap.2 ⟨_, List.mem_of_find?_eq_some hfind, ?_⟩
        exact List.mem_map.2 ⟨c.toNat, mem_codesOf hfirst hlast hstep, rfl⟩
      · exact .inl rfl

/-- A character of an upper-case form stands for itself, and it is blank only where the form is the
blank itself. -/
theorem upperChar_of_mem {c u : Char} (hu : u ∈ upperChar c) :
    upperChar u = [u] ∧ (isBlank u = true → u = c) := by
  rcases upperChar_cases c with hself | hreached
  · rw [hself] at hu
    obtain rfl := List.mem_singleton.1 hu
    exact ⟨hself, fun _ => rfl⟩
  · obtain ⟨hleft, hblank⟩ := leftCodes_disjoint (hreached u hu)
    exact ⟨upperChar_of_notMem hleft, fun h => absurd (mem_blankCodes h) hblank⟩

theorem upperChar_ne_nil (c : Char) : upperChar c ≠ [] := by
  have hexpansions : ∀ row ∈ upperExpansions, row.2 ≠ [] := by decide +kernel
  unfold upperChar
  split
  · exact List.cons_ne_nil _ _
  · split
    · next code codes hfind =>
      exact mt List.map_eq_nil_iff.1 (hexpansions _ (List.mem_of_find?_eq_some hfind))
    · split <;> exact List.cons_ne_nil _ _

theorem toList_upper (s : String) : (upper s).toList = s.toList.flatMap upperChar :=
  String.toList_ofList

/-- Upper case is upper case already. -/
theorem upper_upper (s : String) : upper (upper s) = upper s := by
  have hform (c : Char) : (upperChar c).flatMap upperChar = upperChar c := by
    rw [List.flatMap_congr fun u hu => (upperChar_of_mem hu).1, List.flatMap_singleton']
  rw [upper, toList_upper, List.flatMap_assoc, List.flatMap_congr fun c _ => hform c]
  rfl

/-- What starts and ends with characters that are not blank does so in upper case. -/
theorem tight_flatMap_upperChar {cs : List Char} (h : Tight cs) : Tight (cs.flatMap upperChar) := by
  have hform {c u : Char} (hc : isBlank c = false) (hu : u ∈ upperChar c) : isBlank u = false := by
    cases hblank : isBlank u with
    | false => rfl
    | true =>
      rw [← (upperChar_of_mem hu).2 hblank, hblank] at hc
      cases hc
  refine ⟨?_, fun u hu => ?_, fun u hu => ?_⟩
  · obtain ⟨c, hc⟩ := List.exists_mem_of_ne_nil cs h.ne_nil
    exact fun hnil => upperChar_ne_nil c (List.flatMap_eq_nil_iff.1 hnil c hc)
  · obtain ⟨c, rest, rfl⟩ := List.exists_cons_of_ne_nil h.ne_nil
    rw [List.flatMap_cons, List.head?_append_of_ne_nil _ (upperChar_ne_nil c)] at hu
    exact hform (h.head c rfl) (List.mem_of_mem_head? hu)
  · obtain ⟨before, c, rfl⟩ := (List.eq_nil_or_concat cs).resolve_left h.ne_nil
    rw [List.concat_eq_append, List.flatMap_append, List.flatMap_singleton,
      List.getLast?_append_of_ne_nil _ (upperChar_ne_nil c)] at hu
    exact hform (h.last c (by simp)) (List.mem_of_getLast? hu)

theorem trimmed_upper {s : String} (h : Trimmed s.toList) : trimmed (upper s) = upper s := by
  have hupper : Trimmed (upper s).toList := by
    rw [toList_upper]
    rcases h with hnil | htight
    · rw [hnil]
      exact .inl rfl
    · exact .inr (tight_flatMap_upperChar htight)
  rw [trimmed, hupper.trim_eq, String.ofList_toList]

/-- A text that was trimmed and brought into upper case is left as it is. -/
theorem upper_trimmed_of_upper_trimmed (s : String) :
    upper (trimmed (upper (trimmed s))) = upper (trimmed s) := by
  rw [trimmed_upper (trimmed_trimmed s), upper_upper]

end ChartStyle.Text
