import ChartStyle.Proofs.LightDescriptions

/-!
# The flare of a light in the renderer

The renderer picks the flare of a light by the text of its colours up to the first comma. The colours
reach it as a number, as a row of numerals or as an array text (`IsColours`), so that this text is the
numeral of the first colour alone, or behind the bracket of an array, or in the brackets of an array
of one. These are the labels of that colour and of no other (`mem_colourTexts_iff`), and an empty list
has none of them. So the renderer picks the symbol for the first of the colours
(`flareChoice_picks`).
-/

set_option autoImplicit false

namespace ChartStyle

/-! ## Colours of a tile -/

/-- The numerals of colour codes between commas. -/
def colourRow (colours : List Int) : String := ",".intercalate (colours.map toString)

/-- The forms in which a list of colours reaches the renderer. -/
inductive IsColours : List Int → Option Value → Prop where
  /-- No colour, no attribute. -/
  | absent : IsColours [] none
  /-- One colour as a number. -/
  | number (n : Int) : IsColours [n] (some (.int n))
  /-- A row of numerals; of one colour it is the numeral. -/
  | row (colours : List Int) : IsColours colours (some (.text (colourRow colours)))
  /-- An array text without blanks; of no colour it is `[]`. -/
  | array (colours : List Int) :
      IsColours colours (some (.text ("[" ++ colourRow colours ++ "]")))

/-! ## Up to the first comma -/

/-- The characters before the first comma. -/
def beforeComma (cs : List Char) : List Char := cs.takeWhile (· != ',')

theorem beforeComma_append {cs : List Char} (h : ',' ∉ cs) (rest : List Char) :
    beforeComma (cs ++ rest) = cs ++ beforeComma rest := by
  apply List.takeWhile_append_of_pos
  intro c hc
  rw [bne_iff_ne]
  rintro rfl
  exact h hc

namespace Renderer

/-- In a text that ends with a comma, the first comma stands behind the characters before it. -/
theorem positionOf_comma (cs : List Char) :
    positionOf [','] (cs ++ [',']) = (beforeComma cs).length := by
  induction cs with
  | nil => rfl
  | cons c cs ih =>
    rw [List.cons_append, positionOf, ih]
    by_cases hc : c = ','
    · subst hc
      rfl
    · have hno : [','].isPrefixOf (c :: (cs ++ [','])) = false := by
        simp [List.isPrefixOf, Ne.symm hc]
      have hnonneg : ¬ ((beforeComma cs).length : Int) < 0 := by omega
      have hcons : beforeComma (c :: cs) = c :: beforeComma cs := by simp [beforeComma, hc]
      rw [hno, if_neg Bool.false_ne_true, hcons]
      simp only [if_neg hnonneg]
      rfl

theorem cut_beforeComma (cs : List Char) :
    cut (cs ++ [',']) 0 (beforeComma cs).length = beforeComma cs := by
  have hsplit : cs ++ [','] = beforeComma cs ++ (cs.dropWhile (· != ',') ++ [',']) := by
    rw [← List.append_assoc]
    exact congrArg (· ++ [',']) List.takeWhile_append_dropWhile.symm
  have htake : (cs ++ [',']).take (beforeComma cs).length = beforeComma cs := by
    rw [hsplit]
    exact List.take_left
  have hnonneg : ¬ ((beforeComma cs).length : Int) < 0 := by omega
  simp only [cut, Int.lt_irrefl, if_false, if_neg hnonneg, Int.toNat_natCast, Int.toNat_zero,
    List.drop_zero, htake]

/-- The selector is the text of the colours up to the first comma. -/
theorem eval_firstColourExpr (r : Renderer) (f : TileFeature) :
    r.eval f firstColourExpr = some (.text (String.ofList
      (beforeComma (r.text ((f.find? "COLOUR").getD .null)).toList))) := by
  have hcomma : r.eval f (.text ",") = some (.text ",") := by
    show r.eval f (.value (.text ",")) = _
    rw [eval]
  have hnil : r.evalTexts f [] = some "" := by rw [evalTexts]
  have hlist : r.eval f (.concat [.toText (.get "COLOUR"), .text ","]) =
      some (.text (r.text ((f.find? "COLOUR").getD .null) ++ ",")) :=
    eval_concat (evalTexts_cons (r.eval_toText_get f "COLOUR") (evalTexts_cons hcomma hnil))
  generalize r.text ((f.find? "COLOUR").getD .null) = s at hlist
  have hchars : (s ++ ",").toList = s.toList ++ [','] := String.toList_append
  have hindex : r.eval f (.indexOf (.text ",")
      (.concat [.toText (.get "COLOUR"), .text ","])) =
        some (.int (beforeComma s.toList).length) := by
    rw [eval, hcomma, hlist]
    show some (Value.int (positionOf [','] (s ++ ",").toList)) = _
    rw [hchars, positionOf_comma]
  have hstart : r.eval f (.value (.int 0)) = some (.int 0) := by rw [eval]
  rw [firstColourExpr, eval, hlist, hindex, hstart]
  show some (Value.text (String.ofList
    (cut (s ++ ",").toList 0 (beforeComma s.toList).length))) = _
  rw [hchars, cut_beforeComma]

end Renderer

/-! ## Labels -/

/-- The labels of a colour code as texts. -/
def colourTexts (code : Int) : List String :=
  [toString code, "[" ++ toString code, "[" ++ toString code ++ "]"]

theorem colourLabels_eq (code : Int) : colourLabels code = (colourTexts code).map Value.text := rfl

/-- The characters of a text without its brackets. -/
def unbracketed (text : String) : List Char := text.toList.filter fun c => c != '[' && c != ']'

theorem unbracketed_toString (n : Int) : unbracketed (toString n) = (toString n).toList := by
  rw [unbracketed, List.filter_eq_self]
  intro c hc
  -- A numeral has a sign and digits only.
  rcases mem_toString hc with rfl | hdigit
  · rfl
  · rw [Bool.and_eq_true, bne_iff_ne, bne_iff_ne]
    constructor
    · rintro rfl
      exact absurd hdigit (by decide)
    · rintro rfl
      exact absurd hdigit (by decide)

/-- Each label of a code is its numeral, but for brackets. -/
theorem unbracketed_of_mem {code : Int} {text : String} (h : text ∈ colourTexts code) :
    unbracketed text = (toString code).toList := by
  have happend (s t : String) : unbracketed (s ++ t) = unbracketed s ++ unbracketed t := by
    rw [unbracketed, String.toList_append, List.filter_append]
    rfl
  have hopen : unbracketed "[" = [] := rfl
  have hclose : unbracketed "]" = [] := rfl
  simp only [colourTexts, List.mem_cons, List.not_mem_nil, or_false] at h
  rcases h with rfl | rfl | rfl
  · exact unbracketed_toString code
  · rw [happend, hopen, unbracketed_toString, List.nil_append]
  · rw [happend, happend, hopen, hclose, unbracketed_toString, List.nil_append, List.append_nil]

/-- A label of one code is a label of no other. -/
theorem mem_colourTexts_iff {n code : Int} {text : String} (h : text ∈ colourTexts n) :
    text ∈ colourTexts code ↔ n = code := by
  constructor
  · intro hcode
    have heq := (unbracketed_of_mem h).symm.trans (unbracketed_of_mem hcode)
    exact toString_inj.1 (String.toList_injective heq)
  · rintro rfl
    exact h

/-- What the renderer compares with the labels: a label of the first colour, or of none. -/
def IsFirst (colours : List Int) (text : String) : Prop :=
  match colours with
  | [] => unbracketed text = []
  | n :: _ => text ∈ colourTexts n

theorem IsFirst.mem_iff {colours : List Int} {text : String} (h : IsFirst colours text)
    (code : Int) : text ∈ colourTexts code ↔ colours.head? = some code := by
  cases colours with
  | nil =>
    refine iff_of_false ?_ nofun
    intro hcode
    have hempty : (toString code).toList = [] := (unbracketed_of_mem hcode).symm.trans h
    exact toList_toString_ne_nil code hempty
  | cons n colours =>
    rw [mem_colourTexts_iff h]
    exact Option.some_inj.symm

theorem isAmong_labels_iff (text : String) (codes : List Int) :
    (Value.text text).isAmong (.list (codes.flatMap colourLabels)) = true ↔
      ∃ code ∈ codes, text ∈ colourTexts code := by
  simp only [Value.isAmong, List.any_flatMap, List.any_eq_true, colourLabels_eq, List.mem_map]
  refine exists_congr fun code => and_congr_right fun _ => ?_
  constructor
  · rintro ⟨_, ⟨label, hlabel, rfl⟩, heq⟩
    have heq' : text = label := eq_of_beq heq
    rwa [heq']
  · intro htext
    exact ⟨_, ⟨text, htext, rfl⟩, beq_self_eq_true text⟩

/-! ## The first colour -/

theorem comma_notMem_toString (n : Int) : ',' ∉ (toString n).toList := by
  intro h
  rcases mem_toString h with h | h
  · exact absurd h (by decide)
  · exact absurd h (by decide)

/-- A row is the numeral of its first colour, with a comma behind it unless it is the only one. -/
theorem colourRow_cons (n : Int) (colours : List Int) :
    (colourRow (n :: colours)).toList = (toString n).toList ∨
      ∃ rest, (colourRow (n :: colours)).toList = (toString n).toList ++ ',' :: rest := by
  cases colours with
  | nil =>
    left
    rw [colourRow, List.map_singleton, String.intercalate_singleton]
  | cons m colours =>
    right
    refine ⟨(colourRow (m :: colours)).toList, ?_⟩
    rw [colourRow, List.map_cons, List.map_cons, String.intercalate_cons_cons,
      String.toList_append, String.toList_append, List.append_assoc]
    rfl

theorem beforeComma_eq_self {cs : List Char} (h : ',' ∉ cs) : beforeComma cs = cs := by
  have happend := beforeComma_append h []
  rw [List.append_nil] at happend
  exact happend.trans (List.append_nil cs)

theorem beforeComma_append_comma {cs : List Char} (h : ',' ∉ cs) (rest : List Char) :
    beforeComma (cs ++ ',' :: rest) = cs :=
  (beforeComma_append h _).trans (List.append_nil cs)

theorem isFirst_toString (n : Int) (colours : List Int) :
    IsFirst (n :: colours) (String.ofList (beforeComma (toString n).toList)) := by
  rw [beforeComma_eq_self (comma_notMem_toString n), String.ofList_toList]
  exact List.mem_cons_self

theorem isFirst_colourRow (colours : List Int) :
    IsFirst colours (String.ofList (beforeComma (colourRow colours).toList)) := by
  cases colours with
  | nil => rfl
  | cons n colours =>
    rcases colourRow_cons n colours with hrow | ⟨rest, hrow⟩
    · rw [hrow]
      exact isFirst_toString n colours
    · rw [hrow, beforeComma_append_comma (comma_notMem_toString n), String.ofList_toList]
      exact List.mem_cons_self

theorem isFirst_bracketed (colours : List Int) :
    IsFirst colours (String.ofList (beforeComma ("[" ++ colourRow colours ++ "]").toList)) := by
  rw [String.toList_append, String.toList_append]
  cases colours with
  | nil => rfl
  | cons n colours =>
    have hopen : ',' ∉ ("[" ++ toString n).toList := by
      rw [String.toList_append, List.mem_append, not_or]
      exact ⟨by decide, comma_notMem_toString n⟩
    have hclosed : ',' ∉ ("[" ++ toString n ++ "]").toList := by
      rw [String.toList_append, List.mem_append, not_or]
      exact ⟨hopen, by decide⟩
    -- The closing bracket comes before the first comma only when there is no second colour.
    rcases colourRow_cons n colours with hrow | ⟨rest, hrow⟩
    · rw [hrow, ← String.toList_append, ← String.toList_append, beforeComma_eq_self hclosed,
        String.ofList_toList]
      exact List.mem_cons_of_mem _ (List.mem_cons_of_mem _ List.mem_cons_self)
    · rw [hrow, ← List.append_assoc, ← String.toList_append, List.append_assoc, List.cons_append,
        beforeComma_append_comma hopen, String.ofList_toList]
      exact List.mem_cons_of_mem _ List.mem_cons_self

/-- In every form, what stands before the first comma is a label of the first colour. -/
theorem IsColours.isFirst {r : Renderer} (htext : ∀ n : Int, r.text (.int n) = toString n)
    {colours : List Int} {v : Option Value} (h : IsColours colours v) :
    IsFirst colours (String.ofList (beforeComma (r.text (v.getD .null)).toList)) := by
  cases h with
  | absent =>
    rw [Option.getD_none, r.text_null]
    rfl
  | number n =>
    rw [Option.getD_some, htext]
    exact isFirst_toString n []
  | row =>
    rw [Option.getD_some, r.text_text]
    exact isFirst_colourRow colours
  | array =>
    rw [Option.getD_some, r.text_text]
    exact isFirst_bracketed colours

/-! ## The symbol -/

/-- The renderer picks from a table the first symbol that has the first colour among its own. -/
theorem evalPick_symbols {r : Renderer} {f : TileFeature} {colours : List Int} {text : String}
    (h : IsFirst colours text) (default : String) (table : List (List Int × String)) :
    r.evalPick f (.text text) (some (.text default)) (table.map fun (codes, symbol) =>
        (.list (codes.flatMap colourLabels), .value (.text symbol))) =
      some (.text (((table.find? fun (codes, _) => colours.head?.any codes.contains).map
        (·.2)).getD default)) := by
  induction table with
  | nil =>
    rw [List.map_nil, Renderer.evalPick]
    rfl
  | cons entry table ih =>
    obtain ⟨codes, symbol⟩ := entry
    have hlabel : (Value.text text).isAmong (.list (codes.flatMap colourLabels)) =
        colours.head?.any codes.contains := by
      rw [Bool.eq_iff_iff, isAmong_labels_iff]
      simp only [h.mem_iff]
      cases colours.head? with
      | none => simp
      | some n => simp
    rw [List.map_cons, Renderer.evalPick, ih, hlabel]
    simp only [List.find?_cons]
    cases colours.head?.any codes.contains with
    | true =>
      rw [if_pos rfl, Renderer.eval]
      rfl
    | false => rfl

theorem flareSymbol_eq (colours : List Int) :
    ((flareSymbols.find? fun (codes, _) => colours.head?.any codes.contains).map (·.2)).getD
      defaultFlare = flareSymbol colours := by
  cases colours with
  | nil => rfl
  | cons n colours =>
    show ((flareSymbols.find? fun (codes, _) => codes.contains n).map (·.2)).getD _ = _
    rw [flareSymbol]
    cases flareSymbols.find? fun (codes, _) => codes.contains n with
    | none => rfl
    | some entry => rfl

/-- In whatever form the colours of a light reach the renderer, it picks the symbol for the first of
them. -/
theorem flareChoice_picks (r : Renderer) (htext : ∀ n : Int, r.text (.int n) = toString n)
    (f : TileFeature) {colours : List Int} (h : IsColours colours (f.find? "COLOUR")) :
    r.pick f flareChoice = some (.text (flareSymbol colours)) := by
  have hexpression : flareChoice.expression (fun option => .ok (.value option)) =
      .ok (.pick firstColourExpr (flareSymbols.map fun (codes, symbol) =>
        (.list (codes.flatMap colourLabels), .value (.text symbol)))
          (.value (.text defaultFlare))) := rfl
  have hfirst := h.isFirst htext
  rw [Renderer.pick, hexpression]
  show r.eval f (.pick _ _ _) = _
  rw [Renderer.eval, r.eval_firstColourExpr]
  show r.evalPick f (.text _) (r.eval f (.value _)) _ = _
  rw [Renderer.eval, evalPick_symbols hfirst, flareSymbol_eq]

/-- A light whose first colour is orange, with an array text for its colours. -/
def orangeLight : TileFeature := ⟨.null, "Point", [("COLOUR", .text "[11,3]")]⟩

/-- Orange is not mistaken for white, although its numeral starts with that of white. -/
theorem flareChoice_picks_orangeLight :
    IsColours [11, 3] (orangeLight.find? "COLOUR") ∧
      Renderer.standard.pick orangeLight flareChoice = some (.text "LIGHTS13") := by
  have hcolours : IsColours [11, 3] (orangeLight.find? "COLOUR") := .array [11, 3]
  exact ⟨hcolours, flareChoice_picks .standard (fun _ => rfl) orangeLight hcolours⟩

end ChartStyle
