import ChartStyle.Proofs.LostSymbols
import ChartStyle.Proofs.StepChoice
import ChartStyle.Proofs.SymbolLookups

/-!
# Picked symbols

Where the renderer picks a symbol feature by feature, the image and the offset are two expressions.
Both evaluate as what the one option that is picked is converted to (`Renderer.eval_expression`), so
the offset is always that of the image: its own, or none where the image is the empty one
(`drawSymbol_picked`).
-/

set_option autoImplicit false

namespace ChartStyle

theorem forall₂_of_common {α β γ : Type} {R : α → β → Prop} {S : α → γ → Prop} {T : β → γ → Prop}
    {as : List α} {bs : List β} {cs : List γ} (h : ∀ a ∈ as, ∀ b c, R a b → S a c → T b c)
    (hbs : List.Forall₂ R as bs) (hcs : List.Forall₂ S as cs) : List.Forall₂ T bs cs := by
  induction hbs generalizing cs with
  | nil =>
    cases hcs
    exact .nil
  | cons hab _ ih =>
    obtain ⟨hhead, hrest⟩ := List.forall_mem_cons.1 h
    cases hcs with
    | cons hac hcs => exact .cons (hhead _ _ hab hac) (ih hrest hcs)

/-! ## Evaluating a choice -/

theorem Choice.IsPickable.of_expression {c : Choice} {convert : Value → Except Fault Expr} {e : Expr}
    (h : c.expression convert = .ok e) : c.IsPickable := by
  unfold IsPickable
  cases hc : c.operator with
  | step | case => exact trivial
  | pick =>
    obtain ⟨otherwise, branches, -, hbranches, -⟩ := (expression_pick_iff hc).1 h
    intro stop hstop
    obtain ⟨x, -, -, labels, hlabels, -⟩ :=
      exists_mem_of_forall₂ (convertLabels_eq_ok_iff.1 hbranches).flip hstop
    exact ⟨labels, hlabels⟩
  | unknown name => exact expression_ne_ok hc h

namespace Renderer

variable (r : Renderer) (f : TileFeature)

section

variable {R : Option Value → Option Value → Prop} {κ : Type}

/-- Two branches with the same label or condition, whose values are related. -/
def Branches (R : Option Value → Option Value → Prop) (x y : κ × Expr) : Prop :=
  x.1 = y.1 ∧ R (r.eval f x.2) (r.eval f y.2)

variable {r f} (hnone : R none none) {reached reached' : Option Value}

include hnone

theorem evalStops_related (h : R reached reached') {xs ys : List (Value × Expr)}
    (hxs : List.Forall₂ (r.Branches f R) xs ys) (n : Number) :
    R (r.evalStops f n reached xs) (r.evalStops f n reached' ys) := by
  induction hxs generalizing reached reached' with
  | nil =>
    rw [evalStops, evalStops]
    exact h
  | @cons x y xs ys hxy _ ih =>
    obtain ⟨stop, e⟩ := x
    obtain ⟨stop', e'⟩ := y
    obtain ⟨rfl, he⟩ := hxy
    rw [evalStops, evalStops]
    cases stop.measure? with
    | none => exact hnone
    | some m =>
      show R (if m.lessEq n = true then _ else _) (if m.lessEq n = true then _ else _)
      split
      · exact ih he
      · exact h

theorem evalCases_related (h : R reached reached') {xs ys : List (Expr × Expr)}
    (hxs : List.Forall₂ (r.Branches f R) xs ys) :
    R (r.evalCases f reached xs) (r.evalCases f reached' ys) := by
  induction hxs with
  | nil =>
    rw [evalCases, evalCases]
    exact h
  | @cons x y xs ys hxy _ ih =>
    obtain ⟨condition, e⟩ := x
    obtain ⟨condition', e'⟩ := y
    obtain ⟨rfl, he⟩ := hxy
    rw [evalCases, evalCases]
    cases r.eval f condition with
    | none => exact hnone
    | some verdict =>
      cases verdict with
      | bool b =>
        cases b with
        | true => exact he
        | false => exact ih
      | null | int n | real x | text s | list items | map entries | perFeature => exact hnone

omit hnone in
theorem evalPick_related (h : R reached reached') {xs ys : List (Value × Expr)}
    (hxs : List.Forall₂ (r.Branches f R) xs ys) (selector : Value) :
    R (r.evalPick f selector reached xs) (r.evalPick f selector reached' ys) := by
  induction hxs with
  | nil =>
    rw [evalPick, evalPick]
    exact h
  | @cons x y xs ys hxy _ ih =>
    obtain ⟨labels, e⟩ := x
    obtain ⟨labels', e'⟩ := y
    obtain ⟨rfl, he⟩ := hxy
    rw [evalPick, evalPick]
    split
    · exact he
    · exact ih

end

/-- What is picked and what an expression with converted options gives: neither, or an option and the
value of what it is converted to. -/
def Follows (c : Choice) (convert : Value → Except Fault Expr) (picked value : Option Value) : Prop :=
  (picked = none ∧ value = none) ∨
    ∃ option ∈ c.options, picked = some option ∧ ∃ e, convert option = .ok e ∧ value = r.eval f e

section

variable {r f} {c : Choice} {convert : Value → Except Fault Expr}

theorem follows_none : r.Follows f c convert none none := .inl ⟨rfl, rfl⟩

theorem follows_option {v : Value} (hv : v ∈ c.options) {e : Expr} (he : convert v = .ok e) :
    r.Follows f c convert (some v) (r.eval f e) :=
  .inr ⟨v, hv, rfl, e, he, rfl⟩

/-- The stops with the options as they are, and the same stops with the options converted. -/
theorem branches_of_stops {xs ys : List (Expr × Expr)}
    (hxs : Choice.convertStops (fun option => .ok (.value option)) c.stops = .ok xs)
    (hys : Choice.convertStops convert c.stops = .ok ys) :
    List.Forall₂ (r.Branches f (r.Follows f c convert)) xs ys := by
  refine forall₂_of_common ?_ (Choice.convertStops_eq_ok_iff.1 hxs)
    (Choice.convertStops_eq_ok_iff.1 hys)
  rintro stop hstop ⟨_, x⟩ ⟨_, y⟩ ⟨hx, rfl⟩ ⟨hy, rfl⟩
  cases hx
  refine ⟨rfl, ?_⟩
  rw [eval]
  exact follows_option (List.mem_cons_of_mem _ (List.mem_map_of_mem hstop)) hy

/-- The same for stops with labels. -/
theorem branches_of_labels {xs ys : List (Value × Expr)}
    (hxs : Choice.convertLabels (fun option => .ok (.value option)) c.stops = .ok xs)
    (hys : Choice.convertLabels convert c.stops = .ok ys) :
    List.Forall₂ (r.Branches f (r.Follows f c convert)) xs ys := by
  refine forall₂_of_common ?_ (Choice.convertLabels_eq_ok_iff.1 hxs)
    (Choice.convertLabels_eq_ok_iff.1 hys)
  rintro stop hstop ⟨_, x⟩ ⟨_, y⟩ ⟨hx, labels, hlabels, rfl⟩ ⟨hy, labels', hlabels', rfl⟩
  cases hx
  cases hlabels.symm.trans hlabels'
  refine ⟨rfl, ?_⟩
  rw [eval]
  exact follows_option (List.mem_cons_of_mem _ (List.mem_map_of_mem hstop)) hy

variable {plain e : Expr} (hplain : c.expression (fun option => .ok (.value option)) = .ok plain)
  (h : c.expression convert = .ok e)

include hplain h

theorem follows_of_step (hc : c.operator = .step) :
    r.Follows f c convert (r.eval f plain) (r.eval f e) := by
  obtain ⟨x, xs, hx, hxs, rfl⟩ := (Choice.expression_step_iff hc).1 hplain
  obtain ⟨y, ys, hy, hys, rfl⟩ := (Choice.expression_step_iff hc).1 h
  cases hx
  -- The thresholds of both are those of the choice as values.
  have hvalues : List.Forall₂ (r.Branches f (r.Follows f c convert))
      (xs.map fun stop => (stop.1.toValue, stop.2)) (ys.map fun stop => (stop.1.toValue, stop.2)) := by
    rw [List.forall₂_map_left_iff, List.forall₂_map_right_iff]
    exact (branches_of_stops hxs hys).imp fun x y hxy => ⟨congrArg Expr.toValue hxy.1, hxy.2⟩
  rw [eval, eval, eval]
  cases r.eval f c.selector with
  | none => exact follows_none
  | some v =>
    show r.Follows f c convert (v.measure?.bind _) (v.measure?.bind _)
    cases v.measure? with
    | none => exact follows_none
    | some n =>
      exact evalStops_related follows_none (follows_option List.mem_cons_self hy) hvalues n

theorem follows_of_case (hc : c.operator = .case) :
    r.Follows f c convert (r.eval f plain) (r.eval f e) := by
  obtain ⟨x, xs, hx, hxs, rfl⟩ := (Choice.expression_case_iff hc).1 hplain
  obtain ⟨y, ys, hy, hys, rfl⟩ := (Choice.expression_case_iff hc).1 h
  cases hx
  rw [eval, eval, eval]
  exact evalCases_related follows_none (follows_option List.mem_cons_self hy)
    (branches_of_stops hxs hys)

theorem follows_of_pick (hc : c.operator = .pick) :
    r.Follows f c convert (r.eval f plain) (r.eval f e) := by
  obtain ⟨x, xs, hx, hxs, rfl⟩ := (Choice.expression_pick_iff hc).1 hplain
  obtain ⟨y, ys, hy, hys, rfl⟩ := (Choice.expression_pick_iff hc).1 h
  cases hx
  rw [eval, eval, eval]
  cases r.eval f c.selector with
  | none => exact follows_none
  | some v =>
    exact evalPick_related (follows_option List.mem_cons_self hy) (branches_of_labels hxs hys) v

end

/-- The expression of a choice evaluates as what the picked option is converted to. -/
theorem eval_expression {c : Choice} {convert : Value → Except Fault Expr} {e : Expr}
    (h : c.expression convert = .ok e) : r.Follows f c convert (r.pick f c) (r.eval f e) := by
  -- The expression that tells the pick holds the options themselves in the same places.
  obtain ⟨plain, hplain⟩ : IsOk (c.expression fun option => .ok (.value option)) :=
    (Choice.IsPickable.of_expression h).expression_isOk fun v _ => .ok _
  rw [pick, hplain]
  dsimp only
  cases hc : c.operator with
  | step => exact follows_of_step hplain h hc
  | case => exact follows_of_case hplain h hc
  | pick => exact follows_of_pick hplain h hc
  | unknown name => exact absurd h (Choice.expression_ne_ok hc)

/-- Two expressions of one choice evaluate as what the same option is converted to. -/
theorem eval_expressions {c : Choice} {convert convert' : Value → Except Fault Expr} {e e' : Expr}
    (h : c.expression convert = .ok e) (h' : c.expression convert' = .ok e') :
    (r.pick f c = none ∧ r.eval f e = none ∧ r.eval f e' = none) ∨
      ∃ option ∈ c.options, r.pick f c = some option ∧ ∃ x x', convert option = .ok x ∧
        convert' option = .ok x' ∧ r.eval f e = r.eval f x ∧ r.eval f e' = r.eval f x' := by
  -- The pick does not depend on the conversion, so both follow the same option.
  obtain ⟨hnone, he⟩ | ⟨option, hoption, hpick, x, hx, he⟩ := r.eval_expression f h
  · obtain ⟨-, he'⟩ | ⟨_, -, hpick, -⟩ := r.eval_expression f h'
    · exact .inl ⟨hnone, he, he'⟩
    · cases hnone.symm.trans hpick
  · obtain ⟨hnone, -⟩ | ⟨option', -, hpick', x', hx', he'⟩ := r.eval_expression f h'
    · cases hpick.symm.trans hnone
    · cases hpick.symm.trans hpick'
      exact .inr ⟨option, hoption, hpick, x, x', hx, hx', he, he'⟩

end Renderer

/-! ## The icon of a choice -/

/-- The image and the offset that stand for an option: its name with the offset of its entry, or the
empty image in its place. -/
inductive Registry.Shows (r : Registry) : Value → Value → Value → Prop where
  | symbol {name : String} {entry : SymbolEntry} (hname : name ≠ "") (h : r.find? name = some entry) :
    Shows r (.text name) (.text name) (SymbolEntry.pointValue entry.offset)
  | empty {name : String} (h : name = "" ∨ r.find? name = none) :
    Shows r (.text name) (.text "") (.list [.int 0, .int 0])

section

variable {a : AttributeSet} {c : DrawingContext} {options : List Value}
  {entries : List (String × SymbolEntry)} {name : String} {entry : SymbolEntry}

theorem find?_of_registered (h : (registered c a options).outcome = .ok entries)
    (hentry : (name, entry) ∈ entries) : c.registry.find? name = some entry := by
  induction options generalizing entries with
  | nil =>
    cases h
    cases hentry
  | cons option options ih =>
    obtain ⟨-, hrest⟩ | ⟨-, -, hrest⟩ | ⟨first, rest, -, hsome, hrest, rfl⟩ := registered_cases h
    · exact ih hrest hentry
    · exact ih hrest hentry
    · rcases List.mem_cons.1 hentry with heq | hmem
      · cases option with
        | text text =>
          cases heq
          exact Except.ok.inj hsome
        | null | bool b | int n | real x | list items | map fields | perFeature => cases hsome
      · exact ih hrest hmem

/-- What the registry has for an option that is not empty is among the entries. -/
theorem mem_of_registered (h : (registered c a options).outcome = .ok entries)
    (hoption : .text name ∈ options) (hname : name ≠ "") (hfind : c.registry.find? name = some entry) :
    (name, entry) ∈ entries := by
  have hfound : c.registry.findValue? (.text name) = .ok (some entry) := congrArg Except.ok hfind
  induction options generalizing entries with
  | nil => cases hoption
  | cons option options ih =>
    obtain ⟨hblank, hrest⟩ | ⟨-, hnone, hrest⟩ | ⟨first, rest, -, hsome, hrest, rfl⟩ :=
      registered_cases h
    · rcases List.mem_cons.1 hoption with rfl | hmem
      · have hpresent : (Value.text name).isPresent = true := bne_iff_ne.2 hname
        rw [hpresent] at hblank
        cases hblank
      · exact ih hrest hmem
    · rcases List.mem_cons.1 hoption with rfl | hmem
      · cases hnone.symm.trans hfound
      · exact ih hrest hmem
    · rcases List.mem_cons.1 hoption with rfl | hmem
      · cases hsome.symm.trans hfound
        exact List.mem_cons_self
      · exact List.mem_cons_of_mem _ (ih hrest hmem)

/-- No entry is left just when no option is registered. -/
theorem registered_eq_nil_iff (h : (registered c a options).outcome = .ok entries) :
    entries = [] ↔
      ∀ name, .text name ∈ options → name ≠ "" → c.registry.find? name = none := by
  constructor
  · rintro rfl name hoption hname
    by_contra hfind
    obtain ⟨entry, hfind⟩ := Option.ne_none_iff_exists'.1 hfind
    cases mem_of_registered h hoption hname hfind
  · intro hnone
    refine List.eq_nil_iff_forall_not_mem.2 ?_
    rintro ⟨name, entry⟩ hentry
    obtain ⟨hoption, hname⟩ := option_of_registered h hentry
    cases (hnone name hoption hname).symm.trans (find?_of_registered h hentry)

/-- The image and the offset of an option are what the registry shows for it. -/
theorem shows_of_registered (h : (registered c a options).outcome = .ok entries)
    (hoption : .text name ∈ options) {image offset : Expr}
    (himage : imageOption entries (.text name) = .ok image)
    (hoffset : offsetOption entries (.text name) = .ok offset) :
    ∃ v w, image = .value v ∧ offset = .literal w ∧ c.registry.Shows (.text name) v w := by
  obtain ⟨found, hfound, himage⟩ := except_bind_eq_ok_iff.1 himage
  obtain ⟨found', hfound', hoffset⟩ := except_bind_eq_ok_iff.1 hoffset
  cases hfound.symm.trans hfound'
  cases himage
  have hlookup : entries.lookup name = found := Except.ok.inj hfound
  cases found with
  | some entry =>
    cases hoffset
    have hmem : (name, entry) ∈ entries := mem_of_lookup_eq_some hlookup
    exact ⟨_, _, rfl, rfl, .symbol (option_of_registered h hmem).2 (find?_of_registered h hmem)⟩
  | none =>
    cases hoffset
    refine ⟨_, _, rfl, rfl, .empty ?_⟩
    -- A registered name that is not empty would be among the entries.
    by_contra! hregistered
    obtain ⟨hname, hfind⟩ := hregistered
    obtain ⟨entry, hfind⟩ := Option.ne_none_iff_exists'.1 hfind
    have hsome : (entries.lookup name).isSome = true :=
      isSome_lookup_of_mem (mem_of_registered h hoption hname hfind)
    rw [hlookup] at hsome
    cases hsome

/-! ## The calls -/

variable {call : Call} {choice : Choice}

/-- A symbol that is picked among texts notes each name that the registry lacks, and no other. -/
theorem drawSymbol_missing_of_choice (hcall : call.arg 0 .null = .choice choice)
    (hoptions : IsOk (registered c a choice.options).outcome) :
    (drawSymbol call a c).missing =
      c.registry.missing (choice.options.filter Value.isPresent) a.objectClass := by
  rw [← registered_missing hoptions, drawSymbol_eq, hcall]
  refine (Report.missing_bind_eq_left fun icon => ?_).trans (Report.missing_bind_eq_left fun es => ?_)
  · cases icon with
    | none => rfl
    | some icon => exact Report.missing_bind_eq_nil (Turn.ofArgument_missing a _) fun turn => rfl
  · split
    · rfl
    · refine Report.missing_bind_eq_nil rfl fun image => ?_
      exact Report.missing_bind_eq_nil rfl fun offset => rfl

/-- All that drawing a symbol among options can come to: nothing, where none is registered, or the
fragment of the two expressions. -/
theorem drawSymbol_choice_cases (hcall : call.arg 0 .null = .choice choice) {fragments : List Fragment}
    (hentries : (registered c a choice.options).outcome = .ok entries)
    (h : (drawSymbol call a c).outcome = .ok fragments) :
    (entries = [] ∧ fragments = []) ∨
      (entries ≠ [] ∧ ∃ image offset turn,
        choice.expression (imageOption entries) = .ok image ∧
        choice.expression (offsetOption entries) = .ok offset ∧
        fragments = [symbolFragment ⟨image, offset⟩ turn (call.arg 1 (.int 0))]) := by
  rw [drawSymbol_eq, hcall] at h
  obtain ⟨icon, hicon, h⟩ := Report.outcome_bind_eq_ok_iff.1 h
  have hpicked : (pickedIcon choice a c).outcome = .ok icon := hicon
  rw [pickedIcon_eq, Report.bind_of_ok hentries] at hpicked
  cases hempty : entries.isEmpty with
  | true =>
    simp only [hempty, if_true] at hpicked
    cases hpicked
    cases h
    exact .inl ⟨List.isEmpty_iff.1 hempty, rfl⟩
  | false =>
    simp only [hempty, Bool.false_eq_true, if_false] at hpicked
    obtain ⟨image, himage, hpicked⟩ := Report.outcome_bind_eq_ok_iff.1 hpicked
    obtain ⟨offset, hoffset, hpicked⟩ := Report.outcome_bind_eq_ok_iff.1 hpicked
    cases hpicked
    obtain ⟨turn, -, h⟩ := Report.outcome_bind_eq_ok_iff.1 h
    cases h
    exact .inr ⟨List.isEmpty_eq_false_iff.1 hempty, image, offset, turn.reduce, himage, hoffset, rfl⟩

/-- A symbol that the renderer picks among texts. Every name that the registry lacks is noted, the
default first; nothing is drawn just when none is left; and whatever the renderer picks for a feature,
the image and the offset are those that the registry shows for this one option. -/
theorem drawSymbol_picked (a : AttributeSet) (c : DrawingContext)
    (hcall : call.arg 0 .null = .choice choice)
    (htexts : ∀ option ∈ choice.options, ∃ name, option = .text name) :
    (drawSymbol call a c).missing =
        c.registry.missing (choice.options.filter Value.isPresent) a.objectClass ∧
      ((drawSymbol call a c).outcome = .ok [] ↔
        ∀ name, .text name ∈ choice.options → name ≠ "" → c.registry.find? name = none) ∧
      (choice.IsPickable → IsOk (Turn.ofArgument (call.arg 1 (.int 0)) a).outcome →
        IsOk (drawSymbol call a c).outcome) ∧
      ∀ fragments, (drawSymbol call a c).outcome = .ok fragments → fragments ≠ [] →
        ∃ fragment image offset, fragments = [fragment] ∧ fragment.kind = .symbol ∧
          fragment.layout.lookup "icon-image" = some image ∧
          fragment.layout.lookup "icon-offset" = some offset ∧
          ∀ (r : Renderer) (f : TileFeature),
            (r.pick f choice = none ∧ r.eval f image = none ∧ r.eval f offset = none) ∨
            ∃ name v w, .text name ∈ choice.options ∧ r.pick f choice = some (.text name) ∧
              r.eval f image = some v ∧ r.eval f offset = some w ∧
              c.registry.Shows (.text name) v w := by
  have hnames : ∀ option ∈ choice.options, IsTextIn (choice.options.map Value.plain) option := by
    intro option hoption
    obtain ⟨name, rfl⟩ := htexts option hoption
    exact ⟨name, List.mem_map_of_mem hoption, rfl⟩
  have hoptions : IsOk (registered c a choice.options).outcome := registered_isOk hnames
  obtain ⟨entries, hentries⟩ := hoptions
  refine ⟨drawSymbol_missing_of_choice hcall ⟨entries, hentries⟩, ?_, ?_, ?_⟩
  · rw [← registered_eq_nil_iff hentries]
    constructor
    · intro h
      obtain ⟨hnil, -⟩ | ⟨-, _, _, _, -, -, hfragments⟩ := drawSymbol_choice_cases hcall hentries h
      · exact hnil
      · cases hfragments
    · rintro rfl
      have hicon : (pickedIcon choice a c).outcome = .ok none := by
        rw [pickedIcon_eq, Report.bind_of_ok hentries]
        rfl
      rw [drawSymbol_eq, hcall]
      exact Report.outcome_bind_eq_ok_iff.2 ⟨none, hicon, rfl⟩
  · intro hpickable hturn
    have hicon : IsOk (iconOf (.choice choice) a c).outcome := pickedIcon_isOk hpickable hnames
    exact drawSymbol_isOk (hcall ▸ hicon) hturn
  · intro fragments h hne
    obtain ⟨-, hnil⟩ | ⟨-, image, offset, turn, himage, hoffset, rfl⟩ :=
      drawSymbol_choice_cases hcall hentries h
    · exact absurd hnil hne
    · refine ⟨_, image, offset, rfl, rfl, rfl, rfl, fun r f => ?_⟩
      obtain hnone | ⟨option, hoption, hpick, x, x', hx, hx', himage', hoffset'⟩ :=
        r.eval_expressions f himage hoffset
      · exact .inl hnone
      · obtain ⟨name, rfl⟩ := htexts option hoption
        obtain ⟨v, w, rfl, rfl, hshows⟩ := shows_of_registered hentries hoption hx hx'
        refine .inr ⟨name, v, w, hoption, hpick, ?_, ?_, hshows⟩
        · rw [himage', Renderer.eval]
        · rw [hoffset', Renderer.eval]

end

/-- A buoy whose symbol goes by its shape. -/
def shapedBuoy : Choice where
  operator := .pick
  selector := .get "BOYSHP"
  stops := [(.value (.list [.int 1]), .text "BOYCON01"), (.value (.list [.int 2]), .text "BOYCAN01"),
    (.value (.list [.int 8]), .text "")]
  default := .text "BOYGEN03"

/-- The symbol of conical buoys. -/
def conicalEntry : SymbolEntry := { (default : SymbolEntry) with offset := (3, 4) }

/-- A drawing context with this symbol alone. -/
def conicalContext : DrawingContext where
  settings := {}
  palette := default
  registry := ⟨[("BOYCON01", conicalEntry)]⟩
  tableSet := .points

/-- The symbol of a conical buoy has its own offset, and the other two names are noted. -/
theorem drawSymbol_picked_shapedBuoy :
    ∃ fragment image offset,
      (drawSymbol ⟨.sy, [.choice shapedBuoy]⟩ ⟨"BOYLAT", []⟩ conicalContext).outcome =
        .ok [fragment] ∧
      fragment.layout.lookup "icon-image" = some image ∧
      fragment.layout.lookup "icon-offset" = some offset ∧
      Renderer.standard.eval ⟨.null, "Point", [("BOYSHP", .int 1)]⟩ image = some (.text "BOYCON01") ∧
      Renderer.standard.eval ⟨.null, "Point", [("BOYSHP", .int 1)]⟩ offset =
        some (.list [.real 3, .real 4]) ∧
      (drawSymbol ⟨.sy, [.choice shapedBuoy]⟩ ⟨"BOYLAT", []⟩ conicalContext).missing.map
        Diagnostic.message = ["Missing symbol: BOYGEN03", "Missing symbol: BOYCAN01"] := by
  have htexts : ∀ option ∈ shapedBuoy.options, ∃ name, option = .text name := by
    simp [shapedBuoy, Choice.options]
  have hcall : Call.arg ⟨.sy, [.choice shapedBuoy]⟩ 0 .null = .choice shapedBuoy := rfl
  obtain ⟨hmissing, hnone, htotal, hshown⟩ :=
    drawSymbol_picked ⟨"BOYLAT", []⟩ conicalContext hcall htexts
  have hpickable : shapedBuoy.IsPickable := by
    simp [Choice.IsPickable, shapedBuoy, Expr.toValue, Value.items, IsOk]
  obtain ⟨fragments, hfragments⟩ := htotal hpickable (.ok _)
  have hne : fragments ≠ [] := by
    rintro rfl
    have hconical : Value.text "BOYCON01" ∈ shapedBuoy.options := by
      simp [shapedBuoy, Choice.options]
    cases hnone.1 hfragments "BOYCON01" hconical (by decide)
  obtain ⟨fragment, image, offset, rfl, -, himage, hoffset, hpicked⟩ := hshown fragments hfragments hne
  refine ⟨fragment, image, offset, hfragments, himage, hoffset, ?_⟩
  have hconical : Renderer.standard.pick ⟨.null, "Point", [("BOYSHP", .int 1)]⟩ shapedBuoy =
      some (.text "BOYCON01") := rfl
  obtain ⟨hpick, -⟩ | ⟨name, v, w, -, hpick, hv, hw, hshows⟩ :=
    hpicked Renderer.standard ⟨.null, "Point", [("BOYSHP", .int 1)]⟩
  · cases hconical.symm.trans hpick
  · cases hconical.symm.trans hpick
    rw [hv, hw]
    have hfind : conicalContext.registry.find? "BOYCON01" = some conicalEntry := rfl
    cases hshows with
    | symbol hname h =>
      obtain rfl := Option.some.inj (hfind.symm.trans h)
      refine ⟨rfl, rfl, ?_⟩
      rw [hmissing]
      decide +kernel
    | empty h =>
      rcases h with hname | h
      · exact absurd hname (by decide)
      · cases hfind.symm.trans h

end ChartStyle
