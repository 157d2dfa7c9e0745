import ChartStyle.Proofs.ChoiceOptions
import ChartStyle.Proofs.DrawnCalls
import ChartStyle.Proofs.ProcedureReadings
import ChartStyle.Proofs.ReadCalls

/-!
# Lost symbols

Drawing with some symbols taken out of the registry. What is drawn with a lost symbol alone is not
drawn; where the renderer picks among symbols, the lost ones are replaced by the empty image, and with
none left nothing is drawn. All else is drawn as before and in the same order
(`Call.drawAll_without`).

`Fragment.remains` and `Fragment.blanked` say this of what was drawn with all symbols, without a look
at the calls. What carries it is that the images and the offsets of a choice have their options in the
same places, so that the images alone tell which options are lost.
-/

set_option autoImplicit false

namespace ChartStyle

/-! ## Taking symbols out -/

/-- The registry without the symbols that are gone. -/
def Registry.without (r : Registry) (gone : String → Bool) : Registry where
  symbols := r.symbols.filter fun entry => !gone entry.1

theorem Registry.find?_without (r : Registry) (gone : String → Bool) (name : String) :
    (r.without gone).find? name = if gone name then none else r.find? name := by
  have hlookup : (r.without gone).find? name = if !gone name then r.find? name else none :=
    lookup_filter (fun name => !gone name) r.symbols name
  rw [hlookup]
  cases gone name <;> rfl

/-- The context without the symbols that are gone. -/
def DrawingContext.without (c : DrawingContext) (gone : String → Bool) : DrawingContext :=
  { c with registry := c.registry.without gone }

/-! ## What is left -/

namespace Expr

/-- The expression is the name of a symbol that is gone. -/
def isGone (gone : String → Bool) : Expr → Bool
  | .value (.text name) => gone name
  | _ => false

/-- The expression is the empty text. -/
def isBlank : Expr → Bool
  | .value (.text s) => s == ""
  | _ => false

/-- The expression with a blank for each option in whose place the image is gone. -/
def substitute (image : Expr) (gone : String → Bool) (blank e : Expr) : Expr :=
  image.mapAlong (fun option e => if option.isGone gone then blank else e) e

/-- The image is there still: it is a name that is not gone, or it picks among images of which one is
neither gone nor empty. -/
def remains (gone : String → Bool) (image : Expr) : Bool :=
  match image.options with
  | [] => !image.isGone gone
  | options => options.any fun option => !(option.isGone gone || option.isBlank)

/-- The offset of the empty image. -/
def noOffset : Expr := .literal (.list [.int 0, .int 0])

end Expr

namespace Fragment

/-- The symbol that a fragment draws: an icon, or the pattern of a line or of a fill. -/
def symbol? (f : Fragment) : Option Expr :=
  (f.layout.lookup "icon-image").or
    ((f.paint.lookup "line-pattern").or (f.paint.lookup "fill-pattern"))

/-- The fragment draws something still. -/
def remains (gone : String → Bool) (f : Fragment) : Bool :=
  match f.symbol? with
  | none => true
  | some symbol => symbol.remains gone

/-- A layout property for an icon of which some images are gone. -/
def blankProperty (gone : String → Bool) (image : Expr) (property : String × Expr) :
    String × Expr :=
  (property.1,
    if property.1 = "icon-image" then image.substitute gone (.text "") property.2
    else if property.1 = "icon-offset" then image.substitute gone .noOffset property.2
    else property.2)

/-- The fragment with the empty image for each icon that is gone among those that it picks from. -/
def blanked (gone : String → Bool) (f : Fragment) : Fragment :=
  match f.layout.lookup "icon-image" with
  | none => f
  | some image => { f with layout := f.layout.map (blankProperty gone image) }

/-- What is left of several fragments. -/
def left (gone : String → Bool) (fragments : List Fragment) : List Fragment :=
  (fragments.filter (remains gone)).map (blanked gone)

variable {gone : String → Bool}

theorem left_append (fragments fragments' : List Fragment) :
    left gone (fragments ++ fragments') = left gone fragments ++ left gone fragments' := by
  unfold left
  rw [List.filter_append, List.map_append]

theorem left_singleton (f : Fragment) :
    left gone [f] = if f.remains gone then [f.blanked gone] else [] := by
  unfold left
  cases h : f.remains gone <;> simp [h]

/-- What draws no symbol stays as it is. -/
theorem left_eq_self {fragments : List Fragment} (h : ∀ f ∈ fragments, f.symbol? = none) :
    left gone fragments = fragments := by
  have hremains : ∀ f ∈ fragments, f.remains gone = true := by
    intro f hf
    rw [remains, h f hf]
  have hblanked : ∀ f ∈ fragments, f.blanked gone = f := by
    intro f hf
    rw [blanked, (Option.or_eq_none_iff.1 (h f hf)).1]
  rw [left, List.filter_eq_self.2 hremains]
  exact (List.map_congr_left hblanked).trans (List.map_id fragments)

end Fragment

/-! ## Icons -/

section

variable {a : AttributeSet} {c : DrawingContext} {gone : String → Bool}

/-- The image of an option, given the entries that the registry has for the options. -/
def imageOption (entries : List (String × SymbolEntry)) (option : Value) : Except Fault Expr := do
  return .value (if (← entryOf? entries option).isSome then option else .text "")

/-- The offset of an option. -/
def offsetOption (entries : List (String × SymbolEntry)) (option : Value) : Except Fault Expr := do
  match ← entryOf? entries option with
  | some entry => return .literal (SymbolEntry.pointValue entry.offset)
  | none => return .noOffset

theorem pickedIcon_eq (choice : Choice) (a : AttributeSet) (c : DrawingContext) :
    pickedIcon choice a c = registered c a choice.options >>= fun entries =>
      if entries.isEmpty then pure none
      else (liftM (choice.expression (imageOption entries)) : Report Expr) >>= fun image =>
        (liftM (choice.expression (offsetOption entries)) : Report Expr) >>= fun offset =>
          pure (some { image, offset }) := rfl

/-- The entries without those of symbols that are gone. -/
def entriesLeft (gone : String → Bool) (entries : List (String × SymbolEntry)) :
    List (String × SymbolEntry) :=
  entries.filter fun entry => !gone entry.1

theorem findValue?_without {r : Registry} {v : Value} {found : Option SymbolEntry}
    (h : r.findValue? v = .ok found) :
    (r.without gone).findValue? v = .ok (if gone v.plain then none else found) := by
  cases v with
  | text name =>
    cases h
    exact congrArg Except.ok (r.find?_without gone name)
  -- What is no name is not found, with or without the symbols.
  | null | bool b | int n | real x | perFeature =>
    cases h
    exact congrArg Except.ok (ite_self none).symm
  | list items | map entries => cases h

/-- What the registry has for the options, less what is gone. -/
theorem registered_without {options : List Value} {entries : List (String × SymbolEntry)}
    (h : (registered c a options).outcome = .ok entries) :
    (registered (c.without gone) a options).outcome = .ok (entriesLeft gone entries) := by
  induction options generalizing entries with
  | nil =>
    cases h
    rfl
  | cons option options ih =>
    have hleft {found : Option SymbolEntry} (hfound : c.registry.findValue? option = .ok found) :
        (c.without gone).registry.findValue? option =
          .ok (if gone option.plain then none else found) := findValue?_without hfound
    obtain ⟨hblank, hrest⟩ | ⟨hpresent, hnone, hrest⟩ |
      ⟨entry, rest, hpresent, hsome, hrest, rfl⟩ := registered_cases h
    · rw [registered_of_blank hblank]
      exact ih hrest
    · have hnone' := hleft hnone
      rw [ite_self] at hnone'
      rw [registered_of_missing hpresent hnone']
      exact Report.outcome_bind_eq_ok_iff.2 ⟨(), rfl, ih hrest⟩
    · have hsome' := hleft hsome
      cases hgone : gone option.plain with
      | true =>
        have hdropped : entriesLeft gone ((option.plain, entry) :: rest) = entriesLeft gone rest :=
          List.filter_cons_of_neg (by simp [hgone])
        rw [if_pos hgone] at hsome'
        rw [registered_of_missing hpresent hsome', hdropped]
        exact Report.outcome_bind_eq_ok_iff.2 ⟨(), rfl, ih hrest⟩
      | false =>
        have hkept : entriesLeft gone ((option.plain, entry) :: rest) =
            (option.plain, entry) :: entriesLeft gone rest :=
          List.filter_cons_of_pos (by simp [hgone])
        rw [if_neg (by simp [hgone])] at hsome'
        rw [registered_of_found hpresent hsome', hkept]
        exact Report.outcome_bind_eq_ok_iff.2 ⟨_, ih hrest, rfl⟩

/-- Entries are those of options that are names. -/
theorem option_of_registered {options : List Value} {entries : List (String × SymbolEntry)}
    (h : (registered c a options).outcome = .ok entries) {name : String} {entry : SymbolEntry}
    (hentry : (name, entry) ∈ entries) : .text name ∈ options ∧ name ≠ "" := by
  induction options generalizing entries with
  | nil =>
    cases h
    cases hentry
  | cons option options ih =>
    have hlater (hmem : .text name ∈ options ∧ name ≠ "") :
        .text name ∈ option :: options ∧ name ≠ "" :=
      ⟨List.mem_cons_of_mem option hmem.1, hmem.2⟩
    obtain ⟨-, hrest⟩ | ⟨-, -, hrest⟩ | ⟨first, rest, hpresent, hsome, hrest, rfl⟩ :=
      registered_cases h
    · exact hlater (ih hrest hentry)
    · exact hlater (ih hrest hentry)
    · rcases List.mem_cons.1 hentry with heq | hmem
      · cases option with
        | text text =>
          cases heq
          exact ⟨List.mem_cons_self, bne_iff_ne.1 hpresent⟩
        | null | bool b | int n | real x | list items | map fields | perFeature => cases hsome
      · exact hlater (ih hrest hmem)

theorem entryOf?_left {entries : List (String × SymbolEntry)} {option : Value}
    {found : Option SymbolEntry} (h : entryOf? entries option = .ok found) :
    entryOf? (entriesLeft gone entries) option =
      .ok (if gone option.plain then none else found) := by
  cases option with
  | text name =>
    cases h
    have hlookup := lookup_filter (fun name => !gone name) entries name
    refine congrArg Except.ok (hlookup.trans ?_)
    show _ = if gone name then none else entries.lookup name
    cases gone name <;> rfl
  | null | bool b | int n | real x | perFeature =>
    cases h
    exact congrArg Except.ok (ite_self none).symm
  | list items | map fields => cases h

theorem name_of_entryOf? {entries : List (String × SymbolEntry)} {option : Value}
    {entry : SymbolEntry} (h : entryOf? entries option = .ok (some entry)) :
    ∃ name, option = .text name ∧ entries.lookup name = some entry := by
  cases option with
  | text name => exact ⟨name, rfl, Except.ok.inj h⟩
  | null | bool b | int n | real x | list items | map fields | perFeature => cases h

/-- Without the symbols that are gone, an image that is gone becomes the empty one. -/
theorem imageOption_left {entries : List (String × SymbolEntry)} {option : Value} {image : Expr}
    (h : imageOption entries option = .ok image) :
    imageOption (entriesLeft gone entries) option =
      .ok (if image.isGone gone then .text "" else image) := by
  obtain ⟨found, hfound, h⟩ := except_bind_eq_ok_iff.1 h
  refine except_bind_eq_ok_iff.2 ⟨_, entryOf?_left hfound, ?_⟩
  cases h
  cases found with
  | none =>
    rw [ite_self]
    exact congrArg Except.ok (ite_self _).symm
  | some entry =>
    obtain ⟨name, rfl, -⟩ := name_of_entryOf? hfound
    show Except.ok (Expr.value (if (if gone name then none else some entry).isSome then _ else _)) =
      .ok (if gone name then .text "" else .text name)
    cases gone name <;> rfl

/-- The offset of an image that is gone becomes that of the empty one. -/
theorem offsetOption_left {entries : List (String × SymbolEntry)} {option : Value}
    {image offset : Expr} (himage : imageOption entries option = .ok image)
    (hoffset : offsetOption entries option = .ok offset) :
    offsetOption (entriesLeft gone entries) option =
      .ok (if image.isGone gone then .noOffset else offset) := by
  obtain ⟨found, hfound, himage⟩ := except_bind_eq_ok_iff.1 himage
  obtain ⟨found', hfound', hoffset⟩ := except_bind_eq_ok_iff.1 hoffset
  cases hfound.symm.trans hfound'
  refine except_bind_eq_ok_iff.2 ⟨_, entryOf?_left hfound, ?_⟩
  cases himage
  cases found with
  | none =>
    cases hoffset
    rw [ite_self]
    exact congrArg Except.ok (ite_self _).symm
  | some entry =>
    cases hoffset
    obtain ⟨name, rfl, -⟩ := name_of_entryOf? hfound
    have hplain : (Value.text name).plain = name := rfl
    have hgone : (Expr.value (if (some entry).isSome then .text name else .text "")).isGone gone =
        gone name := rfl
    rw [hplain, hgone]
    cases gone name <;> rfl

/-- A choice of symbols draws something just while the registry has one of them. -/
theorem remains_of_choice {choice : Choice} {entries : List (String × SymbolEntry)} {image : Expr}
    (hentries : (registered c a choice.options).outcome = .ok entries)
    (himage : choice.expression (imageOption entries) = .ok image) :
    image.remains gone = !(entriesLeft gone entries).isEmpty := by
  have hoptions := Choice.expression_options himage
  have hremains : image.remains gone =
      image.options.any fun option => !(option.isGone gone || option.isBlank) := by
    unfold Expr.remains
    cases himages : image.options with
    | nil =>
      rw [himages] at hoptions
      cases hoptions
    | cons first rest => rfl
  rw [hremains, Bool.eq_iff_iff, List.any_eq_true]
  constructor
  · rintro ⟨o, ho, hleft⟩
    obtain ⟨v, -, hv⟩ := exists_mem_of_forall₂ hoptions ho
    obtain ⟨found, hfound, hv⟩ := except_bind_eq_ok_iff.1 hv
    cases hv
    cases found with
    | none => simp [Expr.isGone, Expr.isBlank] at hleft
    | some entry =>
      obtain ⟨name, rfl, hname⟩ := name_of_entryOf? hfound
      have hkept : (!gone name) = true := by
        simp only [Option.isSome_some, if_true, Expr.isGone, Bool.not_or, Bool.and_eq_true] at hleft
        exact hleft.1
      have hmem : (name, entry) ∈ entriesLeft gone entries :=
        List.mem_filter.2 ⟨mem_of_lookup_eq_some hname, hkept⟩
      rw [Bool.not_eq_true', List.isEmpty_eq_false_iff]
      exact List.ne_nil_of_mem hmem
  · intro hleft
    rw [Bool.not_eq_true', List.isEmpty_eq_false_iff] at hleft
    obtain ⟨⟨name, entry⟩, hmem⟩ := List.exists_mem_of_ne_nil _ hleft
    obtain ⟨hentry, hkept⟩ := List.mem_filter.1 hmem
    -- A name that is left is that of an option, and its own image in the place of that option.
    obtain ⟨hoption, hne⟩ := option_of_registered hentries hentry
    obtain ⟨o, ho, himage⟩ := exists_mem_of_forall₂ (List.Forall₂.flip hoptions) hoption
    have hfound : (entries.lookup name).isSome = true := isSome_lookup_of_mem hentry
    obtain ⟨found, hlookup, himage⟩ := except_bind_eq_ok_iff.1 himage
    cases hlookup
    rw [hfound] at himage
    cases himage
    refine ⟨_, ho, ?_⟩
    simpa [Expr.isGone, Expr.isBlank, hne] using hkept

/-! ## Icons without the symbols -/

namespace Icon

/-- The icon draws something still. -/
def remains (gone : String → Bool) (icon : Icon) : Bool := icon.image.remains gone

/-- The icon with the empty image for each one that is gone among those that it picks from. -/
def blanked (gone : String → Bool) (icon : Icon) : Icon where
  image := icon.image.substitute gone (.text "") icon.image
  offset := icon.image.substitute gone .noOffset icon.offset

end Icon

theorem fixedIcon_without {name : String} {icon : Option Icon}
    (h : (fixedIcon name a c).outcome = .ok icon) :
    (fixedIcon name a (c.without gone)).outcome =
      .ok ((icon.filter (Icon.remains gone)).map (Icon.blanked gone)) := by
  have hfind : (c.without gone).registry.find? name =
      if gone name then none else c.registry.find? name := c.registry.find?_without gone name
  unfold fixedIcon at h ⊢
  rw [hfind]
  cases hentry : c.registry.find? name with
  | none =>
    rw [hentry] at h
    cases h
    rw [ite_self]
    rfl
  | some entry =>
    rw [hentry] at h
    cases h
    have hremains : Icon.remains gone ⟨.text name, .value (SymbolEntry.pointValue entry.offset)⟩ =
        !gone name := rfl
    rw [Option.filter_some, hremains]
    cases gone name <;> rfl

theorem pickedIcon_without {choice : Choice} {icon : Option Icon}
    (h : (pickedIcon choice a c).outcome = .ok icon) :
    (pickedIcon choice a (c.without gone)).outcome =
      .ok ((icon.filter (Icon.remains gone)).map (Icon.blanked gone)) := by
  rw [pickedIcon_eq] at h ⊢
  obtain ⟨entries, hentries, h⟩ := Report.outcome_bind_eq_ok_iff.1 h
  rw [Report.bind_of_ok (registered_without hentries)]
  cases hempty : entries.isEmpty with
  | true =>
    rw [hempty] at h
    cases h
    obtain rfl := List.isEmpty_iff.1 hempty
    rfl
  | false =>
    simp only [hempty, Bool.false_eq_true, if_false] at h
    obtain ⟨image, himage, h⟩ := Report.outcome_bind_eq_ok_iff.1 h
    obtain ⟨offset, hoffset, h⟩ := Report.outcome_bind_eq_ok_iff.1 h
    cases h
    have hremains : Icon.remains gone ⟨image, offset⟩ = !(entriesLeft gone entries).isEmpty :=
      remains_of_choice hentries himage
    rw [Option.filter_some, hremains]
    cases hleft : (entriesLeft gone entries).isEmpty with
    | true => rfl
    | false =>
      -- In each place the image tells whether its option is lost, for the image and for the offset.
      have hgoneImage : ∀ v x y, imageOption entries v = .ok x → imageOption entries v = .ok y →
          imageOption (entriesLeft gone entries) v =
            .ok (if x.isGone gone then .text "" else y) := by
        intro v x y hx hy
        cases hx.symm.trans hy
        exact imageOption_left hx
      have hgoneOffset : ∀ v x y, imageOption entries v = .ok x → offsetOption entries v = .ok y →
          offsetOption (entriesLeft gone entries) v =
            .ok (if x.isGone gone then .noOffset else y) := by
        intro v x y hx hy
        exact offsetOption_left hx hy
      have himage' : choice.expression (imageOption (entriesLeft gone entries)) =
          .ok (image.substitute gone (.text "") image) :=
        Choice.expression_along hgoneImage himage himage
      have hoffset' : choice.expression (offsetOption (entriesLeft gone entries)) =
          .ok (image.substitute gone .noOffset offset) :=
        Choice.expression_along hgoneOffset himage hoffset
      dsimp only
      rw [if_neg Bool.false_ne_true, Procedure.lift_bind_of_ok himage',
        Procedure.lift_bind_of_ok hoffset']
      rfl

theorem iconOf_without {arg : Argument} {icon : Option Icon}
    (h : (iconOf arg a c).outcome = .ok icon) :
    (iconOf arg a (c.without gone)).outcome =
      .ok ((icon.filter (Icon.remains gone)).map (Icon.blanked gone)) := by
  cases arg with
  | choice choice => exact pickedIcon_without h
  | literal v => exact fixedIcon_without h
  | «attribute» code => exact fixedIcon_without h
  | computed e => exact fixedIcon_without h

/-! ## Drawing without the symbols -/

theorem remains_symbolFragment (icon : Icon) (turn : Turn) (arg : Argument) :
    (symbolFragment icon turn arg).remains gone = icon.remains gone := rfl

theorem blanked_symbolFragment (icon : Icon) (turn : Turn) (arg : Argument) :
    (symbolFragment icon turn arg).blanked gone = symbolFragment (icon.blanked gone) turn arg := by
  have hturn : (turn.properties arg).map (Fragment.blankProperty gone icon.image) =
      turn.properties arg := by
    unfold Turn.properties
    split <;> rfl
  -- So only the image and its offset are changed.
  have hlookup : (symbolFragment icon turn arg).layout.lookup "icon-image" = some icon.image := rfl
  unfold Fragment.blanked
  rw [hlookup]
  dsimp only [symbolFragment]
  rw [List.map_append, hturn]
  rfl

theorem drawSymbol_without {call : Call} {fragments : List Fragment}
    (h : (drawSymbol call a c).outcome = .ok fragments) :
    (drawSymbol call a (c.without gone)).outcome = .ok (Fragment.left gone fragments) := by
  obtain ⟨icon, hicon, h⟩ := Report.outcome_bind_eq_ok_iff.1 h
  refine Report.outcome_bind_eq_ok_iff.2 ⟨_, iconOf_without hicon, ?_⟩
  cases icon with
  | none =>
    cases h
    rfl
  | some icon =>
    obtain ⟨turn, hturn, h⟩ := Report.outcome_bind_eq_ok_iff.1 h
    have hfragments : fragments = [symbolFragment icon turn.reduce (call.arg 1 (.int 0))] := by
      cases h
      rfl
    rw [hfragments, Fragment.left_singleton, remains_symbolFragment, blanked_symbolFragment,
      Option.filter_some]
    cases icon.remains gone with
    | false => rfl
    | true => exact Report.outcome_bind_eq_ok_iff.2 ⟨turn, hturn, rfl⟩

/-- What is drawn with a lost symbol alone is not drawn. -/
theorem drawNamed_without {name : String} {fragment : SymbolEntry → Fragment}
    (hremains : ∀ entry, (fragment entry).remains gone = !gone name)
    (hblanked : ∀ entry, (fragment entry).blanked gone = fragment entry) {fragments : List Fragment}
    (h : (drawNamed name fragment a c).outcome = .ok fragments) :
    (drawNamed name fragment a (c.without gone)).outcome = .ok (Fragment.left gone fragments) := by
  have hfind : (c.without gone).registry.find? name =
      if gone name then none else c.registry.find? name := c.registry.find?_without gone name
  unfold drawNamed at h ⊢
  rw [hfind]
  cases hentry : c.registry.find? name with
  | none =>
    rw [hentry] at h
    cases h
    rw [ite_self]
    rfl
  | some entry =>
    rw [hentry] at h
    cases h
    rw [Fragment.left_singleton, hremains, hblanked]
    cases gone name <;> rfl

section

variable {fragments : List Fragment}

theorem drawLine_symbol? {call : Call} (h : drawLine call c = .ok fragments) :
    ∀ f ∈ fragments, f.symbol? = none := by
  obtain ⟨width, -, h⟩ := except_bind_eq_ok_iff.1 h
  obtain ⟨colour, -, h⟩ := except_bind_eq_ok_iff.1 h
  cases hstyle : (call.arg 0 .null).lineStyle? with
  | none =>
    rw [hstyle] at h
    cases h
  | some style =>
    rw [hstyle] at h
    cases style with
    | solid | dashed | dotted =>
      cases h
      exact List.forall_mem_singleton.2 rfl

theorem drawFill_symbol? {call : Call} (h : drawFill call c = .ok fragments) :
    ∀ f ∈ fragments, f.symbol? = none := by
  obtain ⟨transparency, -, h⟩ := except_bind_eq_ok_iff.1 h
  obtain ⟨colour, -, h⟩ := except_bind_eq_ok_iff.1 h
  cases hopacity : fillOpacity? transparency with
  | none =>
    rw [hopacity] at h
    cases h
  | some opacity =>
    rw [hopacity] at h
    cases h
    exact List.forall_mem_singleton.2 rfl

theorem textFragment_symbol? {text : Expr} {params : List Argument}
    (h : textFragment text params c = .ok fragments) : ∀ f ∈ fragments, f.symbol? = none := by
  obtain ⟨f, rfl, hf⟩ := exists_of_textFragment h
  refine List.forall_mem_singleton.2 ?_
  rw [Fragment.symbol?, hf.image, hf.linePattern, hf.fillPattern]
  rfl

theorem drawTextExpr_symbol? {text : Option Expr} {params : List Argument}
    (h : drawTextExpr text params c = .ok fragments) : ∀ f ∈ fragments, f.symbol? = none := by
  cases text with
  | none =>
    cases h
    exact List.forall_mem_nil _
  | some text => exact textFragment_symbol? h

end

namespace Call

variable {call : Call} {calls : List Call} {fragments : List Fragment}

/-- A call that runs no procedure draws what is left of what it draws with all symbols. -/
theorem drawPlain_without (h : (call.drawPlain a c).outcome = .ok fragments) :
    (call.drawPlain a (c.without gone)).outcome = .ok (Fragment.left gone fragments) := by
  unfold drawPlain at h ⊢
  cases hprimitive : call.primitive with
  | sy =>
    rw [hprimitive] at h
    exact drawSymbol_without h
  | ls =>
    rw [hprimitive] at h
    rw [Fragment.left_eq_self (drawLine_symbol? h)]
    exact h
  | lc =>
    rw [hprimitive] at h
    dsimp only at h ⊢
    rw [drawComplexLine_eq] at h ⊢
    exact drawNamed_without (fun entry => rfl) (fun entry => rfl) h
  | ac =>
    rw [hprimitive] at h
    rw [Fragment.left_eq_self (drawFill_symbol? h)]
    exact h
  | ap =>
    rw [hprimitive] at h
    dsimp only at h ⊢
    rw [drawPattern_eq] at h ⊢
    exact drawNamed_without (fun entry => rfl) (fun entry => rfl) h
  | tx =>
    rw [hprimitive] at h
    obtain ⟨text, -, htext⟩ := except_bind_eq_ok_iff.1 (h : drawText call a c = .ok fragments)
    rw [Fragment.left_eq_self (drawTextExpr_symbol? htext)]
    exact h
  | te =>
    rw [hprimitive] at h
    obtain ⟨text, -, htext⟩ := Report.outcome_bind_eq_ok_iff.1 h
    rw [Fragment.left_eq_self (drawTextExpr_symbol? htext)]
    exact h
  | cs =>
    rw [hprimitive] at h
    cases h

/-- What is drawn by one operation after the other is left of each. -/
theorem append_without {x y x' y' : Report (List Fragment)}
    (hx : ∀ xs, x.outcome = .ok xs → x'.outcome = .ok (Fragment.left gone xs))
    (hy : ∀ ys, y.outcome = .ok ys → y'.outcome = .ok (Fragment.left gone ys))
    (h : (x >>= fun xs => y >>= fun ys => pure (xs ++ ys)).outcome = .ok fragments) :
    (x' >>= fun xs => y' >>= fun ys => pure (xs ++ ys)).outcome =
      .ok (Fragment.left gone fragments) := by
  obtain ⟨xs, hxs, h⟩ := Report.outcome_bind_eq_ok_iff.1 h
  obtain ⟨ys, hys, h⟩ := Report.outcome_bind_eq_ok_iff.1 h
  cases h
  rw [Fragment.left_append]
  refine Report.outcome_bind_eq_ok_iff.2 ⟨_, hx xs hxs, ?_⟩
  exact Report.outcome_bind_eq_ok_iff.2 ⟨_, hy ys hys, rfl⟩

theorem drawAllPlain_without (h : (drawAllPlain a c calls).outcome = .ok fragments) :
    (drawAllPlain a (c.without gone) calls).outcome = .ok (Fragment.left gone fragments) := by
  induction calls generalizing fragments with
  | nil =>
    cases h
    rfl
  | cons call calls ih => exact append_without (fun xs => drawPlain_without) (fun ys => ih) h

/-- Procedures do not look at symbols, so the same calls are drawn. -/
theorem draw_without (h : (call.draw a c).outcome = .ok fragments) :
    (call.draw a (c.without gone)).outcome = .ok (Fragment.left gone fragments) := by
  obtain ⟨procedure?, hprocedure, h⟩ := Report.outcome_bind_eq_ok_iff.1 h
  refine Report.outcome_bind_eq_ok_iff.2 ⟨procedure?, hprocedure, ?_⟩
  cases procedure? with
  | none => exact drawPlain_without h
  | some procedure =>
    obtain ⟨calls, hcalls, h⟩ := Report.outcome_bind_eq_ok_iff.1 h
    exact Report.outcome_bind_eq_ok_iff.2 ⟨calls, hcalls, drawAllPlain_without h⟩

theorem drawAll_without (h : (drawAll a c calls).outcome = .ok fragments) :
    (drawAll a (c.without gone) calls).outcome = .ok (Fragment.left gone fragments) := by
  induction calls generalizing fragments with
  | nil =>
    cases h
    rfl
  | cons call calls ih => exact append_without (fun xs => draw_without) (fun ys => ih) h

end Call

end

end ChartStyle
