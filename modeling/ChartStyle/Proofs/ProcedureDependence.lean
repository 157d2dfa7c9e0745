import ChartStyle.Proofs.Readings
import ChartStyle.Procedure.Evaluate

/-!
# What procedures depend on

The attributes that a procedure leaves to the renderer (`Procedure.attributeCodes`) are not all that
it looks at. The style of a contour follows the quality of its position as well, and the turn of a
light the limits of its sector (`Procedure.furtherCodes`). On these and on the object class all calls
depend and on nothing else: a list of codes determines what a procedure does exactly when it holds
all of them (`Procedure.evaluate_determined_iff`). One direction is a congruence for each reader
and each procedure (`Procedure.evaluate_congr`), the other a sample in which each of the codes
matters (`Procedure.sample_matters`).
-/

set_option autoImplicit false

namespace ChartStyle

/-! ## Readers -/

namespace AttributeSet

/-- Both have the same values of the attributes. -/
def AgreeOn (codes : List String) (a b : AttributeSet) : Prop :=
  ∀ code ∈ codes, a.find? code = b.find? code

variable {a b : AttributeSet} {code : String} (h : a.find? code = b.find? code)

include h

theorem isPerFeature_congr : a.isPerFeature code = b.isPerFeature code := by
  unfold isPerFeature
  rw [h]

theorem known?_congr : a.known? code = b.known? code := by
  rw [known?_eq, known?_eq, h]

theorem isKnown_congr : a.isKnown code = b.isKnown code := by
  rw [isKnown_eq, isKnown_eq, known?_congr h]

theorem getText_congr : a.getText code = b.getText code := by
  unfold getText
  rw [known?_congr h]

variable (hclass : a.objectClass = b.objectClass)

include hclass

theorem getReal_congr (standIn : Value) : a.getReal code standIn = b.getReal code standIn := by
  unfold getReal malformed
  rw [known?_congr h, hclass]

theorem getInt_congr (standIn : Value) : a.getInt code standIn = b.getInt code standIn := by
  unfold getInt malformed
  rw [getReal_congr h hclass, h, hclass]

theorem getInts_congr : a.getInts code = b.getInts code := by
  unfold getInts malformed
  rw [known?_congr h, hclass]

end AttributeSet

/-! ## Procedures -/

namespace Procedure

/-- The attributes that a procedure looks at without leaving them to the renderer. -/
def furtherCodes : Procedure → List String
  | .depcnt02 => ["QUAPOS"]
  | .lights05 => ["SECTR1", "SECTR2"]
  | .depare01 | .obstrn04 | .soundg02 | .wrecks02 => []

/-- The attributes that a procedure looks at. -/
def codes (p : Procedure) : List String := p.attributeCodes ++ p.furtherCodes

section

variable {a b : AttributeSet} (hclass : a.objectClass = b.objectClass)

include hclass

theorem depth?_congr {code : String} (h : a.find? code = b.find? code) (standIn : Double) :
    depth? a code standIn = depth? b code standIn := by
  unfold depth?
  rw [AttributeSet.isKnown_congr h, AttributeSet.getReal_congr h hclass]

variable (s : Settings) (t : TableSet)

theorem sounding_congr (h : a.AgreeOn soundg02.codes b) : sounding a s = sounding b s := by
  have hdepth := depth?_congr hclass (h "DEPTH" (by decide))
  unfold sounding
  rw [hdepth]

theorem contour_congr (h : a.AgreeOn depcnt02.codes b) : contour a s = contour b s := by
  have hdepth := h "VALDCO" (by decide)
  have hquality := h "QUAPOS" (by decide)
  unfold contour
  rw [depth?_congr hclass hdepth, AttributeSet.getInt_congr hquality hclass,
    AttributeSet.isPerFeature_congr hdepth]

theorem depthArea_congr (h : a.AgreeOn depare01.codes b) : depthArea a s = depthArea b s := by
  have hdepth := h "DRVAL1" (by decide)
  unfold depthArea areaColour
  rw [depth?_congr hclass hdepth, AttributeSet.isPerFeature_congr hdepth, hclass]

theorem flareArgument_congr (h : a.find? "COLOUR" = b.find? "COLOUR") :
    flareArgument a = flareArgument b := by
  unfold flareArgument
  rw [AttributeSet.isPerFeature_congr h, AttributeSet.getInts_congr h hclass]

theorem flareTurn_congr (hfirst : a.find? "SECTR1" = b.find? "SECTR1")
    (hsecond : a.find? "SECTR2" = b.find? "SECTR2") : flareTurn a = flareTurn b := by
  unfold flareTurn
  rw [AttributeSet.getReal_congr hfirst hclass, AttributeSet.getReal_congr hsecond hclass]

theorem lightDescription_congr (h : a.AgreeOn descriptionCodes b) :
    lightDescription a = lightDescription b := by
  unfold lightDescription
  rw [AttributeSet.getInt_congr (h "LITCHR" (by decide)) hclass,
    AttributeSet.getText_congr (h "SIGGRP" (by decide)),
    AttributeSet.getInts_congr (h "COLOUR" (by decide)) hclass,
    AttributeSet.getReal_congr (h "SIGPER" (by decide)) hclass,
    AttributeSet.getReal_congr (h "HEIGHT" (by decide)) hclass,
    AttributeSet.getReal_congr (h "VALNMR" (by decide)) hclass]

theorem descriptionArgument?_congr (h : a.AgreeOn descriptionCodes b) :
    descriptionArgument? a = descriptionArgument? b := by
  have hany : descriptionCodes.any a.isPerFeature = descriptionCodes.any b.isPerFeature := by
    rw [Bool.eq_iff_iff, List.any_eq_true, List.any_eq_true]
    refine exists_congr fun code => and_congr_right fun hcode => ?_
    rw [AttributeSet.isPerFeature_congr (h code hcode)]
  unfold descriptionArgument?
  rw [hany, lightDescription_congr hclass h]

theorem light_congr (h : a.AgreeOn lights05.codes b) : light a = light b := by
  have hdescription : a.AgreeOn descriptionCodes b :=
    fun code hcode => h code (List.mem_append_left _ hcode)
  unfold light
  rw [flareArgument_congr hclass (h "COLOUR" (by decide)),
    flareTurn_congr hclass (h "SECTR1" (by decide)) (h "SECTR2" (by decide)),
    descriptionArgument?_congr hclass hdescription]

theorem danger_congr (h : a.find? "VALSOU" = b.find? "VALSOU") : danger a s = danger b s := by
  unfold danger
  rw [AttributeSet.isPerFeature_congr h, depth?_congr hclass h]

theorem wreck_congr (h : a.AgreeOn wrecks02.codes b) : wreck a s t = wreck b s t := by
  have hcategory := h "CATWRK" (by decide)
  unfold wreck wreckSymbol
  rw [danger_congr hclass s (h "VALSOU" (by decide)), AttributeSet.isPerFeature_congr hcategory,
    AttributeSet.getInt_congr hcategory hclass]

theorem obstruction_congr (h : a.AgreeOn obstrn04.codes b) :
    obstruction a s t = obstruction b s t := by
  have hdepth := h "VALSOU" (by decide)
  unfold obstruction obstructionSymbol
  rw [danger_congr hclass s hdepth, AttributeSet.isPerFeature_congr hdepth,
    AttributeSet.isKnown_congr hdepth]

/-- A procedure does the same for features of one object class that have the same values of the
attributes that it looks at: it notes the same, and it gives the same calls or the same fault. -/
theorem evaluate_congr {p : Procedure} (h : a.AgreeOn p.codes b) :
    p.evaluate a s t = p.evaluate b s t := by
  cases p with
  | depare01 => exact depthArea_congr hclass s h
  | depcnt02 => exact contour_congr hclass s h
  | lights05 => exact light_congr hclass h
  | obstrn04 => exact obstruction_congr hclass s t h
  | soundg02 => exact sounding_congr hclass s h
  | wrecks02 => exact wreck_congr hclass s t h

end

/-! ## A sample -/

/-- A value of each attribute that some procedure looks at. -/
def sample : List (String × Value) :=
  [("DRVAL1", .int 20), ("VALDCO", .int 6), ("QUAPOS", .int 4), ("DEPTH", .int 2),
    ("VALSOU", .int 2), ("CATWRK", .int 1), ("LITCHR", .int 2), ("SIGGRP", .text "(2)"),
    ("COLOUR", .int 3), ("SIGPER", .int 10), ("HEIGHT", .int 15), ("VALNMR", .int 12),
    ("SECTR1", .int 10), ("SECTR2", .int 20)]

/-- The sample without one attribute. -/
def sampleWithout (code : String) : AttributeSet :=
  ⟨"", sample.filter fun entry => entry.1 != code⟩

/-- The calls of a procedure as they are listed, nothing where it fails. -/
def tokens (calls : Except Fault (List Call)) : Option (List (List String)) :=
  calls.toOption.map (List.map fun call => call.args.map Argument.token)

/-- Each attribute that a procedure looks at makes a difference to its calls: with the default
settings, or, for the category of a wreck, with settings by which it is no danger. -/
theorem sample_matters : ∀ p ∈ all, ∀ code ∈ p.codes,
    ∃ s ∈ [({} : Settings), { safetyDepth := .int 0 }],
      tokens (p.evaluate ⟨"", sample⟩ s .points).outcome ≠
        tokens (p.evaluate (sampleWithout code) s .points).outcome := by
  decide +kernel

theorem agreeOn_sampleWithout {code : String} {codes : List String} (h : code ∉ codes) :
    AttributeSet.AgreeOn codes ⟨"", sample⟩ (sampleWithout code) := by
  intro other hother
  have hne : other ≠ code := fun heq => h (heq ▸ hother)
  have hkept : (other != code) = true := bne_iff_ne.2 hne
  show sample.lookup other = (sample.filter fun entry => entry.1 != code).lookup other
  rw [lookup_filter (· != code), if_pos hkept]

/-- The codes that determine the calls of a procedure, whatever the settings and the table set, are
those that it looks at, and no fewer. -/
theorem evaluate_determined_iff (p : Procedure) (codes : List String) :
    (∀ (s : Settings) (t : TableSet) (a b : AttributeSet), a.objectClass = b.objectClass →
      a.AgreeOn codes b → (p.evaluate a s t).outcome = (p.evaluate b s t).outcome) ↔
      p.attributeCodes ++ p.furtherCodes ⊆ codes := by
  constructor
  · intro h code hcode
    apply Decidable.byContradiction
    intro hmissing
    have hp : p ∈ all := by cases p <;> decide
    obtain ⟨s, -, hne⟩ := sample_matters p hp code hcode
    exact hne (congrArg tokens (h s .points _ _ rfl (agreeOn_sampleWithout hmissing)))
  · intro h s t a b hclass hagree
    exact congrArg Report.outcome (evaluate_congr hclass s t fun code hcode => hagree code (h hcode))

/-- A light in a sector. -/
def sectorLight : AttributeSet := ⟨"LIGHTS", [("SECTR1", .int 10), ("SECTR2", .int 20)]⟩

/-- A contour whose position is approximate. -/
def vagueContour : AttributeSet := ⟨"DEPCNT", [("QUAPOS", .int 4)]⟩

/-- What a procedure leaves to the renderer does not determine its calls. A light turns toward its
sector and a contour of approximate position is dashed, although in all attributes that their
procedures leave to the renderer they agree with a light and a contour that have none. -/
theorem evaluate_undetermined :
    (sectorLight.AgreeOn lights05.attributeCodes ⟨"LIGHTS", []⟩ ∧
      tokens (lights05.evaluate sectorLight {} .points).outcome = some [["LITDEF11", "195.0"]] ∧
      tokens (lights05.evaluate ⟨"LIGHTS", []⟩ {} .points).outcome =
        some [["LITDEF11", "135.0"]]) ∧
    vagueContour.AgreeOn depcnt02.attributeCodes ⟨"DEPCNT", []⟩ ∧
      tokens (depcnt02.evaluate vagueContour {} .lines).outcome = some [["DASH", "1", "DEPCN"]] ∧
      tokens (depcnt02.evaluate ⟨"DEPCNT", []⟩ {} .lines).outcome =
        some [["SOLD", "1", "DEPCN"]] := by
  have hlight : ∀ code ∈ lights05.attributeCodes, sectorLight.find? code = none := by
    simp only [← Option.isNone_iff_eq_none]
    decide
  have hcontour : ∀ code ∈ depcnt02.attributeCodes, vagueContour.find? code = none := by
    simp only [← Option.isNone_iff_eq_none]
    decide
  exact ⟨⟨hlight, by decide +kernel, by decide +kernel⟩, hcontour, by decide +kernel,
    by decide +kernel⟩

end Procedure

end ChartStyle
