import ChartStyle.CommandLine.Run
import ChartStyle.Proofs.FileTrees
import Mathlib.Data.List.Induction

/-!
# Settings that are saved

Saving makes the directories on the way to the file and empties the file before its format is looked
at. So a path whose suffix names no format is refused too late: the file there has lost its text, or
is new (`Settings.save_keeps_iff`). No other file changes, and a fault of the file system changes no
file at all. This needs a tree in which everything lies in a directory (`FileTree.IsRooted`), as in
every tree that is built by writing files (`FileTree.isRooted_ofFiles`). How YAML is written does not
matter.
-/

set_option autoImplicit false

namespace ChartStyle

theorem Path.child_inj {d e : Path} {name other : String} :
    d.child name = e.child other ↔ d = e ∧ name = other := by
  cases d
  cases e
  simp [Path.child, and_assoc]

theorem Path.exists_eq_child {p : Path} (h : p.names ≠ []) : ∃ name, p = p.parent.child name := by
  refine ⟨p.names.getLast h, ?_⟩
  cases p
  simp [Path.parent, Path.child, List.dropLast_append_getLast]

namespace FileTree

/-! ## Files -/

/-- The text of the file at a path, none where there is no file. -/
def text? (t : FileTree) (p : Path) : Option String :=
  match t.find? p with
  | some (.file text) => some text
  | _ => none

section

variable {t t' : FileTree} {p q : Path} {text : String}

theorem text?_eq_some_iff : t.text? p = some text ↔ t.find? p = some (.file text) := by
  unfold text?
  rcases t.find? p with _ | _ | before <;> simp

theorem text?_eq_none (h : t.find? p = some .directory) : t.text? p = none := by
  simp [text?, h]

theorem text?_congr (h : t'.find? p = t.find? p) : t'.text? p = t.text? p := by
  simp [text?, h]

theorem text?_set (hp : p.names ≠ []) :
    (t.set p (.file text)).text? q = if q = p then some text else t.text? q := by
  by_cases hq : q = p
  · subst hq
    simp [text?, find?_set_self t hp]
  · simp [text?, find?_set_of_ne t hq, hq]

/-- Writing succeeds just when the path can be reached and names no directory. -/
theorem write_eq_ok_iff : t.write p text = .ok t' ↔
    t.obstacle? p.text p.ancestors = none ∧ t.find? p ≠ some .directory ∧
      t' = t.set p (.file text) := by
  unfold write
  cases hway : t.obstacle? p.text p.ancestors with
  | some fault => simp
  | none => rcases t.find? p with _ | _ | before <;> simp [eq_comm]

theorem names_ne_nil (h : t.find? p ≠ some .directory) : p.names ≠ [] := by
  intro hnil
  apply h
  simp [find?, hnil]

/-- A file that has been written can be written again. -/
theorem write_again {before : String} (h : t.write p before = .ok t') (text : String) :
    t'.write p text = .ok (t'.set p (.file text)) := by
  obtain ⟨hway, hfile, rfl⟩ := write_eq_ok_iff.1 h
  have hp := names_ne_nil hfile
  refine write_eq_ok_iff.2 ⟨?_, ?_, rfl⟩
  · rw [obstacle?_eq_none_iff] at hway ⊢
    intro d hd
    -- No directory on the way to the file is the file.
    have hne : d ≠ p := by
      rintro rfl
      exact hfile (hway d hd)
    rw [find?_set_of_ne t hne]
    exact hway d hd
  · rw [find?_set_self t hp]
    simp

theorem write_eq_error {fault : Fault} (h : t.write p text = .error fault) :
    ∃ cause, fault = .file cause := by
  unfold write at h
  split at h
  · exact ⟨_, (Except.error.inj h).symm⟩
  · split at h
    · exact ⟨_, (Except.error.inj h).symm⟩
    · cases h

theorem makeReversed_eq_error {absolute : Bool} {names : List String} {fault : Fault}
    (h : t.makeReversed absolute names = .error fault) : ∃ cause, fault = .file cause := by
  induction names with
  | nil => cases h
  | cons name before ih =>
    rw [makeReversed] at h
    split at h
    · cases hbefore : t.makeReversed absolute before with
      | error cause =>
        rw [hbefore] at h
        cases h
        exact ih hbefore
      | ok made =>
        rw [hbefore] at h
        cases h
    · exact ⟨_, (Except.error.inj h).symm⟩
    · split at h
      · cases h
      · exact ⟨_, (Except.error.inj h).symm⟩
      · cases h

end

/-! ## Rooted trees -/

/-- Everything in the tree lies in a directory of the tree. -/
def IsRooted (t : FileTree) : Prop :=
  ∀ (d : Path) (name : String), (t.find? (d.child name)).isSome = true → t.find? d = some .directory

theorem isRooted_empty : empty.IsRooted := by
  intro d name h
  simp [find?, empty, Path.child] at h

namespace IsRooted

variable {t t' : FileTree} {absolute : Bool} {names : List String}

theorem hasDirectory (ht : t.IsRooted) {d : Path} (h : t.find? d = some .directory) :
    t.HasDirectory d := by
  obtain ⟨absolute, names⟩ := d
  induction names using List.reverseRecOn with
  | nil =>
    intro ns hns
    rw [List.prefix_nil.1 hns]
    rfl
  | append_singleton names name ih =>
    have hparent : t.find? ⟨absolute, names⟩ = some .directory := by
      apply ht ⟨absolute, names⟩ name
      show (t.find? ⟨absolute, names ++ [name]⟩).isSome = true
      rw [h]
      rfl
    exact (ih hparent).child h

/-- What is in a rooted tree can be reached. -/
theorem obstacle?_eq_none (ht : t.IsRooted) {d : Path} {name : String}
    (h : (t.find? (d.child name)).isSome = true) (file : String) :
    t.obstacle? file (d.child name).ancestors = none :=
  obstacle?_child_eq_none_iff.2 (ht.hasDirectory (ht d name h))

/-- A node is set inside a directory, where it takes the place of no other directory. -/
theorem set (ht : t.IsRooted) {d : Path} {name : String} {node : FileNode}
    (hd : t.find? d = some .directory)
    (hnode : t.find? (d.child name) = some .directory → node = .directory) :
    (t.set (d.child name) node).IsRooted := by
  have hnames : (d.child name).names ≠ [] := by simp [Path.child]
  intro e other hsome
  have he : t.find? e = some .directory := by
    by_cases hchild : e.child other = d.child name
    · rw [(Path.child_inj.1 hchild).1]
      exact hd
    · rw [find?_set_of_ne t hchild] at hsome
      exact ht e other hsome
  by_cases heq : e = d.child name
  · rw [heq, find?_set_self t hnames, hnode (heq ▸ he)]
  · rw [find?_set_of_ne t heq]
    exact he

theorem hasMade (ht : t.IsRooted) (h : HasMade absolute names t t') : t'.IsRooted := by
  intro d name hsome
  rw [h] at hsome ⊢
  by_cases hchild : d.absolute = absolute ∧ d.names ++ [name] <+: names
  · exact if_pos ⟨hchild.1, (List.prefix_append _ _).trans hchild.2⟩
  · have hfind := hsome
    rw [if_neg (by exact hchild)] at hfind
    rw [ht d name hfind]
    exact ite_self _

theorem write (ht : t.IsRooted) {p : Path} {text : String} (h : t.write p text = .ok t') :
    t'.IsRooted := by
  obtain ⟨hway, hfile, rfl⟩ := write_eq_ok_iff.1 h
  obtain ⟨name, hp⟩ := Path.exists_eq_child (names_ne_nil hfile)
  rw [hp] at hway hfile ⊢
  have hparent := obstacle?_child_eq_none_iff.1 hway
  exact ht.set (hparent _ List.prefix_rfl) fun hdirectory => absurd hdirectory hfile

/-- A directory is made only where no file is in the way. -/
theorem find?_ne_file_of_makeReversed (ht : t.IsRooted)
    (h : t.makeReversed absolute names = .ok t') {ns : List String} (hns : ns <+: names.reverse)
    (text : String) : t.find? ⟨absolute, ns⟩ ≠ some (.file text) := by
  intro hfile
  induction names generalizing t' with
  | nil =>
    rw [List.prefix_nil.1 hns] at hfile
    cases hfile
  | cons name before ih =>
    let d : Path := ⟨absolute, before.reverse⟩
    rw [List.reverse_cons, List.prefix_concat_iff] at hns
    rw [makeReversed] at h
    split at h
    case h_1 hblocked =>
      cases hbefore : t.makeReversed absolute before with
      | error fault =>
        rw [hbefore] at h
        cases h
      | ok made =>
        rcases hns with rfl | hprefix
        -- A file at the path itself can be reached, so nothing is missing on the way.
        · have hsome : (t.find? (d.child name)).isSome = true := by
            show (t.find? ⟨absolute, before.reverse ++ [name]⟩).isSome = true
            rw [hfile]
            rfl
          cases (ht.obstacle?_eq_none hsome _).symm.trans hblocked
        · exact ih hbefore hprefix
    case h_2 => cases h
    case h_3 hreached =>
      rcases hns with rfl | hprefix
      · rw [hfile] at h
        cases h
      · have hparent : t.HasDirectory d := obstacle?_child_eq_none_iff.1 hreached
        cases (hparent ns hprefix).symm.trans hfile

/-- Making a directory changes no file. -/
theorem text?_of_makeDirectory (ht : t.IsRooted) {d : Path} (h : t.makeDirectory d = .ok t')
    (q : Path) : t'.text? q = t.text? q := by
  have hmade := hasMade_of_makeDirectory h q
  split at hmade
  case isTrue hq =>
    obtain ⟨habsolute, hprefix⟩ := hq
    rw [text?_eq_none hmade]
    symm
    rw [Option.eq_none_iff_forall_ne_some]
    intro text htext
    rw [text?_eq_some_iff] at htext
    have hnames : q.names <+: d.names.reverse.reverse := by
      rw [List.reverse_reverse]
      exact hprefix
    refine ht.find?_ne_file_of_makeReversed h hnames text ?_
    rw [← habsolute]
    exact htext
  case isFalse => exact text?_congr hmade

theorem writeWithParents (ht : t.IsRooted) {p : Path} {text : String}
    (h : t.writeWithParents p text = .ok t') : t'.IsRooted := by
  rw [FileTree.writeWithParents] at h
  cases hmade : t.makeDirectory p.parent with
  | error fault =>
    rw [hmade] at h
    cases h
  | ok made =>
    rw [hmade] at h
    exact (ht.hasMade (hasMade_of_makeDirectory hmade)).write h

end IsRooted

theorem isRooted_ofFiles (files : List (String × String)) : (ofFiles files).IsRooted := by
  unfold ofFiles
  apply List.foldlRecOn files _ isRooted_empty
  rintro t ht ⟨name, text⟩ -
  cases hwritten : t.writeWithParents (Path.ofText name) text with
  | ok written =>
    simp only [hwritten]
    exact ht.writeWithParents hwritten
  | error fault =>
    simp only [hwritten]
    exact ht

end FileTree

namespace Settings

/-! ## Saving -/

section

variable [Yaml.Format]

/-- The text that settings have in the format of a path, none where its suffix names no format. -/
def saved? (s : Settings) (p : Path) : Option String :=
  if p.isYaml then some (Yaml.Format.write s.entries)
  else if p.isJson then some (Json.write s.toValue)
  else none

theorem saved?_eq_none_iff {s : Settings} {p : Path} :
    s.saved? p = none ↔ p.isYaml = false ∧ p.isJson = false := by
  unfold saved?
  cases p.isYaml <;> cases p.isJson <;> simp

/-- What is written once the file is open. -/
def writeSaved (s : Settings) (p : Path) : Action Unit :=
  match s.saved? p with
  | some text => Action.change fun t => t.write p text
  | none => Action.ofReport (.fail (.configuration (.unsupportedFormat p.suffix) none))

theorem save_eq (s : Settings) (p : Path) :
    s.save p = (do
      Action.change fun t => t.makeDirectory p.parent
      Action.change fun t => t.write p ""
      s.writeSaved p) := by
  unfold save writeSaved saved?
  cases p.isYaml <;> cases p.isJson <;> rfl

variable {s : Settings} {p : Path} {t made opened : FileTree} {fault : Fault}

theorem ending_save_of_blocked (h : t.makeDirectory p.parent = .error fault) :
    (s.save p).ending t = (.error fault, t) := by
  rw [save_eq]
  exact Action.ending_bind_error (Action.ending_change_error h) _

theorem ending_save_of_made (h : t.makeDirectory p.parent = .ok made)
    (hwrite : made.write p "" = .error fault) : (s.save p).ending t = (.error fault, made) := by
  rw [save_eq, Action.ending_bind (Action.ending_change h)]
  exact Action.ending_bind_error (Action.ending_change_error hwrite) _

theorem ending_save_of_opened (h : t.makeDirectory p.parent = .ok made)
    (hwrite : made.write p "" = .ok opened) :
    (s.save p).ending t = (s.writeSaved p).ending opened := by
  rw [save_eq, Action.ending_bind (Action.ending_change h),
    Action.ending_bind (Action.ending_change hwrite)]

theorem ending_writeSaved (h : made.write p "" = .ok opened) :
    (s.writeSaved p).ending opened =
      match s.saved? p with
      | some text => (.ok (), opened.set p (.file text))
      | none => (.error (.configuration (.unsupportedFormat p.suffix) none), opened) := by
  unfold writeSaved
  cases s.saved? p with
  | some text => exact Action.ending_change (FileTree.write_again h text)
  | none => rfl

/-- The three ways in which saving ends: the file cannot be opened, or its format is unknown and it
has been emptied, or the settings are written. -/
inductive SaveEnding (s : Settings) (p : Path) (t : FileTree) :
    Except Fault Unit × FileTree → Prop where
  | unopened {cause : FileFault} {t' : FileTree} (hfiles : ∀ q, t'.text? q = t.text? q)
      (hclosed : ∀ opened, t.writeWithParents p "" ≠ .ok opened) :
    SaveEnding s p t (.error (.file cause), t')
  | emptied {t' : FileTree} (hopened : t.writeWithParents p "" = .ok t')
      (hformat : s.saved? p = none)
      (hfiles : ∀ q, t'.text? q = if q = p then some "" else t.text? q) :
    SaveEnding s p t (.error (.configuration (.unsupportedFormat p.suffix) none), t')
  | written {text : String} {t' : FileTree} (hformat : s.saved? p = some text)
      (hfiles : ∀ q, t'.text? q = if q = p then some text else t.text? q) :
    SaveEnding s p t (.ok (), t')

theorem saveEnding (s : Settings) (p : Path) {t : FileTree} (ht : t.IsRooted) :
    SaveEnding s p t ((s.save p).ending t) := by
  have hparents : t.writeWithParents p "" = t.makeDirectory p.parent >>= fun made =>
      made.write p "" := rfl
  cases hmade : t.makeDirectory p.parent with
  | error fault =>
    obtain ⟨cause, rfl⟩ := FileTree.makeReversed_eq_error hmade
    rw [ending_save_of_blocked hmade]
    refine .unopened (fun q => rfl) fun opened hopened => ?_
    rw [hparents, hmade] at hopened
    cases hopened
  | ok made =>
    have hkept := ht.text?_of_makeDirectory hmade
    have hopening : t.writeWithParents p "" = made.write p "" := by
      rw [hparents, hmade]
      rfl
    cases hwrite : made.write p "" with
    | error fault =>
      obtain ⟨cause, rfl⟩ := FileTree.write_eq_error hwrite
      rw [ending_save_of_made hmade hwrite]
      refine .unopened hkept fun opened hopened => ?_
      rw [hopening, hwrite] at hopened
      cases hopened
    | ok opened =>
      obtain ⟨-, hfile, hset⟩ := FileTree.write_eq_ok_iff.1 hwrite
      have hp := FileTree.names_ne_nil hfile
      have hfiles (q : Path) : opened.text? q = if q = p then some "" else t.text? q := by
        rw [hset, FileTree.text?_set hp, hkept]
      rw [ending_save_of_opened hmade hwrite, ending_writeSaved hwrite]
      cases hformat : s.saved? p with
      | none => exact .emptied (hopening.trans hwrite) hformat hfiles
      | some text =>
        refine .written hformat fun q => ?_
        rw [FileTree.text?_set hp, hfiles]
        split <;> rfl

/-- Saving fails with a configuration fault just when the suffix of the path names no format and a
file can be opened there. Then this file has lost its text, or is new and empty, and all other files
are as they were: so nothing has changed just when there was an empty file before. Where the file
cannot be opened no file changes. -/
theorem save_keeps_iff (s : Settings) (p : Path) {t : FileTree} (ht : t.IsRooted) :
    ((∃ problem rule, ((s.save p).ending t).1 = .error (.configuration problem rule)) ↔
      (p.isYaml = false ∧ p.isJson = false) ∧ ∃ opened, t.writeWithParents p "" = .ok opened) ∧
    ∀ fault t', (s.save p).ending t = (.error fault, t') →
      (∃ cause, fault = .file cause ∧ ∀ q, t'.text? q = t.text? q) ∨
      (fault = .configuration (.unsupportedFormat p.suffix) none ∧
        (∀ q, t'.text? q = if q = p then some "" else t.text? q) ∧
        ((∀ q, t'.text? q = t.text? q) ↔ t.text? p = some "")) := by
  have hending := saveEnding s p ht
  constructor
  · rw [← saved?_eq_none_iff (s := s)]
    generalize (s.save p).ending t = ending at hending
    cases hending with
    | unopened hfiles hclosed =>
      constructor
      · rintro ⟨problem, rule, h⟩
        cases h
      · rintro ⟨-, opened, hopened⟩
        exact absurd hopened (hclosed opened)
    | emptied hopened hformat hfiles =>
      exact iff_of_true ⟨_, _, rfl⟩ ⟨hformat, _, hopened⟩
    | written hformat hfiles =>
      constructor
      · rintro ⟨problem, rule, h⟩
        cases h
      · rintro ⟨hnone, -⟩
        rw [hformat] at hnone
        cases hnone
  · intro fault t' h
    rw [h] at hending
    cases hending with
    | unopened hfiles hclosed => exact .inl ⟨_, rfl, hfiles⟩
    | emptied hopened hformat hfiles =>
      refine .inr ⟨rfl, hfiles, ?_⟩
      constructor
      · intro hsame
        rw [← hsame p, hfiles p, if_pos rfl]
      · intro hempty q
        rw [hfiles q]
        split
        case isTrue hq => rw [hq, hempty]
        case isFalse => rfl

end

/-! ## A file of another format -/

/-- A file with some settings in a format that is not known. -/
def tomlFiles : FileTree := .ofFiles [("chart.toml", "mode = 'DAY'")]

/-- The path of this file. -/
def tomlPath : Path := ⟨false, ["chart.toml"]⟩

theorem outcome_save_tomlFiles :
    ((Settings.save {} tomlPath).ending tomlFiles).1 =
      .error (.configuration (.unsupportedFormat ".toml") none) := by
  rfl

/-- The file has lost its text. -/
theorem save_keeps_iff_tomlFiles : tomlFiles.IsRooted ∧
    tomlFiles.text? tomlPath = some "mode = 'DAY'" ∧
    ∃ t', (Settings.save {} tomlPath).ending tomlFiles =
        (.error (.configuration (.unsupportedFormat ".toml") none), t') ∧
      t'.text? tomlPath = some "" ∧ ¬ ∀ q, t'.text? q = tomlFiles.text? q := by
  have hrooted : tomlFiles.IsRooted := FileTree.isRooted_ofFiles _
  have htext : tomlFiles.text? tomlPath = some "mode = 'DAY'" := rfl
  have hending : (Settings.save {} tomlPath).ending tomlFiles =
      (.error (.configuration (.unsupportedFormat ".toml") none), _) :=
    Prod.ext outcome_save_tomlFiles rfl
  obtain ⟨cause, hfault, -⟩ | ⟨-, hfiles, hkept⟩ :=
    (save_keeps_iff {} tomlPath hrooted).2 _ _ hending
  · cases hfault
  · refine ⟨hrooted, htext, _, hending, (hfiles tomlPath).trans (if_pos rfl), ?_⟩
    rw [hkept, htext]
    decide

/-- Saving makes a new file before it fails. -/
theorem save_newTomlFile : ∃ t', FileTree.empty.text? tomlPath = none ∧
    (Settings.save {} tomlPath).ending .empty =
      (.error (.configuration (.unsupportedFormat ".toml") none), t') ∧
    t'.text? tomlPath = some "" :=
  ⟨_, rfl, Prod.ext rfl rfl, rfl⟩

end Settings

end ChartStyle
