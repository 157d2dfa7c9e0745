import ChartStyle.Files.Action
import Mathlib.Data.List.Basic

/-!
# What file operations change

Setting one path of a file tree leaves the others alone. A directory that was made is there with
all directories on the way to it, making it again changes nothing, and a file can be written into
it unless a directory is in its place. The `ending` of an action is its outcome with the files
afterwards, without what it noted.
-/

set_option autoImplicit false

namespace ChartStyle

/-- The first of some entries has the key or else the rest is looked at. -/
theorem lookup_cons_ite {α β : Type} [DecidableEq α] (a key : α) (b : β) (rest : List (α × β)) :
    ((key, b) :: rest).lookup a = if a = key then some b else rest.lookup a := by
  by_cases h : a = key
  · simp [h]
  · simp [List.lookup_cons, h, beq_eq_false_iff_ne.2 h]

namespace FileTree

/-! ## Setting one path -/

theorem lookup_setNode (nodes : List (Path × FileNode)) (p q : Path) (node : FileNode) :
    (setNode nodes p node).lookup q = if q = p then some node else nodes.lookup q := by
  induction nodes with
  | nil => simp [setNode, lookup_cons_ite]
  | cons entry rest ih =>
    obtain ⟨r, n⟩ := entry
    rw [setNode]
    by_cases hrp : r = p
    · subst hrp
      by_cases hq : q = r <;> simp [lookup_cons_ite, hq]
    · by_cases hq : q = r
      · subst hq
        simp [hrp]
      · simp [lookup_cons_ite, hrp, hq, ih]

theorem find?_set_self (t : FileTree) {p : Path} (hp : p.names ≠ []) (node : FileNode) :
    (t.set p node).find? p = some node := by
  simp [find?, set, lookup_setNode, hp]

theorem find?_set_of_ne (t : FileTree) {p q : Path} (hq : q ≠ p) (node : FileNode) :
    (t.set p node).find? q = t.find? q := by
  simp [find?, set, lookup_setNode, hq]

/-! ## Directories -/

/-- A directory is there, and so are those on the way to it. -/
def HasDirectory (t : FileTree) (d : Path) : Prop :=
  ∀ names, names <+: d.names → t.find? { d with names } = some .directory

theorem obstacle?_eq_none_iff {t : FileTree} {name : String} {ps : List Path} :
    t.obstacle? name ps = none ↔ ∀ p ∈ ps, t.find? p = some .directory := by
  induction ps with
  | nil => simp [obstacle?]
  | cons p rest ih =>
    rw [obstacle?, List.forall_mem_cons]
    rcases hfind : t.find? p with _ | (_ | text) <;> simp [ih]

/-- What is in a directory can be reached exactly when the directory is there. -/
theorem obstacle?_child_eq_none_iff {t : FileTree} {d : Path} {name file : String} :
    t.obstacle? name (d.child file).ancestors = none ↔ t.HasDirectory d := by
  rw [obstacle?_eq_none_iff]
  constructor
  · intro h names hnames
    apply h
    rw [Path.ancestors, List.mem_map]
    refine ⟨names.length, ?_, ?_⟩
    · simpa [Path.child, Nat.lt_succ_iff] using hnames.length_le
    · obtain ⟨rest, hrest⟩ := hnames
      simp [Path.child, ← hrest]
  · intro h p hp
    obtain ⟨count, hcount, rfl⟩ := List.mem_map.1 hp
    have hle : count ≤ d.names.length := by
      simpa [Path.child, Nat.lt_succ_iff] using hcount
    simpa [Path.child, List.take_append_of_le_length hle] using
      h _ (List.take_prefix count d.names)

theorem HasDirectory.child {t : FileTree} {d : Path} {name : String} (h : t.HasDirectory d)
    (hfind : t.find? (d.child name) = some .directory) : t.HasDirectory (d.child name) := by
  intro names hnames
  rcases List.prefix_concat_iff.1 hnames with rfl | hnames
  · exact hfind
  · exact h names hnames

/-! ## Making directories -/

/-- The tree has directories on the way to a place, and all else is as in another tree. -/
def HasMade (absolute : Bool) (names : List String) (before after : FileTree) : Prop :=
  ∀ q : Path, after.find? q =
    if q.absolute = absolute ∧ q.names <+: names then some .directory else before.find? q

/-- A directory that is there counts as made. -/
theorem HasDirectory.hasMade {t : FileTree} {d : Path} (h : t.HasDirectory d) :
    HasMade d.absolute d.names t t := by
  intro q
  split
  case isTrue hq =>
    obtain ⟨habsolute, hnames⟩ := hq
    simpa [← habsolute] using h q.names hnames
  case isFalse => rfl

/-- One more directory inside one that was made. -/
theorem HasMade.set {absolute : Bool} {names : List String} {before after : FileTree}
    (h : HasMade absolute names before after) (name : String) :
    HasMade absolute (names ++ [name]) before
      (after.set (Path.child ⟨absolute, names⟩ name) .directory) := by
  intro q
  by_cases hq : q = Path.child ⟨absolute, names⟩ name
  · subst hq
    rw [find?_set_self _ (by simp [Path.child]), if_pos ⟨rfl, List.prefix_rfl⟩]
  · have hne : q.absolute = absolute → q.names ≠ names ++ [name] := by
      rintro rfl hnames
      exact hq (by rw [Path.child, ← hnames])
    rw [find?_set_of_ne _ hq, h q]
    refine if_congr (and_congr_right fun habsolute => ?_) rfl rfl
    rw [List.prefix_concat_iff]
    exact (or_iff_right (hne habsolute)).symm

theorem hasMade_of_makeReversed {absolute : Bool} {names : List String} {t t' : FileTree}
    (h : t.makeReversed absolute names = .ok t') : HasMade absolute names.reverse t t' := by
  induction names generalizing t t' with
  | nil =>
    obtain rfl : t = t' := by simpa [makeReversed] using h
    refine HasDirectory.hasMade (d := ⟨absolute, []⟩) fun names hnames => ?_
    rw [List.prefix_nil.1 hnames]
    rfl
  | cons name before ih =>
    let parent : Path := ⟨absolute, before.reverse⟩
    rw [List.reverse_cons]
    rw [makeReversed] at h
    split at h
    -- The directory before is made first.
    case h_1 =>
      cases hbefore : t.makeReversed absolute before with
      | error fault => simp [hbefore, Except.map] at h
      | ok made =>
        rw [hbefore] at h
        obtain rfl : made.set (parent.child name) .directory = t' := Except.ok.inj h
        exact (ih hbefore).set name
    case h_2 => cases h
    case h_3 hway =>
      have hparent : t.HasDirectory parent := obstacle?_child_eq_none_iff.1 hway
      split at h
      case h_1 hfind =>
        obtain rfl : t = t' := Except.ok.inj h
        exact (hparent.child hfind).hasMade
      case h_2 => cases h
      case h_3 =>
        obtain rfl : t.set (parent.child name) .directory = t' := Except.ok.inj h
        exact hparent.hasMade.set name

/-- A directory that is there already is not made again. -/
theorem HasDirectory.makeReversed {t : FileTree} {absolute : Bool} {names : List String}
    (h : t.HasDirectory ⟨absolute, names.reverse⟩) : t.makeReversed absolute names = .ok t := by
  cases names with
  | nil => rfl
  | cons name before =>
    let parent : Path := ⟨absolute, before.reverse⟩
    rw [List.reverse_cons] at h
    have hparent : t.HasDirectory parent := fun ns hns =>
      h ns (hns.trans (List.prefix_append _ _))
    have hway : t.obstacle? (parent.child name).text (parent.child name).ancestors = none :=
      obstacle?_child_eq_none_iff.2 hparent
    have hfind : t.find? (parent.child name) = some .directory := h _ List.prefix_rfl
    rw [FileTree.makeReversed]
    split
    case h_1 hblocked => cases hway.symm.trans hblocked
    case h_2 hblocked => cases hway.symm.trans hblocked
    case h_3 =>
      split
      case h_1 => rfl
      case h_2 hother => cases hfind.symm.trans hother
      case h_3 hother => cases hfind.symm.trans hother

theorem hasMade_of_makeDirectory {d : Path} {t t' : FileTree} (h : t.makeDirectory d = .ok t') :
    HasMade d.absolute d.names t t' := by
  simpa using hasMade_of_makeReversed h

theorem HasMade.hasDirectory {d : Path} {t t' : FileTree} (h : HasMade d.absolute d.names t t') :
    t'.HasDirectory d := by
  intro names hnames
  rw [h, if_pos ⟨rfl, hnames⟩]

/-- No file comes of making a directory. -/
theorem HasMade.find?_file {absolute : Bool} {names : List String} {t t' : FileTree}
    (h : HasMade absolute names t t') {q : Path} {text : String}
    (hq : t'.find? q = some (.file text)) : t.find? q = some (.file text) := by
  rw [h q] at hq
  split at hq
  · cases hq
  · exact hq

/-! ## Writing into a directory -/

/-- A file can be written into a directory unless a directory is in its place. -/
theorem HasDirectory.writeWithParents {t : FileTree} {d : Path} (h : t.HasDirectory d)
    (file text : String) : t.writeWithParents (d.child file) text =
      if t.find? (d.child file) = some .directory then
        .error (.file (.isADirectory (d.child file).text))
      else .ok (t.set (d.child file) (.file text)) := by
  have hparent : (d.child file).parent = d := by simp [Path.parent, Path.child]
  have hmade : t.makeDirectory d = .ok t := HasDirectory.makeReversed (by simpa using h)
  have hway : t.obstacle? (d.child file).text (d.child file).ancestors = none :=
    obstacle?_child_eq_none_iff.2 h
  rw [FileTree.writeWithParents, hparent, hmade]
  change t.write (d.child file) text = _
  rw [write, hway]
  rcases t.find? (d.child file) with _ | (_ | before) <;> rfl

end FileTree

/-! ## How actions end -/

namespace Action

variable {α β : Type}

/-- The outcome of an action and the files afterwards. -/
def ending (action : Action α) (t : FileTree) : Except Fault α × FileTree :=
  ((action.run t).1.outcome, (action.run t).2)

theorem ending_lift {r : Report α} {outcome : Except Fault α} (h : r.outcome = outcome)
    (t : FileTree) : (liftM r : Action α).ending t = (outcome, t) := congrArg (·, t) h

theorem ending_attempt (action : Action α) (t : FileTree) :
    action.attempt.ending t = (.ok (action.ending t).1, (action.ending t).2) := rfl

theorem ending_change {f : FileTree → Except Fault FileTree} {t t' : FileTree} (h : f t = .ok t') :
    (change f).ending t = (.ok (), t') := by
  simp only [ending, run, change, h]
  rfl

theorem ending_change_error {f : FileTree → Except Fault FileTree} {t : FileTree} {fault : Fault}
    (h : f t = .error fault) : (change f).ending t = (.error fault, t) := by
  simp only [ending, run, change, h]
  rfl

/-- Where an action gives a value, the next one goes on from its files. -/
theorem ending_bind {action : Action α} {t t' : FileTree} {a : α}
    (h : action.ending t = (.ok a, t')) (next : α → Action β) :
    (action >>= next).ending t = (next a).ending t' := by
  obtain ⟨hok, rfl⟩ := Prod.mk.inj h
  change (action.andThen next).ending t = _
  simp only [ending, andThen, run] at hok ⊢
  rw [hok]

/-- Where an action fails, so does what begins with it. -/
theorem ending_bind_error {action : Action α} {t t' : FileTree} {fault : Fault}
    (h : action.ending t = (.error fault, t')) (next : α → Action β) :
    (action >>= next).ending t = (.error fault, t') := by
  obtain ⟨herror, rfl⟩ := Prod.mk.inj h
  change (action.andThen next).ending t = _
  simp only [ending, andThen, run] at herror ⊢
  rw [herror]

end Action

end ChartStyle
