import ChartStyle.Batch
import ChartStyle.Proofs.CanonicalOrder
import ChartStyle.Proofs.FileTrees
import ChartStyle.Proofs.LayerOrder
import ChartStyle.Proofs.ReadCalls
import Mathlib.Data.List.Induction
import Mathlib.Data.List.Perm.Basic

/-!
# Batches in any order of completion

Modes that are compiled side by side finish in any order and are recorded in any order. A turn of
the pool moves one mode on, from those that run to those that have finished or from there to the
ledger, so together they stay a permutation of the wanted modes (`Pool.Accounts`). What has
finished is the outcome that the mode has by itself: compiles only write files of their own, which
no other mode reads. When nothing is left to record, the ledger holds one outcome for each wanted
mode, and its result is the same whatever the order was (`Ledger.Records.result_eq`). So is that of
compiling the modes one after the other.
-/

set_option autoImplicit false

namespace ChartStyle

/-! ## The order of first requests -/

namespace LookupTable

variable {α : Type} [BEq α] [LawfulBEq α]

theorem distinct_concat (xs : List α) (x : α) :
    distinct (xs ++ [x]) = if x ∈ xs then distinct xs else distinct xs ++ [x] := by
  rw [distinct, List.foldl_append]
  change (if (distinct xs).contains x then distinct xs else distinct xs ++ [x]) = _
  simp [mem_distinct]

/-- What occurs first comes first. -/
theorem pairwise_distinct (xs : List α) :
    (distinct xs).Pairwise fun x y => xs.idxOf x < xs.idxOf y := by
  induction xs using List.reverseRecOn with
  | nil => exact List.Pairwise.nil
  | append_singleton xs x ih =>
    have hbefore : (distinct xs).Pairwise fun y z =>
        (xs ++ [x]).idxOf y < (xs ++ [x]).idxOf z := by
      refine ih.imp_of_mem ?_
      intro y z hy hz hlt
      rwa [List.idxOf_append_of_mem (mem_distinct.1 hy),
        List.idxOf_append_of_mem (mem_distinct.1 hz)]
    -- A repetition at the end adds nothing, and what is new there comes after all else.
    rw [distinct_concat]
    by_cases hx : x ∈ xs
    · rwa [if_pos hx]
    · rw [if_neg hx, List.pairwise_append]
      refine ⟨hbefore, List.pairwise_singleton _ x, ?_⟩
      intro y hy z hz
      obtain rfl : z = x := List.mem_singleton.1 hz
      have hmem := mem_distinct.1 hy
      rw [List.idxOf_append_of_mem hmem, List.idxOf_append_of_notMem hx]
      exact Nat.lt_add_right _ (List.idxOf_lt_length_of_mem hmem)

end LookupTable

namespace Batch

variable {p : Presentation} {b : BatchRequest}

/-! ## The files of the styles -/

theorem stylePath_injective (directory : Path) : Function.Injective (stylePath directory) := by
  intro mode mode' h
  have hnames := congrArg Path.names h
  simp only [stylePath, Path.child, List.append_cancel_left_eq, List.cons.injEq, and_true]
    at hnames
  cases mode <;> cases mode' <;> first | rfl | exact absurd hnames (by decide)

/-- One tree is another one with the styles of some modes written. -/
structure StylesWritten (p : Presentation) (b : BatchRequest) (modes : List DisplayMode)
    (before after : FileTree) : Prop where
  /-- The modes compile, and each has its style in its file. -/
  written : ∀ directory, b.outputDirectory = some directory → ∀ mode ∈ modes,
    ∃ document, (compiled p b mode).outcome = .ok document ∧
      after.find? (stylePath directory mode) = some (.file (Json.write document.toValue))
  /-- At any other place the trees are the same. -/
  untouched : ∀ q, (∀ directory, b.outputDirectory = some directory → ∀ mode ∈ modes,
    q ≠ stylePath directory mode) → after.find? q = before.find? q

namespace StylesWritten

variable {modes modes' : List DisplayMode} {before after : FileTree}

theorem refl (p : Presentation) (b : BatchRequest) (t : FileTree) : StylesWritten p b [] t t where
  written _ _ _ hmode := absurd hmode List.not_mem_nil
  untouched _ _ := rfl

theorem congr (h : StylesWritten p b modes before after)
    (hsame : ∀ mode, mode ∈ modes ↔ mode ∈ modes') :
    StylesWritten p b modes' before after where
  written directory hdirectory mode hmode :=
    h.written directory hdirectory mode ((hsame mode).2 hmode)
  untouched q hq := h.untouched q fun directory hdirectory mode hmode =>
    hq directory hdirectory mode ((hsame mode).1 hmode)

/-- Writing the style of one more mode. -/
theorem set (h : StylesWritten p b modes before after) {directory : Path}
    (hdirectory : b.outputDirectory = some directory) {mode : DisplayMode}
    {document : StyleDocument} (hdocument : (compiled p b mode).outcome = .ok document) :
    StylesWritten p b (mode :: modes) before
      (after.set (stylePath directory mode) (.file (Json.write document.toValue))) where
  written := by
    intro directory' hdirectory' mode' hmode'
    obtain rfl : directory = directory' := Option.some.inj (hdirectory.symm.trans hdirectory')
    by_cases hsame : mode' = mode
    · subst hsame
      exact ⟨document, hdocument, after.find?_set_self (by simp [stylePath, Path.child]) _⟩
    · rw [after.find?_set_of_ne ((stylePath_injective directory).ne hsame)]
      exact h.written directory hdirectory mode' (List.mem_of_ne_of_mem hsame hmode')
  untouched := by
    intro q hq
    rw [after.find?_set_of_ne (hq directory hdirectory mode List.mem_cons_self)]
    exact h.untouched q fun directory' hdirectory' mode' hmode' =>
      hq directory' hdirectory' mode' (List.mem_cons_of_mem mode hmode')

/-- The output directory stays where it is. -/
theorem hasDirectory (h : StylesWritten p b modes before after) {directory : Path}
    (hbefore : before.HasDirectory directory) (hdirectory : b.outputDirectory = some directory) :
    after.HasDirectory directory := by
  intro names hnames
  rw [h.untouched _ ?_]
  · exact hbefore names hnames
  -- The way to the directory is shorter than the way to any file in it.
  · intro directory' hdirectory' mode _ hpath
    obtain rfl : directory = directory' := Option.some.inj (hdirectory.symm.trans hdirectory')
    have hlength := congrArg (fun q : Path => q.names.length) hpath
    have hle := hnames.length_le
    simp only [stylePath, Path.child, List.length_append, List.length_singleton] at hlength
    omega

/-- Where a style can be written at first it can be written later. -/
theorem find?_ne_directory (h : StylesWritten p b modes before after) {directory : Path}
    (hdirectory : b.outputDirectory = some directory) {mode : DisplayMode}
    (hbefore : before.find? (stylePath directory mode) ≠ some .directory) :
    after.find? (stylePath directory mode) ≠ some .directory := by
  by_cases hmode : mode ∈ modes
  · obtain ⟨document, -, hfile⟩ := h.written directory hdirectory mode hmode
    rw [hfile]
    simp
  · rw [h.untouched _ ?_]
    · exact hbefore
    · intro directory' hdirectory' mode' hmode' hpath
      obtain rfl : directory = directory' := Option.some.inj (hdirectory.symm.trans hdirectory')
      exact hmode (stylePath_injective directory hpath ▸ hmode')

end StylesWritten

/-! ## One mode -/

/-- What a mode gives by itself. -/
def verdict (p : Presentation) (b : BatchRequest) (t : FileTree) (mode : DisplayMode) :
    Except Fault ModeStyle := ((compileMode p b mode).ending t).1

/-- The modes whose styles compile. -/
def compiling (p : Presentation) (b : BatchRequest) (modes : List DisplayMode) :
    List DisplayMode := modes.filter fun mode => (compiled p b mode).outcome.isOk

theorem compileMode_of_error {mode : DisplayMode} {fault : Fault}
    (h : (compiled p b mode).outcome = .error fault) (t : FileTree) :
    (compileMode p b mode).ending t = (.error fault, t) :=
  Action.ending_bind_error (Action.ending_lift h t) _

/-- A style that is only returned. -/
theorem compileMode_of_none {mode : DisplayMode} {document : StyleDocument}
    (h : (compiled p b mode).outcome = .ok document) (hnone : b.outputDirectory = none)
    (t : FileTree) : (compileMode p b mode).ending t =
      (.ok ⟨.document document, (compiled p b mode).diagnostics.length⟩, t) := by
  rw [compileMode, Action.ending_bind (Action.ending_lift h t), hnone]
  rfl

/-- A style that is written. -/
theorem compileMode_of_some {mode : DisplayMode} {document : StyleDocument}
    (h : (compiled p b mode).outcome = .ok document) {directory : Path}
    (hsome : b.outputDirectory = some directory) {t : FileTree} (ht : t.HasDirectory directory)
    (hfind : t.find? (stylePath directory mode) ≠ some .directory) :
    (compileMode p b mode).ending t =
      (.ok ⟨.file (stylePath directory mode), (compiled p b mode).diagnostics.length⟩,
        t.set (stylePath directory mode) (.file (Json.write document.toValue))) := by
  have hwrite : t.writeWithParents (stylePath directory mode) (Json.write document.toValue) =
      .ok (t.set (stylePath directory mode) (.file (Json.write document.toValue))) := by
    rw [stylePath, ht.writeWithParents]
    exact if_neg hfind
  rw [compileMode, Action.ending_bind (Action.ending_lift h t), hsome]
  exact Action.ending_bind (Action.ending_change hwrite) _

/-- A style that cannot be written. -/
theorem compileMode_of_directory {mode : DisplayMode} {document : StyleDocument}
    (h : (compiled p b mode).outcome = .ok document) {directory : Path}
    (hsome : b.outputDirectory = some directory) {t : FileTree} (ht : t.HasDirectory directory)
    (hfind : t.find? (stylePath directory mode) = some .directory) :
    (compileMode p b mode).ending t =
      (.error (.file (.isADirectory (stylePath directory mode).text)), t) := by
  have hwrite : t.writeWithParents (stylePath directory mode) (Json.write document.toValue) =
      .error (.file (.isADirectory (stylePath directory mode).text)) := by
    rw [stylePath, ht.writeWithParents]
    exact if_pos hfind
  rw [compileMode, Action.ending_bind (Action.ending_lift h t), hsome]
  exact Action.ending_bind_error (Action.ending_change_error hwrite) _

/-- The output directory is there, and the faults of some modes are the library's own. -/
structure Settled (p : Presentation) (b : BatchRequest) (modes : List DisplayMode)
    (t : FileTree) : Prop where
  hasDirectory : ∀ directory, b.outputDirectory = some directory → t.HasDirectory directory
  isOwn : ∀ mode ∈ modes, ∀ fault, verdict p b t mode = .error fault → fault.isOwn = true

namespace Settled

variable {modes : List DisplayMode} {t₀ : FileTree}

/-- A mode that compiles can be written. -/
theorem find?_ne_directory (h : Settled p b modes t₀) {mode : DisplayMode} (hmode : mode ∈ modes)
    {document : StyleDocument} (hdocument : (compiled p b mode).outcome = .ok document)
    {directory : Path} (hdirectory : b.outputDirectory = some directory) :
    t₀.find? (stylePath directory mode) ≠ some .directory := by
  intro hfind
  have hending := compileMode_of_directory hdocument hdirectory
    (h.hasDirectory directory hdirectory) hfind
  have hown := h.isOwn mode hmode _ (congrArg Prod.fst hending)
  cases hown

/-- Whatever was compiled before, a mode gives what it gives by itself, and writes its style. -/
theorem compileMode_ending (h : Settled p b modes t₀) {mode : DisplayMode} (hmode : mode ∈ modes)
    {done : List DisplayMode} {t : FileTree} (ht : StylesWritten p b (compiling p b done) t₀ t) :
    ∃ t', (compileMode p b mode).ending t = (verdict p b t₀ mode, t') ∧
      StylesWritten p b (compiling p b (mode :: done)) t₀ t' := by
  cases hcompiled : (compiled p b mode).outcome with
  -- A mode that does not compile leaves the files alone.
  | error fault =>
    refine ⟨t, ?_, ?_⟩
    · rw [verdict, compileMode_of_error hcompiled, compileMode_of_error hcompiled]
    · rwa [compiling, List.filter_cons_of_neg (by rw [hcompiled]; exact Bool.false_ne_true)]
  | ok document =>
    have hmodes : compiling p b (mode :: done) = mode :: compiling p b done :=
      List.filter_cons_of_pos (by rw [hcompiled]; rfl)
    rw [hmodes]
    cases hdirectory : b.outputDirectory with
    | none =>
      refine ⟨t, ?_, ?_, ?_⟩
      · rw [verdict, compileMode_of_none hcompiled hdirectory,
          compileMode_of_none hcompiled hdirectory]
      · intro directory hsome
        cases hdirectory.symm.trans hsome
      · intro q _
        refine ht.untouched q fun directory hsome => ?_
        cases hdirectory.symm.trans hsome
    -- The other modes have written files of their own, so this one can be written as at first.
    | some directory =>
      have hfree := h.find?_ne_directory hmode hcompiled hdirectory
      have hfree' := ht.find?_ne_directory hdirectory hfree
      have hthere := h.hasDirectory directory hdirectory
      refine ⟨_, ?_, ht.set hdirectory hcompiled⟩
      rw [verdict, compileMode_of_some hcompiled hdirectory hthere hfree,
        compileMode_of_some hcompiled hdirectory (ht.hasDirectory hthere hdirectory) hfree']

end Settled

/-! ## The ledger -/

namespace Ledger

variable {verdict : DisplayMode → Except Fault ModeStyle} {seen modes : List DisplayMode}

/-- Entries hold a part of the style of each recorded mode that has one. -/
def Hold {α : Type} (verdict : DisplayMode → Except Fault ModeStyle) (seen : List DisplayMode)
    (part : ModeStyle → α) (entries : List (DisplayMode × α)) : Prop :=
  ∀ mode, entries.lookup mode =
    if mode ∈ seen then (verdict mode).toOption.map part else none

section Entries

variable {α : Type} {part : ModeStyle → α} {entries : List (DisplayMode × α)}

/-- A style goes in front; for a mode that was recorded before it is the same one again. -/
theorem Hold.push (h : Hold verdict seen part entries) {mode : DisplayMode} {style : ModeStyle}
    (hstyle : verdict mode = .ok style) :
    Hold verdict (mode :: seen) part ((mode, part style) :: entries) := by
  intro m
  by_cases hm : m = mode
  · subst hm
    simp [hstyle, Except.toOption]
  · simp [lookup_cons_ite, hm, h m]

/-- A mode that failed leaves no entry. -/
theorem Hold.skip (h : Hold verdict seen part entries) {mode : DisplayMode} {fault : Fault}
    (hfault : verdict mode = .error fault) : Hold verdict (mode :: seen) part entries := by
  intro m
  by_cases hm : m = mode
  · subst hm
    simp [h m, hfault, Except.toOption]
  · simp [hm, h m]

/-- The entries of modes that were all recorded, where each is wanted first. -/
theorem Hold.latest_eq (h : Hold verdict seen part entries)
    (hseen : ∀ mode ∈ modes, mode ∈ seen) :
    latest modes entries = (LookupTable.distinct modes).filterMap fun mode =>
      (verdict mode).toOption.map fun style => (mode, part style) := by
  apply List.filterMap_congr
  intro mode hmode
  rw [h mode, if_pos (hseen mode (LookupTable.mem_distinct.1 hmode)), Option.map_map]
  rfl

end Entries

/-- A ledger holds the verdicts on the modes that were recorded. -/
structure Records (verdict : DisplayMode → Except Fault ModeStyle) (seen : List DisplayMode)
    (l : Ledger) : Prop where
  outputs : Hold verdict seen (·.output) l.outputs
  counts : Hold verdict seen (·.diagnostics) l.counts
  failed : ∀ mode, mode ∈ l.failed ↔ mode ∈ seen ∧ (verdict mode).toOption = none

theorem records_empty (verdict : DisplayMode → Except Fault ModeStyle) :
    Records verdict [] {} := by
  constructor <;> simp [Hold]

/-- A style, or a fault that is the library's own, is recorded. -/
theorem Records.add {l : Ledger} (h : Records verdict seen l) {mode : DisplayMode}
    (hown : ∀ fault, verdict mode = .error fault → fault.isOwn = true) :
    ∃ l', (l.add (mode, verdict mode)).outcome = .ok l' ∧ Records verdict (mode :: seen) l' := by
  cases hverdict : verdict mode with
  | ok style =>
    refine ⟨_, rfl, h.outputs.push hverdict, h.counts.push hverdict, ?_⟩
    intro m
    by_cases hm : m = mode
    · subst hm
      simp [h.failed, hverdict, Except.toOption]
    · simp [hm, h.failed]
  | error fault =>
    refine ⟨{ l with failed := l.failed ++ [mode] }, ?_, h.outputs.skip hverdict,
      h.counts.skip hverdict, ?_⟩
    · rw [Ledger.add, if_pos (hown fault hverdict)]
      rfl
    · intro m
      by_cases hm : m = mode
      · subst hm
        simp [hverdict, Except.toOption]
      · simp [hm, h.failed]

end Ledger

/-- The result when each wanted mode has its verdict. -/
def resultOf (verdict : DisplayMode → Except Fault ModeStyle) (modes : List DisplayMode) :
    BatchResult :=
  { styles := (LookupTable.distinct modes).filterMap fun mode =>
      (verdict mode).toOption.map fun style => (mode, style.output)
    failed := modes.filter fun mode => (verdict mode).toOption.isNone
    diagnostics := (LookupTable.distinct modes).filterMap fun mode =>
      (verdict mode).toOption.map fun style => (mode, style.diagnostics) }

/-- Once all wanted modes and no others are recorded, nothing is left of the order. -/
theorem Ledger.Records.result_eq {verdict : DisplayMode → Except Fault ModeStyle}
    {seen modes : List DisplayMode} {l : Ledger} (h : l.Records verdict seen)
    (hseen : ∀ mode ∈ modes, mode ∈ seen) : l.result modes = resultOf verdict modes := by
  have hfailed : (modes.filter fun mode => l.failed.contains mode) =
      modes.filter fun mode => (verdict mode).toOption.isNone := by
    apply List.filter_congr
    intro mode hmode
    rw [Bool.eq_iff_iff, List.contains_iff_mem, h.failed, Option.isNone_iff_eq_none]
    exact and_iff_right (hseen mode hmode)
  rw [Ledger.result, resultOf, h.outputs.latest_eq hseen, h.counts.latest_eq hseen, hfailed]

/-! ## One mode after the other -/

theorem mem_compiling_congr {modes modes' : List DisplayMode}
    (h : ∀ mode, mode ∈ modes ↔ mode ∈ modes') (mode : DisplayMode) :
    mode ∈ compiling p b modes ↔ mode ∈ compiling p b modes' := by
  rw [compiling, compiling, List.mem_filter, List.mem_filter, h mode]

/-- Modes that are compiled in turn are all recorded. -/
theorem Settled.runInTurn {modes : List DisplayMode} {t₀ : FileTree} (h : Settled p b modes t₀)
    (rest : List DisplayMode) (hrest : ∀ mode ∈ rest, mode ∈ modes) {seen : List DisplayMode}
    {ledger : Ledger} {t : FileTree} (hledger : ledger.Records (verdict p b t₀) seen)
    (ht : StylesWritten p b (compiling p b seen) t₀ t) :
    ∃ ledger' t', (Batch.runInTurn p b ledger rest).ending t = (.ok ledger', t') ∧
      ledger'.Records (verdict p b t₀) (rest.reverse ++ seen) ∧
      StylesWritten p b (compiling p b (rest.reverse ++ seen)) t₀ t' := by
  induction rest generalizing seen ledger t with
  | nil => exact ⟨ledger, t, rfl, hledger, ht⟩
  | cons mode rest ih =>
    obtain ⟨hmode, hrest⟩ := List.forall_mem_cons.1 hrest
    obtain ⟨t', hcompile, ht'⟩ := h.compileMode_ending hmode ht
    obtain ⟨ledger', hadd, hledger'⟩ := hledger.add (h.isOwn mode hmode)
    have hattempt : (compileMode p b mode).attempt.ending t = (.ok (verdict p b t₀ mode), t') := by
      rw [Action.ending_attempt, hcompile]
    obtain ⟨ledger'', t'', hrun, hrecords, hfiles⟩ := ih hrest hledger' ht'
    rw [List.reverse_cons, List.append_assoc, List.singleton_append]
    refine ⟨ledger'', t'', ?_, hrecords, hfiles⟩
    rw [Batch.runInTurn, Action.ending_bind hattempt]
    exact (Action.ending_bind (Action.ending_lift hadd t') _).trans hrun

/-! ## Side by side -/

namespace Pool

variable {modes recorded : List DisplayMode} {t₀ t : FileTree} {pool : Pool}

/-- The modes that run, those that have finished and those that were recorded are the wanted ones,
and what has finished or was recorded is as the modes give it by themselves. -/
structure Accounts (p : Presentation) (b : BatchRequest) (modes : List DisplayMode)
    (t₀ : FileTree) (recorded : List DisplayMode) (pool : Pool) (t : FileTree) : Prop where
  perm : (pool.running ++ (pool.finished.map (·.1) ++ recorded)).Perm modes
  finished : ∀ outcome ∈ pool.finished, outcome.2 = verdict p b t₀ outcome.1
  ledger : pool.ledger.Records (verdict p b t₀) recorded
  fault : pool.fault = none
  files : StylesWritten p b (compiling p b (pool.finished.map (·.1) ++ recorded)) t₀ t

/-- A pool in which no compile has finished. -/
theorem accounts_start (p : Presentation) (b : BatchRequest) (modes : List DisplayMode)
    (t₀ : FileTree) : Accounts p b modes t₀ [] { running := modes } t₀ where
  perm := by simp
  finished := by simp
  ledger := Ledger.records_empty _
  fault := rfl
  files := StylesWritten.refl p b t₀

/-- A compile finishes. -/
theorem Accounts.finish (hs : Settled p b modes t₀) (h : Accounts p b modes t₀ recorded pool t)
    {position : Nat} {mode : DisplayMode} (hat : pool.running[position]? = some mode) :
    ∃ t', (pool.take p b (.finish position)).ending t =
        (.ok { pool with
          running := pool.running.eraseIdx position
          finished := pool.finished ++ [(mode, verdict p b t₀ mode)] }, t') ∧
      Accounts p b modes t₀ recorded { pool with
        running := pool.running.eraseIdx position
        finished := pool.finished ++ [(mode, verdict p b t₀ mode)] } t' := by
  obtain ⟨hlt, rfl⟩ := List.getElem?_eq_some_iff.1 hat
  have hmode : pool.running[position] ∈ modes :=
    h.perm.mem_iff.1 (List.mem_append_left _ (List.getElem_mem hlt))
  obtain ⟨t', hcompile, hfiles⟩ := hs.compileMode_ending hmode h.files
  have hattempt : (compileMode p b pool.running[position]).attempt.ending t =
      (.ok (verdict p b t₀ pool.running[position]), t') := by
    rw [Action.ending_attempt, hcompile]
  refine ⟨t', ?_, ?_, ?_, h.ledger, h.fault, ?_⟩
  · rw [take, hat]
    exact Action.ending_bind hattempt _
  -- The mode moves from those that run to those that have finished.
  · refine List.Perm.trans ?_ h.perm
    rw [List.map_append, List.append_assoc]
    have hfront : (pool.running.eraseIdx position ++
          (pool.finished.map (·.1) ++ pool.running[position] :: recorded)).Perm
        (pool.running[position] :: (pool.running.eraseIdx position ++
          (pool.finished.map (·.1) ++ recorded))) :=
      (List.perm_middle.append_left _).trans List.perm_middle
    exact hfront.trans ((List.getElem_cons_eraseIdx_perm hlt).append_right _)
  · intro outcome houtcome
    rcases List.mem_append.1 houtcome with houtcome | houtcome
    · exact h.finished outcome houtcome
    · rw [List.mem_singleton.1 houtcome]
  · refine hfiles.congr (mem_compiling_congr fun mode => ?_)
    rw [List.map_append, List.append_assoc]
    exact List.perm_middle.symm.mem_iff

/-- An outcome is recorded. -/
theorem Accounts.collect (hs : Settled p b modes t₀) (h : Accounts p b modes t₀ recorded pool t)
    {position : Nat} {outcome : Outcome} (hat : pool.finished[position]? = some outcome) :
    ∃ ledger, (pool.take p b (.collect position)).ending t =
        (.ok { pool with finished := pool.finished.eraseIdx position, ledger }, t) ∧
      Accounts p b modes t₀ (outcome.1 :: recorded)
        { pool with finished := pool.finished.eraseIdx position, ledger } t := by
  obtain ⟨hlt, houtcome⟩ := List.getElem?_eq_some_iff.1 hat
  have hmem : outcome ∈ pool.finished := houtcome ▸ List.getElem_mem hlt
  -- The mode moves from those that have finished to those that were recorded.
  have hmoved : ((pool.finished.eraseIdx position).map (·.1) ++ outcome.1 :: recorded).Perm
      (pool.finished.map (·.1) ++ recorded) := by
    refine List.perm_middle.trans ?_
    rw [← List.cons_append, ← List.map_cons, ← houtcome]
    exact ((List.getElem_cons_eraseIdx_perm hlt).map _).append_right _
  have hmode : outcome.1 ∈ modes := by
    refine h.perm.mem_iff.1 (List.mem_append_right _ (List.mem_append_left _ ?_))
    exact List.mem_map_of_mem hmem
  obtain ⟨ledger, hadd, hledger⟩ := h.ledger.add (hs.isOwn outcome.1 hmode)
  rw [← h.finished outcome hmem] at hadd
  refine ⟨ledger, ?_, (hmoved.append_left _).trans h.perm, ?_, hledger, h.fault,
    h.files.congr (mem_compiling_congr fun mode => hmoved.mem_iff.symm)⟩
  · have hattempt : (Action.attempt (pool.ledger.add outcome)).ending t =
        (.ok (.ok ledger), t) := by
      rw [Action.ending_attempt, ← hadd]
      rfl
    rw [take, hat]
    simp only [record, h.fault]
    exact Action.ending_bind hattempt _
  · exact fun o ho => h.finished o (List.mem_of_mem_eraseIdx ho)

/-- Whatever the turn is, all modes stay accounted for. -/
theorem Accounts.take (hs : Settled p b modes t₀) (h : Accounts p b modes t₀ recorded pool t)
    (turn : Turn) : ∃ pool' recorded' t', (pool.take p b turn).ending t = (.ok pool', t') ∧
      Accounts p b modes t₀ recorded' pool' t' := by
  cases turn with
  | finish position =>
    cases hat : pool.running[position]? with
    | none =>
      refine ⟨pool, recorded, t, ?_, h⟩
      rw [Pool.take, hat]
      rfl
    | some mode =>
      obtain ⟨t', hending, haccounts⟩ := h.finish hs hat
      exact ⟨_, recorded, t', hending, haccounts⟩
  | collect position =>
    cases hat : pool.finished[position]? with
    | none =>
      refine ⟨pool, recorded, t, ?_, h⟩
      rw [Pool.take, hat]
      rfl
    | some outcome =>
      obtain ⟨ledger, hending, haccounts⟩ := h.collect hs hat
      exact ⟨_, _, t, hending, haccounts⟩

/-- All modes are accounted for along a schedule. -/
theorem Accounts.play (hs : Settled p b modes t₀) (h : Accounts p b modes t₀ recorded pool t)
    (turns : List Turn) : ∃ pool' recorded' t', (pool.play p b turns).ending t = (.ok pool', t') ∧
      Accounts p b modes t₀ recorded' pool' t' := by
  induction turns generalizing pool recorded t with
  | nil => exact ⟨pool, recorded, t, rfl, h⟩
  | cons turn turns ih =>
    obtain ⟨pool', recorded', t', htake, h'⟩ := h.take hs turn
    obtain ⟨pool'', recorded'', t'', hplay, h''⟩ := ih h'
    refine ⟨pool'', recorded'', t'', ?_, h''⟩
    rw [Pool.play, Action.ending_bind htake]
    exact hplay

/-- As many turns as there are compiles that run let all of them finish. -/
theorem Accounts.finishAll (hs : Settled p b modes t₀)
    (h : Accounts p b modes t₀ recorded pool t) {count : Nat}
    (hcount : pool.running.length = count) :
    ∃ pool' t', (pool.play p b (List.replicate count (.finish 0))).ending t = (.ok pool', t') ∧
      Accounts p b modes t₀ recorded pool' t' ∧ pool'.running = [] := by
  -- After one turn one compile less is running.
  induction count generalizing pool t with
  | zero => exact ⟨pool, t, rfl, h, List.length_eq_zero_iff.1 hcount⟩
  | succ count ih =>
    obtain ⟨mode, rest, hrunning, -⟩ := List.length_eq_succ_iff.1 hcount
    have hat : pool.running[0]? = some mode := by rw [← hrunning, List.getElem?_cons_zero]
    obtain ⟨t', htake, h'⟩ := h.finish hs hat
    obtain ⟨pool'', t'', hplay, h'', hdone⟩ := ih h' (by simp [hcount])
    refine ⟨pool'', t'', ?_, h'', hdone⟩
    rw [List.replicate_succ, Pool.play, Action.ending_bind htake]
    exact hplay

/-- As many turns as there are outcomes let all of them be recorded. -/
theorem Accounts.collectAll (hs : Settled p b modes t₀)
    (h : Accounts p b modes t₀ recorded pool t) {count : Nat}
    (hcount : pool.finished.length = count) :
    ∃ pool' recorded', (pool.play p b (List.replicate count (.collect 0))).ending t =
        (.ok pool', t) ∧
      Accounts p b modes t₀ recorded' pool' t ∧ pool'.finished = [] ∧
      pool'.running = pool.running := by
  -- After one turn one outcome less is left.
  induction count generalizing pool recorded with
  | zero => exact ⟨pool, recorded, rfl, h, List.length_eq_zero_iff.1 hcount, rfl⟩
  | succ count ih =>
    obtain ⟨outcome, rest, hfinished, -⟩ := List.length_eq_succ_iff.1 hcount
    have hat : pool.finished[0]? = some outcome := by rw [← hfinished, List.getElem?_cons_zero]
    obtain ⟨ledger, htake, h'⟩ := h.collect hs hat
    obtain ⟨pool'', recorded'', hplay, h'', hdone⟩ := ih h' (by simp [hcount])
    refine ⟨pool'', recorded'', ?_, h'', hdone⟩
    rw [List.replicate_succ, Pool.play, Action.ending_bind htake]
    exact hplay

/-- Once a pool is settled, all wanted modes are recorded. -/
theorem Accounts.settle (hs : Settled p b modes t₀) (h : Accounts p b modes t₀ recorded pool t) :
    ∃ pool' recorded' t', (pool.settle p b).ending t = (.ok pool', t') ∧
      pool'.fault = none ∧ pool'.ledger.Records (verdict p b t₀) recorded' ∧
      recorded'.Perm modes ∧ StylesWritten p b (compiling p b recorded') t₀ t' := by
  obtain ⟨pool', t', hfinish, h', hrunning⟩ := h.finishAll hs rfl
  obtain ⟨pool'', recorded'', hcollect, h'', hfinished, hsame⟩ := h'.collectAll hs rfl
  refine ⟨pool'', recorded'', t', ?_, h''.fault, h''.ledger, ?_, ?_⟩
  · rw [Pool.settle, Action.ending_bind hfinish]
    exact hcollect
  · simpa [hsame, hrunning, hfinished] using h''.perm
  · simpa [hfinished] using h''.files

end Pool

/-- Whatever the schedule is, modes that are compiled side by side are all recorded. -/
theorem Settled.runTogether {modes : List DisplayMode} {t₀ : FileTree} (h : Settled p b modes t₀)
    (hworkers : b.checkWorkers = .ok ()) (schedule : List Turn) :
    ∃ ledger seen t', (Batch.runTogether p b schedule modes).ending t₀ = (.ok ledger, t') ∧
      ledger.Records (verdict p b t₀) seen ∧ seen.Perm modes ∧
      StylesWritten p b (compiling p b seen) t₀ t' := by
  obtain ⟨pool, recorded, t, hplay, haccounts⟩ :=
    (Pool.accounts_start p b modes t₀).play h schedule
  obtain ⟨pool', recorded', t', hsettle, hfault, hrecords, hperm, hfiles⟩ := haccounts.settle h
  refine ⟨pool'.ledger, recorded', t', ?_, hrecords, hperm, hfiles⟩
  have houtcome : pool'.outcome = .ok pool'.ledger := by rw [Pool.outcome, hfault]
  rw [Batch.runTogether]
  refine (Action.ending_bind (Action.ending_lift hworkers t₀) _).trans ?_
  refine (Action.ending_bind hplay _).trans ?_
  exact (Action.ending_bind hsettle _).trans (Action.ending_lift houtcome t')

/-! ## What a result says -/

section Result

variable {verdict : DisplayMode → Except Fault ModeStyle} {modes : List DisplayMode}

theorem map_fst_filterMap {α : Type} (part : ModeStyle → α) (modes : List DisplayMode) :
    (modes.filterMap fun mode =>
        (verdict mode).toOption.map fun style => (mode, part style)).map (·.1) =
      modes.filter fun mode => (verdict mode).toOption.isSome := by
  induction modes with
  | nil => rfl
  | cons mode modes ih =>
    cases h : (verdict mode).toOption <;> simp [h, ih]

theorem styles_keys : (resultOf verdict modes).styles.map (·.1) =
    (LookupTable.distinct modes).filter fun mode => (verdict mode).toOption.isSome :=
  map_fst_filterMap _ _

theorem diagnostics_keys : (resultOf verdict modes).diagnostics.map (·.1) =
    (resultOf verdict modes).styles.map (·.1) := by
  rw [styles_keys]
  exact map_fst_filterMap _ _

theorem mem_styles_keys {mode : DisplayMode} :
    mode ∈ (resultOf verdict modes).styles.map (·.1) ↔
      mode ∈ modes ∧ ∃ style, verdict mode = .ok style := by
  rw [styles_keys, List.mem_filter, LookupTable.mem_distinct]
  cases verdict mode <;> simp [Except.toOption]

theorem mem_failed {mode : DisplayMode} : mode ∈ (resultOf verdict modes).failed ↔
    mode ∈ modes ∧ ∃ fault, verdict mode = .error fault := by
  rw [resultOf, List.mem_filter]
  cases verdict mode <;> simp [Except.toOption]

theorem pairwise_styles_keys : ((resultOf verdict modes).styles.map (·.1)).Pairwise
    fun mode mode' => modes.idxOf mode < modes.idxOf mode' := by
  rw [styles_keys]
  exact (LookupTable.pairwise_distinct modes).filter _

theorem mem_filterMap_iff {α : Type} {part : ModeStyle → α} {modes : List DisplayMode}
    {mode : DisplayMode} {a : α} :
    ((mode, a) ∈ modes.filterMap fun mode =>
        (verdict mode).toOption.map fun style => (mode, part style)) ↔
      mode ∈ modes ∧ ∃ style, verdict mode = .ok style ∧ a = part style := by
  rw [List.mem_filterMap]
  constructor
  · rintro ⟨m, hm, hentry⟩
    cases hverdict : verdict m with
    | error fault => simp [hverdict, Except.toOption] at hentry
    | ok style =>
      simp only [hverdict, Except.toOption, Option.map_some, Option.some.injEq, Prod.mk.injEq]
        at hentry
      obtain ⟨rfl, rfl⟩ := hentry
      exact ⟨hm, style, hverdict, rfl⟩
  · rintro ⟨hmode, style, hverdict, rfl⟩
    exact ⟨mode, hmode, by simp [hverdict, Except.toOption]⟩

/-- What a result says of the wanted modes, by what each of them gives. -/
structure Reports (verdict : DisplayMode → Except Fault ModeStyle) (modes : List DisplayMode)
    (r : BatchResult) : Prop where
  /-- A wanted mode has succeeded or has failed, but not both. -/
  eitherOne : ∀ mode ∈ modes, (mode ∈ r.styles.map (·.1) ↔ mode ∉ r.failed)
  /-- Only wanted modes are mentioned. -/
  wanted : ∀ mode, mode ∈ r.styles.map (·.1) ∨ mode ∈ r.failed → mode ∈ modes
  styles : ∀ mode output, (mode, output) ∈ r.styles →
    ∃ style, verdict mode = .ok style ∧ output = style.output
  diagnostics : ∀ mode count, (mode, count) ∈ r.diagnostics →
    ∃ style, verdict mode = .ok style ∧ count = style.diagnostics
  failed : ∀ mode ∈ r.failed, ∃ fault, verdict mode = .error fault
  sameKeys : r.diagnostics.map (·.1) = r.styles.map (·.1)
  /-- The modes that succeeded are in the order in which they were wanted first. -/
  inOrder : (r.styles.map (·.1)).Pairwise fun mode mode' => modes.idxOf mode < modes.idxOf mode'
  failedInOrder : r.failed = modes.filter fun mode => mode ∉ r.styles.map (·.1)

theorem reports_resultOf (verdict : DisplayMode → Except Fault ModeStyle)
    (modes : List DisplayMode) : Reports verdict modes (resultOf verdict modes) where
  eitherOne := by
    intro mode hmode
    rw [mem_styles_keys, mem_failed]
    cases verdict mode <;> simp [hmode]
  wanted := by
    rintro mode (h | h)
    · exact (mem_styles_keys.1 h).1
    · exact (mem_failed.1 h).1
  styles _ _ h := (mem_filterMap_iff.1 h).2
  diagnostics _ _ h := (mem_filterMap_iff.1 h).2
  failed _ h := (mem_failed.1 h).2
  sameKeys := diagnostics_keys
  inOrder := pairwise_styles_keys
  failedInOrder := by
    apply List.filter_congr
    intro mode hmode
    rw [Bool.eq_iff_iff, decide_eq_true_iff, mem_styles_keys]
    cases verdict mode <;> simp [hmode, Except.toOption]

end Result

/-! ## The batch -/

theorem checkWorkers_eq_ok (h : ∀ workers, b.workers = some workers → 0 < workers) :
    b.checkWorkers = .ok () := by
  cases hsome : b.workers with
  | none => rw [BatchRequest.checkWorkers, hsome]
  | some workers =>
    have hpos := h workers hsome
    rw [BatchRequest.checkWorkers, hsome]
    exact if_neg (by omega)

theorem Ledger.warnOfFailures_outcome (l : Ledger) : l.warnOfFailures.outcome = .ok () := by
  rw [Ledger.warnOfFailures]
  split <;> rfl

namespace Settled

variable {modes : List DisplayMode} {t t₀ : FileTree}

/-- Nothing here depends on whether modes are compiled side by side. -/
theorem withParallel (h : Settled p b modes t₀) (parallel : Bool) :
    Settled p { b with parallel } modes t₀ := ⟨h.hasDirectory, h.isOwn⟩

/-- The modes that succeed are those that compile. -/
theorem exists_verdict_iff (h : Settled p b modes t₀) {mode : DisplayMode} (hmode : mode ∈ modes) :
    (∃ style, verdict p b t₀ mode = .ok style) ↔ (compiled p b mode).outcome.isOk = true := by
  cases hcompiled : (compiled p b mode).outcome with
  | error fault =>
    rw [verdict, compileMode_of_error hcompiled]
    constructor
    · rintro ⟨style, hstyle⟩
      cases hstyle
    · intro hok
      cases hok
  | ok document =>
    refine iff_of_true ?_ rfl
    cases hdirectory : b.outputDirectory with
    | none => exact ⟨_, congrArg Prod.fst (compileMode_of_none hcompiled hdirectory t₀)⟩
    | some directory =>
      exact ⟨_, congrArg Prod.fst (compileMode_of_some hcompiled hdirectory
        (h.hasDirectory directory hdirectory) (h.find?_ne_directory hmode hcompiled hdirectory))⟩

/-- However the modes are compiled, all of them are recorded. -/
theorem compileModes (h : Settled p b modes t₀) (hworkers : b.checkWorkers = .ok ())
    (schedule : List Turn) :
    ∃ ledger seen t', (Batch.compileModes p b schedule modes).ending t₀ = (.ok ledger, t') ∧
      ledger.Records (verdict p b t₀) seen ∧ (∀ mode, mode ∈ seen ↔ mode ∈ modes) ∧
      StylesWritten p b (compiling p b seen) t₀ t' := by
  rw [Batch.compileModes]
  cases hparallel : b.parallel with
  | true =>
    obtain ⟨ledger, seen, t', hrun, hrecords, hperm, hfiles⟩ := h.runTogether hworkers schedule
    exact ⟨ledger, seen, t', hrun, hrecords, fun mode => hperm.mem_iff, hfiles⟩
  | false =>
    obtain ⟨ledger, t', hrun, hrecords, hfiles⟩ := h.runInTurn modes (fun _ hmode => hmode)
      (Ledger.records_empty _) (StylesWritten.refl p b t₀)
    exact ⟨ledger, modes.reverse ++ [], t', hrun, hrecords, by simp, hfiles⟩

/-- A batch gives the verdict on each mode, and writes the styles of those that succeed. -/
theorem runOn (h : Settled p b modes t₀) (hmodes : modesOf b.modes = .ok modes)
    (hprepare : b.prepare t = .ok t₀) (hworkers : b.checkWorkers = .ok ())
    (schedule : List Turn) :
    ∃ t', (Batch.runOn p b schedule).ending t =
        (.ok (resultOf (verdict p b t₀) modes), t') ∧
      StylesWritten p b ((resultOf (verdict p b t₀) modes).styles.map (·.1)) t₀ t' := by
  obtain ⟨ledger, seen, t', hrun, hrecords, hseen, hfiles⟩ := h.compileModes hworkers schedule
  refine ⟨t', ?_, hfiles.congr fun mode => ?_⟩
  -- Each part of the batch goes on from the files of the one before.
  · have hresult := hrecords.result_eq fun mode hmode => (hseen mode).2 hmode
    rw [Batch.runOn]
    refine (Action.ending_bind (Action.ending_lift hmodes t) _).trans ?_
    refine (Action.ending_bind (Action.ending_change hprepare) _).trans ?_
    refine (Action.ending_bind hrun _).trans ?_
    refine (Action.ending_bind (Action.ending_lift ledger.warnOfFailures_outcome t') _).trans ?_
    rw [hresult]
    rfl
  -- The modes that compile are those that the result lists as successful.
  · rw [compiling, List.mem_filter, hseen, mem_styles_keys]
    exact and_congr_right fun hmode => (h.exists_verdict_iff hmode).symm

end Settled

/-- Every list of modes but the empty one can be wanted, with repetitions. -/
theorem modesOf_names {modes : List DisplayMode} (h : modes ≠ []) :
    modesOf (.ofTexts (modes.map DisplayMode.name)) = .ok modes := by
  have hparse (mode : DisplayMode) : DisplayMode.parse (.text mode.name) = .ok mode := by
    cases mode <;> rfl
  have hread : ((modes.map DisplayMode.name).map Value.text).mapM DisplayMode.parse =
      .ok modes := by
    rw [List.map_map, mapM_eq_ok_iff, List.forall₂_map_left_iff, List.forall₂_same]
    exact fun mode _ => hparse mode
  obtain ⟨mode, rest, rfl⟩ := List.exists_cons_of_ne_nil h
  exact except_bind_eq_ok_iff.2 ⟨_, rfl, except_bind_eq_ok_iff.2 ⟨_, hread, rfl⟩⟩

/-- With an output directory that is made, and only faults that are the library's own, the modes
of a batch are settled. -/
theorem settled_of_prepare {modes : List DisplayMode} {t t₀ : FileTree}
    (hprepare : b.prepare t = .ok t₀)
    (hown : ∀ mode ∈ modes, ∀ fault, verdict p b t₀ mode = .error fault → fault.isOwn = true) :
    Settled p b modes t₀ where
  hasDirectory := by
    intro directory hdirectory
    rw [BatchRequest.prepare, hdirectory] at hprepare
    exact (FileTree.hasMade_of_makeDirectory hprepare).hasDirectory
  isOwn := hown

/-- Making the output directory makes no file. -/
theorem find?_file_of_prepare {t t₀ : FileTree} (hprepare : b.prepare t = .ok t₀) {q : Path}
    {text : String} (hq : t₀.find? q = some (.file text)) : t.find? q = some (.file text) := by
  rw [BatchRequest.prepare] at hprepare
  split at hprepare
  · exact (FileTree.hasMade_of_makeDirectory hprepare).find?_file hq
  · obtain rfl : t = t₀ := Except.ok.inj hprepare
    exact hq

/-- Modes that are compiled side by side give the same result as one after the other, whatever
order they finish and are recorded in. The result reports what each wanted mode gives by itself,
and the files that are written are the styles of the modes that succeed. -/
theorem runOn_any_schedule {modes : List DisplayMode} {t t₀ : FileTree}
    (hmodes : modesOf b.modes = .ok modes)
    (hworkers : ∀ workers, b.workers = some workers → 0 < workers)
    (hprepare : b.prepare t = .ok t₀)
    (hown : ∀ mode ∈ modes, ∀ fault, verdict p b t₀ mode = .error fault → fault.isOwn = true)
    (schedule : List Turn) :
    ∃ result sideBySide inTurn,
      (runOn p { b with parallel := true } schedule).ending t = (.ok result, sideBySide) ∧
      (run p { b with parallel := false }).ending t = (.ok result, inTurn) ∧
      Reports (verdict p b t₀) modes result ∧
      StylesWritten p b (result.styles.map (·.1)) t₀ sideBySide ∧
      StylesWritten p b (result.styles.map (·.1)) t₀ inTurn ∧
      ∀ q text, t₀.find? q = some (.file text) → t.find? q = some (.file text) := by
  have hsettled := settled_of_prepare hprepare hown
  have hcheck := checkWorkers_eq_ok hworkers
  obtain ⟨sideBySide, hparallel, hwritten⟩ :=
    (hsettled.withParallel true).runOn hmodes hprepare hcheck schedule
  obtain ⟨inTurn, hsequential, hwritten'⟩ :=
    (hsettled.withParallel false).runOn hmodes hprepare hcheck []
  exact ⟨resultOf (verdict p b t₀) modes, sideBySide, inTurn, hparallel, hsequential,
    reports_resultOf _ modes, ⟨hwritten.written, hwritten.untouched⟩,
    ⟨hwritten'.written, hwritten'.untouched⟩, fun _ _ => find?_file_of_prepare hprepare⟩

/-! ## A repeated mode -/

open Presentation (smallChart smallCatalog)

/-- A mode is wanted twice, and the styles are written. -/
def smallBatch : BatchRequest where
  request := { source := .map [], catalog := some smallCatalog }
  outputDirectory := some (Path.ofText "styles")
  modes := .ofTexts ([.night, .day, .night].map DisplayMode.name)
  workers := some 2

/-- The directory for its styles. -/
def smallTree : FileTree := ⟨[(Path.ofText "styles", .directory)]⟩

theorem prepare_smallBatch : smallBatch.prepare .empty = .ok smallTree := by rfl

theorem verdict_smallBatch (mode : DisplayMode) :
    (verdict smallChart smallBatch smallTree mode).toOption.isSome = true := by
  cases mode <;> decide +kernel

/-- The night that is wanted last finishes first, and the day is recorded before any night. -/
theorem runOn_any_schedule_smallBatch :
    ∃ result sideBySide inTurn,
      (runOn smallChart { smallBatch with parallel := true }
          [.finish 2, .finish 1, .collect 1]).ending .empty = (.ok result, sideBySide) ∧
      (run smallChart { smallBatch with parallel := false }).ending .empty =
        (.ok result, inTurn) ∧
      Reports (verdict smallChart smallBatch smallTree) [.night, .day, .night] result ∧
      StylesWritten smallChart smallBatch (result.styles.map (·.1)) smallTree sideBySide ∧
      StylesWritten smallChart smallBatch (result.styles.map (·.1)) smallTree inTurn := by
  have hmodes : modesOf smallBatch.modes = .ok [.night, .day, .night] :=
    modesOf_names (List.cons_ne_nil _ _)
  have hworkers : ∀ workers, smallBatch.workers = some workers → 0 < workers := by
    rintro workers ⟨⟩
    decide
  have hown : ∀ mode ∈ [DisplayMode.night, .day, .night], ∀ fault,
      verdict smallChart smallBatch smallTree mode = .error fault → fault.isOwn = true := by
    intro mode _ fault hfault
    have hok := verdict_smallBatch mode
    rw [hfault] at hok
    cases hok
  obtain ⟨result, sideBySide, inTurn, hparallel, hsequential, hreports, hfiles, hfiles', -⟩ :=
    runOn_any_schedule hmodes hworkers prepare_smallBatch hown
      [.finish 2, .finish 1, .collect 1]
  exact ⟨result, sideBySide, inTurn, hparallel, hsequential, hreports, hfiles, hfiles'⟩

end Batch

end ChartStyle
