import ChartStyle.Files.Tree
import ChartStyle.Report

/-!
# Actions on files

An `Action` is a report that may also read and change the file tree. What it has written stays
written when it fails later on.
-/

set_option autoImplicit false

namespace ChartStyle

/-- A report of what is done to a file tree, and the tree afterwards. -/
def Action (α : Type) : Type := FileTree → Report α × FileTree

namespace Action

variable {α β : Type}

/-- Runs an action on a tree. -/
def run (action : Action α) (t : FileTree) : Report α × FileTree := action t

/-- A report that does not touch the files. -/
def ofReport (r : Report α) : Action α := fun t => (r, t)

/-- First one action, then the one that its value leads to. -/
def andThen (action : Action α) (next : α → Action β) : Action β := fun t =>
  let (r, t) := action.run t
  match r.outcome with
  | .ok a =>
    let (further, t) := (next a).run t
    (⟨r.events ++ further.events, further.outcome⟩, t)
  | .error fault => (⟨r.events, .error fault⟩, t)

instance : Monad Action where
  pure a := ofReport (pure a)
  bind := andThen

instance : MonadLift Report Action := ⟨ofReport⟩

instance : MonadLift (Except Fault) Action := ⟨fun outcome => ofReport (.ofExcept outcome)⟩

/-- Reads something from the tree. -/
def examine (f : FileTree → Except Fault α) : Action α := fun t => (.ofExcept (f t), t)

/-- Changes the tree; where that fails it stays as it was. -/
def change (f : FileTree → Except Fault FileTree) : Action Unit := fun t =>
  match f t with
  | .ok t => (pure (), t)
  | .error fault => (.fail fault, t)

/-- An action that cannot fail: its outcome becomes a value. -/
def attempt (action : Action α) : Action (Except Fault α) := fun t =>
  let (r, t) := action.run t
  (⟨r.events, .ok r.outcome⟩, t)

end Action

end ChartStyle
