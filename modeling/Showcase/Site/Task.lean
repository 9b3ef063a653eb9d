import Showcase.Site.Build

/-!
# Tasks

A task builds a document in the background, so its failures must not get lost. A failure that will
not go away is written into the log and is the result of the task. A failure that may go away, that
is a file that could not be read or written though it is there, is handed on, and the task may be
tried again (`Task.runQueued`).

Main statement: `runQueued_of_result` (a task that has a result is run once).
-/

namespace Showcase

/-- A document to be built in the background. -/
structure Task where
  /-- the page -/
  source : Text
  /-- the component -/
  output : Text
  /-- the outline is wanted too -/
  outline : Bool

/-- What a task came to. -/
inductive TaskResult
  | success (r : Report)
  | failure (source message : Text)

namespace Task

/-- The failure will not go away by itself. -/
def isLasting (e : DocumentError) : Bool :=
  match e.cause with
  | .encoding _ => true
  | .file fault => fault.error = .missing

/-- The entry in the log for a failure that will not go away. -/
def failureLog (e : DocumentError) : Text :=
  "ERROR demodocs.tasks: Document build failed: ".toList ++ e.message

/-- The job of a task. -/
def job (k : Task) : Job := ⟨Path.ofText k.source, Path.ofText k.output, k.outline, false⟩

/-- What came of a task. -/
structure Outcome where
  /-- the tree after it -/
  tree : FileTree
  /-- what it came to, or the failure that is handed on -/
  result : Except BuildError TaskResult
  /-- the entries in the log -/
  log : List Text

/-- Runs a task once. -/
def run (w : Workshop) (t : FileTree) (k : Task) : Outcome :=
  match k.job.build w t with
  | (t, .ok report) => ⟨t, .ok (.success report), [report.log]⟩
  | (t, .error (.document e)) =>
    if isLasting e then ⟨t, .ok (.failure k.source e.message), [failureLog e]⟩
    else ⟨t, .error (.document e), []⟩
  | (t, .error e) => ⟨t, .error e, []⟩

/-- Runs a task, and again as long as it hands on a failure of its document, at most the given
number of times more. -/
def runQueued (w : Workshop) (t : FileTree) (k : Task) : (retries : Nat) → Outcome
  | 0 => k.run w t
  | n + 1 =>
    let first := k.run w t
    match first.result with
    | .error (.document _) =>
      let rest := runQueued w first.tree k n
      { rest with log := first.log ++ rest.log }
    | _ => first

/-- How often a queued task is tried again. -/
def retries : Nat := 3

theorem runQueued_of_result {w : Workshop} {t : FileTree} {k : Task} {r : TaskResult}
    (h : (k.run w t).result = .ok r) (n : Nat) : k.runQueued w t n = k.run w t := by
  cases n with
  | zero => rfl
  | succ n => simp [runQueued, h]

end Task

end Showcase
