import Showcase.Site.Task

/-!
# Runs

A run builds all pages below a source directory. Each page is built at once or handed to a queue. A
page that cannot be read or written is noted as failed and the run goes on; a configuration that
makes no pages stops it.

What the run prints, what it writes into the log and how it ends are read off the list of its pages
(`PageRun`), so that the counts in its summary are counts of that list.
-/

namespace Showcase

/-- How pages are to be built. -/
structure Plan where
  /-- the directory of the pages -/
  source : Path
  /-- the directory of the components -/
  output : Path
  /-- outlines are wanted too -/
  outline : Bool
  /-- nothing is to be written -/
  dryRun : Bool
  /-- pages are to be built in the background -/
  queued : Bool
  /-- every page is to be reported -/
  verbose : Bool

/-- What came of a page. -/
inductive PageResult
  | built (r : Report)
  /-- The page was handed to the queue, where the log was written. -/
  | queued (log : List Text)
  | failed (e : DocumentError)

/-- A page of a run. -/
structure PageRun where
  /-- the page -/
  page : Path
  /-- its component -/
  target : Path
  /-- what came of it -/
  result : PageResult

/-- The pages of a run so far. -/
structure Progress where
  /-- the tree by then -/
  tree : FileTree
  /-- the pages, in their order -/
  done : List PageRun
  /-- what stopped the run, if it was stopped -/
  stop : Option BuildError

namespace Plan

/-- A page built in the background. -/
def queuePage (w : Workshop) (t : FileTree) (plan : Plan) (page target : Path) :
    FileTree × PageRun :=
  let outcome := Task.runQueued w t ⟨page.text, target.text, plan.outline⟩ Task.retries
  (outcome.tree, ⟨page, target, .queued outcome.log⟩)

/-- A page built at once, or what stops the run. -/
def buildPage (w : Workshop) (t : FileTree) (plan : Plan) (page target : Path) :
    FileTree × Except BuildError PageRun :=
  match Job.build w t ⟨page, target, plan.outline, plan.dryRun⟩ with
  | (t, .ok r) => (t, .ok ⟨page, target, .built r⟩)
  | (t, .error (.document e)) => (t, .ok ⟨page, target, .failed e⟩)
  | (t, .error e) => (t, .error e)

/-- A page of a run, or what stops the run. -/
def runPage (w : Workshop) (t : FileTree) (plan : Plan) (page : Path) :
    FileTree × Except BuildError PageRun :=
  match page.componentFor plan.source plan.output with
  | .error e => (t, .error (.path e))
  | .ok target =>
    if plan.queued && !plan.dryRun then
      let (t, run) := plan.queuePage w t page target
      (t, .ok run)
    else plan.buildPage w t page target

/-- The pages of a run. -/
def runPages (w : Workshop) (plan : Plan) : FileTree → List Path → Progress
  | t, [] => ⟨t, [], none⟩
  | t, page :: pages =>
    match plan.runPage w t page with
    | (t, .error e) => ⟨t, [], some e⟩
    | (t, .ok run) =>
      let rest := plan.runPages w t pages
      { rest with done := run :: rest.done }

end Plan

namespace PageRun

/-- The report on a page that was built. -/
def report? (r : PageRun) : Option Report :=
  match r.result with
  | .built report => some report
  | _ => none

/-- The page was handed to the queue. -/
def isQueued (r : PageRun) : Bool :=
  match r.result with
  | .queued _ => true
  | _ => false

/-- The page failed. -/
def isFailed (r : PageRun) : Bool :=
  match r.result with
  | .failed _ => true
  | _ => false

/-- The entries in the log for a page. -/
def log (r : PageRun) : List Text :=
  match r.result with
  | .built report => [report.log]
  | .queued log => log
  | .failed _ => []

/-- The line that is printed for a page; `number` is its place in the run. -/
def line? (verbose : Bool) (number total : Nat) (r : PageRun) : Option Text :=
  let place := '[' :: (Text.ofNat number ++ '/' :: (Text.ofNat total ++ [']', ' ']))
  match r.result with
  | .built report =>
    if verbose then
      some (place ++ r.page.text ++ " -> ".toList ++ r.target.text ++ demoCount report.demos)
    else none
  | .queued _ => if verbose then some (place ++ "Queued: ".toList ++ r.page.text) else none
  | .failed e =>
    some ("  Error building ".toList ++ r.page.text ++ ':' :: ' ' :: e.message)

end PageRun

/-! ## What a run prints -/

/-- A line of output; a line break at its end is not doubled. -/
def outputLine (t : Text) : Text := if Text.endsWith t ['\n'] then t else t ++ ['\n']

/-- The lines for the pages of a run, the first of which has the given number. -/
def pageLines (verbose : Bool) (total : Nat) : (number : Nat) → List PageRun → List Text
  | _, [] => []
  | n, r :: rs => (r.line? verbose n total).toList ++ pageLines verbose total (n + 1) rs

/-- A line across the page. -/
def rule : Text := List.replicate 60 '='

/-- The lines that sum a run up. -/
def summaryLines (done : List PageRun) : List Text :=
  let reports := done.filterMap PageRun.report?
  let queued := (done.filter PageRun.isQueued).length
  ['\n' :: rule, "SUMMARY".toList, rule,
    "Pages built:   ".toList ++ Text.ofNat reports.length] ++
  (if queued = 0 then [] else ["Pages queued:  ".toList ++ Text.ofNat queued]) ++
  ["Demo blocks:   ".toList ++ Text.ofNat (reports.foldl (fun n r => n + r.demos) 0), rule]

end Showcase
