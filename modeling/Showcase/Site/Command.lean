import Showcase.Site.Run
import Showcase.Site.Arguments

/-!
# The command

The command builds a site: all pages below a source directory. Where the pages are and where the
components go is told by its arguments or else by the project's settings. It ends well if all pages
were built or handed to the queue.

Main statement: `run_dryRun` (a trial run of the command changes nothing).
-/

namespace Showcase

/-- Why the command did not end well. -/
inductive CommandError
  /-- The arguments make no sense. -/
  | usage (e : UsageError)
  /-- Colours are both forced and forbidden. -/
  | colours
  | noSource
  | noOutput
  /-- There is no directory of pages. -/
  | noDirectory (p : Path)
  | pagesFailed (pages : List Path)

/-- The wording of an error. -/
def CommandError.message : CommandError → Text
  | usage e => "Error: ".toList ++ e.message
  | colours => "The --no-color and --force-color options can't be used together.".toList
  | noSource => "No source directory given and DEMO_DOCS[\"SOURCE_DIR\"] is not set".toList
  | noOutput => "No output directory given and DEMO_DOCS[\"OUTPUT_DIR\"] is not set".toList
  | noDirectory p => "Source directory does not exist: ".toList ++ p.text
  | pagesFailed pages =>
    Text.ofNat pages.length ++ " page(s) failed: ".toList
      ++ Text.joinWith [',', ' '] (pages.map Path.text)

/-- What stopped the command. -/
inductive Stop
  | command (e : CommandError)
  | build (e : BuildError)

/-- What came of the command. -/
structure Outcome where
  /-- the tree after it -/
  tree : FileTree
  /-- what it printed -/
  output : Text
  /-- what it wrote into the log -/
  log : List Text
  /-- what stopped it, if it did not end well -/
  stop : Option Stop

namespace Plan

/-- What is printed before the pages are built. -/
def openingLines (plan : Plan) (total : Nat) : List Text :=
  (if plan.dryRun then ["DRY RUN MODE: No files will be written".toList] else []) ++
    ["Found ".toList ++ Text.ofNat total ++ " page(s) in ".toList ++ plan.source.text]

/-- What is printed when all went well. -/
def closingLine (plan : Plan) : Text :=
  if plan.dryRun then "\nDRY RUN COMPLETE: No files were written".toList
  else "\nBUILD COMPLETE: ".toList ++ plan.output.text

/-- Builds all pages of a plan. -/
def run (w : Workshop) (t : FileTree) (plan : Plan) : Outcome :=
  let pages := t.pages plan.source
  let progress := plan.runPages w t pages
  let failed := (progress.done.filter PageRun.isFailed).map PageRun.page
  let before := plan.openingLines pages.length ++
    pageLines plan.verbose pages.length 1 progress.done
  let after := summaryLines progress.done
  let log := progress.done.flatMap PageRun.log
  let print := fun (lines : List Text) => lines.flatMap outputLine
  match progress.stop with
  | some e => ⟨progress.tree, print before, log, some (.build e)⟩
  | none =>
    if failed = [] then
      ⟨progress.tree, print (before ++ after ++ [plan.closingLine]), log, none⟩
    else ⟨progress.tree, print (before ++ after), log, some (.command (.pagesFailed failed))⟩

theorem tree_runPage_dryRun {w : Workshop} {t : FileTree} {plan : Plan} (h : plan.dryRun = true)
    (page : Path) : (plan.runPage w t page).1 = t := by
  unfold runPage
  split
  · rfl
  · next target _ =>
    rw [if_neg (by simp [h]), buildPage]
    have hb := Job.build_dryRun (w := w) (t := t) (j := ⟨page, target, plan.outline, plan.dryRun⟩) h
    split <;> next hj => rw [hj] at hb; exact hb

theorem tree_runPages_dryRun {w : Workshop} {plan : Plan} (h : plan.dryRun = true) (t : FileTree)
    (pages : List Path) : (plan.runPages w t pages).tree = t := by
  induction pages with
  | nil => rfl
  | cons page pages ih =>
    have hp := tree_runPage_dryRun (w := w) (t := t) h page
    unfold runPages
    split
    · next hr => rw [hr] at hp; exact hp
    · next hr => rw [hr] at hp; simp only at hp ⊢; rw [hp]; exact ih

/-- A trial run changes nothing. -/
theorem run_dryRun {w : Workshop} {t : FileTree} {plan : Plan} (h : plan.dryRun = true) :
    (plan.run w t).tree = t := by
  have hp := tree_runPages_dryRun (w := w) h t (t.pages plan.source)
  rw [run.eq_def]
  simp only
  split
  · exact hp
  · split <;> exact hp

end Plan

namespace Command

/-- The text of a setting that is set. -/
def settingText? (settings : Setting.Record) (key : String) : Option Text :=
  match Setting.Record.find? settings key.toList with
  | some s => if s.isSet then some s.display else none
  | none => none

/-- An argument that is not empty, or else a setting. -/
def chosen (argument : Option Text) (settings : Setting.Record) (key : String) : Option Text :=
  match argument with
  | none | some [] => settingText? settings key
  | some t => some t

/-- The plan that arguments and settings make, if the pages are there. -/
def plan (settings : Setting.Record) (t : FileTree) (a : Arguments) : Except CommandError Plan :=
  if a.isOn .coloured && a.isOn .plain then .error .colours
  else
    match chosen a.source settings "SOURCE_DIR", chosen a.output settings "OUTPUT_DIR" with
    | none, _ => .error .noSource
    | some _, none => .error .noOutput
    | some source, some output =>
      let source := Path.ofText source
      if t.isDirectory source then
        .ok ⟨source, Path.ofText output, a.isOn .outline, a.isOn .dryRun, a.isOn .queued,
          a.isOn .verbose⟩
      else .error (.noDirectory source)

/-- Runs the command. -/
def run (w : Workshop) (settings : Setting.Record) (t : FileTree) (a : Arguments) : Outcome :=
  match plan settings t a with
  | .error e => ⟨t, [], [], some (.command e)⟩
  | .ok p => p.run w t

end Command

end Showcase
