import Mathlib.Data.List.Forall2
import Showcase.Page.Spelling
import Showcase.Proofs.Outline.Ids
import Showcase.Site.Command
import Showcase.Proofs.Site.Pages

/-!
# Pages do not disturb each other

A run builds one page after the other in one tree. Each page may fail at any point, and what it has
made by then stays. Still every page comes out as if it had been built alone, as long as the paths
that are written for different pages are apart.

The proof follows the tree through the run (`IsMidway`). What a build needs is as it was at the
beginning: its page, the files on its way, and what is at its own paths. The first is never written
to. As to the second, a build can turn nothing on its own way into a file, and the ways of all pages
begin with the way to the output directory, so nothing there ever becomes a file; and further down
the paths are apart. The third is as it was but for directories on the way to the output directory.

Such directories are why a run is not always what its pages are alone. If the way to the output
directory goes back, as in `a.vue/..`, it may lead through a path that is written to, and where the
page itself fails before it makes anything, the other pages make a directory there.

Main statement: `Command.runsAsAlone_run`.
-/

namespace Showcase

open FileTree (AgreesAt)

namespace Plan

variable {w : Workshop} {t u : FileTree} {plan : Plan} {page : Path}

/-- What becomes of a tree when one page is built in it. -/
def alone (w : Workshop) (t : FileTree) (plan : Plan) (page : Path) :
    FileTree × Except BuildError Report :=
  (plan.job page).build w t

/-- The places on the ways to all components. -/
def ways (plan : Plan) (t : FileTree) : List Place :=
  (t.pages plan.source).flatMap fun page => (plan.job page).way

/-- A tree is met in a run after some of the pages have been built. -/
structure IsMidway (w : Workshop) (t : FileTree) (plan : Plan) (done : List Path) (u : FileTree) :
    Prop where
  done_subset : done ⊆ t.pages plan.source
  /-- Directories are still directories. -/
  directory : ∀ q, t.find? q = some .directory → u.find? q = some .directory
  /-- The files on the ways are those that were there at first. -/
  isFile : ∀ page ∈ t.pages plan.source, ∀ q ∈ (plan.job page).way, u.isFile q = t.isFile q
  /-- Pages that have been built came out as if built alone. -/
  built : ∀ page ∈ done, ∀ p ∈ (plan.job page).writePaths,
    AgreesAt plan.output.way (plan.alone w t page).1 u p.destination
  /-- For the other pages, nothing has been written. -/
  waiting : ∀ page ∈ t.pages plan.source, page ∉ done → ∀ p ∈ (plan.job page).writePaths,
    AgreesAt plan.output.way t u p.destination
  /-- Elsewhere there may be new directories on the ways. -/
  elsewhere : ∀ q, (∀ page ∈ t.pages plan.source, ∀ p ∈ (plan.job page).writePaths,
    q ≠ p.destination) → AgreesAt (plan.ways t) t u q

namespace IsMidway

variable {done : List Path}

/-- Before the first page, a run is as required. -/
theorem start (w : Workshop) (t : FileTree) (plan : Plan) : IsMidway w t plan [] t where
  done_subset := List.nil_subset _
  directory _ h := h
  isFile _ _ _ _ := rfl
  built _ h := nomatch h
  waiting _ _ _ _ _ := AgreesAt.refl ..
  elsewhere _ _ := AgreesAt.refl ..

/-- Pages are as they were. -/
theorem read_eq (h : IsMidway w t plan done u) (ht : t.IsSound)
    (hdir : t.isDirectory plan.source = true) (hpage : page ∈ t.pages plan.source) :
    u.read page = t.read page := by
  obtain ⟨hway, hsome⟩ := FileTree.passable_of_mem_pages ht hdir hpage
  obtain ⟨entry, hentry⟩ := Option.isSome_iff_exists.1 hsome
  refine FileTree.read_eq_of_same h.directory hway ?_
  rw [hentry]
  exact (h.elsewhere _ fun other hother p hp =>
    destination_ne_of_mem_pages hpage hother hp).eq_of_some hentry

/-- **A page that is built midway comes out as if built alone, and the run can go on.** -/
theorem step (h : IsMidway w t plan done u) (ht : t.IsSound)
    (hdir : t.isDirectory plan.source = true) (hapart : plan.IsApart t)
    (hpage : page ∈ t.pages plan.source) (hnew : page ∉ done) :
    Job.EndAlike (plan.alone w t page).2 (plan.alone w u page).2 ∧
      IsMidway w t plan (page :: done) (plan.alone w u page).1 := by
  have hsub := way_output_subset hpage
  obtain ⟨hend, hwritten⟩ := Job.build_like (w := w) (j := plan.job page)
    (h.read_eq ht hdir hpage) (h.isFile page hpage) hsub (h.waiting page hpage hnew)
  -- at a path of another page, only a directory on the way to the output directory is new
  have hother : ∀ other ∈ t.pages plan.source, other ≠ page →
      ∀ p ∈ (plan.job other).writePaths,
        AgreesAt plan.output.way u (plan.alone w u page).1 p.destination := by
    intro other hmem hne p hp
    refine (Job.agreesAt_build fun q hq => ?_).mono (hapart.mem_way_of_mem_way hmem hpage hp)
    exact hapart.destination_ne hmem hpage hne hp hq
  refine ⟨hend, ?_⟩
  constructor
  case done_subset => exact List.cons_subset.2 ⟨hpage, h.done_subset⟩
  case directory => exact fun q hq => Job.directory_build (h.directory q hq)
  case isFile =>
    intro other hmem q hq
    rw [← h.isFile other hmem q hq]
    by_cases hway : q ∈ (plan.job page).way
    · exact Job.isFile_build hway
    · refine (Job.agreesAt_build fun p hp => ?_).isFile
      rintro rfl
      exact hway (hsub (hapart.mem_way_of_mem_way hpage hmem hp hq))
  case built =>
    intro other hmem p hp
    by_cases hsame : other = page
    · subst hsame
      exact hwritten p hp
    · have hdone : other ∈ done := (List.mem_cons.1 hmem).resolve_left hsame
      exact (h.built other hdone p hp).trans (hother other (h.done_subset hdone) hsame p hp)
  case waiting =>
    intro other hmem hwaits p hp
    obtain ⟨hsame, hwaits⟩ := not_or.1 (mt List.mem_cons.2 hwaits)
    exact (h.waiting other hmem hwaits p hp).trans (hother other hmem hsame p hp)
  case elsewhere =>
    intro q hq
    refine (h.elsewhere q hq).trans ((Job.agreesAt_build (hq page hpage)).mono fun hway => ?_)
    exact List.mem_flatMap.2 ⟨page, hpage, hway⟩

end IsMidway

/-! ## The pages of a run -/

/-- What came of a page in a run is what comes of it alone. -/
inductive ComesTo : Except BuildError Report → PageResult → Prop
  | built (r : Report) : ComesTo (.ok r) (.built r)
  | failed (e e' : DocumentError) : ComesTo (.error (.document e)) (.failed e')

/-- A page of a run came out as if it had been built alone. -/
structure IsRunOf (w : Workshop) (t : FileTree) (plan : Plan) (page : Path) (run : PageRun) :
    Prop where
  page_eq : run.page = page
  target_eq : run.target = plan.target page
  comesTo : ComesTo (plan.alone w t page).2 run.result

/-- Built alone, a page is built or is a document that cannot be read or written. -/
def EndsWell (w : Workshop) (t : FileTree) (plan : Plan) : Prop :=
  ∀ page ∈ t.pages plan.source, ∀ e, (plan.alone w t page).2 = .error e →
    ∃ d, e = .document d

/-- Without outlines, all pages end well with a complete configuration. -/
theorem endsWell_of_isComplete (hc : w.config.IsComplete) (hnone : plan.outline = false) :
    plan.EndsWell w t :=
  fun _ _ _ h => Job.exists_document_of_isComplete hc hnone h

/-- Where no task is queued, a page is built at once. -/
theorem runPage_eq (hinline : (plan.queued && !plan.dryRun) = false)
    (hpage : page ∈ t.pages plan.source) :
    plan.runPage w u page = plan.buildPage w u page (plan.target page) := by
  rw [runPage, componentFor_of_mem_pages hpage]
  simp [hinline]

/-- A page whose build alone ends as required does the same in the run. -/
theorem exists_buildPage
    (hdocument : ∀ e, (plan.alone w t page).2 = .error e → ∃ d, e = .document d)
    (hend : Job.EndAlike (plan.alone w t page).2 (plan.alone w u page).2) :
    ∃ run, plan.buildPage w u page (plan.target page) = ((plan.alone w u page).1, .ok run) ∧
      plan.IsRunOf w t page run := by
  have hjob : Job.build w u ⟨page, plan.target page, plan.outline, plan.dryRun⟩ =
      plan.alone w u page := rfl
  rw [buildPage, hjob]
  generalize plan.alone w u page = built at hend ⊢
  obtain ⟨v, r⟩ := built
  generalize halone : (plan.alone w t page).2 = r' at hend hdocument
  -- both ends are the same, or failures with different causes
  cases hend with
  | same =>
    cases r with
    | ok report =>
      exact ⟨_, rfl, rfl, rfl, by rw [halone]; exact .built report⟩
    | error e =>
      obtain ⟨d, rfl⟩ := hdocument e rfl
      exact ⟨_, rfl, rfl, rfl, by rw [halone]; exact .failed d d⟩
  | failed d d' => exact ⟨_, rfl, rfl, rfl, by rw [halone]; exact .failed d d'⟩

/-- In a run, pages are built one after the other, and each of them comes out as if built alone. -/
theorem isMidway_runPages (ht : t.IsSound) (hdir : t.isDirectory plan.source = true)
    (hinline : (plan.queued && !plan.dryRun) = false) (hapart : plan.IsApart t)
    (hends : plan.EndsWell w t) {done pages : List Path} (hpages : pages ⊆ t.pages plan.source)
    (hnodup : pages.Nodup) (hnew : ∀ page ∈ pages, page ∉ done)
    (h : IsMidway w t plan done u) :
    (plan.runPages w u pages).stop = none ∧
      IsMidway w t plan (pages.reverse ++ done) (plan.runPages w u pages).tree ∧
      List.Forall₂ (plan.IsRunOf w t) pages (plan.runPages w u pages).done := by
  -- the induction is on the pages that are left; `IsMidway` is the invariant
  induction pages generalizing done u with
  | nil => exact ⟨rfl, h, .nil⟩
  | cons page pages ih =>
    obtain ⟨hpage, hpages⟩ := List.cons_subset.1 hpages
    obtain ⟨hnotin, hnodup⟩ := List.nodup_cons.1 hnodup
    obtain ⟨hpagenew, hnew⟩ := List.forall_mem_cons.1 hnew
    obtain ⟨hend, hmid⟩ := h.step (w := w) ht hdir hapart hpage hpagenew
    have hrest : ∀ page' ∈ pages, page' ∉ page :: done := by
      intro page' hmem
      rw [List.mem_cons, not_or]
      exact ⟨fun heq => hnotin (heq ▸ hmem), hnew page' hmem⟩
    obtain ⟨hstop, hmid, hruns⟩ := ih hpages hnodup hrest hmid
    obtain ⟨run, hrun, hisRun⟩ := exists_buildPage (hends page hpage) hend
    rw [runPages, runPage_eq hinline hpage, hrun]
    refine ⟨hstop, ?_, .cons hisRun hruns⟩
    rw [List.reverse_cons, List.append_assoc]
    exact hmid

/-! ## What a run prints and how it ends -/

/-- The reports on pages, built alone. -/
def reports (w : Workshop) (t : FileTree) (plan : Plan) (pages : List Path) : List Report :=
  pages.filterMap fun page => (plan.alone w t page).2.toOption

/-- The pages that fail, built alone. -/
def failures (w : Workshop) (t : FileTree) (plan : Plan) (pages : List Path) : List Path :=
  pages.filter fun page => !(plan.alone w t page).2.isOk

/-- The lines that sum a run up, given the reports on its pages. -/
def summary (reports : List Report) : List Text :=
  ['\n' :: rule, "SUMMARY".toList, rule,
    "Pages built:   ".toList ++ Text.ofNat reports.length,
    "Demo blocks:   ".toList ++ Text.ofNat (reports.foldl (fun n r => n + r.demos) 0), rule]

section Counting

variable {pages : List Path} {r : Report} {e : BuildError}

theorem reports_cons_of_ok (h : (plan.alone w t page).2 = .ok r) :
    plan.reports w t (page :: pages) = r :: plan.reports w t pages :=
  List.filterMap_cons_some (by rw [h]; rfl)

theorem reports_cons_of_error (h : (plan.alone w t page).2 = .error e) :
    plan.reports w t (page :: pages) = plan.reports w t pages :=
  List.filterMap_cons_none (by rw [h]; rfl)

theorem failures_cons_of_ok (h : (plan.alone w t page).2 = .ok r) :
    plan.failures w t (page :: pages) = plan.failures w t pages :=
  List.filter_cons_of_neg (by rw [h]; exact Bool.false_ne_true)

theorem failures_cons_of_error (h : (plan.alone w t page).2 = .error e) :
    plan.failures w t (page :: pages) = page :: plan.failures w t pages :=
  List.filter_cons_of_pos (by rw [h]; rfl)

/-- Each page is either built or failed. -/
theorem length_reports_add_failures (w : Workshop) (t : FileTree) (plan : Plan)
    (pages : List Path) :
    (plan.reports w t pages).length + (plan.failures w t pages).length = pages.length := by
  induction pages with
  | nil => rfl
  | cons page pages ih =>
    cases h : (plan.alone w t page).2 with
    | ok r =>
      rw [reports_cons_of_ok h, failures_cons_of_ok h, List.length_cons, List.length_cons]
      omega
    | error e =>
      rw [reports_cons_of_error h, failures_cons_of_error h, List.length_cons, List.length_cons]
      omega

/-- What a run can be asked about its pages: the reports, the failures, and what is in the log. -/
theorem counts_of_isRunOf {done : List PageRun} (h : List.Forall₂ (plan.IsRunOf w t) pages done) :
    done.filterMap PageRun.report? = plan.reports w t pages ∧
      (done.filter PageRun.isFailed).map PageRun.page = plan.failures w t pages ∧
      done.filter PageRun.isQueued = [] ∧
      done.flatMap PageRun.log = (plan.reports w t pages).map Report.log := by
  induction h with
  | nil => exact ⟨rfl, rfl, rfl, rfl⟩
  | @cons page run pages done hrun _ ih =>
    obtain ⟨hreports, hfailed, hqueued, hlog⟩ := ih
    obtain ⟨rfl, -, hcomes⟩ := hrun
    obtain ⟨page, target, result⟩ := run
    simp only at hcomes
    -- what a page adds depends only on how it ends alone
    generalize halone : (plan.alone w t page).2 = ending at hcomes
    cases hcomes with
    | built r =>
      rw [reports_cons_of_ok halone, failures_cons_of_ok halone, ← hreports, ← hfailed]
      exact ⟨rfl, rfl, hqueued, by rw [List.flatMap_cons, hlog, ← hreports]; rfl⟩
    | failed e e' =>
      rw [reports_cons_of_error halone, failures_cons_of_error halone, ← hreports, ← hfailed]
      exact ⟨rfl, rfl, hqueued, by rw [List.flatMap_cons, hlog, ← hreports]; rfl⟩

/-- Where no task is queued, the summary tells of the reports only. -/
theorem summaryLines_eq {done : List PageRun} (h : done.filter PageRun.isQueued = []) :
    summaryLines done = summary (done.filterMap PageRun.report?) := by
  simp [summaryLines, summary, h]

end Counting

/-- A run came out as if each of its pages had been built alone. -/
structure RunsAsAlone (w : Workshop) (t : FileTree) (plan : Plan) (o : Outcome) : Prop where
  /-- At the paths written for a page there is what building the page alone leaves there; only where
  it leaves nothing, there may be a directory on the way to the output directory. -/
  written : ∀ page ∈ t.pages plan.source, ∀ p ∈ (plan.job page).writePaths,
    AgreesAt plan.output.way (plan.alone w t page).1 o.tree p.destination
  /-- Elsewhere nothing changes, but for new directories on the ways to the components. -/
  elsewhere : ∀ q, (∀ page ∈ t.pages plan.source, ∀ p ∈ (plan.job page).writePaths,
    q ≠ p.destination) → AgreesAt (plan.ways t) t o.tree q
  /-- The pages are as they were. -/
  intact : ∀ page ∈ t.pages plan.source, o.tree.read page = t.read page
  /-- The run fails exactly if some page fails alone, and names those that do. -/
  stop : o.stop =
    if plan.failures w t (t.pages plan.source) = [] then none
    else some (.command (.pagesFailed (plan.failures w t (t.pages plan.source))))
  /-- They are named in their order. -/
  sorted : (plan.failures w t (t.pages plan.source)).Pairwise fun a b => ¬ b.parts < a.parts
  /-- Every page is built or fails. -/
  counted : (plan.reports w t (t.pages plan.source)).length +
    (plan.failures w t (t.pages plan.source)).length = (t.pages plan.source).length
  /-- What is printed has the number of pages, a line for each page that has one, and the summary of
  the pages that are built when built alone. -/
  output : ∃ done, List.Forall₂ (plan.IsRunOf w t) (t.pages plan.source) done ∧
    o.output = (plan.openingLines (t.pages plan.source).length ++
      pageLines plan.verbose (t.pages plan.source).length 1 done ++
      summary (plan.reports w t (t.pages plan.source)) ++
      if plan.failures w t (t.pages plan.source) = [] then [plan.closingLine] else []).flatMap
        outputLine
  /-- Each page that is built is in the log. -/
  log : o.log = (plan.reports w t (t.pages plan.source)).map Report.log

/-- A run that is not stopped, as a whole. -/
theorem run_of_stop_eq_none {progress : Progress}
    (hprogress : plan.runPages w t (t.pages plan.source) = progress) (h : progress.stop = none)
    {failed : List Path}
    (hfailed : (progress.done.filter PageRun.isFailed).map PageRun.page = failed) :
    plan.run w t =
      ⟨progress.tree,
        (plan.openingLines (t.pages plan.source).length ++
          pageLines plan.verbose (t.pages plan.source).length 1 progress.done ++
          summaryLines progress.done ++
          if failed = [] then [plan.closingLine] else []).flatMap outputLine,
        progress.done.flatMap PageRun.log,
        if failed = [] then none else some (.command (.pagesFailed failed))⟩ := by
  rw [run.eq_def]
  simp only [hprogress, h, hfailed]
  split <;> simp

theorem runsAsAlone_of_isApart (ht : t.IsSound) (hdir : t.isDirectory plan.source = true)
    (hinline : (plan.queued && !plan.dryRun) = false) (hapart : plan.IsApart t)
    (hends : plan.EndsWell w t) : plan.RunsAsAlone w t (plan.run w t) := by
  -- the run over all pages, begun with none of them done
  obtain ⟨hstop, hmid, hruns⟩ := isMidway_runPages (w := w) ht hdir hinline hapart hends
    (List.Subset.refl _) (FileTree.nodup_pages ht _) (fun _ _ => List.not_mem_nil)
    (IsMidway.start w t plan)
  obtain ⟨hreports, hfailed, hqueued, hlog⟩ := counts_of_isRunOf hruns
  have hsummary := summaryLines_eq hqueued
  rw [hreports] at hsummary
  rw [run_of_stop_eq_none rfl hstop hfailed, hsummary, hlog]
  constructor
  case written =>
    intro page hpage p hp
    exact hmid.built page (by simpa using hpage) p hp
  case elsewhere => exact hmid.elsewhere
  case intact => exact fun page hpage => hmid.read_eq ht hdir hpage
  case stop => rfl
  case sorted => exact (FileTree.sorted_pages t plan.source).filter _
  case counted => exact length_reports_add_failures w t plan _
  case output => exact ⟨_, hruns, rfl⟩
  case log => rfl

/-- The plan that arguments make with a source and an output directory. -/
def ofArguments (a : Arguments) (source output : Text) : Plan :=
  ⟨Path.ofText source, Path.ofText output, a.isOn .outline, a.isOn .dryRun, a.isOn .queued,
    a.isOn .verbose⟩

end Plan

/-- **A run of the command that builds its pages at once builds each of them as if alone.** The
source and the output directory are those that are given or set, the source directory is there, and
the paths written for different pages are apart. -/
theorem Command.runsAsAlone_run {w : Workshop} {settings : Setting.Record} {t : FileTree}
    {a : Arguments} {source output : Text} (ht : t.IsSound)
    (hsource : Command.chosen a.source settings "SOURCE_DIR" = some source)
    (houtput : Command.chosen a.output settings "OUTPUT_DIR" = some output)
    (hcolours : (a.isOn .coloured && a.isOn .plain) = false)
    (hdir : t.isDirectory (Path.ofText source) = true)
    (hinline : (a.isOn .queued && !a.isOn .dryRun) = false)
    (hapart : (Plan.ofArguments a source output).IsApart t)
    (hends : (Plan.ofArguments a source output).EndsWell w t) :
    (Plan.ofArguments a source output).RunsAsAlone w t (Command.run w settings t a) := by
  have hplan : Command.plan settings t a = .ok (Plan.ofArguments a source output) := by
    rw [Command.plan, hcolours, hsource, houtput]
    simp only [Bool.false_eq_true, if_false, hdir, if_true]
    rfl
  rw [Command.run, hplan]
  exact Plan.runsAsAlone_of_isApart ht hdir hinline hapart hends

/-! ## A way that goes back -/

namespace Detour

/-- A page that is no text, and an empty one. -/
def tree : FileTree :=
  ⟨[(["src".toList], .directory), (["src".toList, "a.md".toList], .file [255]),
    (["src".toList, "b.md".toList], .file [])]⟩

/-- Pages are made with the default configuration. -/
def workshop : Workshop := ⟨Slug.spelling, Config.default⟩

/-- The page that is no text. -/
def broken : Path := ⟨.here, ["src".toList, "a.md".toList]⟩

/-- The empty page. -/
def blank : Path := ⟨.here, ["src".toList, "b.md".toList]⟩

/-- The directory of the pages and an output directory, without options. -/
def arguments (output : Text) : Arguments := ⟨some "src".toList, some output, []⟩

/-- The plan that they make. -/
def plan (output : Text) : Plan := Plan.ofArguments (arguments output) "src".toList output

theorem isSound_tree : tree.IsSound where
  nodup := by decide
  parent := by decide

theorem pages_tree (output : Text) : tree.pages (plan output).source = [broken, blank] := by
  have hplace : tree.place (plan output).source = .ok ["src".toList] := rfl
  have hbelow : tree.pagesBelow ["src".toList] = [["a.md".toList], ["b.md".toList]] := rfl
  rw [FileTree.pages_eq_of_sorted hplace (by rw [hbelow]; decide), hbelow]
  rfl

/-- The broken page cannot be read, so nothing is left by it. -/
theorem alone_broken (output : Text) :
    ∃ e, (plan output).alone workshop tree broken = (tree, .error (.document e)) := by
  obtain ⟨e, he⟩ : ∃ e, ((plan output).job broken).page tree = .error e := ⟨_, rfl⟩
  exact ⟨e, Job.build_of_compile_error (by rw [Job.compile, he])⟩

/-- The component of an empty page. -/
def blankComponent : Text := Component.wrap Component.defaultClass []

/-- It has no halves in it. -/
theorem torn_blank : workshop.torn [] = fun _ => blankComponent := by
  obtain ⟨w, definitions, payloads, -, -, hpage⟩ := DemoSection.exists_page Slug.spelling []
  have hblocks : (DemoSection.defaultEngine Slug.spelling).blocks (Source.clean []) = [] := by
    with_unfolding_all rfl
  funext standIn
  rw [Workshop.torn, workshop, hpage standIn, hblocks]
  rfl

/-- The blank page is made, and can be written. -/
theorem compile_blank (output : Text) :
    ∃ demos, ((plan output).job blank).compile workshop tree =
      .ok ⟨HexReference.points blankComponent, demos, none⟩ := by
  have hpage : ((plan output).job blank).page tree = .ok [] := rfl
  obtain ⟨demos, hcompile⟩ := Job.exists_compile (w := workshop) Config.isComplete_default rfl hpage
  rw [torn_blank, Torn.points_const] at hcompile
  exact ⟨demos, hcompile⟩

theorem endsWell (output : Text) : (plan output).EndsWell workshop tree :=
  Plan.endsWell_of_isComplete Config.isComplete_default rfl

theorem isApart (output : Text) : (plan output).IsApart tree := by
  have hwritten : ∀ page ∈ [broken, blank], ∀ p ∈ ((plan output).job page).writePaths,
      p = (plan output).target page := by
    intro page hpage p hp
    exact List.mem_singleton.1 hp
  have hbroken : (plan output).target broken = (plan output).output.append ["a.vue".toList] := rfl
  have hblank : (plan output).target blank = (plan output).output.append ["b.vue".toList] := rfl
  intro page hpage other hother hne p hp q hq
  rw [pages_tree] at hpage hother
  rw [hwritten page hpage p hp, hwritten other hother q hq]
  simp only [List.mem_cons, List.not_mem_nil, or_false] at hpage hother
  -- there are two pages, so two pairs of different ones
  obtain rfl | rfl := hpage <;> obtain rfl | rfl := hother
  · exact absurd rfl hne
  · rw [hbroken, hblank, Path.append, Path.append, List.prefix_append_right_inj]
    decide
  · rw [hbroken, hblank, Path.append, Path.append, List.prefix_append_right_inj]
    decide
  · exact absurd rfl hne

/-- The pages and the components may be in one directory. -/
theorem runsAsAlone_beside :
    (plan "src".toList).RunsAsAlone workshop tree
      (Command.run workshop [] tree (arguments "src".toList)) :=
  Command.runsAsAlone_run isSound_tree rfl rfl rfl rfl rfl (isApart _) (endsWell _)

theorem runPages_tree (output : Text) :
    ∃ done, (plan output).runPages workshop tree [broken, blank] =
      ⟨((plan output).alone workshop tree blank).1, done, none⟩ := by
  have hpage : ∀ page ∈ [broken, blank], ∃ run,
      (plan output).runPage workshop tree page =
        (((plan output).alone workshop tree page).1, .ok run) := by
    intro page hpage
    rw [← pages_tree output] at hpage
    obtain ⟨run, hrun, -⟩ := Plan.exists_buildPage (endsWell output page hpage) (.same _)
    exact ⟨run, (Plan.runPage_eq rfl hpage).trans hrun⟩
  obtain ⟨first, hfirst⟩ := hpage broken List.mem_cons_self
  obtain ⟨second, hsecond⟩ := hpage blank (List.mem_cons_of_mem _ List.mem_cons_self)
  obtain ⟨e, he⟩ := alone_broken output
  rw [he] at hfirst
  exact ⟨[first, second], by simp only [Plan.runPages, hfirst, hsecond]⟩

/-- The way to the output directory goes through the path of the component of the broken page.
Alone, the page leaves nothing there; in the run there is a directory. -/
theorem directory_at_component :
    tree.isDirectory (plan "a.vue/..".toList).source = true ∧
    (plan "a.vue/..".toList).IsApart tree ∧ (plan "a.vue/..".toList).EndsWell workshop tree ∧
    broken ∈ tree.pages (plan "a.vue/..".toList).source ∧
    ∃ p ∈ ((plan "a.vue/..".toList).job broken).writePaths,
      ((plan "a.vue/..".toList).alone workshop tree broken).1.find? p.destination = none ∧
      (Command.run workshop [] tree (arguments "a.vue/..".toList)).tree.find? p.destination =
        some .directory := by
  refine ⟨rfl, isApart _, endsWell _, by rw [pages_tree]; exact List.mem_cons_self,
    _, List.mem_cons_self, ?_, ?_⟩
  · obtain ⟨e, he⟩ := alone_broken "a.vue/..".toList
    rw [he]
    rfl
  · obtain ⟨demos, hp⟩ := compile_blank "a.vue/..".toList
    obtain ⟨done, hdone⟩ := runPages_tree "a.vue/..".toList
    have hplan : Command.run workshop [] tree (arguments "a.vue/..".toList) =
        (plan "a.vue/..".toList).run workshop tree := rfl
    rw [← pages_tree "a.vue/..".toList] at hdone
    rw [hplan, Plan.run_of_stop_eq_none hdone rfl rfl]
    exact Job.directory_way_build hp rfl (by decide) (by decide)

end Detour

end Showcase
