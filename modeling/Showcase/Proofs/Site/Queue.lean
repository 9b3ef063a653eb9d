import Showcase.Proofs.Site.Again
import Showcase.Proofs.Site.Independence

/-!
# Pages in the background

A run whose pages are handed to a queue leaves the same tree as one that builds them at once,
whatever fails and whichever paths are in each other's way (`Command.tree_run_queued`). Three things
are needed for that.

* A task gets its paths as texts, and reads the paths of the page from them.
* It does not matter how often a task is tried, since a build that is tried again changes nothing
  (`Task.tree_runQueued`).
* No page is ever written to, so pages are found as they were at first (`Plan.IsLater`). This is
  also why a run is not stopped in the middle, if no page would stop it in the tree at the
  beginning.

So either way, the tree of a run is what comes of building its pages one after the other
(`Plan.runPages_eq`).
-/

namespace Showcase

/-! ## Tasks -/

namespace Task

variable {w : Workshop} {t : FileTree} {k : Task}

theorem tree_run (w : Workshop) (t : FileTree) (k : Task) :
    (k.run w t).tree = (k.job.build w t).1 := by
  rw [run]
  split
  · next heq => rw [heq]
  · next heq =>
    rw [heq]
    split <;> rfl
  · next heq => rw [heq]

/-- **A task that is tried again** leaves the tree of its first try, if its job does not change its
own page. -/
theorem tree_runQueued (hread : (k.job.build w t).1.read k.job.source = t.read k.job.source)
    (retries : Nat) : (k.runQueued w t retries).tree = (k.job.build w t).1 := by
  induction retries generalizing t with
  | zero => exact tree_run w t k
  | succ n ih =>
    have hagain := Job.build_again hread
    rw [runQueued]
    split
    · dsimp only
      rw [tree_run, ih (by rw [hagain]), hagain]
    · exact tree_run w t k

end Task

/-! ## Runs -/

namespace Plan

variable {w : Workshop} {t u : FileTree} {plan : Plan} {page : Path}

/-- A tree in which directories are still directories, and pages as they were. -/
structure IsLater (plan : Plan) (t u : FileTree) : Prop where
  directory : ∀ q, t.find? q = some .directory → u.find? q = some .directory
  page : ∀ page ∈ t.pages plan.source, u.find? page.destination = t.find? page.destination

namespace IsLater

theorem refl (plan : Plan) (t : FileTree) : plan.IsLater t t := ⟨fun _ h => h, fun _ _ => rfl⟩

theorem read_eq (h : plan.IsLater t u) (ht : t.IsSound)
    (hdir : t.isDirectory plan.source = true) (hpage : page ∈ t.pages plan.source) :
    u.read page = t.read page :=
  FileTree.read_eq_of_same h.directory (FileTree.passable_of_mem_pages ht hdir hpage).1
    (h.page page hpage)

/-- A build leaves directories and pages as they were. -/
theorem build (h : plan.IsLater t u) (ht : t.IsSound) (hdir : t.isDirectory plan.source = true)
    (hpage : page ∈ t.pages plan.source) : plan.IsLater t (plan.alone w u page).1 where
  directory q hq := Job.directory_build (h.directory q hq)
  page other hother := by
    obtain ⟨entry, hentry⟩ := Option.isSome_iff_exists.1
      (FileTree.passable_of_mem_pages ht hdir hother).2
    rw [hentry]
    refine (Job.agreesAt_build fun p hp =>
      destination_ne_of_mem_pages hother hpage hp).eq_of_some ?_
    rw [h.page other hother, hentry]

end IsLater

/-- A page that does not stop a run in one tree does not stop it in a later one. -/
theorem EndsWell.later (hends : plan.EndsWell w t) (hread : u.read page = t.read page)
    (hpage : page ∈ t.pages plan.source) {e : BuildError}
    (h : (plan.alone w u page).2 = .error e) : ∃ d, e = .document d := by
  have hcompile := Job.compile_eq_of_read_eq (w := w) (j := plan.job page) hread
  cases hmade : (plan.job page).compile w u with
  | error e' =>
    have hstop : (plan.alone w t page).2 = .error e' := by
      rw [alone, Job.build_of_compile_error (hcompile ▸ hmade)]
    rw [alone, Job.build_of_compile_error hmade] at h
    obtain rfl := Except.error.inj h
    exact hends page hpage e' hstop
  | ok p => exact Job.exists_document_of_build_error hmade h

/-- The plan with the pages handed to a queue, or not. -/
def withQueue (plan : Plan) (queued : Bool) : Plan := { plan with queued := queued }

section Runs

variable (ht : t.IsSound) (hnames : t.HasNames) (hdir : t.isDirectory plan.source = true)
  (hsource : ∀ name ∈ plan.source.parts, Path.IsName name)
  (houtput : ∀ name ∈ plan.output.parts, Path.IsName name) (hends : plan.EndsWell w t)

include ht hnames hdir hsource houtput hends

/-- **A page of a run**, at once or in the background, leaves what building it leaves. -/
theorem exists_runPage (queued : Bool) (h : plan.IsLater t u) (hpage : page ∈ t.pages plan.source) :
    ∃ run, (plan.withQueue queued).runPage w u page = ((plan.alone w u page).1, .ok run) := by
  have hread := h.read_eq ht hdir hpage
  have htarget := componentFor_of_mem_pages hpage
  by_cases hqueued : (queued && !plan.dryRun) = true
  · have hdry : plan.dryRun = false := by simpa using (Bool.and_eq_true_iff.1 hqueued).2
    -- the task has paths as texts; read again, they are those of the page
    have hjob : Task.job ⟨page.text, (plan.target page).text, plan.outline⟩ = plan.job page := by
      rw [Task.job, ofText_text_page hnames hsource hpage, ofText_text_target hnames houtput hpage,
        job, hdry]
    -- trying again reads the same page, for an attempt changes no page
    have hlater : (plan.alone w u page).1.read page = u.read page :=
      ((h.build ht hdir hpage).read_eq ht hdir hpage).trans hread.symm
    have htree := Task.tree_runQueued (w := w) (t := u)
      (k := ⟨page.text, (plan.target page).text, plan.outline⟩) (hjob ▸ hlater) Task.retries
    rw [hjob] at htree
    refine ⟨((plan.withQueue queued).queuePage w u page (plan.target page)).2, ?_⟩
    rw [runPage]
    simp only [withQueue, htarget, hqueued, if_true, queuePage, htree]
    rfl
  · have hinline : ((plan.withQueue queued).queued && !(plan.withQueue queued).dryRun) = false :=
      Bool.eq_false_iff.2 hqueued
    have hdocument : ∀ e, ((plan.withQueue queued).alone w u page).2 = .error e →
        ∃ d, e = .document d := fun e he => hends.later hread hpage he
    obtain ⟨run, hrun, -⟩ := exists_buildPage hdocument (.same _)
    exact ⟨run, (runPage_eq hinline hpage).trans hrun⟩

/-- **The tree of a run**: its pages are built one after the other. -/
theorem runPages_eq (queued : Bool) (h : plan.IsLater t u) {pages : List Path}
    (hpages : pages ⊆ t.pages plan.source) :
    ((plan.withQueue queued).runPages w u pages).tree =
      pages.foldl (fun u page => (plan.alone w u page).1) u := by
  induction pages generalizing u with
  | nil => rfl
  | cons page pages ih =>
    obtain ⟨hpage, hpages⟩ := List.cons_subset.1 hpages
    obtain ⟨run, hrun⟩ := exists_runPage ht hnames hdir hsource houtput hends queued h hpage
    rw [runPages, hrun]
    exact ih (h.build ht hdir hpage) hpages

end Runs

theorem tree_run_eq (w : Workshop) (t : FileTree) (plan : Plan) :
    (plan.run w t).tree = (plan.runPages w t (t.pages plan.source)).tree := by
  rw [run.eq_def]
  dsimp only
  split
  · rfl
  · split <;> rfl

end Plan

/-! ## The command -/

namespace Command

variable {w : Workshop} {settings : Setting.Record} {t : FileTree} {a : Arguments} {plan : Plan}

/-- What a plan is that arguments and settings make. -/
theorem of_plan_eq_ok (h : Command.plan settings t a = .ok plan) :
    t.isDirectory plan.source = true ∧ (∀ name ∈ plan.source.parts, Path.IsName name) ∧
      ∀ name ∈ plan.output.parts, Path.IsName name := by
  rw [Command.plan] at h
  split at h
  · cases h
  · split at h
    · cases h
    · cases h
    · dsimp only at h
      split at h
      · next hdir =>
        obtain rfl := Except.ok.inj h
        exact ⟨hdir, fun _ => Path.isName_of_mem_ofText, fun _ => Path.isName_of_mem_ofText⟩
      · cases h

/-- Another switch for the queue makes the same plan but for that. -/
theorem plan_withSwitch (settings : Setting.Record) (t : FileTree) (a : Arguments) :
    Command.plan settings t (a.withSwitch .queued) =
      (Command.plan settings t a).map (·.withQueue true) := by
  have hon : ∀ k, k ≠ .queued → (a.withSwitch .queued).isOn k = a.isOn k := fun k hk => by
    simp [Arguments.isOn, Arguments.withSwitch, hk]
  have hqueued : (a.withSwitch .queued).isOn .queued = true := by
    simp [Arguments.isOn, Arguments.withSwitch]
  have hgiven : (a.withSwitch .queued).source = a.source ∧
      (a.withSwitch .queued).output = a.output := ⟨rfl, rfl⟩
  -- the other switches and the places are as they were, so both plans are made in the same way
  rw [Command.plan, Command.plan, hgiven.1, hgiven.2, hqueued, hon .coloured (by decide),
    hon .plain (by decide), hon .outline (by decide), hon .dryRun (by decide),
    hon .verbose (by decide)]
  split
  · rfl
  · split
    · rfl
    · rfl
    · dsimp only
      split <;> rfl

/-- **A run with a queue leaves the same tree as one without.** -/
theorem tree_run_queued (ht : t.IsSound) (hnames : t.HasNames)
    (hends : ∀ plan, Command.plan settings t a = .ok plan → plan.EndsWell w t) :
    (Command.run w settings t (a.withSwitch .queued)).tree = (Command.run w settings t a).tree := by
  rw [Command.run, Command.run, plan_withSwitch]
  cases hplan : Command.plan settings t a with
  | error e => rfl
  | ok plan =>
    obtain ⟨hdir, hsource, houtput⟩ := of_plan_eq_ok hplan
    have htree (queued : Bool) := Plan.runPages_eq ht hnames hdir hsource houtput (hends plan hplan)
      queued (.refl plan t) (List.Subset.refl _)
    simp only [Except.map]
    rw [Plan.tree_run_eq, Plan.tree_run_eq]
    exact (htree true).trans (htree plan.queued).symm

end Command

namespace Detour

/-- An empty page, and a directory where its component should be. -/
def barred : FileTree :=
  ⟨[(["src".toList], .directory), (["src".toList, "a.md".toList], .file []),
    (["out".toList], .directory), (["out".toList, "a.vue".toList], .directory)]⟩

/-- The task of the page is tried four times, and fails each time. -/
theorem tree_run_queued_barred :
    (Command.run workshop [] barred ((arguments "out".toList).withSwitch .queued)).tree =
      (Command.run workshop [] barred (arguments "out".toList)).tree :=
  Command.tree_run_queued ⟨by decide, by decide⟩ (by decide) fun plan hplan => by
    obtain rfl := Except.ok.inj hplan
    exact Plan.endsWell_of_isComplete Config.isComplete_default rfl

end Detour

end Showcase
