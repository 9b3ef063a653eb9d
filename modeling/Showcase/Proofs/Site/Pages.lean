import Mathlib.Data.Char
import Mathlib.Data.List.Induction
import Mathlib.Data.List.Lex
import Mathlib.Data.List.Nodup
import Showcase.Site.Run
import Showcase.Proofs.Site.Building
import Showcase.Proofs.Site.Soundness

/-!
# The pages of a run and what is written for them

A page of a run lies below the source directory: down some directories and then a name that ends as
names of pages do. Its component and its outline lie below the output directory, down the same
directories, and their names do not end so (`exists_of_mem_pages`, `exists_of_mem_writePaths`). So
no page is ever written to, wherever the two directories are (`destination_ne_of_mem_pages`).

In a sound tree each page can be reached (`passable_of_mem_pages`), and no page is found twice
(`nodup_pages`).

The paths written for different pages are *apart* if none of them is, or is above, one written for
another page. This is about the paths as they are written. It follows that what they lead to is
apart as well, with one exception: a path may lead to a place on the way to the output directory, if
that way goes back (`mem_way_of_mem_way`).
-/

namespace Showcase

namespace FileTree

variable {t u : FileTree} {d page : Path}

/-! ## Pages below a directory -/

/-- The way down to a page takes steps into directories, and the last one to the page. -/
theorem stepsToPage?_eq_some_iff {place other : Place} {steps : List Text} :
    stepsToPage? place other = some steps ↔ other = place ++ steps ∧
      steps.all Place.isDown = true ∧ (steps.getLast?.map isPageName).getD false = true := by
  simp only [stepsToPage?, Option.ite_none_right_eq_some, Option.some.injEq, Bool.and_eq_true,
    List.isPrefixOf_iff_prefix]
  constructor
  · rintro ⟨⟨⟨⟨rest, rfl⟩, hdown⟩, hname⟩, rfl⟩
    rw [List.drop_left] at *
    exact ⟨rfl, hdown, hname⟩
  · rintro ⟨rfl, hdown, hname⟩
    rw [List.drop_left]
    exact ⟨⟨⟨⟨steps, rfl⟩, hdown⟩, hname⟩, rfl⟩

/-- The pages below a place are its entries that can be reached so. -/
theorem mem_pagesBelow {place : Place} {steps : List Text} :
    steps ∈ t.pagesBelow place ↔ (∃ e ∈ t.entries, e.1 = place ++ steps) ∧
      steps.all Place.isDown = true ∧ (steps.getLast?.map isPageName).getD false = true := by
  simp only [pagesBelow, List.mem_filterMap, stepsToPage?_eq_some_iff]
  exact ⟨fun ⟨e, he, heq, h⟩ => ⟨⟨e, he, heq⟩, h⟩, fun ⟨⟨e, he, heq⟩, h⟩ => ⟨e, he, heq, h⟩⟩

/-- The pages of a directory, as paths that go on from its own. -/
theorem mem_pages {place : Place} (hplace : t.place d = .ok place) :
    page ∈ t.pages d ↔ ∃ steps ∈ t.pagesBelow place, page = d.append steps := by
  simp only [pages, hplace, List.mem_map, List.mem_mergeSort]
  exact ⟨fun ⟨steps, h, heq⟩ => ⟨steps, h, heq.symm⟩, fun ⟨steps, h, heq⟩ => ⟨steps, h, heq.symm⟩⟩

/-- Pages whose steps are in order already are listed in this order. -/
theorem pages_eq_of_sorted {place : Place} (hplace : t.place d = .ok place)
    (hsorted : (t.pagesBelow place).Pairwise fun a b => ¬ b < a) :
    t.pages d = (t.pagesBelow place).map d.append := by
  have hsort : (t.pagesBelow place).mergeSort (fun a b => !decide (b < a)) = t.pagesBelow place :=
    List.mergeSort_of_pairwise (hsorted.imp fun {a b} h => by simpa using h)
  simp only [pages, hplace, hsort]

/-- A page lies down some directories and has the name of a page. -/
theorem exists_of_mem_pages (h : page ∈ t.pages d) :
    ∃ dirs name, page = d.append (dirs ++ [name]) ∧ dirs.all Place.isDown = true ∧
      Place.isDown name = true ∧ isPageName name = true ∧
      (t.find? (d.destination ++ (dirs ++ [name]))).isSome = true := by
  cases hplace : t.place d with
  | error e => simp [pages, hplace] at h
  | ok place =>
    obtain ⟨steps, hsteps, rfl⟩ := (mem_pages hplace).1 h
    obtain ⟨hentry, hdown, hname⟩ := mem_pagesBelow.1 hsteps
    obtain rfl : place = d.destination := (passable_of_place hplace).1
    obtain rfl | ⟨dirs, name, rfl⟩ := List.eq_nil_or_concat' steps
    · simp at hname
    · rw [List.all_append, Bool.and_eq_true] at hdown
      have hlast : Place.isDown name = true := by simpa using hdown.2
      refine ⟨dirs, name, rfl, hdown.1, hlast, by simpa using hname, ?_⟩
      rw [← List.append_assoc, find?, isAbove_append_of_isDown _ hlast, if_neg Bool.false_ne_true,
        List.append_assoc]
      exact isSome_lookup hentry

/-- Names that lead down are steps from wherever the path leads. -/
theorem destination_append_of_isDown {names : List Text} (h : names.all Place.isDown = true) :
    (d.append names).destination = d.destination ++ names := by
  rw [Path.destination_append, Place.after_of_isDown _ h]

/-- A page can be reached, and something is there. -/
theorem passable_of_mem_pages (ht : t.IsSound) (hd : t.isDirectory d = true)
    (h : page ∈ t.pages d) : (∀ q ∈ page.parent.way, t.find? q = some .directory) ∧
      (t.find? page.destination).isSome = true := by
  obtain ⟨dirs, name, rfl, hdirs, hname, -, hsome⟩ := exists_of_mem_pages h
  have hdown : (dirs ++ [name]).all Place.isDown = true := by simp [hdirs, hname]
  refine ⟨fun q hq => ?_, by rwa [destination_append_of_isDown hdown]⟩
  have hparent : (d.append (dirs ++ [name])).parent = d.append dirs := by
    simp [Path.parent, Path.append, ← List.append_assoc]
  rw [hparent, Path.way_append, List.mem_append] at hq
  -- a place is on the way to the directory, or on the way down from it
  obtain hq | hq := hq
  · cases hplace : t.place d with
    | error e => simp [isDirectory, hplace] at hd
    | ok place =>
      obtain ⟨rfl, hway⟩ := passable_of_place hplace
      by_cases hparts : d.parts = []
      · simp [Path.way, hparts, Place.way] at hq
      · rw [Path.way_eq_concat hparts, List.mem_append, List.mem_singleton] at hq
        obtain hq | rfl := hq
        · exact hway q hq
        · simpa [isDirectory, hplace] using hd
  · obtain ⟨first, -, hfirst, rfl⟩ := Place.prefix_of_mem_way hdirs hq
    exact ht.directory_of_prefix hdirs hname hsome hfirst

/-- What is read does not change as long as directories stay and the file is as it was. -/
theorem read_eq_of_same (hdirs : ∀ q, t.find? q = some .directory → u.find? q = some .directory)
    (hway : ∀ q ∈ page.parent.way, t.find? q = some .directory)
    (hsame : u.find? page.destination = t.find? page.destination) : u.read page = t.read page := by
  rw [read, read, place_of_passable hway, place_of_passable fun q hq => hdirs q (hway q hq)]
  simp only [hsame]

/-- No page is found twice. -/
theorem nodup_pagesBelow (ht : t.IsSound) (place : Place) : (t.pagesBelow place).Nodup := by
  have hplaces : t.entries.Pairwise fun e e' => e.1 ≠ e'.1 := List.pairwise_map.1 ht.nodup
  refine List.Pairwise.filterMap _ (fun e e' hne steps h steps' h' => ?_) hplaces
  rintro rfl
  exact hne ((stepsToPage?_eq_some_iff.1 h).1.trans (stepsToPage?_eq_some_iff.1 h').1.symm)

theorem nodup_pages (ht : t.IsSound) (d : Path) : (t.pages d).Nodup := by
  unfold pages
  split
  · next place _ =>
    refine List.Nodup.map (fun a b h => ?_) ?_
    · simpa [Path.append] using h
    · exact (List.mergeSort_perm ..).nodup_iff.2 (nodup_pagesBelow ht place)
  · exact List.nodup_nil

theorem not_append_lt_append_left {a b : List Text} (h : ¬ b < a) (first : List Text) :
    ¬ first ++ b < first ++ a := by
  induction first with
  | nil => exact h
  | cons name first ih =>
    rw [List.cons_append, List.cons_append, List.cons_lt_cons_iff, not_or, not_and]
    exact ⟨lt_irrefl name, fun _ => ih⟩

/-- Pages are in the order of their steps. -/
theorem sorted_pages (t : FileTree) (d : Path) :
    (t.pages d).Pairwise fun a b => ¬ b.parts < a.parts := by
  unfold pages
  split
  · next place _ =>
    have hle : ∀ a b : List Text, (!decide (b < a)) = true ↔ a ≤ b := by
      intro a b
      rw [Bool.not_eq_true', decide_eq_false_iff_not, not_lt]
    -- sorting is by the steps, and all pages have the directory before them
    refine List.pairwise_map.2 ((List.pairwise_mergeSort (fun a b c => ?_) (fun a b => ?_)
      (t.pagesBelow place)).imp fun {a b} h => ?_)
    · rw [hle, hle, hle]
      exact le_trans
    · rw [Bool.or_eq_true, hle, hle]
      exact le_total a b
    · exact not_append_lt_append_left (not_lt.2 ((hle a b).1 h)) d.parts
  · exact List.Pairwise.nil

end FileTree

namespace Plan

variable {t : FileTree} {plan : Plan} {page other : Path}

/-! ## What is written for a page -/

/-- The component of a page; for what lies elsewhere, the output directory. -/
def target (plan : Plan) (page : Path) : Path :=
  match page.componentFor plan.source plan.output with
  | .ok p => p
  | .error _ => plan.output

/-- The job of a page. -/
def job (plan : Plan) (page : Path) : Job := ⟨page, plan.target page, plan.outline, plan.dryRun⟩

/-- A component is below the output directory where its page is below the source directory. -/
theorem componentFor_append (source output : Path) (dirs : List Text) (name : Text) :
    (source.append (dirs ++ [name])).componentFor source output =
      .ok (output.append (dirs ++ [Path.stem name ++ ".vue".toList])) := by
  rw [Path.componentFor, Path.relativeTo?_append]
  simp [Path.withSuffix, Path.withSuffix?, Path.parent, Path.append, bind, Except.bind, pure,
    Except.pure]

/-- So the target of a page is known without looking at the tree. -/
theorem target_append (plan : Plan) (dirs : List Text) (name : Text) :
    plan.target (plan.source.append (dirs ++ [name])) =
      plan.output.append (dirs ++ [Path.stem name ++ ".vue".toList]) := by
  rw [target, componentFor_append]

/-- Every page has a component. -/
theorem componentFor_of_mem_pages (h : page ∈ t.pages plan.source) :
    page.componentFor plan.source plan.output = .ok (plan.target page) := by
  obtain ⟨dirs, name, rfl, -⟩ := FileTree.exists_of_mem_pages h
  rw [target_append, componentFor_append]

/-- A name that is written to: it leads down, and it is no name of a page. -/
def IsWritten (name : Text) : Prop := Place.isDown name = true ∧ FileTree.isPageName name = false

/-- A name with one of the suffixes of outputs is no page, and is a step down. -/
theorem isWritten_of_suffix {name suffix : Text} (hlength : 2 < suffix.length)
    (hpage : FileTree.isPageName (name ++ suffix) = false) : IsWritten (name ++ suffix) := by
  have hne : ∀ short : Text, short.length ≤ 2 → name ++ suffix ≠ short := by
    rintro short hshort rfl
    rw [List.length_append] at hshort
    omega
  refine ⟨?_, hpage⟩
  simp only [Place.isDown, Bool.and_eq_true, decide_eq_true_eq]
  exact ⟨hne Place.back (by decide), hne Place.top (by decide)⟩

theorem isWritten_component (name : Text) : IsWritten (name ++ ".vue".toList) :=
  isWritten_of_suffix (by decide) (by
    simp [FileTree.isPageName, Text.endsWith, Text.startsWith, Text.after?])

theorem isWritten_outline (name : Text) : IsWritten (name ++ ".toc.json".toList) :=
  isWritten_of_suffix (by decide) (by
    simp [FileTree.isPageName, Text.endsWith, Text.startsWith, Text.after?])

/-- What is written for a page is below the output directory, down the directories that the page is
down below the source directory. -/
theorem exists_of_mem_writePaths {dirs : List Text} {name : Text} {p : Path}
    (h : p ∈ (plan.job (plan.source.append (dirs ++ [name]))).writePaths) :
    ∃ written, IsWritten written ∧ p = plan.output.append (dirs ++ [written]) := by
  simp only [Job.writePaths, job, target_append, List.mem_cons, Option.mem_toList,
    Job.outlinePath?] at h
  obtain rfl | h := h
  · exact ⟨_, isWritten_component _, rfl⟩
  -- the path of the outline replaces the suffix of that of the component
  · split at h
    · refine ⟨_, isWritten_outline (Path.stem (Path.stem name ++ ".vue".toList)), ?_⟩
      rw [Path.withSuffix?, Option.map_eq_some_iff] at h
      obtain ⟨last, hlast, rfl⟩ := h
      rw [Path.append, ← List.append_assoc, List.getLast?_concat, Option.some.injEq] at hlast
      rw [← hlast, Path.parent, Path.append, Path.append, Path.append, ← List.append_assoc,
        List.dropLast_concat]
      simp only [List.append_assoc]
    · cases h

/-- The way to an output goes to the output directory, and on from there. -/
theorem way_job (plan : Plan) (dirs : List Text) (name : Text) :
    (plan.job (plan.source.append (dirs ++ [name]))).way =
      plan.output.way ++ plan.output.destination.way dirs := by
  have hparent : (plan.output.append (dirs ++ [Path.stem name ++ ".vue".toList])).parent =
      plan.output.append dirs := by
    simp [Path.parent, Path.append, ← List.append_assoc]
  rw [Job.way, job, target_append, hparent, Path.way_append]

/-- The way to the output directory is part of the way to each output. -/
theorem way_output_subset (h : page ∈ t.pages plan.source) :
    plan.output.way ⊆ (plan.job page).way := by
  obtain ⟨dirs, name, rfl, -⟩ := FileTree.exists_of_mem_pages h
  rw [way_job]
  exact List.subset_append_left _ _

/-- No page is written to. -/
theorem destination_ne_of_mem_pages (h : page ∈ t.pages plan.source)
    (hother : other ∈ t.pages plan.source) {p : Path} (hp : p ∈ (plan.job other).writePaths) :
    page.destination ≠ p.destination := by
  obtain ⟨dirs, name, rfl, hdirs, hname, hpage, -⟩ := FileTree.exists_of_mem_pages h
  obtain ⟨dirs', name', rfl, hdirs', -⟩ := FileTree.exists_of_mem_pages hother
  obtain ⟨written, ⟨hdown, hwritten⟩, rfl⟩ := exists_of_mem_writePaths hp
  rw [FileTree.destination_append_of_isDown (by simp [hdirs, hname]),
    FileTree.destination_append_of_isDown (by simp [hdirs', hdown])]
  intro heq
  have hlast := congrArg List.getLast? heq
  rw [← List.append_assoc, ← List.append_assoc, List.getLast?_concat, List.getLast?_concat,
    Option.some.injEq] at hlast
  rw [hlast, hwritten] at hpage
  cases hpage

/-! ## Paths that are apart -/

/-- No path that is written for one page is, or is above, one that is written for another. -/
def IsApart (plan : Plan) (t : FileTree) : Prop :=
  ∀ page ∈ t.pages plan.source, ∀ other ∈ t.pages plan.source, page ≠ other →
    ∀ p ∈ (plan.job page).writePaths, ∀ q ∈ (plan.job other).writePaths, ¬ p.parts <+: q.parts

/-- What is written for different pages is at different places. -/
theorem IsApart.destination_ne (h : plan.IsApart t) (hpage : page ∈ t.pages plan.source)
    (hother : other ∈ t.pages plan.source) (hne : page ≠ other) {p q : Path}
    (hp : p ∈ (plan.job page).writePaths) (hq : q ∈ (plan.job other).writePaths) :
    p.destination ≠ q.destination := by
  have hapart := h page hpage other hother hne p hp q hq
  obtain ⟨dirs, name, rfl, hdirs, -⟩ := FileTree.exists_of_mem_pages hpage
  obtain ⟨dirs', name', rfl, hdirs', -⟩ := FileTree.exists_of_mem_pages hother
  obtain ⟨written, ⟨hdown, -⟩, rfl⟩ := exists_of_mem_writePaths hp
  obtain ⟨written', ⟨hdown', -⟩, rfl⟩ := exists_of_mem_writePaths hq
  rw [FileTree.destination_append_of_isDown (by simp [hdirs, hdown]),
    FileTree.destination_append_of_isDown (by simp [hdirs', hdown'])]
  intro heq
  rw [List.append_cancel_left heq] at hapart
  exact hapart (List.prefix_refl _)

/-- Where the way to a component goes through a place that is written to, it does so before it
reaches the output directory. -/
theorem IsApart.mem_way_of_mem_way (h : plan.IsApart t) (hpage : page ∈ t.pages plan.source)
    (hother : other ∈ t.pages plan.source) {p : Path} (hp : p ∈ (plan.job page).writePaths)
    (hway : p.destination ∈ (plan.job other).way) : p.destination ∈ plan.output.way := by
  have hapart : page ≠ other → ∀ q ∈ (plan.job other).writePaths, ¬ p.parts <+: q.parts :=
    fun hne => h page hpage other hother hne p hp
  obtain ⟨dirs, name, rfl, hdirs, -⟩ := FileTree.exists_of_mem_pages hpage
  obtain ⟨dirs', name', rfl, hdirs', -⟩ := FileTree.exists_of_mem_pages hother
  obtain ⟨written, ⟨hdown, -⟩, rfl⟩ := exists_of_mem_writePaths hp
  rw [way_job, List.mem_append] at hway
  -- below the output directory, a path on the way to another one is in front of it
  refine hway.resolve_right fun hway => ?_
  obtain ⟨first, -, hfirst, heq⟩ := Place.prefix_of_mem_way hdirs' hway
  rw [FileTree.destination_append_of_isDown (by simp [hdirs, hdown])] at heq
  obtain rfl := List.append_cancel_left heq
  -- a page is not on its own way: that is shorter than the path
  by_cases hsame : plan.source.append (dirs ++ [name]) = plan.source.append (dirs' ++ [name'])
  · have hdirs : dirs = dirs' := by
      simp only [Path.append, Path.mk.injEq, true_and, List.append_cancel_left_eq] at hsame
      exact (List.append_inj' hsame rfl).1
    have hlength := hfirst.length_le
    rw [hdirs, List.length_append, List.length_singleton] at hlength
    omega
  · refine hapart hsame (plan.job (plan.source.append (dirs' ++ [name']))).output
      List.mem_cons_self ?_
    rw [job, target_append]
    exact (List.prefix_append_right_inj _).2 (hfirst.trans (List.prefix_append _ _))

end Plan

end Showcase
