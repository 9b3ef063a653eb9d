import Showcase.Proofs.Site.Pages
import Showcase.Proofs.Text.Basic

/-!
# Where components go

The component of a page goes to the same place below the output directory as the page has below the
source directory, with the suffix of its name replaced. The suffix of a name begins at its last
point, unless that is the first character: the page `.md` has no suffix and becomes `.md.vue`. So
does `.md.md`.

Two such pages in one directory are the only ones whose components and outlines are in each other's
way (`Plan.targets_of_pages`): all other names of pages are told by their stems
(`Path.stem_eq_stem_iff`), and components end otherwise than outlines.
-/

namespace Showcase

namespace Path

variable {name other : Text}

/-! ## Stems of pages -/

/-- What names of pages end with. -/
def pageSuffix : Text := ".md".toList

theorem isPageName_iff : FileTree.isPageName name = true ↔ ∃ t, name = t ++ pageSuffix := by
  rw [FileTree.isPageName, Text.endsWith, Text.startsWith_iff]
  constructor
  · rintro ⟨t, ht⟩
    refine ⟨t.reverse, ?_⟩
    rw [← List.reverse_reverse name, ht, List.reverse_append, List.reverse_reverse, pageSuffix]
  · rintro ⟨t, rfl⟩
    exact ⟨t.reverse, by rw [List.reverse_append, pageSuffix]⟩

/-- The stem is what stands before the last point. -/
theorem stem_append {t suffix : Text} (ht : t ≠ []) (hsuffix : suffix ≠ [])
    (hpoint : '.' ∉ suffix) : stem (t ++ '.' :: suffix) = t := by
  have hreverse : (t ++ '.' :: suffix).reverse = suffix.reverse ++ '.' :: t.reverse := by simp
  have hafter : ∀ c ∈ suffix.reverse, (c != '.') = true := by
    intro c hc
    rw [bne_iff_ne]
    rintro rfl
    exact hpoint (List.mem_reverse.1 hc)
  rw [stem, hreverse, Text.takeWhile_run hafter (by decide), Text.dropWhile_run hafter (by decide)]
  simp [ht, hsuffix]

/-- The stem of a page's name is what is before the suffix, if something is there. -/
theorem stem_page (t : Text) : stem (t ++ pageSuffix) = if t = [] then pageSuffix else t := by
  split
  · next ht =>
    rw [ht]
    rfl
  · next ht => exact stem_append ht (by decide) (by decide)

/-- Every page has a stem. -/
theorem stem_page_ne_nil (hname : FileTree.isPageName name = true) : stem name ≠ [] := by
  obtain ⟨t, rfl⟩ := isPageName_iff.1 hname
  rw [stem_page]
  split
  · decide
  · assumption

/-- The names are `.md` and `.md.md`. -/
def IsHiddenPair (name other : Text) : Prop :=
  name = pageSuffix ∧ other = pageSuffix ++ pageSuffix

instance (name other : Text) : Decidable (IsHiddenPair name other) :=
  inferInstanceAs (Decidable (_ ∧ _))

/-- The two pages of a pair have one stem. -/
theorem stem_eq_of_isHiddenPair (h : IsHiddenPair name other) : stem name = stem other := by
  obtain ⟨rfl, rfl⟩ := h
  rfl

/-- **Names of pages are told by their stems**, but for `.md` and `.md.md`. -/
theorem stem_eq_stem_iff (hname : FileTree.isPageName name = true)
    (hother : FileTree.isPageName other = true) :
    stem name = stem other ↔ name = other ∨ IsHiddenPair name other ∨ IsHiddenPair other name := by
  constructor
  · intro hstem
    obtain ⟨t, rfl⟩ := isPageName_iff.1 hname
    obtain ⟨u, rfl⟩ := isPageName_iff.1 hother
    rw [stem_page, stem_page] at hstem
    -- of the two names, one may be nothing but the suffix; then its stem is the whole name
    by_cases ht : t = []
    · by_cases hu : u = []
      · exact .inl (by rw [ht, hu])
      · rw [if_pos ht, if_neg hu] at hstem
        exact .inr (.inl ⟨by rw [ht, List.nil_append], by rw [hstem]⟩)
    · by_cases hu : u = []
      · rw [if_neg ht, if_pos hu] at hstem
        exact .inr (.inr ⟨by rw [hu, List.nil_append], by rw [hstem]⟩)
      · rw [if_neg ht, if_neg hu] at hstem
        exact .inl (by rw [hstem])
  · rintro (rfl | h | h)
    · rfl
    · exact stem_eq_of_isHiddenPair h
    · exact (stem_eq_of_isHiddenPair h).symm

/-! ## What is written -/

/-- What names of components and outlines end with. -/
inductive IsWrittenSuffix : Text → Prop
  | component : IsWrittenSuffix ".vue".toList
  | outline : IsWrittenSuffix ".toc.json".toList

/-- Neither ending is mistaken for the other. -/
theorem IsWrittenSuffix.eq_of_append {suffix suffix' t u : Text} (h : IsWrittenSuffix suffix)
    (h' : IsWrittenSuffix suffix') (heq : t ++ suffix = u ++ suffix') : t = u := by
  have hlast := congrArg List.getLast? heq
  cases h <;> cases h'
  · exact List.append_cancel_right heq
  · simp at hlast
  · simp at hlast
  · exact List.append_cancel_right heq

end Path

namespace Plan

open Showcase.Path (IsHiddenPair IsWrittenSuffix pageSuffix)

variable {plan : Plan} {t : FileTree} {page other p q : Path} {dirs dirs' : List Text}
  {name name' : Text}

theorem withSuffix?_append (p : Path) (dirs : List Text) (name suffix : Text) :
    (p.append (dirs ++ [name])).withSuffix? suffix =
      some (p.append (dirs ++ [Path.stem name ++ suffix])) := by
  simp [Path.withSuffix?, Path.parent, Path.append, ← List.append_assoc]

theorem isWritten_append {suffix : Text} (h : IsWrittenSuffix suffix) (name : Text) :
    IsWritten (name ++ suffix) := by
  cases h
  · exact isWritten_component name
  · exact isWritten_outline name

/-- The component and the outline of a page have the stem of its name. -/
theorem mem_writePaths_append (hname : FileTree.isPageName name = true)
    (hp : p ∈ (plan.job (plan.source.append (dirs ++ [name]))).writePaths) :
    ∃ suffix, IsWrittenSuffix suffix ∧
      p = plan.output.append (dirs ++ [Path.stem name ++ suffix]) := by
  rw [Job.writePaths, job, target_append, List.mem_cons, Job.outlinePath?] at hp
  obtain rfl | hp := hp
  · exact ⟨_, .component, rfl⟩
  · have hstem : Path.stem (Path.stem name ++ ".vue".toList) = Path.stem name :=
      Path.stem_append (Path.stem_page_ne_nil hname) (by decide) (by decide)
    refine ⟨_, .outline, ?_⟩
    split at hp
    · rw [withSuffix?_append, hstem, Option.toList_some, List.mem_singleton] at hp
      exact hp
    · cases hp

/-- The pages are `.md` and `.md.md` in one directory. The second is built after the first. -/
def IsHiddenBy (plan : Plan) (page other : Path) : Prop :=
  ∃ dirs name name', IsHiddenPair name name' ∧ page = plan.source.append (dirs ++ [name]) ∧
    other = plan.source.append (dirs ++ [name'])

/-- Paths below a directory are told by the steps to them. -/
theorem append_inj {d : Path} :
    d.append (dirs ++ [name]) = d.append (dirs' ++ [name']) ↔ dirs = dirs' ∧ name = name' := by
  simp [Path.append]

/-- Pages hide each other in one directory only. -/
theorem isHiddenBy_append :
    plan.IsHiddenBy (plan.source.append (dirs ++ [name])) (plan.source.append (dirs' ++ [name'])) ↔
      dirs = dirs' ∧ IsHiddenPair name name' := by
  simp only [IsHiddenBy, append_inj]
  constructor
  · rintro ⟨_, _, _, h, ⟨rfl, rfl⟩, rfl, rfl⟩
    exact ⟨rfl, h⟩
  · rintro ⟨rfl, h⟩
    exact ⟨dirs, name, name', h, ⟨rfl, rfl⟩, rfl, rfl⟩

/-- **Where the components of two pages go**: each to the place of its page, and to different places
unless the pages are `.md` and `.md.md` in one directory. These two are written to one place, and no
other two have anything written to one place. -/
theorem targets_of_pages (hpage : page ∈ t.pages plan.source) (hother : other ∈ t.pages plan.source)
    (hne : page ≠ other) :
    (∃ dirs name, page = plan.source.append (dirs ++ [name]) ∧
      page.componentFor plan.source plan.output =
        .ok (plan.output.append (dirs ++ [Path.stem name ++ ".vue".toList]))) ∧
    (page.componentFor plan.source plan.output = other.componentFor plan.source plan.output ↔
      plan.IsHiddenBy page other ∨ plan.IsHiddenBy other page) ∧
    ((∃ p ∈ (plan.job page).writePaths, ∃ q ∈ (plan.job other).writePaths,
        p.destination = q.destination) ↔
      plan.IsHiddenBy page other ∨ plan.IsHiddenBy other page) := by
  obtain ⟨dirs, name, rfl, hdirs, -, hname, -⟩ := FileTree.exists_of_mem_pages hpage
  obtain ⟨dirs', name', rfl, hdirs', -, hname', -⟩ := FileTree.exists_of_mem_pages hother
  -- both parts come down to the same: one directory, and one stem
  have hhides : dirs = dirs' ∧ Path.stem name = Path.stem name' ↔
      plan.IsHiddenBy (plan.source.append (dirs ++ [name]))
          (plan.source.append (dirs' ++ [name'])) ∨
        plan.IsHiddenBy (plan.source.append (dirs' ++ [name']))
          (plan.source.append (dirs ++ [name])) := by
    rw [isHiddenBy_append, isHiddenBy_append, Path.stem_eq_stem_iff hname hname',
      @eq_comm _ dirs', ← and_or_left]
    exact and_congr_right fun hdirs =>
      or_iff_right fun hname => hne (append_inj.2 ⟨hdirs, hname⟩)
  refine ⟨⟨dirs, name, rfl, componentFor_append ..⟩, ?_, ?_⟩
  · rw [← hhides, componentFor_append, componentFor_append, Except.ok.injEq, append_inj,
      List.append_cancel_right_eq]
  · rw [← hhides]
    constructor
    -- components and outlines end otherwise, so a conflict is among components or among outlines
    · rintro ⟨p, hp, q, hq, heq⟩
      obtain ⟨suffix, hsuffix, rfl⟩ := mem_writePaths_append hname hp
      obtain ⟨suffix', hsuffix', rfl⟩ := mem_writePaths_append hname' hq
      rw [FileTree.destination_append_of_isDown (by simp [hdirs, (isWritten_append hsuffix _).1]),
        FileTree.destination_append_of_isDown (by simp [hdirs', (isWritten_append hsuffix' _).1])]
        at heq
      obtain ⟨hsame, hlast⟩ := List.append_inj' (List.append_cancel_left heq) rfl
      exact ⟨hsame, hsuffix.eq_of_append hsuffix' (List.singleton_inj.1 hlast)⟩
    · rintro ⟨rfl, hstem⟩
      refine ⟨_, List.mem_cons_self, _, List.mem_cons_self, ?_⟩
      rw [job, job, target_append, target_append, hstem]

end Plan

/-! ## A page that hides another one -/

namespace HiddenPage

/-- A directory of three pages, two of which are named by endings and nothing else. -/
def tree : FileTree :=
  ⟨[(["src".toList], .directory), (["src".toList, ".md".toList], .file [97]),
    (["src".toList, ".md.md".toList], .file [98]), (["src".toList, "a.md".toList], .file [99])]⟩

/-- Components and outlines are wanted. -/
def plan : Plan where
  source := ⟨.here, ["src".toList]⟩
  output := ⟨.here, ["out".toList]⟩
  outline := true
  dryRun := false
  queued := false
  verbose := false

/-- The page that is hidden. -/
def first : Path := plan.source.append [".md".toList]

/-- The page that hides it. -/
def second : Path := plan.source.append [".md.md".toList]

/-- A page that neither of them hides. -/
def ordinary : Path := plan.source.append ["a.md".toList]

theorem pages_plan : tree.pages plan.source = [first, second, ordinary] := by
  have hplace : tree.place plan.source = .ok ["src".toList] := rfl
  have hbelow : tree.pagesBelow ["src".toList] =
      [[".md".toList], [".md.md".toList], ["a.md".toList]] := rfl
  rw [FileTree.pages_eq_of_sorted hplace (by rw [hbelow]; decide), hbelow]
  rfl

/-- **Two pages with one component**: both `.md` and `.md.md` become `.md.vue`. -/
theorem componentFor_first_eq_second :
    first ∈ tree.pages plan.source ∧ second ∈ tree.pages plan.source ∧ first ≠ second ∧
      first.componentFor plan.source plan.output = second.componentFor plan.source plan.output := by
  rw [pages_plan]
  exact ⟨List.mem_cons_self, List.mem_cons_of_mem _ List.mem_cons_self, by decide, rfl⟩

/-- Nothing of the ordinary page is written where something of the second one is. -/
theorem targets_of_second_ordinary :
    second ∈ tree.pages plan.source ∧ ordinary ∈ tree.pages plan.source ∧ second ≠ ordinary ∧
      ¬ ∃ p ∈ (plan.job second).writePaths, ∃ q ∈ (plan.job ordinary).writePaths,
        p.destination = q.destination := by
  have hsecond : second ∈ tree.pages plan.source := by
    rw [pages_plan]
    exact List.mem_cons_of_mem _ List.mem_cons_self
  have hordinary : ordinary ∈ tree.pages plan.source := by
    rw [pages_plan]
    exact List.mem_cons_of_mem _ (List.mem_cons_of_mem _ List.mem_cons_self)
  have hne : second ≠ ordinary := by decide
  refine ⟨hsecond, hordinary, hne, ?_⟩
  rw [(Plan.targets_of_pages hsecond hordinary hne).2.2]
  -- that a page hides another one is only about their names
  have hapart : ∀ name name' : Text, ¬ Path.IsHiddenPair name name' →
      ¬ plan.IsHiddenBy (plan.source.append ([] ++ [name])) (plan.source.append ([] ++ [name'])) :=
    fun name name' h hhides => h (Plan.isHiddenBy_append.1 hhides).2
  exact not_or.2 ⟨hapart ".md.md".toList "a.md".toList (by decide),
    hapart "a.md".toList ".md.md".toList (by decide)⟩

end HiddenPage

end Showcase
