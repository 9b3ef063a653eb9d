import Showcase.Proofs.Markup.Lines
import Showcase.Proofs.Site.Pages
import Showcase.Proofs.Text.Basic

/-!
# Names and written paths

A path is handed to a task as a text, and read again there. It is the same path then, if its names
can be names of files: no slash is in them, and they count as steps (`Path.ofText_text`). Paths that
are read from a text have such names (`Path.isName_of_mem_ofText`), and so have the pages of a tree
with such names, and their components (`Plan.ofText_text_target`).
-/

namespace Showcase

namespace Text

/-- A part has no separator in it. -/
theorem not_mem_of_mem_splitOn {sep : Char} {t p : Text} (h : p ∈ splitOn sep t) : sep ∉ p := by
  induction t generalizing p with
  | nil =>
    obtain rfl := List.mem_singleton.1 h
    exact List.not_mem_nil
  | cons c t ih =>
    obtain ⟨q, qs, e⟩ := List.exists_cons_of_ne_nil (splitOn_ne_nil sep t)
    rw [e] at ih
    by_cases hc : c = sep
    · rw [hc, splitOn_cons_self, e] at h
      rcases List.mem_cons.1 h with rfl | h
      · exact List.not_mem_nil
      · exact ih h
    · rw [splitOn_cons_of_ne hc e] at h
      rcases List.mem_cons.1 h with rfl | h
      · exact fun hmem => (List.mem_cons.1 hmem).elim (Ne.symm hc) (ih List.mem_cons_self)
      · exact ih (List.mem_cons_of_mem q h)

/-- What is put together with a separator is taken apart there. -/
theorem splitOn_joinWith {sep : Char} {ts : List Text} (hne : ts ≠ []) (h : ∀ t ∈ ts, sep ∉ t) :
    splitOn sep (joinWith [sep] ts) = ts := by
  fun_induction joinWith [sep] ts with
  | case1 => exact absurd rfl hne
  | case2 t => exact splitOn_eq_singleton (h t List.mem_cons_self)
  | case3 t u ts ih =>
    obtain ⟨ht, hrest⟩ := List.forall_mem_cons.1 h
    rw [List.append_assoc, List.singleton_append, splitOn_append ht,
      ih (List.cons_ne_nil u ts) hrest]

end Text

namespace Path

/-- The name can be that of a file. -/
def IsName (name : Text) : Prop := isStep name = true ∧ '/' ∉ name

instance : DecidablePred IsName := fun _ => inferInstanceAs (Decidable (_ ∧ _))

theorem IsName.ne_nil {name : Text} (h : IsName name) : name ≠ [] := by
  rintro rfl
  exact absurd h.1 (by decide)

/-- The steps of a path that was read are names. -/
theorem isName_of_mem_ofText {t name : Text} (h : name ∈ (ofText t).parts) : IsName name := by
  obtain ⟨hmem, hstep⟩ := List.mem_filter.1 h
  exact ⟨hstep, Text.not_mem_of_mem_splitOn hmem⟩

/-! ## Written paths -/

/-- The start of a written path is told from slashes. -/
theorem rootOf_text (r : Root) {t : Text} (h : t.head? ≠ some '/') : rootOf (r.text ++ t) = r := by
  cases t with
  | nil => cases r <;> rfl
  | cons c t =>
    have hc : c ≠ '/' := fun e => h (e ▸ rfl)
    cases r <;> simp [Root.text, rootOf, hc]

theorem filter_splitOn_text (r : Root) (t : Text) :
    (Text.splitOn '/' (r.text ++ t)).filter isStep = (Text.splitOn '/' t).filter isStep := by
  have hnil : isStep [] = false := by decide
  cases r with
  | here => rfl
  | top =>
    rw [Root.text, List.singleton_append, Text.splitOn_cons_self,
      List.filter_cons_of_neg (by simp [hnil])]
  | doubleTop =>
    rw [Root.text, List.cons_append, List.singleton_append, Text.splitOn_cons_self,
      Text.splitOn_cons_self, List.filter_cons_of_neg (by simp [hnil]),
      List.filter_cons_of_neg (by simp [hnil])]

theorem head?_joinWith {names : List Text} (h : ∀ name ∈ names, IsName name) :
    (Text.joinWith ['/'] names).head? ≠ some '/' := by
  cases names with
  | nil => simp [Text.joinWith]
  | cons name names =>
    obtain ⟨c, t, e⟩ := List.exists_cons_of_ne_nil (h name List.mem_cons_self).ne_nil
    have hc : '/' ∉ name := (h name List.mem_cons_self).2
    obtain ⟨more, hmore⟩ := Text.prefix_joinWith ['/'] name names
    rw [← hmore, e, List.cons_append, List.head?_cons]
    intro hslash
    obtain rfl := Option.some.inj hslash
    exact hc (e ▸ List.mem_cons_self)

/-- The steps of a written path are its names. -/
theorem filter_splitOn_joinWith {names : List Text} (h : ∀ name ∈ names, IsName name) :
    (Text.splitOn '/' (Text.joinWith ['/'] names)).filter isStep = names := by
  by_cases hne : names = []
  · rw [hne]
    rfl
  · rw [Text.splitOn_joinWith hne fun name hname => (h name hname).2]
    exact List.filter_eq_self.2 fun name hname => (h name hname).1

/-- **A path is read back as it was written**, if its steps are names. -/
theorem ofText_written {p : Path} (h : ∀ name ∈ p.parts, IsName name) : ofText p.written = p := by
  rw [written, ofText, rootOf_text p.root (head?_joinWith h), filter_splitOn_text,
    filter_splitOn_joinWith h]

/-- **A path that is written and read again** is the same path. -/
theorem ofText_text {p : Path} (h : ∀ name ∈ p.parts, IsName name) : ofText p.text = p := by
  have hwritten := ofText_written h
  rw [text]
  split
  · next hnil =>
    rw [hnil] at hwritten
    exact hwritten
  · exact hwritten

/-! ## Names without suffix -/

theorem mem_of_mem_stem {name : Text} {c : Char} (h : c ∈ stem name) : c ∈ name := by
  rw [stem] at h
  split at h
  · next before hbefore =>
    split at h
    · exact h
    · have hmem : c ∈ name.reverse.dropWhile (· != '.') := by
        rw [hbefore]
        exact List.mem_cons_of_mem _ (List.mem_reverse.1 h)
      exact List.mem_reverse.1 ((List.dropWhile_sublist _).subset hmem)
  · exact h

/-- A name is its stem, or its stem and a suffix without another point. -/
theorem stem_cases (name : Text) :
    stem name = name ∨
      ∃ suffix, suffix ≠ [] ∧ stem name ≠ [] ∧ '.' ∉ suffix ∧
        name = stem name ++ '.' :: suffix := by
  rw [stem]
  split
  · next c before hbefore =>
    split
    · exact .inl rfl
    · next hne =>
      obtain ⟨hafter, hnonempty⟩ := not_or.1 hne
      -- the name is looked at from its end, where the first point is the last one of the name
      have hpoint : c = '.' := by
        have := List.head?_dropWhile_not (· != '.') name.reverse
        rw [hbefore] at this
        simpa using this
      refine .inr ⟨(name.reverse.takeWhile (· != '.')).reverse, ?_, ?_, ?_, ?_⟩
      · exact fun e => hafter (List.reverse_eq_nil_iff.1 e)
      · exact fun e => hnonempty (List.reverse_eq_nil_iff.1 e)
      · intro hmem
        have := List.mem_takeWhile_imp (List.mem_reverse.1 hmem)
        simp at this
      · subst hpoint
        calc name = (name.reverse.takeWhile (· != '.') ++ '.' :: before).reverse := by
              rw [← hbefore, List.takeWhile_append_dropWhile, List.reverse_reverse]
          _ = _ := by rw [List.reverse_append, List.reverse_cons, List.append_assoc]; rfl
  · exact .inl rfl

/-- A name is not its stem with a suffix that has a second point in it. -/
theorem stem_append_ne {name suffix : Text} (h : '.' ∈ suffix) :
    stem name ++ '.' :: suffix ≠ name := by
  intro heq
  obtain hstem | ⟨rest, -, -, hrest, hname⟩ := stem_cases name
  · have hlength := congrArg List.length heq
    rw [hstem, List.length_append, List.length_cons] at hlength
    omega
  · have hsuffix := (List.cons.inj (List.append_cancel_left (heq.trans hname))).2
    exact hrest (hsuffix ▸ h)

/-- A name with a suffix is a name. -/
theorem isName_append {name suffix : Text} (hname : '/' ∉ name) (hsuffix : '/' ∉ suffix)
    (hlength : 1 < suffix.length) : IsName (name ++ suffix) := by
  have hne : ∀ short : Text, short.length ≤ 1 → name ++ suffix ≠ short := by
    rintro short hshort rfl
    rw [List.length_append] at hshort
    omega
  refine ⟨?_, fun h => (List.mem_append.1 h).elim hname hsuffix⟩
  rw [isStep, decide_eq_true (hne [] (by decide)), decide_eq_true (hne ['.'] (by decide))]
  rfl

end Path

namespace FileTree

/-- The names in the tree can be names of files; a place at the top begins with the name of that. -/
def HasNames (t : FileTree) : Prop :=
  ∀ e ∈ t.entries, ∀ name ∈ e.1, name = Place.top ∨ Path.IsName name

instance : DecidablePred HasNames := fun t =>
  inferInstanceAs (Decidable (∀ e ∈ t.entries, ∀ name ∈ e.1, name = Place.top ∨ Path.IsName name))

variable {t : FileTree}

/-- The steps down to something are names. -/
theorem HasNames.isName (h : t.HasNames) {q : Place} {dirs : List Text} {name : Text}
    (hdirs : dirs.all Place.isDown = true) (hname : Place.isDown name = true)
    (hsome : (t.find? (q ++ (dirs ++ [name]))).isSome = true) :
    ∀ step ∈ dirs ++ [name], Path.IsName step := by
  obtain ⟨entry, hentry⟩ := Option.isSome_iff_exists.1 hsome
  rw [find?, ← List.append_assoc, isAbove_append_of_isDown _ hname, if_neg Bool.false_ne_true]
    at hentry
  obtain ⟨e, he, heq⟩ := exists_of_lookup hentry
  intro step hstep
  have hdown : Place.isDown step = true := by
    rcases List.mem_append.1 hstep with hmem | hmem
    · exact List.all_eq_true.1 hdirs step hmem
    · exact List.mem_singleton.1 hmem ▸ hname
  have hmem : step ∈ e.1 := by
    rw [heq, List.append_assoc]
    exact List.mem_append_right _ hstep
  -- the entry has this step, and the only other step that it may have leads back
  refine (h e he step hmem).resolve_left ?_
  rintro rfl
  exact absurd hdown (by decide)

end FileTree

namespace Plan

variable {t : FileTree} {plan : Plan} {page : Path}

/-- **A page of a run, written and read again.** -/
theorem ofText_text_page (ht : t.HasNames) (hsource : ∀ name ∈ plan.source.parts, Path.IsName name)
    (hpage : page ∈ t.pages plan.source) : Path.ofText page.text = page := by
  obtain ⟨dirs, name, rfl, hdirs, hname, -, hsome⟩ := FileTree.exists_of_mem_pages hpage
  exact Path.ofText_text (List.forall_mem_append.2 ⟨hsource, ht.isName hdirs hname hsome⟩)

/-- **Its component, written and read again.** -/
theorem ofText_text_target (ht : t.HasNames)
    (houtput : ∀ name ∈ plan.output.parts, Path.IsName name) (hpage : page ∈ t.pages plan.source) :
    Path.ofText (plan.target page).text = plan.target page := by
  obtain ⟨dirs, name, rfl, hdirs, hname, -, hsome⟩ := FileTree.exists_of_mem_pages hpage
  obtain ⟨hdirs, hlast⟩ := List.forall_mem_append.1 (ht.isName hdirs hname hsome)
  have hstem : Path.IsName (Path.stem name ++ ".vue".toList) :=
    Path.isName_append (fun h => (hlast name (List.mem_singleton_self _)).2
      (Path.mem_of_mem_stem h)) (by decide) (by decide)
  rw [target_append]
  exact Path.ofText_text (List.forall_mem_append.2 ⟨houtput, List.forall_mem_append.2
    ⟨hdirs, List.forall_mem_singleton.2 hstem⟩⟩)

end Plan

end Showcase
