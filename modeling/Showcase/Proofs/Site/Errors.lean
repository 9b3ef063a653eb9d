import Showcase.Proofs.Site.Failing

/-!
# The errors of a build

With a complete configuration, every page that can be read is made into a component, so what is left
to go wrong is known (`Job.Fails`): the page cannot be read, or what was made cannot be written, and
both are errors of the document. With an outline two more things go wrong: the component is rejected
when it is read again, or the output has no name to which the suffix of an outline can be given.
These two are not errors of the document.

Main statement: `Job.build_errors`, which lists the errors and says when all of them are errors of
the document.
-/

namespace Showcase

theorem Path.withSuffix_eq_error_iff {p : Path} {suffix : String} {e : Path.Error} :
    p.withSuffix suffix = .error e ↔ p.parts = [] ∧ e = .nameless p := by
  have hsuffix : p.withSuffix? suffix.toList = none ↔ p.parts = [] := by
    rw [Path.withSuffix?, Option.map_eq_none_iff, List.getLast?_eq_none_iff]
  rw [Path.withSuffix]
  cases h : p.withSuffix? suffix.toList with
  | some q =>
    have hparts : p.parts ≠ [] := fun hnil => by simp [hsuffix.2 hnil] at h
    exact iff_of_false (by simp) fun he => hparts he.1
  | none => rw [← hsuffix, Except.error.injEq, @eq_comm _ e, and_iff_right h]

namespace Job

variable {w : Workshop} {t : FileTree} {j : Job} {e : BuildError}

/-- Why the source of a job cannot be read. -/
inductive ReadFailure (t : FileTree) (j : Job) : Cause → Prop
  | file (e : FileError) (hread : t.read j.source = .error e) :
    ReadFailure t j (.file ⟨e, j.source⟩)
  | encoding (bytes : List Nat) (e : Text.DecodingError) (hread : t.read j.source = .ok bytes)
      (hdecode : Text.decode bytes = .error e) : ReadFailure t j (.encoding (.decoding e))

/-- What goes wrong with a job. -/
inductive Fails (w : Workshop) (t : FileTree) (j : Job) : BuildError → Prop
  /-- The source cannot be read. -/
  | reading (cause : Cause) (h : ReadFailure t j cause) :
    Fails w t j (.document ⟨j.source, .reading, cause⟩)
  /-- The component or the outline cannot be written. -/
  | writing (p : Product) (cause : Cause) (hcompile : j.compile w t = .ok p)
      (hdry : j.dryRun = false) (hstore : (store t j.output p).2 = some cause) :
    Fails w t j (.document ⟨j.source, .writing, cause⟩)
  /-- The component is rejected when its headings are looked for. -/
  | rejected (source : Text) (made : Session.Page) (r : Document.Rejection)
      (hwanted : j.outline = true) (hpage : j.page t = .ok source)
      (hmade : w.component source = .ok made) (hread : Document.ofText made.html = .error r) :
    Fails w t j (.outline r)
  /-- The output has no name. -/
  | nameless (source : Text) (made : Session.Page) (nodes : List Document.Node)
      (hwanted : j.outline = true) (hpage : j.page t = .ok source)
      (hmade : w.component source = .ok made) (hread : Document.ofText made.html = .ok nodes)
      (hname : j.output.parts = []) : Fails w t j (.path (.nameless j.output))

/-! ## The steps of a build -/

/-- A page cannot be read exactly for one of the causes of `ReadFailure`. -/
theorem page_eq_error_iff {d : DocumentError} :
    j.page t = .error d ↔ ∃ cause, ReadFailure t j cause ∧ d = ⟨j.source, .reading, cause⟩ := by
  constructor
  · intro h
    rw [page] at h
    split at h
    · next f hread => exact ⟨_, .file f hread, (Except.error.inj h).symm⟩
    · next bytes hread =>
      split at h
      · next f hdecode => exact ⟨_, .encoding bytes f hread hdecode, (Except.error.inj h).symm⟩
      · cases h
  · rintro ⟨cause, h, rfl⟩
    cases h with
    | file f hread => rw [page, hread]
    | encoding bytes f hread hdecode => simp only [page, hread, hdecode]

/-- A component that has an outline can be read again. -/
theorem exists_nodes_of_outlineJson {component : Torn} {json : HexReference.Points}
    (h : w.outlineJson component = .ok json) :
    ∃ nodes, Document.ofText (component Torn.replacement) = .ok nodes := by
  cases hread : Document.ofText (component Torn.replacement) with
  | ok nodes => exact ⟨nodes, rfl⟩
  | error r =>
    rw [Workshop.outlineJson, Workshop.read] at h
    split at h
    · cases h
    · rw [Outline.pointsOfText_eq_error_iff.2 hread] at h
      cases h

/-- A wanted outline cannot be made if the component is rejected or, if it is not, if the output has
no name. -/
theorem outlinePart_eq_error_iff (hc : w.config.IsComplete) {source : Text} {made : Session.Page}
    (hmade : w.component source = .ok made) :
    j.outlinePart w (w.torn source) = .error e ↔ j.outline = true ∧
      ((∃ r, Document.ofText made.html = .error r ∧ e = .outline r) ∨
        (∃ nodes, Document.ofText made.html = .ok nodes) ∧ j.output.parts = [] ∧
          e = .path (.nameless j.output)) := by
  -- a complete configuration names the element, so this lookup does not fail
  obtain ⟨element, helement⟩ := hc.exists_demo WidgetSettings.elementKey (by decide)
  rw [← Workshop.torn_replacement hmade]
  constructor
  · intro h
    obtain ⟨hwanted, houtline | ⟨json, hjson, r, rfl, hname⟩⟩ := of_outlinePart_error h
    · obtain ⟨hmissing, -⟩ | ⟨r, hread, rfl⟩ := of_outlineJson_error houtline
      · rw [helement] at hmissing
        cases hmissing
      · exact ⟨hwanted, .inl ⟨r, hread, rfl⟩⟩
    · obtain ⟨hparts, rfl⟩ := Path.withSuffix_eq_error_iff.1 hname
      exact ⟨hwanted, .inr ⟨exists_nodes_of_outlineJson hjson, hparts, rfl⟩⟩
  · rintro ⟨hwanted, ⟨r, hread, rfl⟩ | ⟨⟨nodes, hread⟩, hparts, rfl⟩⟩
    · have hjson : w.outlineJson (w.torn source) = .error (.outline r) := by
        simp only [Workshop.outlineJson, Workshop.read, helement,
          Outline.pointsOfText_eq_error_iff.2 hread]
      simp only [outlinePart, if_pos hwanted, hjson, bind, Except.bind]
    · obtain ⟨json, hjson⟩ := exists_outlineJson (w := w) helement hread
      have hname : j.output.withSuffix ".toc.json" = .error (.nameless j.output) :=
        Path.withSuffix_eq_error_iff.2 ⟨hparts, rfl⟩
      simp only [outlinePart, if_pos hwanted, hjson, hname, bind, Except.bind]

/-- What can go wrong before something is written. -/
theorem compile_eq_error_iff (hc : w.config.IsComplete) :
    j.compile w t = .error e ↔ (∃ d, j.page t = .error d ∧ e = .document d) ∨
      ∃ source made, j.page t = .ok source ∧ w.component source = .ok made ∧
        j.outlinePart w (w.torn source) = .error e := by
  constructor
  · intro h
    obtain hpage | ⟨source, hpage, hcomponent | ⟨made, hmade, houtline⟩⟩ := of_compile_error h
    · exact .inl hpage
    · obtain ⟨made, hmade⟩ := exists_component hc source
      rw [hmade] at hcomponent
      cases hcomponent
    · exact .inr ⟨source, made, hpage, hmade, houtline⟩
  · rintro (⟨d, hpage, rfl⟩ | ⟨source, made, hpage, hmade, houtline⟩)
    · simp only [compile, hpage]
    · simp only [compile, hpage, hmade, houtline, bind, Except.bind]

/-- **What can go wrong at all**: before something is written, or while it is. -/
theorem build_eq_error_iff :
    (j.build w t).2 = .error e ↔ j.compile w t = .error e ∨
      ∃ p cause, j.compile w t = .ok p ∧ j.dryRun = false ∧ (store t j.output p).2 = some cause ∧
        e = .document ⟨j.source, .writing, cause⟩ := by
  cases hcompile : j.compile w t with
  | error e' =>
    rw [build_of_compile_error hcompile, Except.error.injEq, Except.error.injEq]
    simp
  | ok p =>
    simp only [build, hcompile, Except.ok.injEq, reduceCtorEq, false_or, exists_and_left,
      exists_eq_left']
    by_cases hdry : j.dryRun = true
    · simp [hdry]
    · rw [if_neg hdry]
      cases hstore : store t j.output p with
      | mk u cause => cases cause <;> simp [hdry, eq_comm]

/-- What goes wrong is what is reported. -/
theorem build_eq_error_iff_fails (hc : w.config.IsComplete) :
    (j.build w t).2 = .error e ↔ Fails w t j e := by
  -- The steps are taken in order: the page, the component, the outline, the files.
  rw [build_eq_error_iff, compile_eq_error_iff hc]
  constructor
  · rintro ((⟨d, hpage, rfl⟩ | ⟨source, made, hpage, hmade, houtline⟩) |
      ⟨p, cause, hcompile, hdry, hstore, rfl⟩)
    · obtain ⟨cause, hcause, rfl⟩ := page_eq_error_iff.1 hpage
      exact .reading cause hcause
    · obtain ⟨hwanted, ⟨r, hread, rfl⟩ | ⟨⟨nodes, hread⟩, hname, rfl⟩⟩ :=
        (outlinePart_eq_error_iff hc hmade).1 houtline
      · exact .rejected source made r hwanted hpage hmade hread
      · exact .nameless source made nodes hwanted hpage hmade hread hname
    · exact .writing p cause hcompile hdry hstore
  · rintro (⟨cause, hcause⟩ | ⟨p, cause, hcompile, hdry, hstore⟩ |
      ⟨source, made, r, hwanted, hpage, hmade, hread⟩ |
      ⟨source, made, nodes, hwanted, hpage, hmade, hread, hname⟩)
    · exact .inl (.inl ⟨_, page_eq_error_iff.2 ⟨cause, hcause, rfl⟩, rfl⟩)
    · exact .inr ⟨p, cause, hcompile, hdry, hstore, rfl⟩
    · exact .inl (.inr ⟨source, made, hpage, hmade,
        (outlinePart_eq_error_iff hc hmade).2 ⟨hwanted, .inl ⟨r, hread, rfl⟩⟩⟩)
    · exact .inl (.inr ⟨source, made, hpage, hmade,
        (outlinePart_eq_error_iff hc hmade).2 ⟨hwanted, .inr ⟨⟨nodes, hread⟩, hname, rfl⟩⟩⟩)

/-- **The errors of a build** are those of `Fails`. All of them are errors of the document exactly
if an outline that is wanted can be made: the output has a name, and the component of a page that
can be read is not rejected. -/
theorem build_errors (hc : w.config.IsComplete) (t : FileTree) (j : Job) :
    (∀ e, (j.build w t).2 = .error e ↔ Fails w t j e) ∧
      ((∀ e, (j.build w t).2 = .error e → ∃ d, e = .document d) ↔
        (j.outline = true → ∀ source made, j.page t = .ok source →
          w.component source = .ok made →
            j.output.parts ≠ [] ∧ ∃ nodes, Document.ofText made.html = .ok nodes)) := by
  refine ⟨fun e => build_eq_error_iff_fails hc, ?_⟩
  -- two of the four ways to fail are no document errors: they are the ones to exclude
  simp only [build_eq_error_iff_fails hc]
  constructor
  · intro h hwanted source made hpage hmade
    cases hread : Document.ofText made.html with
    | error r =>
      obtain ⟨d, hd⟩ := h _ (.rejected source made r hwanted hpage hmade hread)
      cases hd
    | ok nodes =>
      refine ⟨fun hname => ?_, nodes, rfl⟩
      obtain ⟨d, hd⟩ := h _ (.nameless source made nodes hwanted hpage hmade hread hname)
      cases hd
  · rintro h e (⟨cause, hcause⟩ | ⟨p, cause, hcompile, hdry, hstore⟩ |
      ⟨source, made, r, hwanted, hpage, hmade, hread⟩ |
      ⟨source, made, nodes, hwanted, hpage, hmade, hread, hname⟩)
    · exact ⟨_, rfl⟩
    · exact ⟨_, rfl⟩
    · obtain ⟨-, nodes, hnodes⟩ := h hwanted source made hpage hmade
      rw [hread] at hnodes
      cases hnodes
    · exact absurd hname (h hwanted source made hpage hmade).1

end Job

namespace Unnamed

/-- An empty page. -/
def tree : FileTree := ⟨[(["a.md".toList], .file [])]⟩

/-- The output is the working directory, which has no name. -/
def job (outline : Bool) : Job where
  source := ⟨.here, ["a.md".toList]⟩
  output := ⟨.here, []⟩
  outline := outline
  dryRun := false

theorem fails_outline :
    (job true).Fails Detour.workshop tree (.path (.nameless (job true).output)) := by
  obtain ⟨made, nodes, hcomponent, hnodes⟩ := Detour.exists_blank
  exact .nameless [] made nodes rfl rfl hcomponent hnodes rfl

/-- The error of a job that cannot write its output. -/
def unwritten (j : Job) : DocumentError := ⟨j.source, .writing, .file ⟨.isDirectory, j.output⟩⟩

theorem fails_component :
    (job false).Fails Detour.workshop tree (.document (unwritten (job false))) := by
  obtain ⟨demos, hcompile⟩ := Job.exists_compile (w := Detour.workshop) (t := tree) (j := job false)
    Config.isComplete_default rfl rfl
  have hstore (p : Product) : (Job.store tree (job false).output p).2 =
      some (.file ⟨.isDirectory, (job false).output⟩) := by
    rw [Job.store, FileTree.makeDirectories]
    rfl
  exact .writing _ _ hcompile rfl (hstore _)

/-- **An error that is not one of the document**: the output cannot be written. Where no outline is
wanted, the error is one of the document. -/
theorem build_unnamed :
    Detour.workshop.config.IsComplete ∧
      ((job true).build Detour.workshop tree).2 = .error (.path (.nameless (job true).output)) ∧
      ((job false).build Detour.workshop tree).2 = .error (.document (unwritten (job false))) :=
  have hc : Detour.workshop.config.IsComplete := Config.isComplete_default
  ⟨hc, (Job.build_eq_error_iff_fails hc).2 fails_outline,
    (Job.build_eq_error_iff_fails hc).2 fails_component⟩

theorem build_errors_unnamed :
    ((job false).build Detour.workshop tree).2 = .error (.document (unwritten (job false))) ∧
      ∀ e, ((job false).build Detour.workshop tree).2 = .error e → ∃ d, e = .document d := by
  obtain ⟨hfails, honly⟩ := Job.build_errors (w := Detour.workshop) Config.isComplete_default tree
    (job false)
  exact ⟨(hfails _).2 fails_component, honly.2 fun hwanted => by cases hwanted⟩

end Unnamed

end Showcase
