import Showcase.Proofs.Outline.Halves
import Showcase.Proofs.Outline.Ids
import Showcase.Proofs.Site.Again
import Showcase.Proofs.Site.Independence

/-!
# What a failed build leaves

A build that fails before it writes leaves the tree as it was. A build that fails while it writes
does not take back what it has done: directories are made, then the component is written, then the
outline, and each of these can fail (`Job.WriteFailure`).

* Where a file is on the way, the directories before it are made, and nothing else.
* Where a directory is in the place of the component, all directories on the way are made, and
  nothing else.
* Where a directory is in the place of the outline, the component is written before that is found
  out, and stays there without its outline.
* Where a text cannot be encoded, its file is empty. If that is the outline, the component is
  written by then.

The last two come about where half of a surrogate pair is in the component (`Halved.build_first`) or
in a title of its outline (`Halved.build_second`).

Main statement: `Job.tree_of_build_error`, which tells what is at any place afterwards.
-/

namespace Showcase

namespace FileTree

/-- What is at a place once the directories of a way are made, up to the first file. -/
def afterMaking (t : FileTree) (way : List Place) (q : Place) : Option Entry :=
  if q ∈ way.takeWhile (!t.isFile ·) then some .directory else t.find? q

variable {t : FileTree} {way : List Place}

/-- Making a way leaves what `afterMaking` says. -/
theorem Makes.eq_afterMaking {made : FileTree × Option Fault} (h : Makes t way made) (q : Place) :
    made.1.find? q = t.afterMaking way q := h.find? q

/-- On a way that is free of files, all is made. -/
theorem afterMaking_of_mem (hfree : ∀ q ∈ way, t.isFile q = false) {q : Place} (hq : q ∈ way) :
    t.afterMaking way q = some .directory := by
  rw [afterMaking, takeWhile_of_no_file hfree, if_pos hq]

end FileTree

/-- An outline is made from a document that is not rejected. -/
theorem Outline.exists_nodes {spelling : Slug.Transliteration} {isDemo : Text → Bool} {t : Text}
    {es : List Outline.Entry} (h : Outline.ofText spelling isDemo t = .ok es) :
    ∃ nodes, Document.ofText t = .ok nodes := by
  rw [Outline.ofText] at h
  cases hread : Document.ofText t with
  | ok nodes => exact ⟨nodes, rfl⟩
  | error r =>
    rw [hread] at h
    cases h

namespace Job

open FileTree (Fault)
open HexReference (Points)

/-! ## Storing a product -/

/-- How writing a product fails, and what is found afterwards. -/
inductive WriteFailure (t : FileTree) (output : Path) (p : Product) :
    Cause → (Place → Option Entry) → Prop
  /-- There is a file on the way: directories are made up to it. -/
  | way (fault : Fault) (hfile : ∃ q ∈ output.parent.way, t.isFile q = true) :
    WriteFailure t output p (.file fault) (t.afterMaking output.parent.way)
  /-- There is a directory in the place of the component: the directories on the way are made. -/
  | component (hfree : ∀ q ∈ output.parent.way, t.isFile q = false)
      (hbarred : t.afterMaking output.parent.way output.destination = some .directory) :
    WriteFailure t output p (.file ⟨.isDirectory, output⟩) (t.afterMaking output.parent.way)
  /-- The component has no encoding: its file is empty. -/
  | componentText (e : Text.EncodingError) (hfree : ∀ q ∈ output.parent.way, t.isFile q = false)
      (hopen : t.afterMaking output.parent.way output.destination ≠ some .directory)
      (hencode : Text.encode p.component = .error e) :
    WriteFailure t output p (.encoding (.encoding e))
      (Function.update (t.afterMaking output.parent.way) output.destination (some (.file [])))
  /-- There is a directory in the place of the outline: the component is written besides. -/
  | outline (path : Path) (json : Points) (bytes : List Nat)
      (hfree : ∀ q ∈ output.parent.way, t.isFile q = false)
      (hopen : t.afterMaking output.parent.way output.destination ≠ some .directory)
      (hbytes : Text.encode p.component = .ok bytes) (hpath : p.outline = some (path, json))
      (hbarred : t.afterMaking output.parent.way path.destination = some .directory) :
    WriteFailure t output p (.file ⟨.isDirectory, path⟩)
      (Function.update (t.afterMaking output.parent.way) output.destination (some (.file bytes)))
  /-- The outline has no encoding: the component is written, the file of the outline is empty. -/
  | outlineText (path : Path) (json : Points) (bytes : List Nat) (e : Text.EncodingError)
      (hfree : ∀ q ∈ output.parent.way, t.isFile q = false)
      (hopen : t.afterMaking output.parent.way output.destination ≠ some .directory)
      (hbytes : Text.encode p.component = .ok bytes) (hpath : p.outline = some (path, json))
      (hopen' : t.afterMaking output.parent.way path.destination ≠ some .directory)
      (hencode : Text.encode json = .error e) :
    WriteFailure t output p (.encoding (.encoding e))
      (Function.update
        (Function.update (t.afterMaking output.parent.way) output.destination (some (.file bytes)))
        path.destination (some (.file [])))

section Store

variable {t : FileTree} {output : Path} {p : Product}

/-- Writing a file changes one place, whatever its text is. -/
theorem find?_written {f : Path × Points} (h : t.find? f.1.destination ≠ some .directory) :
    (written t f).find? =
      Function.update t.find? f.1.destination (some (.file (content f.2))) := by
  funext q
  rw [Function.update_apply]
  split
  · next hq => rw [hq, written, FileTree.find?_put_self (isAbove_of_find?_ne h)]
  · next hq => rw [written, FileTree.find?_put_of_ne hq]

/-- The tree once the component is written. -/
def withComponent (t : FileTree) (output : Path) (p : Product) : FileTree :=
  written (t.makeDirectories output.parent).1 (output, p.component)

/-- Once the directories are made, writing the component changes one more place. -/
theorem find?_withComponent
    (hopen : t.afterMaking output.parent.way output.destination ≠ some .directory) :
    (withComponent t output p).find? = Function.update (t.afterMaking output.parent.way)
      output.destination (some (.file (content p.component))) := by
  have hmakes := t.makes_makeDirectories output.parent
  rw [withComponent, find?_written (by rwa [hmakes.eq_afterMaking]), funext hmakes.eq_afterMaking]

section Open

variable (hfree : ∀ q ∈ output.parent.way, t.isFile q = false)
  (hopen : t.afterMaking output.parent.way output.destination ≠ some .directory)

include hfree hopen

/-- The component is written where its place is no directory. -/
theorem store_of_open :
    store t output p =
      match unencodable? p.component with
      | some cause => (withComponent t output p, some cause)
      | none => writeAll (withComponent t output p) p.outline.toList := by
  have hmakes := t.makes_makeDirectories output.parent
  have hmade := hmakes.fault.2 hfree
  rw [store_of_made hmade, files, writeAll_cons fun q hq => hmakes.directory_of_mem hmade hq,
    hmakes.eq_afterMaking, if_neg hopen]
  rfl

/-- And then the outline is written where its place is no directory. -/
theorem store_of_outline (hfiles : Neighbours output.parent.way (files output p))
    (hcomponent : unencodable? p.component = none) {path : Path} {json : Points}
    (hpath : p.outline = some (path, json)) :
    (t.afterMaking output.parent.way path.destination = some .directory ↔
        (withComponent t output p).find? path.destination = some .directory) ∧
      store t output p =
        if t.afterMaking output.parent.way path.destination = some .directory then
          (withComponent t output p, some (.file ⟨.isDirectory, path⟩))
        else (written (withComponent t output p) (path, json), unencodable? json) := by
  have hfind := find?_withComponent (p := p) hopen
  have hparent : path.parent.way = output.parent.way :=
    hfiles (path, json) (by rw [files, hpath]; exact List.mem_cons_of_mem _ List.mem_cons_self)
  -- writing the component has not changed the way that it shares with the outline
  have hway : ∀ q ∈ path.parent.way, (withComponent t output p).find? q = some .directory := by
    rw [hparent]
    intro q hq
    have hdirectory := FileTree.afterMaking_of_mem hfree hq
    have hne : q ≠ output.destination := by
      rintro rfl
      exact hopen hdirectory
    rw [hfind, Function.update_of_ne hne, hdirectory]
  have hbarred : t.afterMaking output.parent.way path.destination = some .directory ↔
      (withComponent t output p).find? path.destination = some .directory := by
    rw [hfind, Function.update_apply]
    split
    · next heq => exact iff_of_false (heq ▸ hopen) (by simp)
    · exact Iff.rfl
  refine ⟨hbarred, ?_⟩
  rw [store_of_open hfree hopen, hcomponent, hpath, Option.toList_some]
  dsimp only
  rw [writeAll_cons hway]
  simp only [← hbarred]
  split
  · rfl
  · cases unencodable? json <;> rfl

/-- An outline that cannot be written is found out last, when all else is done. -/
theorem exists_store_of_outline (hfiles : Neighbours output.parent.way (files output p))
    (hcomponent : unencodable? p.component = none) {path : Path} {json : Points}
    (hpath : p.outline = some (path, json))
    (hopen' : t.afterMaking output.parent.way path.destination ≠ some .directory) :
    ∃ u, store t output p = (u, unencodable? json) ∧
      u.find? = Function.update (Function.update (t.afterMaking output.parent.way)
        output.destination (some (.file (content p.component))))
        path.destination (some (.file (content json))) := by
  obtain ⟨hbarred, hstore⟩ := store_of_outline hfree hopen hfiles hcomponent hpath
  rw [if_neg hopen'] at hstore
  refine ⟨_, hstore, ?_⟩
  rw [find?_written (mt hbarred.2 hopen'), find?_withComponent hopen]

/-- An outline fails to be written if its place is a directory, or if it has no encoding. -/
theorem exists_writeFailure_of_component (hfiles : Neighbours output.parent.way (files output p))
    {bytes : List Nat} (hbytes : Text.encode p.component = .ok bytes) {cause : Cause}
    (h : (store t output p).2 = some cause) :
    ∃ found, WriteFailure t output p cause found ∧
      ∀ q, (store t output p).1.find? q = found q := by
  obtain ⟨hcontent, hnone⟩ := content_of_encode hbytes
  cases hpath : p.outline with
  | none =>
    rw [store_of_open hfree hopen, hnone, hpath] at h
    cases h
  | some outline =>
    obtain ⟨path, json⟩ := outline
    by_cases hdirectory : t.afterMaking output.parent.way path.destination = some .directory
    · have houtline := (store_of_outline hfree hopen hfiles hnone hpath).2
      rw [if_pos hdirectory] at houtline
      rw [houtline] at h ⊢
      obtain rfl := Option.some.inj h
      refine ⟨_, .outline path json bytes hfree hopen hbytes hpath hdirectory, congrFun ?_⟩
      rw [find?_withComponent hopen, hcontent]
    · obtain ⟨u, houtline, hfound⟩ :=
        exists_store_of_outline hfree hopen hfiles hnone hpath hdirectory
      rw [houtline] at h ⊢
      cases hjson : Text.encode json with
      | ok _ =>
        rw [(content_of_encode hjson).2] at h
        cases h
      | error e =>
        obtain ⟨hempty, hsome⟩ := content_of_encode_error hjson
        rw [hsome] at h
        obtain rfl := Option.some.inj h
        rw [hcontent, hempty] at hfound
        exact ⟨_, .outlineText path json bytes e hfree hopen hbytes hpath hdirectory hjson,
          congrFun hfound⟩

end Open

/-- **Storing a product fails** in one of these ways. -/
theorem exists_writeFailure (hfiles : Neighbours output.parent.way (files output p)) {cause : Cause}
    (h : (store t output p).2 = some cause) :
    ∃ found, WriteFailure t output p cause found ∧
      ∀ q, (store t output p).1.find? q = found q := by
  have hmakes := t.makes_makeDirectories output.parent
  -- The cases are in the order of the steps: the way, the component's place, its text, the outline.
  by_cases hfile : ∃ q ∈ output.parent.way, t.isFile q = true
  · have hfault : (t.makeDirectories output.parent).2 ≠ none := by
      obtain ⟨q, hq, hisFile⟩ := hfile
      intro hnone
      rw [hmakes.fault.1 hnone q hq] at hisFile
      cases hisFile
    rw [store_of_fault hfault] at h ⊢
    obtain ⟨fault, -, rfl⟩ := Option.map_eq_some_iff.1 h
    exact ⟨_, .way fault hfile, hmakes.eq_afterMaking⟩
  have hfree : ∀ q ∈ output.parent.way, t.isFile q = false := fun q hq =>
    Bool.eq_false_iff.2 fun hisFile => hfile ⟨q, hq, hisFile⟩
  by_cases hbarred : t.afterMaking output.parent.way output.destination = some .directory
  · have hmade := hmakes.fault.2 hfree
    rw [store_of_made hmade, files, writeAll_cons fun q hq => hmakes.directory_of_mem hmade hq,
      hmakes.eq_afterMaking, if_pos hbarred] at h ⊢
    obtain rfl := Option.some.inj h
    exact ⟨_, .component hfree hbarred, hmakes.eq_afterMaking⟩
  cases hcomponent : Text.encode p.component with
  | ok bytes => exact exists_writeFailure_of_component hfree hbarred hfiles hcomponent h
  | error e =>
    obtain ⟨hempty, hsome⟩ := content_of_encode_error hcomponent
    have hfind := find?_withComponent (p := p) hbarred
    rw [hempty] at hfind
    rw [store_of_open hfree hbarred, hsome] at h ⊢
    obtain rfl := Option.some.inj h
    exact ⟨_, .componentText e hfree hbarred hcomponent, congrFun hfind⟩

end Store

/-! ## Building a document -/

variable {w : Workshop} {t : FileTree} {j : Job} {e : BuildError}

/-- A build fails where its product cannot be stored. -/
theorem build_of_store_error {p : Product} {u : FileTree} {cause : Cause}
    (hcompile : j.compile w t = .ok p) (hdry : j.dryRun = false)
    (hstore : store t j.output p = (u, some cause)) :
    j.build w t = (u, .error (.document ⟨j.source, .writing, cause⟩)) := by
  simp only [build, hcompile, hdry, hstore, Bool.false_eq_true, if_false]

/-- A page that can be read is made into a component and its outline. -/
theorem compile_of_outlineJson {source : Text} {made : Session.Page} {json : Points} {path : Path}
    (hpage : j.page t = .ok source) (hmade : w.component source = .ok made)
    (hwanted : j.outline = true) (hjson : w.outlineJson (w.torn source) = .ok json)
    (hpath : j.output.withSuffix ".toc.json" = .ok path) :
    j.compile w t =
      .ok ⟨(w.torn source).points, made.payloads.length, some (path, json)⟩ := by
  have hpart : j.outlinePart w (w.torn source) = .ok (some (path, json)) := by
    rw [outlinePart, if_pos hwanted, hjson]
    simp only [bind, Except.bind, hpath]
    rfl
  rw [compile, hpage]
  simp only [bind, Except.bind, hmade, hpart]
  rfl

/-- What can go wrong before something is written. -/
theorem of_compile_error (h : j.compile w t = .error e) :
    (∃ d, j.page t = .error d ∧ e = .document d) ∨
      ∃ source, j.page t = .ok source ∧ (w.component source = .error e ∨
        ∃ page, w.component source = .ok page ∧ j.outlinePart w (w.torn source) = .error e) := by
  rw [compile] at h
  cases hpage : j.page t with
  | error d =>
    simp only [hpage] at h
    exact .inl ⟨d, rfl, (Except.error.inj h).symm⟩
  | ok source =>
    simp only [hpage] at h
    refine .inr ⟨source, rfl, ?_⟩
    obtain hcomponent | ⟨page, hcomponent, h⟩ := of_bind_eq_error h
    · exact .inl hcomponent
    obtain houtline | ⟨outline, -, h⟩ := of_bind_eq_error h
    · exact .inr ⟨page, hcomponent, houtline⟩
    · cases h

/-- A page that cannot be read is an error of reading. -/
theorem of_page_error {d : DocumentError} (h : j.page t = .error d) :
    d.source = j.source ∧ d.activity = .reading := by
  rw [page] at h
  split at h
  · obtain rfl := Except.error.inj h
    exact ⟨rfl, rfl⟩
  · split at h
    · obtain rfl := Except.error.inj h
      exact ⟨rfl, rfl⟩
    · cases h

/-- A page that cannot be made is an error of the configuration. -/
theorem of_component_error {source : Text} (h : w.component source = .error e) :
    ∃ f, Session.page w.spelling w.config true source = .error f ∧ e = .config f := by
  rw [Workshop.component] at h
  split at h
  · next f hf => exact ⟨f, hf, (Except.error.inj h).symm⟩
  · cases h

/-- What is read off a component needs the name of the element of demos. -/
theorem of_read_error {α : Type} {reader : (Text → Bool) → Except Document.Rejection α}
    (h : w.read reader = .error e) :
    Setting.Record.find? w.config.demo WidgetSettings.elementKey = none ∧
        e = .config (.missing WidgetSettings.elementKey) ∨
      ∃ isDemo r, reader isDemo = .error r ∧ e = .outline r := by
  rw [Workshop.read] at h
  split at h
  · next hnone => exact .inl ⟨hnone, (Except.error.inj h).symm⟩
  · split at h
    · next r hr => exact .inr ⟨_, r, hr, (Except.error.inj h).symm⟩
    · cases h

/-- An outline needs that, and a component that can be read again. -/
theorem of_outlineJson_error {component : Torn} (h : w.outlineJson component = .error e) :
    Setting.Record.find? w.config.demo WidgetSettings.elementKey = none ∧
        e = .config (.missing WidgetSettings.elementKey) ∨
      ∃ r, Document.ofText (component Torn.replacement) = .error r ∧ e = .outline r := by
  obtain hmissing | ⟨isDemo, r, hr, he⟩ := of_read_error h
  · exact .inl hmissing
  · exact .inr ⟨r, Outline.pointsOfText_eq_error_iff.1 hr, he⟩

/-- So there is one if the configuration names the element. -/
theorem exists_outlineJson {component : Torn} {element : Setting} {nodes : List Document.Node}
    (helement : Setting.Record.find? w.config.demo WidgetSettings.elementKey = some element)
    (hread : Document.ofText (component Torn.replacement) = .ok nodes) :
    ∃ json, w.outlineJson component = .ok json := by
  cases hjson : w.outlineJson component with
  | ok json => exact ⟨json, rfl⟩
  | error e =>
    obtain ⟨hmissing, -⟩ | ⟨r, hr, -⟩ := of_outlineJson_error hjson
    · rw [helement] at hmissing
      cases hmissing
    · rw [hread] at hr
      cases hr

/-- An outline cannot be made if the component is rejected, or if it has no path. -/
theorem of_outlinePart_error {component : Torn} (h : j.outlinePart w component = .error e) :
    j.outline = true ∧ (w.outlineJson component = .error e ∨
      ∃ json, w.outlineJson component = .ok json ∧ ∃ r, e = .path r ∧
        j.output.withSuffix ".toc.json" = .error r) := by
  rw [outlinePart] at h
  split at h
  · next hwanted =>
    refine ⟨hwanted, ?_⟩
    obtain houtline | ⟨json, hjson, h⟩ := of_bind_eq_error h
    · exact .inl houtline
    split at h
    · cases h
    · next r hr => exact .inr ⟨json, hjson, r, (Except.error.inj h).symm, hr⟩
  · cases h

/-- A document whose component cannot be made is one that cannot be read. -/
theorem activity_of_compile_error (h : j.compile w t = .error e) {d : DocumentError}
    (hd : e = .document d) : d.activity = .reading := by
  subst hd
  obtain ⟨d', hpage, he⟩ | ⟨source, -, hcomponent | ⟨page, -, houtline⟩⟩ := of_compile_error h
  · obtain rfl := BuildError.document.inj he
    exact (of_page_error hpage).2
  · obtain ⟨f, -, he⟩ := of_component_error hcomponent
    cases he
  · obtain ⟨-, houtline | ⟨entries, -, r, he, -⟩⟩ := of_outlinePart_error houtline
    · obtain ⟨-, he⟩ | ⟨r, -, he⟩ := of_outlineJson_error houtline <;> cases he
    · cases he

/-- **What a failed build leaves.** The tree is as it was, and nothing was to be written yet; or
writing failed, and then the rest of the tree is as it was. -/
theorem tree_of_build_error (h : (j.build w t).2 = .error e) :
    (j.build w t).1 = t ∧ (∀ d, e = .document d → d.activity = .reading) ∨
      ∃ p cause found, j.compile w t = .ok p ∧ j.dryRun = false ∧
        e = .document ⟨j.source, .writing, cause⟩ ∧
        WriteFailure t j.output p cause found ∧ ∀ q, (j.build w t).1.find? q = found q := by
  cases hcompile : j.compile w t with
  | error e' =>
    have hbuild := build_of_compile_error hcompile
    rw [hbuild] at h ⊢
    obtain rfl := Except.error.inj h
    exact .inl ⟨rfl, fun d hd => activity_of_compile_error hcompile hd⟩
  | ok p =>
    simp only [build, hcompile] at h ⊢
    -- a trial does not get as far as writing
    by_cases hdry : j.dryRun = true
    · rw [if_pos hdry] at h
      cases h
    · rw [if_neg hdry] at h ⊢
      cases hstore : store t j.output p with
      | mk u cause =>
        cases cause with
        | none =>
          rw [hstore] at h
          cases h
        | some cause =>
          rw [hstore] at h
          obtain ⟨found, hfailure, hfound⟩ :=
            exists_writeFailure (neighbours_files hcompile) (by rw [hstore])
          rw [hstore] at hfound
          exact .inr ⟨p, cause, found, rfl, by simpa using hdry, (Except.error.inj h).symm,
            hfailure, hfound⟩

end Job

namespace Detour

open HexReference (Points)

/-- An empty page, a component that was made before, and a directory in the place of its outline. -/
def halfBarred : FileTree :=
  ⟨[(["a.md".toList], .file []), (["a.vue".toList], .file [111, 108, 100]),
    (["a.toc.json".toList], .directory)]⟩

/-- The page is to be built anew with its outline. The way to the output leads through a directory
that is not there. -/
def rebuild : Job where
  source := ⟨.here, ["a.md".toList]⟩
  output := ⟨.here, ["new".toList, Place.back, "a.vue".toList]⟩
  outline := true
  dryRun := false

/-- An empty page is made into a component that can be read again. -/
theorem exists_blank : ∃ made nodes, workshop.component [] = .ok made ∧
    Document.ofText made.html = .ok nodes := by
  obtain ⟨made, es, hmade, hes, -⟩ := Outline.exists_outline Slug.spelling true []
  obtain ⟨nodes, hnodes⟩ := Outline.exists_nodes hes
  have hblank : HeadingLine.page true [] = [] := rfl
  rw [hblank] at hmade
  exact ⟨made, nodes, by rw [Workshop.component, workshop, hmade], hnodes⟩

/-- An empty page is made into a component with an outline. -/
theorem exists_compile_outline {t : FileTree} {j : Job} {path : Path} (hpage : j.page t = .ok [])
    (hwanted : j.outline = true) (hpath : j.output.withSuffix ".toc.json" = .ok path) :
    ∃ demos json, j.compile workshop t =
      .ok ⟨HexReference.points blankComponent, demos, some (path, json)⟩ := by
  obtain ⟨made, nodes, hmade, hnodes⟩ := exists_blank
  rw [← Workshop.torn_replacement hmade] at hnodes
  obtain ⟨json, hjson⟩ := Job.exists_outlineJson (w := workshop) rfl hnodes
  have hcompile := Job.compile_of_outlineJson hpage hmade hwanted hjson hpath
  rw [torn_blank, Torn.points_const] at hcompile
  exact ⟨_, json, hcompile⟩

/-- The outline of the page cannot be written. -/
def barredOutline : DocumentError where
  source := rebuild.source
  activity := .writing
  cause := .file ⟨.isDirectory, ⟨.here, ["new".toList, Place.back, "a.toc.json".toList]⟩⟩

theorem build_rebuild :
    (rebuild.build workshop halfBarred).2 = .error (.document barredOutline) ∧
      (rebuild.build workshop halfBarred).1.find? =
        Function.update (halfBarred.afterMaking rebuild.output.parent.way) ["a.vue".toList]
          (some (.file (Text.utf8 blankComponent))) := by
  have hpath : rebuild.output.withSuffix ".toc.json" =
      .ok ⟨.here, ["new".toList, Place.back, "a.toc.json".toList]⟩ := rfl
  obtain ⟨demos, json, hcompile⟩ := exists_compile_outline (t := halfBarred) rfl rfl hpath
  have hfree : ∀ q ∈ rebuild.output.parent.way, halfBarred.isFile q = false := by decide
  have hopen : halfBarred.afterMaking rebuild.output.parent.way rebuild.output.destination ≠
      some .directory := by decide
  have hstore := (Job.store_of_outline hfree hopen (Job.neighbours_files hcompile)
    (Job.unencodable?_points _) rfl).2
  rw [if_pos (by decide)] at hstore
  rw [Job.build_of_store_error hcompile rfl hstore, Job.find?_withComponent hopen,
    Job.content_points]
  exact ⟨rfl, rfl⟩

/-- **A failed build may change a lot**: a directory is made, and the component is replaced without
its outline. -/
theorem rebuild_halfBarred :
    (rebuild.build workshop halfBarred).2 = .error (.document barredOutline) ∧
      halfBarred.find? ["new".toList] = none ∧
      (rebuild.build workshop halfBarred).1.find? ["new".toList] = some .directory ∧
      (rebuild.build workshop halfBarred).1.find? ["a.vue".toList] ≠
        halfBarred.find? ["a.vue".toList] ∧
      (rebuild.build workshop halfBarred).1.find? ["a.toc.json".toList] = some .directory := by
  obtain ⟨hbuild, hfind⟩ := build_rebuild
  refine ⟨hbuild, by decide, ?_, ?_, ?_⟩
  · rw [hfind, Function.update_of_ne (by decide)]
    decide
  · have hold : halfBarred.find? ["a.vue".toList] = some (.file [111, 108, 100]) := by decide
    rw [hfind, Function.update_self, hold]
    decide
  · rw [hfind, Function.update_of_ne (by decide)]
    decide

/-- What is left then is told by the failure to write the outline. -/
theorem tree_of_build_error_halfBarred :
    (rebuild.build workshop halfBarred).1 = halfBarred ∧
        (∀ d, BuildError.document barredOutline = .document d → d.activity = .reading) ∨
      ∃ p cause found, rebuild.compile workshop halfBarred = .ok p ∧ rebuild.dryRun = false ∧
        BuildError.document barredOutline = .document ⟨rebuild.source, .writing, cause⟩ ∧
        Job.WriteFailure halfBarred rebuild.output p cause found ∧
        ∀ q, (rebuild.build workshop halfBarred).1.find? q = found q := by
  exact Job.tree_of_build_error build_rebuild.1

end Detour

namespace Halved

open DemoSection Document

/-! ### A half in the component -/

/-- A link to a host whose name is written in ASCII, and is half of a surrogate pair. -/
def showing : Text := "<http://xn--ib9b>".toList

/-- Where encoding fails: at the text of the link. -/
def noComponent : Text.EncodingError := ⟨139, 139, 0xD800⟩

/-- The component shows the half. -/
theorem encode_showing :
    Text.encode (Detour.workshop.torn showing).points = .error noComponent := by
  decide +kernel

/-! ### A half in the outline -/

/-- A heading in raw HTML, whose title is half of a surrogate pair. -/
def naming : Text := "<h2>&#xD800;</h2>".toList

/-- The component of the page. -/
def component : Text := Component.wrap Component.defaultClass naming

/-- The component has the page as it is written: the half is named, not shown. -/
theorem torn_naming : Detour.workshop.torn naming = fun _ => component := by
  obtain ⟨w, definitions, payloads, -, -, hpage⟩ := exists_page Slug.spelling naming
  have hblocks : (defaultEngine Slug.spelling).blocks (Source.clean naming) = [.html naming] := by
    with_unfolding_all rfl
  funext standIn
  rw [Workshop.torn, Detour.workshop, hpage standIn, hblocks]
  rfl

/-- The tokens of the component. -/
def tokens : List Token :=
  Component.tokens Component.defaultClass
    (.opening "h2".toList [] false :: ([.half 0xD800] ++ [.closing "h2".toList]) ++
      letterTokens ['\n'])

theorem isRead_component : IsRead component tokens := by
  have hnumber : IsRead "&#xD800;".toList [.half 0xD800] :=
    @IsRead.number "D800".toList (by decide) (Text.forall_mem_of_all (by decide))
  have hordinary : isOrdinary "h2".toList = true := by decide
  have hheading : IsRead naming
      (.opening "h2".toList [] false :: ([.half 0xD800] ++ [.closing "h2".toList])) :=
    IsRead.element hordinary (List.forall_mem_nil _) hnumber
  exact Component.isRead_wrap (by decide) (hheading.append (IsRead.plain (by decide)))

/-- Where encoding fails: at the title of the heading. -/
def noOutline : Text.EncodingError := ⟨57, 57, 0xD800⟩

/-- The outline of the component has a title that has no bytes. -/
theorem exists_outlineJson_naming :
    ∃ json, Detour.workshop.outlineJson (Detour.workshop.torn naming) = .ok json ∧
      Text.encode json = .error noOutline := by
  refine ⟨_, ?_, (by decide +kernel : Text.encode (Outline.tornJson Slug.spelling
    (Outline.isNamedBy (.text "demo-block".toList)) tokens).points = .error noOutline)⟩
  have hjson := @Outline.pointsOfText_eq Slug.spelling
    (Outline.isNamedBy (.text "demo-block".toList)) _ _ fun _ => isRead_component
  have helement : Setting.Record.find? Detour.workshop.config.demo WidgetSettings.elementKey =
      some (.text "demo-block".toList) := rfl
  rw [torn_naming, Workshop.outlineJson, Workshop.read, helement]
  simp only [Detour.workshop, hjson]

/-! ### Builds that fail -/

/-- A tree with both pages in it. -/
def tree : FileTree :=
  ⟨[(["a.md".toList], .file (Text.utf8 showing)), (["b.md".toList], .file (Text.utf8 naming))]⟩

/-- The first page is to be built. -/
def first : Job where
  source := ⟨.here, ["a.md".toList]⟩
  output := ⟨.here, ["a.vue".toList]⟩
  outline := false
  dryRun := false

/-- The second page is to be built with its outline. -/
def second : Job where
  source := ⟨.here, ["b.md".toList]⟩
  output := ⟨.here, ["b.vue".toList]⟩
  outline := true
  dryRun := false

/-- **A component that cannot be encoded** is found out when its file is already there: that is left
empty. -/
theorem build_first :
    (first.build Detour.workshop tree).2 =
        .error (.document ⟨first.source, .writing, .encoding (.encoding noComponent)⟩) ∧
      (first.build Detour.workshop tree).1.find? ["a.vue".toList] = some (.file []) := by
  obtain ⟨hempty, hcause⟩ := Job.content_of_encode_error encode_showing
  have hpage : first.page tree = .ok showing := by rfl
  obtain ⟨demos, hcompile⟩ :=
    Job.exists_compile (w := Detour.workshop) Config.isComplete_default rfl hpage
  have hopen : tree.afterMaking first.output.parent.way first.output.destination ≠
      some .directory := by decide
  have hstore := Job.store_of_open
    (p := ⟨(Detour.workshop.torn showing).points, demos, none⟩) (by decide) hopen
  rw [hcause] at hstore
  rw [Job.build_of_store_error hcompile rfl hstore, Job.find?_withComponent hopen, hempty]
  exact ⟨rfl, Function.update_self ..⟩

/-- **An outline that cannot be encoded** is found out even later: its file is left empty, next to
the component. -/
theorem build_second :
    (second.build Detour.workshop tree).2 =
        .error (.document ⟨second.source, .writing, .encoding (.encoding noOutline)⟩) ∧
      (second.build Detour.workshop tree).1.find? ["b.vue".toList] =
        some (.file (Text.utf8 component)) ∧
      (second.build Detour.workshop tree).1.find? ["b.toc.json".toList] = some (.file []) := by
  obtain ⟨made, hmade⟩ :=
    Job.exists_component (w := Detour.workshop) Config.isComplete_default naming
  obtain ⟨json, hjson, hencode⟩ := exists_outlineJson_naming
  obtain ⟨hempty, hcause⟩ := Job.content_of_encode_error hencode
  have hpage : second.page tree = .ok naming := by rfl
  have hpath : second.output.withSuffix ".toc.json" = .ok ⟨.here, ["b.toc.json".toList]⟩ := rfl
  have hcompile := Job.compile_of_outlineJson hpage hmade rfl hjson hpath
  rw [torn_naming, Torn.points_const] at hcompile
  -- everything can be written but for the text of the outline
  obtain ⟨u, hstore, hfind⟩ := Job.exists_store_of_outline (t := tree) (by decide) (by decide)
    (Job.neighbours_files hcompile) (Job.unencodable?_points component) rfl (by decide)
  rw [hcause] at hstore
  rw [Job.build_of_store_error hcompile rfl hstore, hfind, hempty, Job.content_points]
  refine ⟨rfl, ?_, Function.update_self ..⟩
  rw [Function.update_of_ne (by decide)]
  exact Function.update_self ..

end Halved

end Showcase
