import Showcase.Text.Utf8
import Showcase.Site.FileTree
import Showcase.Page.Session
import Showcase.Outline.Entry

/-!
# Building a document

A job names a source and an output. Building reads the source, makes the component, and writes it
together with the outline, if that is wanted, next to it.

All that can go wrong before something is written is found by `compile`, which changes nothing.
`store` then makes the directories, the component and the outline, in this order; when it fails,
what it has written so far stays. A file is emptied before its text is encoded, so a text that has
no encoding leaves an empty file: this happens where half of a surrogate pair is in the component,
or in a title of the outline.

Main statements: `build_dryRun` (a trial run changes nothing) and `build_of_compile_error` (neither
does a job whose component cannot be made).
-/

namespace Showcase

open HexReference (Points)

/-- What pages are made with. -/
structure Workshop where
  /-- the spellings of slugs -/
  spelling : Slug.Transliteration
  /-- the configuration of pages -/
  config : Config

/-- A document to be built. -/
structure Job where
  /-- the page -/
  source : Path
  /-- the component -/
  output : Path
  /-- the outline is wanted too -/
  outline : Bool
  /-- nothing is to be written -/
  dryRun : Bool

/-- Why a document could be neither read nor written. -/
inductive Cause
  | file (fault : FileTree.Fault)
  | encoding (e : Text.CodecError)
  deriving DecidableEq

/-- The wording of a cause. -/
def Cause.message : Cause → Text
  | file fault => fault.error.message fault.path
  | encoding e => e.message

/-- What was being done with a document when it failed. -/
inductive Activity
  | reading
  | writing
  deriving DecidableEq

/-- A document that could not be read or written. -/
structure DocumentError where
  /-- the page -/
  source : Path
  /-- what was being done -/
  activity : Activity
  /-- why it failed -/
  cause : Cause
  deriving DecidableEq

/-- The wording of an error. -/
def DocumentError.message (e : DocumentError) : Text :=
  e.source.text ++
    (match e.activity with
      | .reading => ": cannot read source: "
      | .writing => ": cannot write output: ").toList ++ e.cause.message

/-- Why a document was not built. -/
inductive BuildError
  /-- it could not be read or written -/
  | document (e : DocumentError)
  /-- the configuration makes no pages -/
  | config (f : Failure)
  /-- the component has no outline -/
  | outline (r : Document.Rejection)
  /-- the outline has no path -/
  | path (e : Path.Error)

/-- The wording of an error. -/
def BuildError.message : BuildError → Text
  | document e => e.message
  | config f => f.message
  | outline r => r.message
  | path e => e.message

/-- A document that was built. -/
structure Report where
  /-- the page -/
  source : Path
  /-- the component -/
  output : Path
  /-- the number of its demos -/
  demos : Nat
  /-- the outline, if one was wanted -/
  outline : Option Path
  deriving DecidableEq

/-- A number of demos in parentheses. -/
def demoCount (n : Nat) : Text := " (".toList ++ Text.ofNat n ++ " demos)".toList

/-- The entry in the log for a document that was built. -/
def Report.log (r : Report) : Text :=
  "INFO demodocs.build: Built ".toList ++ r.source.text ++ " -> ".toList ++ r.output.text
    ++ demoCount r.demos

/-- What is read off a component, given the names of the elements that are demos. These are those
that the configuration names. -/
def Workshop.read {α : Type} (w : Workshop)
    (reader : (isDemo : Text → Bool) → Except Document.Rejection α) : Except BuildError α :=
  match Setting.Record.find? w.config.demo WidgetSettings.elementKey with
  | none => .error (.config (.missing WidgetSettings.elementKey))
  | some element =>
    match reader (Outline.isNamedBy element) with
    | .error r => .error (.outline r)
    | .ok x => .ok x

/-- The outline of a component. -/
def Workshop.outline (w : Workshop) (component : Text) : Except BuildError (List Outline.Entry) :=
  w.read fun isDemo => Outline.ofText w.spelling isDemo component

/-- The outline of a component as it is written. -/
def Workshop.outlineJson (w : Workshop) (component : Torn) : Except BuildError Points :=
  w.read fun isDemo => Outline.pointsOfText w.spelling isDemo component

/-- A page made into a component. -/
def Workshop.component (w : Workshop) (source : Text) : Except BuildError Session.Page :=
  match Session.page w.spelling w.config true source with
  | .error f => .error (.config f)
  | .ok page => .ok page

/-- The component of a page, with whatever stands in for halves of surrogate pairs. -/
def Workshop.torn (w : Workshop) (source : Text) : Torn := fun standIn =>
  match Session.page w.spelling w.config true source standIn with
  | .error _ => []
  | .ok page => page.html

/-- One of them is the component as a text. -/
theorem Workshop.torn_replacement {w : Workshop} {source : Text} {made : Session.Page}
    (h : w.component source = .ok made) : w.torn source Torn.replacement = made.html := by
  rw [Workshop.component] at h
  split at h
  · cases h
  · next page hpage =>
    obtain rfl := Except.ok.inj h
    rw [Workshop.torn, hpage]

/-- What is to be written for a document, in code points. -/
structure Product where
  /-- the component -/
  component : Points
  /-- the number of its demos -/
  demos : Nat
  /-- the outline and its path, if one is wanted -/
  outline : Option (Path × Points)

namespace Job

/-- The source of a job. -/
def page (t : FileTree) (j : Job) : Except DocumentError Text :=
  match t.read j.source with
  | .error e => .error ⟨j.source, .reading, .file ⟨e, j.source⟩⟩
  | .ok bytes =>
    match Text.decode bytes with
    | .error e => .error ⟨j.source, .reading, .encoding (.decoding e)⟩
    | .ok text => .ok (Source.unifyLineEnds text)

/-- The outline of a component and its path, if it is wanted. -/
def outlinePart (w : Workshop) (j : Job) (component : Torn) :
    Except BuildError (Option (Path × Points)) :=
  if j.outline then do
    let json ← w.outlineJson component
    match j.output.withSuffix ".toc.json" with
    | .ok path => return some (path, json)
    | .error e => .error (.path e)
  else .ok none

/-- What is to be written for a job. -/
def compile (w : Workshop) (t : FileTree) (j : Job) : Except BuildError Product :=
  match j.page t with
  | .error e => .error (.document e)
  | .ok source => do
    let page ← w.component source
    let outline ← j.outlinePart w (w.torn source)
    return ⟨(w.torn source).points, page.payloads.length, outline⟩

/-- What a file holds once something was written to it. It was emptied first, so it holds nothing if
that cannot be encoded. -/
def content (text : Points) : List Nat := (Text.encode text).toOption.getD []

/-- Why something cannot be encoded, if it cannot. -/
def unencodable? (text : Points) : Option Cause :=
  match Text.encode text with
  | .error e => some (.encoding (.encoding e))
  | .ok _ => none

/-- The tree after a file is written, and what went wrong. A file that cannot be written to is found
out before its text is encoded. -/
def writeFile (t : FileTree) (p : Path) (text : Points) : FileTree × Option Cause :=
  match t.write p (content text) with
  | .ok t => (t, unencodable? text)
  | .error e => (t, some (.file ⟨e, p⟩))

/-- The tree after a product is written, and what went wrong. -/
def store (t : FileTree) (output : Path) (p : Product) : FileTree × Option Cause :=
  match t.makeDirectories output.parent with
  | (t, some fault) => (t, some (.file fault))
  | (t, none) =>
    match writeFile t output p.component with
    | (t, some cause) => (t, some cause)
    | (t, none) =>
      match p.outline with
      | some (path, json) => writeFile t path json
      | none => (t, none)

/-- The report on a job, given its product. -/
def report (j : Job) (p : Product) : Report :=
  ⟨j.source, j.output, p.demos, p.outline.map (·.1)⟩

/-- The tree after a job, and the report on it. -/
def build (w : Workshop) (t : FileTree) (j : Job) : FileTree × Except BuildError Report :=
  match j.compile w t with
  | .error e => (t, .error e)
  | .ok p =>
    if j.dryRun then (t, .ok (j.report p))
    else
      match store t j.output p with
      | (t, some cause) => (t, .error (.document ⟨j.source, .writing, cause⟩))
      | (t, none) => (t, .ok (j.report p))

theorem build_of_compile_error {w : Workshop} {t : FileTree} {j : Job} {e : BuildError}
    (h : j.compile w t = .error e) : j.build w t = (t, .error e) := by
  simp [build, h]

/-- A trial run changes nothing. -/
theorem build_dryRun {w : Workshop} {t : FileTree} {j : Job} (h : j.dryRun = true) :
    (j.build w t).1 = t := by
  unfold build
  split
  · rfl
  · simp [h]

end Job

end Showcase
