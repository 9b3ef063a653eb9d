import Showcase.Site.Path

/-!
# File trees

A file tree is what a run of the program can see and change: files and directories at *places*. A
place is the list of names that lead to it from the working directory. What lies above the working
directory, and the top, are directories of which nothing else is known.

A path leads to a place step by step, and each step needs a directory to start from (`follow`). The
operations fail as a file system fails: `FileError` says why.

Main statements: `find?_put_self` and `find?_put_of_ne` (a tree after something is put at a place).
-/

namespace Showcase

/-- The names that lead to a file or a directory. -/
abbrev Place := List Text

namespace Place

/-- The name of the step that leads back. -/
def back : Text := ['.', '.']

/-- The name of the top. -/
def top : Text := ['/']

/-- The step leads down. -/
def isDown (name : Text) : Bool := name ≠ back && name ≠ top

/-- The place is the working directory, above it, or the top. -/
def isAbove (p : Place) : Bool := p.all (· == back) || p == [top]

/-- The place to which a step leads. -/
def step (p : Place) (name : Text) : Place :=
  if name = back then
    if p = [top] then p else if p.isAbove then p ++ [back] else p.dropLast
  else p ++ [name]

end Place

/-- What is at a place. -/
inductive Entry
  /-- a file, with its bytes -/
  | file (bytes : List Nat)
  | directory
  deriving DecidableEq

/-- Why something cannot be done at a place. -/
inductive FileError
  /-- nothing is there -/
  | missing
  /-- something is there already -/
  | present
  /-- a step starts from a file -/
  | notDirectory
  /-- a directory is there -/
  | isDirectory
  deriving DecidableEq

/-- The wording of an error at a path. -/
def FileError.message (e : FileError) (path : Path) : Text :=
  (match e with
    | missing => "[Errno 2] No such file or directory: "
    | present => "[Errno 17] File exists: "
    | notDirectory => "[Errno 20] Not a directory: "
    | isDirectory => "[Errno 21] Is a directory: ").toList ++ Text.quoted path.text

/-- Files and directories, each at its place. -/
structure FileTree where
  /-- the places and what is there -/
  entries : List (Place × Entry)
  deriving DecidableEq

namespace FileTree

/-- A tree of nothing. -/
def empty : FileTree := ⟨[]⟩

/-- What is at a place, given the entries. -/
def lookup (place : Place) : List (Place × Entry) → Option Entry
  | [] => none
  | e :: es => if e.1 = place then some e.2 else lookup place es

/-- The entries with an entry put at a place. -/
def insert (place : Place) (entry : Entry) : List (Place × Entry) → List (Place × Entry)
  | [] => [(place, entry)]
  | e :: es => if e.1 = place then (place, entry) :: es else e :: insert place entry es

/-- What is at a place. -/
def find? (t : FileTree) (place : Place) : Option Entry :=
  if place.isAbove then some .directory else lookup place t.entries

/-- The tree with something put at a place. -/
def put (t : FileTree) (place : Place) (entry : Entry) : FileTree :=
  ⟨insert place entry t.entries⟩

/-- The tree without a place and all that is below it. -/
def remove (t : FileTree) (place : Place) : FileTree :=
  ⟨t.entries.filter fun e => !place.isPrefixOf e.1⟩

theorem lookup_insert_self (place : Place) (entry : Entry) (es : List (Place × Entry)) :
    lookup place (insert place entry es) = some entry := by
  induction es with
  | nil => simp [lookup, insert]
  | cons e es ih => by_cases h : e.1 = place <;> simp [lookup, insert, h, ih]

theorem lookup_insert_of_ne {place other : Place} (h : other ≠ place) (entry : Entry)
    (es : List (Place × Entry)) : lookup other (insert place entry es) = lookup other es := by
  induction es with
  | nil => simp [lookup, insert, Ne.symm h]
  | cons e es ih =>
    by_cases hp : e.1 = place
    · simp [lookup, insert, hp, Ne.symm h]
    · simp [lookup, insert, hp, ih]

theorem find?_put_self {t : FileTree} {place : Place} (h : place.isAbove = false) (entry : Entry) :
    (t.put place entry).find? place = some entry := by
  simp [find?, put, h, lookup_insert_self]

theorem find?_put_of_ne {t : FileTree} {place other : Place} (h : other ≠ place) (entry : Entry) :
    (t.put place entry).find? other = t.find? other := by
  simp [find?, put, lookup_insert_of_ne h]

/-! ## Following paths -/

/-- The place to which steps lead; something need not be there. -/
def follow (t : FileTree) : Place → List Text → Except FileError Place
  | place, [] => .ok place
  | place, name :: names =>
    match t.find? place with
    | some .directory => follow t (place.step name) names
    | some (.file _) => .error .notDirectory
    | none => .error .missing

/-- The place where a path starts. -/
def start (p : Path) : Place := if p.root = .here then [] else [Place.top]

/-- The place of a path. -/
def place (t : FileTree) (p : Path) : Except FileError Place := t.follow (start p) p.parts

/-- There is a directory at a path. -/
def isDirectory (t : FileTree) (p : Path) : Bool :=
  match t.place p with
  | .ok place => t.find? place = some .directory
  | .error _ => false

/-! ## Operations -/

/-- The bytes of a file. -/
def read (t : FileTree) (p : Path) : Except FileError (List Nat) :=
  match t.place p with
  | .error e => .error e
  | .ok place =>
    match t.find? place with
    | some (.file bytes) => .ok bytes
    | some .directory => .error .isDirectory
    | none => .error .missing

/-- The tree after a file is written. -/
def write (t : FileTree) (p : Path) (bytes : List Nat) : Except FileError FileTree :=
  match t.place p with
  | .error e => .error e
  | .ok place =>
    match t.find? place with
    | some .directory => .error .isDirectory
    | _ => .ok (t.put place (.file bytes))

/-- The tree after a directory is made. -/
def makeDirectory (t : FileTree) (p : Path) : Except FileError FileTree :=
  match t.place p with
  | .error e => .error e
  | .ok place =>
    match t.find? place with
    | some _ => .error .present
    | none => .ok (t.put place .directory)

/-- What went wrong, and at which path. -/
structure Fault where
  /-- why -/
  error : FileError
  /-- at which path -/
  path : Path
  deriving DecidableEq

/-- A directory that is there already is as good as one that was made. -/
def settle (t : FileTree) (p : Path) (e : FileError) : FileTree × Option Fault :=
  (t, if e ≠ .missing && t.isDirectory p then none else some ⟨e, p⟩)

theorem length_parent_lt {p : Path} (h : p.parts ≠ []) :
    p.parent.parts.length < p.parts.length := by
  have := List.length_pos_iff.2 h
  simp only [Path.parent, List.length_dropLast]
  omega

/-- The tree after a directory is made with those on the way to it, and what went wrong. Directories
that were made before something went wrong stay. -/
def makeDirectories (t : FileTree) (p : Path) : FileTree × Option Fault :=
  match t.makeDirectory p with
  | .ok t => (t, none)
  | .error .missing =>
    if _h : p.parts = [] then (t, some ⟨.missing, p⟩)
    else
      match t.makeDirectories p.parent with
      | (t, some fault) => (t, some fault)
      | (t, none) =>
        match t.makeDirectory p with
        | .ok t => (t, none)
        | .error e => t.settle p e
  | .error e => t.settle p e
termination_by p.parts.length
decreasing_by exact length_parent_lt _h

/-! ## Pages -/

/-- The name of a page. -/
def isPageName (name : Text) : Bool := Text.endsWith name ".md".toList

/-- The steps from a place down to another one, if that has the name of a page. It may be a
directory by mistake. -/
def stepsToPage? (place other : Place) : Option (List Text) :=
  let steps := other.drop place.length
  if place.isPrefixOf other && steps.all Place.isDown && (steps.getLast?.map isPageName).getD false
  then some steps
  else none

/-- The steps to the pages below a place. -/
def pagesBelow (t : FileTree) (place : Place) : List (List Text) :=
  t.entries.filterMap fun e => stepsToPage? place e.1

/-- The pages below a directory, in the order of their steps. -/
def pages (t : FileTree) (directory : Path) : List Path :=
  match t.place directory with
  | .ok place =>
    ((t.pagesBelow place).mergeSort fun a b => !decide (b < a)).map fun steps =>
      directory.append steps
  | .error _ => []

end FileTree

end Showcase
