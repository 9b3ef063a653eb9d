import Showcase.Text.Escape

/-!
# Paths

A path is where it starts and the names of the steps from there. Written with slashes; empty steps
and steps named `.` do not count, so each path has one reading. A step named `..` is a step like any
other: only the file tree knows where it leads.

* `relativeTo?` is what is left of a path below another one, and `append` goes back;
* `withSuffix?` gives the last name of a path another suffix. The suffix of a name begins at its
  last point, unless the point is the first or the last character.

Main statement: `append_of_relativeTo?` (the rest below a path leads back to the path).
-/

namespace Showcase

/-- Where a path starts. -/
inductive Path.Root
  /-- in the working directory -/
  | here
  /-- at the top -/
  | top
  /-- at the top, written with two slashes, which some systems tell apart -/
  | doubleTop
  deriving DecidableEq

/-- A path to a file or a directory. -/
structure Path where
  /-- where it starts -/
  root : Path.Root
  /-- the names of the steps -/
  parts : List Text
  deriving DecidableEq

namespace Path

/-- The start as it is written. -/
def Root.text : Root → Text
  | here => []
  | top => ['/']
  | doubleTop => ['/', '/']

/-- The start of a written path. -/
def rootOf (t : Text) : Root :=
  match t with
  | '/' :: '/' :: '/' :: _ => .top
  | '/' :: '/' :: _ => .doubleTop
  | '/' :: _ => .top
  | _ => .here

/-- The name counts as a step. -/
def isStep (name : Text) : Bool := name ≠ [] && name ≠ ['.']

/-- The path that a text writes. -/
def ofText (t : Text) : Path := ⟨rootOf t, (Text.splitOn '/' t).filter isStep⟩

/-- The path as it is written, where the working directory is an empty text. -/
def written (p : Path) : Text := p.root.text ++ Text.joinWith ['/'] p.parts

/-- The path as it is written. -/
def text (p : Path) : Text := if p.written = [] then ['.'] else p.written

/-- The path one step back. -/
def parent (p : Path) : Path := { p with parts := p.parts.dropLast }

/-- The path with further steps. -/
def append (p : Path) (names : List Text) : Path := { p with parts := p.parts ++ names }

/-- The steps of a path below another one. -/
def relativeTo? (p base : Path) : Option (List Text) :=
  if p.root = base.root ∧ base.parts <+: p.parts then some (p.parts.drop base.parts.length)
  else none

/-- The name without its suffix. -/
def stem (name : Text) : Text :=
  let after := name.reverse.takeWhile (· != '.')
  match name.reverse.dropWhile (· != '.') with
  | _ :: before => if after = [] ∨ before = [] then name else before.reverse
  | [] => name

/-- The path with the suffix of its last name replaced, if it has a name. -/
def withSuffix? (p : Path) (suffix : Text) : Option Path :=
  p.parts.getLast?.map fun name => p.parent.append [stem name ++ suffix]

theorem append_of_relativeTo? {p base : Path} {rest : List Text}
    (h : p.relativeTo? base = some rest) : base.append rest = p := by
  unfold relativeTo? at h
  split at h
  · next hp =>
    obtain ⟨hroot, names, hparts⟩ := hp
    rw [← hparts, List.drop_left, Option.some.injEq] at h
    cases p
    simp only [append, Path.mk.injEq] at *
    exact ⟨hroot.symm, h ▸ hparts⟩
  · cases h

theorem relativeTo?_append (base : Path) (rest : List Text) :
    (base.append rest).relativeTo? base = some rest := by
  simp [relativeTo?, append]

/-! ## What can be wrong -/

/-- Why there is no path to be had. -/
inductive Error
  /-- a path is not below another one -/
  | outside (p base : Path)
  /-- a path has no name that could get a suffix -/
  | nameless (p : Path)
  deriving DecidableEq

/-- The wording of an error. -/
def Error.message : Error → Text
  | outside p base =>
    Text.quoted p.text ++ " is not in the subpath of ".toList ++ Text.quoted base.written
      ++ " OR one path is relative and the other is absolute.".toList
  | nameless p => "PosixPath(".toList ++ Text.quoted p.text ++ ") has an empty name".toList

/-- The path with another suffix. -/
def withSuffix (p : Path) (suffix : String) : Except Error Path :=
  match p.withSuffix? suffix.toList with
  | some q => .ok q
  | none => .error (.nameless p)

/-- The path of the component that a page is made into: at the same place below the output directory
as the page is below the source directory. -/
def componentFor (page source output : Path) : Except Error Path :=
  match page.relativeTo? source with
  | none => .error (.outside page source)
  | some rest => do
    let rest ← withSuffix ⟨.here, rest⟩ ".vue"
    return output.append rest.parts

end Path

end Showcase
