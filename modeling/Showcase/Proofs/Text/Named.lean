import Showcase.Proofs.Text.Basic
import Showcase.Text.Reference

/-!
# The names of the characters that markup needs

The table of named references is made from a long list of entries, of which the last one with a name
counts (`named?_eq`). For the four characters that markup needs, the names by which they are written
lead back to them (`isNameOf_of_mem`).

The list is kept as lines of text. `Spelt` brings in the characters of each line, so that searching
the lines is a computation with characters.
-/

namespace Showcase.Text

/-- The entries in a line of the table. -/
def lineEntries (line : Text) : List (Text × Text) :=
  (splitOn ';' line).filterMap fun entry =>
    match splitOn ' ' entry with
    | name :: code :: codes => some (name, (code :: codes).map fun d => Char.ofNat (hexNumber d))
    | _ => none

/-- What a name stands for in lines of the table. -/
def namedIn? (name : Text) (lines : List Text) : Option Text :=
  (lines.flatMap lineEntries).findSomeRev? fun e => if e.1 == name then some e.2 else none

theorem named?_eq (name : Text) :
    named? name = namedIn? name (namedReferenceData.map String.toList) := by
  rw [named?, namedReferences, Std.HashMap.ofList_eq_insertMany_empty,
    Std.HashMap.getElem?_insertMany_list, Std.HashMap.getElem?_empty, Option.or_none, namedIn?,
    List.flatMap_map]
  rfl

/-- The texts are the characters of the strings. -/
inductive Spelt : List String → List Text → Prop
  | nil : Spelt [] []
  | cons {t : Text} {strings : List String} {ts : List Text} :
    Spelt strings ts → Spelt (String.ofList t :: strings) (t :: ts)

theorem Spelt.eq {strings : List String} {ts : List Text} (h : Spelt strings ts) :
    strings.map String.toList = ts := by
  induction h with
  | nil => rfl
  | cons _ ih => rw [List.map_cons, String.toList_ofList, ih]

/-- The characters that markup needs, with the names by which they are written. -/
def markupNames : List (Text × Char) :=
  [("amp".toList, '&'), ("lt".toList, '<'), ("gt".toList, '>'), ("quot".toList, '"')]

/-- The names of the characters that markup needs stand for them in lines of the table. -/
def NamesMarkup (lines : List Text) : Prop :=
  ∀ x ∈ markupNames, namedIn? x.1 lines = some [x.2]

instance : DecidablePred NamesMarkup := fun _ => inferInstanceAs (Decidable (∀ _ ∈ markupNames, _))

theorem Spelt.namesMarkup {strings : List String} {ts : List Text} (h : Spelt strings ts)
    (hts : NamesMarkup ts) : NamesMarkup (strings.map String.toList) := by
  rw [h.eq]
  exact hts

theorem namesMarkup_namedReferenceData :
    NamesMarkup (namedReferenceData.map String.toList) := by
  apply Spelt.namesMarkup
  · dsimp only [namedReferenceData]
    repeat' apply Spelt.cons
    exact Spelt.nil
  · decide +kernel

/-- The name is a short word that stands for the character. -/
structure IsNameOf (name : Text) (c : Char) : Prop where
  named : named? name = some [c]
  letters : ∀ d ∈ name, isLetter d = true
  ne_nil : name ≠ []
  short : name.length ≤ 32

theorem isNameOf_of_mem {x : Text × Char} (hx : x ∈ markupNames) : IsNameOf x.1 x.2 := by
  have hshape : ∀ y ∈ markupNames, y.1.all isLetter = true ∧ y.1 ≠ [] ∧ y.1.length ≤ 32 := by
    decide +kernel
  obtain ⟨hletters, hne, hshort⟩ := hshape x hx
  refine ⟨?_, List.all_eq_true.1 hletters, hne, hshort⟩
  rw [named?_eq]
  exact namesMarkup_namedReferenceData x hx

end Showcase.Text
