import Std.Data.HashMap
import Showcase.Text.Basic
import Showcase.Text.ReferenceTable

/-!
# Named character references

`named?` looks up what a name stands for, and `bare?` tells which names need no semicolon. The two
tables are read once from their written form.
-/

namespace Showcase.Text

/-- The number written in hexadecimal, or the digits read so far. -/
def hexNumber (t : Text) : Nat :=
  t.foldl (fun n c => n * 16 + (hexValue? c).getD 0) 0

/-- The number written in decimal. -/
def decimalNumber (t : Text) : Nat :=
  t.foldl (fun n c => n * 10 + (c.toNat - 48)) 0

/-- The entries of the table of named references. -/
def namedReferenceEntries : List (Text × Text) :=
  namedReferenceData.flatMap fun line =>
    (splitOn ';' line.toList).filterMap fun entry =>
      match splitOn ' ' entry with
      | name :: code :: codes => some (name, (code :: codes).map fun d => Char.ofNat (hexNumber d))
      | _ => none

/-- The table of named references. -/
def namedReferences : Std.HashMap Text Text := Std.HashMap.ofList namedReferenceEntries

/-- The names that need no semicolon. -/
def bareReferences : Std.HashMap Text Text :=
  Std.HashMap.ofList ((bareReferenceData.flatMap fun line => splitOn ' ' line.toList).filterMap
    fun name => namedReferences[name]?.map fun value => (name, value))

/-- What a named reference stands for. -/
def named? (name : Text) : Option Text := namedReferences[name]?

/-- What a named reference that needs no semicolon stands for. -/
def bare? (name : Text) : Option Text := bareReferences[name]?

end Showcase.Text
