import Showcase.Text.Escape

/-!
# Configuration

A setting is a value that a project's author writes down; nothing fixes its kind. Three views of it
matter to pages: its text in a template (`display`), whether it counts as set (`isSet`), and its
entries if it is a record.

The configuration of a page is a record of settings. It starts from the defaults; a project may put
other values in their places, and a single render may do so again. The entry `demo` is a record of
its own, which is changed key by key.

* A project's settings change known keys only (`Config.ofProject`).
* The settings of one render may add keys (`Config.adjust`).

What can be wrong with a configuration once a page is to be made with it is a `Failure`.

Main statements: `find?_put_self` and `find?_put_of_ne` (a record after one entry is put in).
-/

namespace Showcase

/-- A value in a project's settings. -/
inductive Setting
  | null
  | flag (b : Bool)
  | number (n : Int)
  | text (t : Text)
  | list (items : List Setting)
  | record (entries : List (Text × Setting))
  deriving Inhabited

namespace Setting

/-- The text of an absent value in a template. -/
def nullText : Text := "None".toList

/-- The text of a flag in a template. -/
def flagText (b : Bool) : Text := if b then "True".toList else "False".toList

/-- The text of a number. -/
def numberText : Int → Text
  | .ofNat n => Text.ofNat n
  | .negSucc n => '-' :: Text.ofNat (n + 1)

mutual

/-- The text of a value inside a list or a record, where texts are quoted. -/
def inner : Setting → Text
  | null => nullText
  | flag b => flagText b
  | number n => numberText n
  | text t => Text.quoted t
  | list l => '[' :: (Text.joinWith [',', ' '] (inners l) ++ [']'])
  | record r => '\x7b' :: (Text.joinWith [',', ' '] (innerEntries r) ++ ['\x7d'])

/-- The texts of several values. -/
def inners : List Setting → List Text
  | [] => []
  | s :: l => inner s :: inners l

/-- The texts of several entries. -/
def innerEntries : List (Text × Setting) → List Text
  | [] => []
  | (k, s) :: r => (Text.quoted k ++ ':' :: ' ' :: inner s) :: innerEntries r

end

/-- The text of a value in a template. -/
def display : Setting → Text
  | text t => t
  | s => inner s

/-- The value counts as set: it is neither absent, false, zero nor empty. -/
def isSet : Setting → Bool
  | null => false
  | flag b => b
  | number n => n != 0
  | text t => !t.isEmpty
  | list l => !l.isEmpty
  | record r => !r.isEmpty

/-- The items of a list; the characters of a text are its items. -/
def items : Setting → List Setting
  | list l => l
  | text t => t.map fun c => text [c]
  | _ => []

/-- The whole number that a value stands for. -/
def toInt : Setting → Int
  | number n => n
  | flag b => if b then 1 else 0
  | _ => 0

/-- A record: entries in the order in which they were written. -/
abbrev Record := List (Text × Setting)

/-- The entries of a value. -/
def entries : Setting → Record
  | record r => r
  | _ => []

end Setting

namespace Setting.Record

/-- The value of a key. -/
def find? : (r : Record) → (key : Text) → Option Setting
  | [], _ => none
  | (k, v) :: r, key => if k = key then some v else find? r key

/-- The record with a value for a key, at the key's place or at the end. -/
def put (r : Record) (key : Text) (value : Setting) : Record :=
  match r with
  | [] => [(key, value)]
  | (k, v) :: r => if k = key then (k, value) :: r else (k, v) :: put r key value

/-- The record with all entries of another put in. -/
def putAll (r s : Record) : Record := s.foldl (fun r e => put r e.1 e.2) r

theorem find?_put_self (r : Record) (key : Text) (value : Setting) :
    find? (put r key value) key = some value := by
  induction r with
  | nil => simp [find?, put]
  | cons e r ih => by_cases h : e.1 = key <;> simp [find?, put, h, ih]

theorem find?_put_of_ne {r : Record} {key other : Text} {value : Setting} (h : other ≠ key) :
    find? (put r key value) other = find? r other := by
  induction r with
  | nil => simp [find?, put, Ne.symm h]
  | cons e r ih =>
    by_cases hk : e.1 = key
    · simp [find?, put, hk, Ne.symm h]
    · simp [find?, put, hk, ih]

end Setting.Record

/-! ## Configurations -/

/-- The settings of a page. -/
abbrev Config := Setting.Record

namespace Config

open Setting

/-- The key of the record of demo settings. -/
def demoKey : Text := "demo".toList

/-- The configuration of a project that sets nothing. -/
def default : Config :=
  [("preset".toList, text "commonmark".toList),
   ("options".toList, record [("html".toList, flag true)]),
   ("anchor_level".toList, number 2),
   ("permalink".toList, flag true),
   ("permalink_before".toList, flag true),
   ("permalink_symbol".toList, text "¶".toList),
   ("table_class".toList, text "table".toList),
   ("notice_containers".toList, list [text "tip".toList, text "warning".toList]),
   ("site_domain".toList, text []),
   ("component_class".toList, text "content".toList),
   (demoKey, record [
      ("element".toList, text "demo-block".toList),
      ("class".toList, text "demo-box".toList),
      ("prop".toList, text "jsfiddle".toList)])]

/-- The demo settings. -/
def demo (c : Config) : Record := ((Record.find? c demoKey).map Setting.entries).getD []

/-- The configuration with one setting changed. -/
def change (c : Config) (key : Text) (value : Setting) : Config :=
  if key = demoKey then Record.put c demoKey (record (Record.putAll c.demo value.entries))
  else Record.put c key value

/-- The configuration of a project with the given settings. A key that the defaults do not have
belongs to another part of the project. -/
def ofProject (settings : Record) : Config :=
  settings.foldl (fun c e => if (Record.find? c e.1).isSome then change c e.1 e.2 else c) default

/-- The configuration for one render: with no changes at all it is the project's. -/
def adjust (c : Config) (changes : Record) : Config :=
  changes.foldl (fun c e => change c e.1 e.2) c

end Config

/-! ## Failures -/

/-- Why no page can be made with a configuration. -/
inductive Failure
  /-- a setting is missing -/
  | missing (key : Text)
  /-- no dialect has the name -/
  | unknownDialect (name : Text)
  deriving DecidableEq

namespace Failure

/-- The wording of a failure: what was looked up in vain. -/
def message : Failure → Text
  | missing key => Text.quoted key
  | unknownDialect name =>
    Text.quoted ("Wrong \x60markdown-it\x60 preset '".toList ++ name ++ "', check name".toList)

end Failure

end Showcase
