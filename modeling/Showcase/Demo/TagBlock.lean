import Showcase.Text.Blank
import Showcase.Text.Case

/-!
# Tag blocks

The source of a demo holds its script and its style in blocks such as

    <script lang="ts"> ... </script>

A block of a name is an opening tag (the name in any letter case, then white space or `>`, up to
the first `>`), a content, and the first closing tag after it. This is not a reading of HTML: an
opening tag that nothing closes is plain text, and quotes mean nothing.

`parts` splits a text into its blocks and the characters between them. Removing the blocks (`strip`)
and reading their contents (`fetch`) both go over the same parts, so what one removes is what the
other reads.

Main statements: `text_parts` (the parts make up the text again) and `strip_eq_self_of_no_block`.
-/

namespace Showcase.TagBlock

/-- A block, in the three pieces of its text. -/
structure Block where
  /-- the opening tag, up to and with its `>` -/
  opening : Text
  /-- what stands between the tags -/
  content : Text
  /-- the closing tag -/
  closing : Text
  deriving DecidableEq

/-- The opening tag at the beginning of the text, and what follows it. -/
def opening? (name : Text) : Text → Option (Text × Text)
  | '<' :: t =>
    match Text.afterFold? name t with
    | some (c :: r) =>
      if Text.isBlank c || c == '>' then
        (Text.cut? ['>'] (c :: r)).map fun x => ('<' :: (t.take name.length ++ x.1 ++ ['>']), x.2)
      else none
    | _ => none
  | _ => none

/-- The closing tag at the beginning of the text, and what follows it. -/
def closing? (name : Text) : Text → Option (Text × Text)
  | '<' :: '/' :: t =>
    match Text.afterFold? name t with
    | some r =>
      match r.dropWhile Text.isBlank with
      | '>' :: s =>
        some ('<' :: '/' :: (t.take name.length ++ r.takeWhile Text.isBlank ++ ['>']), s)
      | _ => none
    | none => none
  | _ => none

/-- The text before the first closing tag, that tag, and what follows it. -/
def untilClosing? (name : Text) : Text → Option (Text × Text × Text)
  | [] => none
  | c :: t =>
    match closing? name (c :: t) with
    | some (tag, r) => some ([], tag, r)
    | none => (untilClosing? name t).map fun x => (c :: x.1, x.2)

/-- The block at the beginning of the text, and what follows it. -/
def block? (name t : Text) : Option (Block × Text) :=
  match opening? name t with
  | some (opening, r) =>
    (untilClosing? name r).map fun x => (⟨opening, x.1, x.2.1⟩, x.2.2)
  | none => none

/-- The text of a block. -/
def Block.text (b : Block) : Text := b.opening ++ b.content ++ b.closing

/-! ## What a block is made of -/

/-- An opening tag is the front of the text. -/
theorem eq_append_of_opening? {name t tag r : Text} (h : opening? name t = some (tag, r)) :
    t = tag ++ r := by
  rw [opening?.eq_def] at h
  split at h
  · next u =>
    split at h
    · next c s hs =>
      split at h
      · simp only [Option.map_eq_some_iff, Prod.mk.injEq, Prod.exists] at h
        obtain ⟨a, b, hab, rfl, rfl⟩ := h
        have hu := Text.eq_append_of_afterFold? hs
        have hc := Text.cut?_eq_some hab
        have e : '<' :: u = '<' :: (u.take name.length ++ (c :: s)) := congrArg ('<' :: ·) hu
        rw [e, hc]
        simp
      · cases h
    · cases h
  · cases h

/-- So is a closing tag. -/
theorem eq_append_of_closing? {name t tag r : Text} (h : closing? name t = some (tag, r)) :
    t = tag ++ r := by
  rw [closing?.eq_def] at h
  split at h
  · next u =>
    split at h
    · next s hs =>
      split at h
      · next v hv =>
        simp only [Option.some.injEq, Prod.mk.injEq] at h
        obtain ⟨rfl, rfl⟩ := h
        -- the name, the white space and the bracket are put together again
        have hu := Text.eq_append_of_afterFold? hs
        have hd : s.takeWhile Text.isBlank ++ '>' :: v = s := by
          rw [← hv, List.takeWhile_append_dropWhile]
        have e : '<' :: '/' :: u = '<' :: '/' :: (u.take name.length ++ s) :=
          congrArg (fun x => '<' :: '/' :: x) hu
        simp only [List.cons_append, List.append_assoc, List.nil_append, hd]
        exact e
      · cases h
    · cases h
  · cases h

/-- The content, the closing tag and the rest make up the text. -/
theorem eq_append_of_untilClosing? {name t a tag r : Text}
    (h : untilClosing? name t = some (a, tag, r)) : t = a ++ tag ++ r := by
  induction t generalizing a with
  | nil => cases h
  | cons c t ih =>
    simp only [untilClosing?] at h
    split at h
    · next tag' r' hc =>
      simp only [Option.some.injEq, Prod.mk.injEq] at h
      obtain ⟨rfl, rfl, rfl⟩ := h
      simpa using eq_append_of_closing? hc
    · simp only [Option.map_eq_some_iff, Prod.mk.injEq, Prod.exists] at h
      obtain ⟨a', _, _, h, rfl, rfl, rfl⟩ := h
      simp [ih h]

/-- A block is the front of the text. -/
theorem eq_append_of_block? {name t r : Text} {b : Block} (h : block? name t = some (b, r)) :
    t = b.text ++ r := by
  rw [block?.eq_def] at h
  split at h
  · next tag s hs =>
    simp only [Option.map_eq_some_iff, Prod.mk.injEq, Prod.exists] at h
    obtain ⟨a, c, d, h, rfl, rfl⟩ := h
    rw [eq_append_of_opening? hs, eq_append_of_untilClosing? h]
    simp [Block.text]
  · cases h

theorem block?_nil (name : Text) : block? name [] = none := rfl

theorem length_lt_of_block? {name t r : Text} {b : Block} (h : block? name t = some (b, r)) :
    r.length < t.length := by
  have e := eq_append_of_block? h
  cases t with
  | nil => cases h
  | cons c t =>
    -- an equation of lengths is not enough: an empty block would leave the text as long as it is
    have : b.text ≠ [] := by
      intro hb
      simp only [Block.text, List.append_eq_nil_iff] at hb
      unfold block? opening? at h
      split at h
      · next tag s hs =>
        simp only [Option.map_eq_some_iff, Prod.mk.injEq, Prod.exists] at h
        obtain ⟨_, _, _, _, rfl, _⟩ := h
        obtain ⟨⟨rfl, _⟩, _⟩ := hb
        repeat' split at hs
        all_goals simp_all
      · cases h
    have : 0 < b.text.length := List.length_pos_iff.2 this
    rw [e, List.length_append]
    omega

/-! ## Parts -/

/-- A part of a text: a character outside of all blocks, or a block. -/
inductive Part
  | char (c : Char)
  | block (b : Block)

/-- The parts of a text, where blocks are found from left to right. -/
def parts (name t : Text) : List Part :=
  match _h : block? name t with
  | some (b, r) => .block b :: parts name r
  | none =>
    match t with
    | [] => []
    | c :: r => .char c :: parts name r
termination_by t.length
decreasing_by
  · exact length_lt_of_block? _h
  · simp

/-- The text of a part. -/
def Part.text : Part → Text
  | .char c => [c]
  | .block b => b.text

/-- The text of a part that is outside of all blocks. -/
def Part.outside : Part → Text
  | .char c => [c]
  | .block _ => []

/-- The content of a part that is a block. -/
def Part.inside : Part → Text
  | .char _ => []
  | .block b => b.content

/-- The text without its blocks of a name. -/
def strip (name t : Text) : Text := (parts name t).flatMap Part.outside

/-- The text without its blocks of several names, which are removed name by name. -/
def stripAll (names : List Text) (t : Text) : Text := names.foldl (fun t name => strip name t) t

/-- The contents of the blocks of a name, one after the other. -/
def fetch (name t : Text) : Text := (parts name t).flatMap Part.inside

theorem parts_nil (name : Text) : parts name [] = [] := by
  rw [parts]; split <;> simp_all [block?_nil]

/-- A block at the front is the first part. -/
theorem parts_of_block {name t r : Text} {b : Block} (h : block? name t = some (b, r)) :
    parts name t = .block b :: parts name r := by
  rw [parts]; split <;> simp_all

theorem parts_cons_of_none {name t : Text} {c : Char} (h : block? name (c :: t) = none) :
    parts name (c :: t) = .char c :: parts name t := by
  rw [parts]; split <;> simp_all

/-- **The parts make up the text.** -/
theorem text_parts (name t : Text) : (parts name t).flatMap Part.text = t := by
  fun_induction parts name t with
  | case1 t b r h ih => simp [ih, Part.text, ← eq_append_of_block? h]
  | case2 => rfl
  | case3 c r h ih => simp [ih, Part.text]

/-- A text in which no block begins stays as it is. -/
theorem strip_eq_self_of_no_block {name t : Text} (h : ∀ s, s <:+ t → block? name s = none) :
    strip name t = t := by
  induction t with
  | nil => simp [strip, parts_nil]
  | cons c t ih =>
    have := ih fun s hs => h s (hs.trans (List.suffix_cons c t))
    rw [strip, parts_cons_of_none (h _ (List.suffix_refl _))]
    simpa [Part.outside, strip] using this

end Showcase.TagBlock
