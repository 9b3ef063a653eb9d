import Mathlib.Data.List.Chain
import Showcase.Page.Session
import Showcase.Page.Spelling
import Showcase.Proofs.Markup.Lines
import Showcase.Page.Source

/-!
# Line ends and marks make no difference

A page may be written down in several ways: each of its lines ends with a line feed, a carriage
return or both, and a byte order mark may stand in front (`Writing`). Cleaned, all of them are the
lines with a line feed behind each (`clean_eq`), so the same page is made of them, and the same
payloads, or it fails for the same reason (`render_source`).

Two ways of ending lines cannot be told apart: a carriage return and an empty line behind it that
ends with a line feed read as one line end (`MayFollow` keeps them away from each other). With this
in mind the line ends are made one by one, which comes to the same as replacing the pairs first and
what is left of carriage returns then (`unifyLineEnds_eq_replaceAll`).
-/

namespace Showcase.Source

open Text

/-- Reading line ends one by one comes to the same as replacing pairs, and then single carriage
returns. -/
theorem unifyLineEnds_eq_replaceAll (t : Text) :
    unifyLineEnds t = replaceAll ['\r'] ['\n'] (replaceAll ['\r', '\n'] ['\n'] t) := by
  rw [replaceAll, replaceAll]
  fun_induction unifyLineEnds t with
  | case1 => rfl
  -- a pair is replaced first, and the line feed that is left is not touched again
  | case2 t ih =>
    have hpair : startsWith ('\r' :: '\n' :: t) ['\r', '\n'] = true :=
      startsWith_iff.2 ⟨t, rfl⟩
    have hfeed (r : Text) : startsWith ('\n' :: r) ['\r'] = false := by
      simp [startsWith, after?]
    rw [ih]
    simp [replaceFrom, hpair, hfeed]
  -- a return by itself is left for the second replacement
  | case3 c t hpair ih =>
    have hsingle : startsWith (c :: t) ['\r', '\n'] ≠ true := by
      intro h
      obtain ⟨r, e⟩ := startsWith_iff.1 h
      rw [List.cons_append, List.cons.injEq] at e
      exact hpair r e.1 e.2
    rw [replaceFrom, if_neg hsingle, replaceFrom, ih]
    by_cases hc : c = '\r'
    · simp [hc, startsWith, after?]
    · simp [hc, startsWith, after?, Ne.symm hc]

/-! ## Writings -/

/-- The byte order mark. -/
def mark : Char := Char.ofNat 0xFEFF

/-- What ends a line. -/
inductive LineEnd
  | lineFeed
  | carriageReturn
  | both
  deriving DecidableEq

/-- The characters of a line end. -/
def LineEnd.text : LineEnd → Text
  | lineFeed => ['\n']
  | carriageReturn => ['\r']
  | both => ['\r', '\n']

/-- A line with what ends it. -/
structure EndedLine where
  /-- the line -/
  text : Text
  /-- what ends it -/
  ending : LineEnd
  deriving DecidableEq

/-- The end of the second line is not read as a part of the end of the first one. -/
def EndedLine.MayFollow (l m : EndedLine) : Prop :=
  l.ending = .carriageReturn → m ≠ ⟨[], .lineFeed⟩

instance : DecidableRel EndedLine.MayFollow := fun l m =>
  inferInstanceAs (Decidable (l.ending = .carriageReturn → m ≠ ⟨[], .lineFeed⟩))

/-- The text made of several lines with their ends. -/
def written (ls : List EndedLine) : Text := ls.flatMap fun l => l.text ++ l.ending.text

/-- One of the ways in which the lines of a page are written down. -/
structure Writing where
  /-- a byte order mark stands in front -/
  isMarked : Bool
  /-- the lines with their ends -/
  lines : List EndedLine
  /-- nothing in a line is a line end -/
  whole : ∀ l ∈ lines, '\r' ∉ l.text ∧ '\n' ∉ l.text
  /-- no line end is read as a part of another one -/
  apart : lines.IsChain EndedLine.MayFollow
  /-- what the first line begins with is no mark -/
  unmarked : ∀ l ∈ lines.head?, l.text.head? ≠ some mark

namespace Writing

/-- The text that is written down. -/
def source (w : Writing) : Text := (if w.isMarked then [mark] else []) ++ written w.lines

/-- The lines without their ends. -/
def texts (w : Writing) : List Text := w.lines.map (·.text)

end Writing

/-! ## Cleaning a writing -/

theorem unifyLineEnds_append {t : Text} (h : '\r' ∉ t) (r : Text) :
    unifyLineEnds (t ++ r) = t ++ unifyLineEnds r := by
  induction t with
  | nil => rfl
  | cons c t ih =>
    rw [List.mem_cons, not_or] at h
    rw [List.cons_append, unifyLineEnds, if_neg (Ne.symm h.1), ih h.2, List.cons_append]
    rintro _ rfl
    exact absurd rfl h.1

/-- A line end becomes a line feed, if no line feed comes after a carriage return. -/
theorem unifyLineEnds_ending (e : LineEnd) {r : Text}
    (h : e = .carriageReturn → r.head? ≠ some '\n') :
    unifyLineEnds (e.text ++ r) = '\n' :: unifyLineEnds r := by
  cases e with
  | lineFeed => simp [LineEnd.text, unifyLineEnds]
  | both => simp [LineEnd.text, unifyLineEnds]
  | carriageReturn =>
    have hr := h rfl
    rw [LineEnd.text, List.singleton_append, unifyLineEnds, if_pos rfl]
    rintro s - rfl
    exact hr rfl

/-- Lines begin with a line feed only if the first one is empty and ends with it. -/
theorem head?_written {ls : List EndedLine} (h : (written ls).head? = some '\n')
    (hwhole : ∀ l ∈ ls, '\r' ∉ l.text ∧ '\n' ∉ l.text) : ls.head? = some ⟨[], .lineFeed⟩ := by
  cases ls with
  | nil => cases h
  | cons l ls =>
    obtain ⟨text, ending⟩ := l
    rw [written, List.flatMap_cons] at h
    cases text with
    | cons c text =>
      obtain rfl := Option.some.inj h
      exact absurd (List.mem_cons_self ..) (hwhole _ (List.mem_cons_self ..)).2
    | nil =>
      -- an empty line that begins with a line feed is ended by it
      cases ending with
      | lineFeed => rfl
      | carriageReturn => simp [LineEnd.text] at h
      | both => simp [LineEnd.text] at h

theorem unifyLineEnds_written {ls : List EndedLine}
    (hwhole : ∀ l ∈ ls, '\r' ∉ l.text ∧ '\n' ∉ l.text) (hapart : ls.IsChain EndedLine.MayFollow) :
    unifyLineEnds (written ls) = unlines (ls.map (·.text)) := by
  induction ls with
  | nil => rfl
  | cons l ls ih =>
    obtain ⟨hl, hls⟩ := List.forall_mem_cons.1 hwhole
    obtain ⟨hnext, hrest⟩ := List.isChain_cons.1 hapart
    have hending : l.ending = .carriageReturn → (written ls).head? ≠ some '\n' := by
      intro hreturn hfeed
      exact hnext _ (head?_written hfeed hls) hreturn rfl
    rw [written, List.flatMap_cons, ← written, List.append_assoc, unifyLineEnds_append hl.1,
      unifyLineEnds_ending l.ending hending, ih hls hrest, List.map_cons, unlines_cons]

theorem dropMark_eq_self {t : Text} (h : t.head? ≠ some mark) : dropMark t = t := by
  cases t with
  | nil => rfl
  | cons c t =>
    refine if_neg ?_
    intro hc
    apply h
    rw [List.head?_cons, mark, ← hc, Char.ofNat_toNat]

/-- No mark is in front of lines of which the first one has none, whatever ends them. -/
theorem head?_flatMap_ne_mark {ls : List EndedLine}
    (hunmarked : ∀ l ∈ ls.head?, l.text.head? ≠ some mark) {ending : EndedLine → Text}
    (hending : ∀ l, ∃ c r, ending l = c :: r ∧ c ≠ mark) :
    (ls.flatMap fun l => l.text ++ ending l).head? ≠ some mark := by
  cases ls with
  | nil => simp
  | cons l ls =>
    have hl := hunmarked l rfl
    rw [List.flatMap_cons]
    cases htext : l.text with
    | cons c text => simpa [htext] using hl
    | nil =>
      obtain ⟨c, r, e, hc⟩ := hending l
      simpa [e] using hc

namespace Writing

theorem head?_written_ne_mark (w : Writing) : (written w.lines).head? ≠ some mark := by
  apply head?_flatMap_ne_mark w.unmarked
  intro l
  cases h : l.ending with
  | lineFeed => exact ⟨'\n', [], rfl, by decide⟩
  | carriageReturn => exact ⟨'\r', [], rfl, by decide⟩
  | both => exact ⟨'\r', ['\n'], rfl, by decide⟩

theorem head?_unlines_ne_mark (w : Writing) : (unlines w.texts).head? ≠ some mark := by
  rw [texts, unlines, List.flatMap_map]
  exact head?_flatMap_ne_mark w.unmarked fun _ => ⟨'\n', [], rfl, by decide⟩

/-- **A writing is cleaned** to its lines with a line feed behind each of them. -/
theorem clean_eq (w : Writing) : clean w.source = unlines w.texts := by
  have hdrop : dropMark w.source = written w.lines := by
    rw [source]
    cases w.isMarked with
    | true => rw [if_pos rfl, List.singleton_append, dropMark, if_pos (by decide)]
    | false => exact dropMark_eq_self w.head?_written_ne_mark
  rw [clean, hdrop, unifyLineEnds_written w.whole w.apart, texts]

/-- **All writings of a page give the same page.** Cleaned, they are the lines with a line feed
behind each and no mark in front. So with any configuration and in any context, what a render
answers, and the payloads that it leaves in the context, are the same for all of them. -/
theorem render_source (w : Writing) :
    clean w.source = unlines w.texts ∧ (clean w.source).head? ≠ some mark ∧
      ∀ v : Writing, v.texts = w.texts →
        ∀ (spelling : Slug.Transliteration) (ctx : Session.Context) (c : Config)
          (asComponent : Bool),
          ctx.render spelling ⟨v.source, c, asComponent⟩ =
            ctx.render spelling ⟨w.source, c, asComponent⟩ := by
  refine ⟨w.clean_eq, w.clean_eq ▸ w.head?_unlines_ne_mark, ?_⟩
  intro v hv spelling ctx c asComponent
  have hclean : clean v.source = clean w.source := by rw [v.clean_eq, w.clean_eq, hv]
  simp only [Session.Context.render, Session.Context.make, Session.Context.begin, hclean]

/-- A demo whose lines all end with a line feed. -/
def plainDemo : Writing where
  isMarked := false
  lines := [⟨"::: demo".toList, .lineFeed⟩, ⟨[], .lineFeed⟩, ⟨":::".toList, .lineFeed⟩]
  whole := by decide
  apart := by decide
  unmarked := by decide

/-- The same lines with different ends, and with a mark in front. -/
def mixedDemo : Writing where
  isMarked := true
  lines := [⟨"::: demo".toList, .carriageReturn⟩, ⟨[], .both⟩, ⟨":::".toList, .carriageReturn⟩]
  whole := by decide
  apart := by decide
  unmarked := by decide

theorem render_source_mixedDemo :
    mixedDemo.texts = plainDemo.texts ∧ mixedDemo.source ≠ plainDemo.source ∧
      (Session.Context.fresh Config.default).render Slug.spelling
          ⟨mixedDemo.source, Config.default, false⟩ =
        (Session.Context.fresh Config.default).render Slug.spelling
          ⟨plainDemo.source, Config.default, false⟩ :=
  ⟨rfl, by decide, plainDemo.render_source.2.2 mixedDemo rfl Slug.spelling
    (Session.Context.fresh Config.default) Config.default false⟩

end Writing

end Showcase.Source
