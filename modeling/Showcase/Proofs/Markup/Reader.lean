import Mathlib.Data.List.Forall2
import Showcase.Markup.Block.Reader

/-!
# What is read on a page

Reading goes down into quotes, lists and containers with readers of their own, but all of these use
the same rules. So a property of blocks, and of the lines that they are read in, holds of whatever
is read if it holds of the blocks without content, and passes from the content to the block around
it (`Grammar.Reads`). The lines of the content are some of those of the block, and on the way into
it they lose no more than markers and columns (`Line.Becomes`).

What a grammar does not have needs no thought: raw HTML, tables, demos, and notices of other names.

Main statements: `Block.forall_mem_readPage_lines`, and `Block.forall_mem_readPage` for properties
that do not look at lines.
-/

namespace Showcase

/-- What becomes of a line on the way into a block. -/
inductive Line.Becomes (l : Line) : Line → Prop
  | same : Becomes l l
  | lazy : Becomes l l.lazy
  | unquoted {m : Line} (h : l.unquote? = some m) : Becomes l m
  | passed {b : Block.Bullet} (h : Block.bullet? l.content = some b) : Becomes l (l.pass b.length)

/-- A property of lines and a block read in them, which holds if a grammar is all that blocks are
read by. -/
structure Grammar.Reads (g : Grammar) (P : List Line → Block → Prop) : Prop where
  widen : ∀ part whole b, part <:+: whole → P part b → P whole b
  become : ∀ whole part b, List.Forall₂ Line.Becomes whole part → P part b → P whole b
  paragraph : ∀ ls source, P ls (.paragraph source)
  heading : ∀ level, 1 ≤ level → level ≤ 6 → ∀ ls source, P ls (.heading level source)
  thematicBreak : ∀ ls, P ls .thematicBreak
  code : ∀ ls content, P ls (.code content)
  fence : ∀ ls info content, P ls (.fence info content)
  html : g.dialect.html = true → ∀ ls content, P ls (.html content)
  table : g.tables = true → ∀ ls alignments header rows, P ls (.table alignments header rows)
  quote : ∀ ls content, (∀ b ∈ content, P ls b) → P ls (.quote content)
  list : ∀ ls start tight items, (∀ i ∈ items, ∀ b ∈ i, P ls b) → P ls (.list start tight items)
  demo : ∀ f l (ls : List Line) window colons, Block.colons? g l.content = some colons →
    colons.container = .demo →
    ∀ content, (∀ b ∈ content, P (ls.take (Block.untilEnd g f colons.isClosedBy window ls).1) b) →
      P (l :: ls.take window) (.demo colons.info content)
  notice : ∀ name ∈ g.notices, ∀ ls content, (∀ b ∈ content, P ls b) → P ls (.notice name content)

/-- A property that blocks have if a grammar is all that they are read by. -/
structure Grammar.Gives (g : Grammar) (P : Block → Prop) : Prop where
  paragraph : ∀ source, P (.paragraph source)
  heading : ∀ level source, P (.heading level source)
  thematicBreak : P .thematicBreak
  code : ∀ content, P (.code content)
  fence : ∀ info content, P (.fence info content)
  html : g.dialect.html = true → ∀ content, P (.html content)
  table : ∀ alignments header rows, P (.table alignments header rows)
  quote : ∀ content, (∀ b ∈ content, P b) → P (.quote content)
  list : ∀ start tight items, (∀ i ∈ items, ∀ b ∈ i, P b) → P (.list start tight items)
  demo : g.demos = true → Marker.keyword ∉ g.notices → ∀ info, Marker.isValid info = true →
    ∀ content, (∀ b ∈ content, P b) → P (.demo info content)
  notice : ∀ name ∈ g.notices, ∀ content, (∀ b ∈ content, P b) → P (.notice name content)

namespace Block

variable {g : Grammar} {P : List Line → Block → Prop}

/-- What the reader reads has the property, together with the lines of its window. -/
def Reader.Reads (r : Reader) (P : List Line → Block → Prop) : Prop :=
  ∀ f ls window limit, ∀ b ∈ (r f ls window limit).blocks, P (ls.take window) b

/-- The block of the step, if it has one, has the property. -/
def Step.Reads (s : Step) (P : List Line → Block → Prop) (ls : List Line) : Prop :=
  ∀ b ∈ s.block, P ls b

/-- What the rule reads has the property, together with the lines of its window. -/
def Rule.Reads (r : Rule) (P : List Line → Block → Prop) : Prop :=
  ∀ f l ls window limit s, r f l ls window limit = some s → s.Reads P (l :: ls.take (window - 1))

variable {ls : List Line}

/-- A step that reads a block reads what is asked of that block. -/
theorem Step.reads_some {b : Block} (h : P ls b) (d : Definitions) (used : Nat) :
    Step.Reads ⟨some b, d, used⟩ P ls := fun _ e => Option.some.inj e ▸ h

/-- A rule that maps what it has found. -/
theorem Step.reads_of_map {α : Type} {o : Option α} {step : α → Step} {s : Step}
    (h : o.map step = some s) (hstep : ∀ x, o = some x → (step x).Reads P ls) : s.Reads P ls := by
  obtain ⟨x, hx, rfl⟩ := Option.map_eq_some_iff.1 h
  exact hstep x hx

/-- One rule or else another one. -/
theorem Rule.Reads.orElse {r r' : Rule} (hr : r.Reads P) (hr' : r'.Reads P) :
    Rule.Reads (fun f l ls window limit => r f l ls window limit <|> r' f l ls window limit) P := by
  intro f l ls window limit s hs
  cases hfirst : r f l ls window limit with
  | none =>
    simp only [hfirst] at hs
    exact hr' f l ls window limit s hs
  | some first =>
    simp only [hfirst] at hs
    exact hr f l ls window limit s (hfirst.trans hs)

/-! ## Blocks without content -/

/-- Paragraphs are read as they should be. -/
theorem reads_paragraphRule (h : g.Reads P) : (paragraphRule g).Reads P :=
  fun _ _ _ _ _ _ hs => Option.some.inj hs ▸ Step.reads_some (h.paragraph _ _) _ _

/-- An underline makes a heading of one of the six levels. -/
theorem level_of_underline? {content : Text} {level : Nat} (h : underline? content = some level) :
    1 ≤ level ∧ level ≤ 6 := by
  rw [underline?.eq_def] at h
  split at h
  · split at h
    · obtain rfl := Option.some.inj h
      split <;> decide
    · cases h
  · cases h

/-- There are two kinds of underlines. -/
theorem level_of_underlined? {f : Frame} {window : Nat} {x : Nat × Nat}
    (h : underlined? g f window ls = some x) : 1 ≤ x.1 ∧ x.1 ≤ 6 := by
  induction ls generalizing window x with
  | nil => cases window <;> cases h
  | cons l ls ih =>
    cases window with
    | zero => cases h
    | succ window =>
      rw [underlined?] at h
      dsimp only at h
      split at h
      · cases h
      split at h
      · next level hlevel =>
        obtain rfl := Option.some.inj h
        split at hlevel
        · exact level_of_underline? hlevel
        · cases hlevel
      · split at h
        · obtain ⟨y, hy, rfl⟩ := Option.map_eq_some_iff.1 h
          -- the line is one of the title, and the underline comes later
          exact ih (x := y) hy
        · cases h

/-- So are headings with an underline. -/
theorem reads_underlinedHeadingRule (h : g.Reads P) : (underlinedHeadingRule g).Reads P := by
  intro f l ls window limit s hs
  rw [underlinedHeadingRule] at hs
  split at hs
  · cases hs
  · refine Step.reads_of_map hs fun x hx => Step.reads_some ?_ _ _
    have hlevel := level_of_underlined? hx
    exact h.heading x.1 hlevel.1 hlevel.2 _ _

/-- Number signs make a heading of one of the six levels. -/
theorem level_of_heading? {content : Text} {x : Nat × Text} (h : heading? content = some x) :
    1 ≤ x.1 ∧ x.1 ≤ 6 := by
  rw [heading?] at h
  dsimp only at h
  split at h
  · next hcond =>
    obtain rfl := Option.some.inj h
    exact ⟨hcond.1, hcond.2.1⟩
  · cases h

/-- So are headings with number signs. -/
theorem reads_markedHeadingRule (h : g.Reads P) : (markedHeadingRule g).Reads P := by
  intro f l ls window limit s hs
  rw [markedHeadingRule] at hs
  split at hs
  · cases hs
  · refine Step.reads_of_map hs fun x hx => Step.reads_some ?_ _ _
    have hlevel := level_of_heading? hx
    exact h.heading x.1 hlevel.1 hlevel.2 _ _

/-- A definition is no block. -/
theorem reads_definitionRule (g : Grammar) (P : List Line → Block → Prop) :
    (definitionRule g).Reads P := by
  intro f l ls window limit s hs
  rw [definitionRule] at hs
  split at hs
  · cases hs
  · exact Step.reads_of_map hs fun x _ b hb => nomatch hb

/-- So are indented listings. -/
theorem reads_indentedCodeRule (h : g.Reads P) : (indentedCodeRule g).Reads P := by
  intro f l ls window limit s hs
  rw [indentedCodeRule] at hs
  split at hs
  · exact Option.some.inj hs ▸ Step.reads_some (h.code _ _) _ _
  · cases hs

/-- So are fenced listings, with or without an end. -/
theorem reads_fencedCodeRule (h : g.Reads P) : (fencedCodeRule g).Reads P := by
  intro f l ls window limit s hs
  rw [fencedCodeRule] at hs
  split at hs
  · cases hs
  · exact Step.reads_of_map hs fun x _ => Step.reads_some (h.fence _ x.info _) _ _

/-- So is raw HTML. -/
theorem reads_rawHtmlRule (h : g.Reads P) : (rawHtmlRule g).Reads P := by
  intro f l ls window limit s hs
  rw [rawHtmlRule] at hs
  split at hs
  · cases hs
  · next hcond =>
    have hhtml : g.dialect.html = true := by simpa using (not_or.1 hcond).2
    exact Step.reads_of_map hs fun x _ => Step.reads_some (h.html hhtml _ _) _ _

theorem reads_thematicBreakRule (h : g.Reads P) : (thematicBreakRule g).Reads P := by
  intro f l ls window limit s hs
  rw [thematicBreakRule] at hs
  split at hs
  · exact Option.some.inj hs ▸ Step.reads_some (h.thematicBreak _) _ _
  · cases hs

/-- Tables are read where the grammar has them. -/
theorem tables_of_table? {f : Frame} {window : Nat} {x : List Text × List Alignment}
    (h : table? g f window ls = some x) : g.tables = true := by
  rw [table?.eq_def] at h
  split at h
  · split at h
    · cases h
    · next hcond => simpa using (not_or.1 hcond).1
  · cases h

/-- So are tables. -/
theorem reads_tableRule (h : g.Reads P) : (tableRule g).Reads P :=
  fun _ _ _ _ _ _ hs => Step.reads_of_map hs fun x hx =>
    Step.reads_some (h.table (tables_of_table? hx) _ x.2 x.1 _) _ _

/-! ## Containers -/

/-- A container is a demo or a notice that the grammar has. -/
theorem container_of_colons? {content : Text} {colons : Colons}
    (h : colons? g content = some colons) :
    (colons.container = .demo ∧ g.demos = true ∧ Marker.keyword ∉ g.notices ∧
      Marker.isValid colons.info = true) ∨
    ∃ name ∈ g.notices, colons.container = .notice name := by
  rw [colons?] at h
  dsimp only at h
  split at h
  · cases h
  · obtain ⟨c, hc, rfl⟩ := Option.map_eq_some_iff.1 h
    rw [container?] at hc
    split at hc
    · next hdemo =>
      obtain rfl := Option.some.inj hc
      split
      -- a notice may have the name of demos, and is looked for first
      · next hname => exact .inr ⟨_, hname, rfl⟩
      · next hname => exact .inl ⟨rfl, (Bool.and_eq_true_iff.1 hdemo).1, hname,
          (Bool.and_eq_true_iff.1 hdemo).2⟩
    · obtain ⟨name, hname, rfl⟩ := Option.map_eq_some_iff.1 hc
      exact .inr ⟨name, List.mem_of_find?_eq_some hname, rfl⟩

/-- The lines up to an end are not more than there are. -/
theorem untilEnd_le (g : Grammar) (f : Frame) (isEnd : Text → Bool) (window : Nat)
    (ls : List Line) : (untilEnd g f isEnd window ls).1 ≤ window := by
  fun_induction untilEnd g f isEnd window ls
  case case5 ih => exact Nat.succ_le_succ (by simpa [*] using ih)
  all_goals exact Nat.zero_le _

/-- Containers are read as they should be if their lines are. -/
theorem reads_containerRule (h : g.Reads P) {inner : Reader} (hinner : inner.Reads P) :
    (containerRule g inner).Reads P := by
  intro f l ls window limit s hs
  rw [containerRule] at hs
  split at hs
  · cases hs
  · refine Step.reads_of_map hs fun colons hcolons => Step.reads_some ?_ _ _
    have hcontent := hinner f ls (untilEnd g f colons.isClosedBy (window - 1) ls).1
      (untilEnd g f colons.isClosedBy (window - 1) ls).1
    -- for a notice, what holds of the lines between its markers is widened to all that are in sight
    obtain ⟨hdemo, -⟩ | ⟨name, hname, hnotice⟩ := container_of_colons? hcolons
    · rw [hdemo]
      exact h.demo f l ls (window - 1) colons hcolons hdemo _ hcontent
    · rw [hnotice]
      refine h.notice name hname _ _ fun b hb => h.widen _ _ b ?_ (hcontent b hb)
      exact List.infix_cons
        (List.take_prefix_take_left (untilEnd_le g f _ (window - 1) ls)).isInfix

/-! ## Quotes -/

/-- The lines of a quote are those that it takes up, marked or not. -/
theorem forall₂_quoteLines (g : Grammar) (f : Frame) (window : Nat) (afterEmpty : Bool)
    (ls : List Line) :
    (quoteLines g f window afterEmpty ls).1.length ≤ window ∧
      List.Forall₂ Line.Becomes (ls.take (quoteLines g f window afterEmpty ls).1.length)
        (quoteLines g f window afterEmpty ls).1 := by
  induction ls generalizing window afterEmpty with
  | nil => cases window <;> exact ⟨Nat.zero_le _, .nil⟩
  | cons l ls ih =>
    cases window with
    | zero => exact ⟨Nat.zero_le _, .nil⟩
    | succ window =>
      -- a line that belongs to the quotation adds one on both sides
      have hcons (m : Line) (hm : l.Becomes m) (afterEmpty : Bool) :
          (m :: (quoteLines g f window afterEmpty ls).1).length ≤ window + 1 ∧
          List.Forall₂ Line.Becomes
            ((l :: ls).take (m :: (quoteLines g f window afterEmpty ls).1).length)
            (m :: (quoteLines g f window afterEmpty ls).1) :=
        ⟨Nat.succ_le_succ (ih window afterEmpty).1, .cons hm (ih window afterEmpty).2⟩
      rw [quoteLines]
      dsimp only
      split
      · exact ⟨Nat.zero_le _, .nil⟩
      split
      · next m hm =>
        split at hm
        · cases hm
        -- the line has a mark of its own
        · exact hcons m (.unquoted hm) _
      · split
        · exact ⟨Nat.zero_le _, .nil⟩
        split
        · exact ⟨Nat.zero_le _, .nil⟩
        -- it has none, but continues a paragraph
        · exact hcons l.lazy .lazy _

/-- Quotes are read as they should be if their lines are, without the marks. -/
theorem reads_quoteRule (h : g.Reads P) {inner : Reader} (hinner : inner.Reads P) :
    (quoteRule g inner).Reads P := by
  intro f l ls window limit s hs
  rw [quoteRule] at hs
  split at hs
  · cases hs
  · refine Step.reads_of_map hs fun first hfirst => Step.reads_some ?_ _ _
    obtain ⟨hlength, hmore⟩ := forall₂_quoteLines g f (window - 1) first.isBlank ls
    refine h.quote _ _ fun b hb => ?_
    have hinside := hinner _ _ _ _ b hb
    rw [List.cons_append, List.take_succ_cons, List.take_left] at hinside
    refine h.widen _ _ b ?_ (h.become _ _ b (.cons (.unquoted hfirst) hmore) hinside)
    exact (List.prefix_cons_inj l).2 (List.take_prefix_take_left hlength) |>.isInfix

/-! ## Lists -/

/-- The lines of an item are among those from its first line on. -/
theorem take_infix_cons_take (l : Line) (ls : List Line) (window : Nat) :
    (l :: ls).take window <:+: l :: ls.take (window - 1) := by
  cases window with
  | zero => exact List.nil_infix
  | succ window => exact List.infix_rfl

/-- Behind some lines the window is so much shorter. -/
theorem take_drop_isInfix (ls : List Line) (k window : Nat) :
    (ls.drop k).take (window - k) <:+: ls.take window :=
  List.drop_take ▸ (List.drop_suffix k (ls.take window)).isInfix

/-- The blocks of an item are read as they should be. -/
theorem reads_item (h : g.Reads P) {inner : Reader} (hinner : inner.Reads P) (f : Frame)
    {b : Bullet} {l : Line} (hb : bullet? l.content = some b) (ls : List Line)
    (window limit : Nat) :
    ∀ c ∈ (item inner f b l ls window limit).blocks, P (l :: ls.take (window - 1)) c := by
  rw [item]
  dsimp only
  split
  · exact fun c hc => absurd hc List.not_mem_nil
  · intro c hc
    have hpassed := h.widen _ _ c (take_infix_cons_take _ ls window) (hinner _ _ _ _ c hc)
    exact h.become _ _ c (.cons (.passed hb) (List.forall₂_same.2 fun _ _ => .same)) hpassed

/-- And so are those of all items. -/
theorem reads_items (h : g.Reads P) {inner : Reader} (hinner : inner.Reads P) (f : Frame)
    {b : Bullet} {l : Line} (hb : bullet? l.content = some b) (ls : List Line)
    (window limit : Nat) :
    ∀ i ∈ items g inner f b l ls window limit, ∀ c ∈ i.blocks, P (l :: ls.take (window - 1)) c := by
  fun_induction items g inner f b l ls window limit
  case case4 l ls window limit i used hwindow next more hdrop _ c hc _ ih =>
    refine List.forall_mem_cons.2 ⟨reads_item h hinner _ hb _ _ _, fun i hi d hd => ?_⟩
    refine h.widen _ _ d ?_ (ih hc i hi d hd)
    have hlines : next :: more.take (window - used - 1) =
        (ls.drop (used - 1)).take (window - 1 - (used - 1)) := by
      have hpos : 1 ≤ used := Nat.le_max_left 1 _
      have hcount : window - 1 - (used - 1) = window - used - 1 + 1 := by omega
      rw [hdrop, hcount, List.take_succ_cons]
    rw [hlines]
    exact List.infix_cons (take_drop_isInfix ls (used - 1) (window - 1))
  all_goals exact List.forall_mem_singleton.2 (reads_item h hinner _ hb _ _ _)

/-- So lists are read as they should be. -/
theorem reads_listRule (h : g.Reads P) {inner : Reader} (hinner : inner.Reads P) :
    (listRule g inner).Reads P := by
  intro f l ls window limit s hs
  rw [listRule] at hs
  split at hs
  · cases hs
  · refine Step.reads_of_map hs fun bullet hbullet =>
      Step.reads_some (h.list _ _ _ _ (List.forall_mem_map.2 fun i hi => ?_)) _ _
    exact reads_items h hinner f hbullet ls window limit i hi

/-! ## Pages -/

/-- **All rules** together. -/
theorem reads_rule (h : g.Reads P) {inner inItem : Reader} (hinner : inner.Reads P)
    (hitem : inItem.Reads P) : (rule g inner inItem).Reads P := by
  have hcontainer := reads_containerRule h hinner
  have hlast := reads_paragraphRule h
  have hheading := (reads_markedHeadingRule h).orElse
    ((reads_underlinedHeadingRule h).orElse hlast)
  have hlist := (reads_listRule h hitem).orElse
    ((reads_definitionRule g P).orElse ((reads_rawHtmlRule h).orElse hheading))
  have hquote := (reads_quoteRule h hinner).orElse ((reads_thematicBreakRule h).orElse hlist)
  have hcode := (reads_indentedCodeRule h).orElse
    (hcontainer.orElse ((reads_fencedCodeRule h).orElse hquote))
  intro f l ls window limit s hs
  rw [rule] at hs
  split at hs
  · exact (reads_tableRule h).orElse hcode f l ls window limit s hs
  · exact (reads_tableRule h).orElse (hcontainer.orElse hlast) f l ls window limit s hs

/-- Blocks in a row are read as each of them is. -/
theorem reads_sequence (h : g.Reads P) {r : Rule} (hr : r.Reads P) (f : Frame)
    (spaced tight : Bool) (ls : List Line) (window limit : Nat) :
    ∀ b ∈ (sequence r f spaced tight ls window limit).blocks, P (ls.take window) b := by
  fun_induction sequence r f spaced tight ls window limit
  -- only here a rule was used: it was given the lines behind the empty ones
  case case5 ls window limit _ empty l more hdrop hempty s hs next _ _ used ih =>
    rw [Reading.after]
    refine List.forall_mem_append.2 ⟨fun b hb => ?_, fun b hb => ?_⟩
    · refine h.widen _ _ b ?_ (hr _ _ _ _ _ _ hs b (Option.mem_toList.1 hb))
      have hlines : l :: more.take (window - empty - 1) =
          (ls.drop empty).take (window - empty) := by
        have hcount : window - empty = window - empty - 1 + 1 := by omega
        rw [hdrop, hcount, List.take_succ_cons]
        rfl
      rw [hlines]
      exact take_drop_isInfix ls empty window
    · exact h.widen _ _ b (take_drop_isInfix ls used window) (ih b hb)
  all_goals exact fun b hb => absurd hb List.not_mem_nil

/-- Where nesting is too deep, nothing is read. -/
theorem reads_tooDeep (P : List Line → Block → Prop) : Reader.Reads tooDeep P := by
  intro f ls window limit
  have hnone : (tooDeep f ls window limit).blocks = [] := by
    rw [tooDeep]
    split
    · rfl
    · dsimp only
      split
      · rfl
      · split <;> rfl
  rw [hnone]
  exact fun b hb => absurd hb List.not_mem_nil

/-- **Every reader** reads as it should, however deep it may go. -/
theorem reads_reader (h : g.Reads P) : ∀ depth, (reader g depth).Reads P
  | 0 => reads_tooDeep P
  | 1 => fun f => reads_sequence h (reads_rule h (reads_tooDeep P) (reads_tooDeep P)) f _ _
  | depth + 2 => fun f => reads_sequence h
      (reads_rule h (reads_reader h (depth + 1)) (reads_reader h depth)) f _ _

/-- **Whatever is read on a page** has a property that the grammar gives, together with the lines of
the page. -/
theorem forall_mem_readPage_lines (h : g.Reads P) (page : Text) :
    ∀ b ∈ (readPage g page).1, P (Line.all page) b := by
  have hblocks := reads_reader h g.dialect.depth ⟨0, none⟩ (Line.all page) (Line.all page).length
    (Line.all page).length
  rwa [List.take_length] at hblocks

/-- A property that does not look at the lines. -/
theorem reads_of_gives {P : Block → Prop} (h : g.Gives P) : g.Reads fun _ b => P b where
  widen _ _ _ _ hpart := hpart
  become _ _ _ _ hpart := hpart
  paragraph _ := h.paragraph
  heading level _ _ _ := h.heading level
  thematicBreak _ := h.thematicBreak
  code _ := h.code
  fence _ := h.fence
  html hhtml _ := h.html hhtml
  table _ _ := h.table
  quote _ := h.quote
  list _ := h.list
  demo _ _ _ _ colons hcolons hcontainer content hcontent := by
    obtain ⟨-, hdemos, hnotices, hvalid⟩ | ⟨name, -, hnotice⟩ := container_of_colons? hcolons
    · exact h.demo hdemos hnotices colons.info hvalid content hcontent
    -- a notice is no demo
    · exact nomatch hcontainer.symm.trans hnotice
  notice name hname _ := h.notice name hname

/-- **Whatever is read on a page** has a property that the grammar gives. -/
theorem forall_mem_readPage {P : Block → Prop} (h : g.Gives P) (page : Text) :
    ∀ b ∈ (readPage g page).1, P b :=
  forall_mem_readPage_lines (reads_of_gives h) page

end Block

end Showcase
