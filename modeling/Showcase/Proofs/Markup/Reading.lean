import Showcase.Markup.Block.Reader

/-!
# Steps of a reading

Two loops read the lines of a page. What each of them does in the plain case is stated here once:

* a fence or container takes up all lines that neither end it nor leave its frame, and the line that
  ends it (`untilEnd_append`);
* a sequence of blocks goes on behind what a rule has found, as long as no empty line comes in
  between (`sequence_cons`).

A line without a margin that begins no table belongs to the first rule of those for containers and
fences that finds something (`rule_of_first`).
-/

namespace Showcase.Block

variable {g : Grammar} {f : Frame}

/-! ## Runs of a character -/

theorem replicate_prefix_of_le_runOf {c : Char} {n : Nat} {t : Text} (h : n ≤ (runOf c t).1) :
    List.replicate n c <+: t := by
  have hrun : t.takeWhile (· == c) = List.replicate (runOf c t).1 c := by
    refine List.eq_replicate_iff.2 ⟨rfl, fun d hd => ?_⟩
    exact eq_of_beq (List.all_eq_true.1 List.all_takeWhile d hd)
  have hprefix : List.replicate (runOf c t).1 c <+: t := hrun ▸ List.takeWhile_prefix _
  refine List.IsPrefix.trans ?_ hprefix
  rw [← Nat.add_sub_cancel' h, ← List.replicate_append_replicate]
  exact List.prefix_append _ _

/-- What closes a fence begins with a run as long as the opening one. -/
theorem Fence.prefix_of_isClosedBy {fence : Fence} {t : Text} (h : fence.isClosedBy t = true) :
    List.replicate fence.length fence.mark <+: t := by
  simp only [Fence.isClosedBy, Bool.and_eq_true, decide_eq_true_eq] at h
  exact replicate_prefix_of_le_runOf h.1

theorem Colons.prefix_of_isClosedBy {colons : Colons} {t : Text}
    (h : colons.isClosedBy t = true) : List.replicate colons.length ':' <+: t := by
  simp only [Colons.isClosedBy, Bool.and_eq_true, decide_eq_true_eq] at h
  exact replicate_prefix_of_le_runOf h.1

/-! ## Up to the end of a fence or container -/

/-- The line stands inside of the frame, and there is a line after it. -/
def Within (f : Frame) (l : Line) : Prop := l.ended = true ∧ f.indent ≤ l.indent

theorem untilEnd_append {isEnd : Text → Bool} {ls : List Line} {e : Line}
    (hls : ∀ l ∈ ls, Within f l ∧ isEnd l.content = false) (he : Within f e)
    (hcode : isCode g f e = false) (hend : isEnd e.content = true) (more : List Line)
    {window : Nat} (hw : ls.length < window) :
    untilEnd g f isEnd window (ls ++ e :: more) = (ls.length, true) := by
  -- such a line does not end the reading without being an end
  have hinside {l : Line} (h : Within f l) :
      ((!l.isBlank && decide (l.indent < f.indent)) || (l.isBlank && !l.ended)) = false := by
    have : ¬ l.indent < f.indent := Int.not_lt.2 h.2
    simp [h.1, this]
  induction ls generalizing window with
  | nil =>
    cases window with
    | zero => exact absurd hw (Nat.not_lt_zero _)
    | succ n =>
      rw [List.nil_append, untilEnd, hinside he, hcode, hend]
      rfl
  | cons l ls ih =>
    obtain ⟨⟨hl, hlend⟩, hls⟩ := List.forall_mem_cons.1 hls
    cases window with
    | zero => exact absurd hw (Nat.not_lt_zero _)
    | succ n =>
      rw [List.cons_append, untilEnd, hinside hl, hlend, Bool.and_false,
        ih hls (Nat.lt_of_succ_lt_succ hw)]
      rfl

/-! ## From block to block -/

theorem emptyLines_cons {l : Line} (h : l.isBlank = false) (limit : Nat) (ls : List Line) :
    emptyLines limit (l :: ls) = 0 := by
  cases limit with
  | zero => rfl
  | succ n => rw [emptyLines, h]; rfl

/-- Where a rule has found something at the first line, the reading goes on behind it. -/
theorem sequence_cons {rule : Rule} {l : Line} {more : List Line} {window limit : Nat} {s : Step}
    (hl : l.isBlank = false) (hindent : f.indent ≤ l.indent) (hw : 0 < window)
    (hs : rule f l more window limit = some s) (hused : 0 < s.used)
    (hnext : window ≤ s.used ∨ isBlankAt (l :: more) s.used = false) (spaced tight : Bool) :
    ∃ spaced', sequence rule f spaced tight (l :: more) window limit =
      (sequence rule f spaced' (!spaced) ((l :: more).drop s.used) (window - s.used)
        (limit - s.used)).after s s.used := by
  have hblank : (decide (s.used < window) && isBlankAt (l :: more) s.used) = false := by
    rcases hnext with h | h
    · rw [decide_eq_false (Nat.not_lt.2 h), Bool.false_and]
    · rw [h, Bool.and_false]
  have hin : ¬ (window ≤ 0 ∨ l.indent < f.indent) := by
    rintro (h | h)
    · omega
    · exact absurd hindent (Int.not_le.2 h)
  have hmax : 0 + max 1 s.used = s.used := by omega
  rw [sequence, if_neg (Nat.ne_of_gt hw), emptyLines_cons hl]
  simp only [List.drop_zero, if_neg hin, Nat.sub_zero, hs, hmax, hblank]
  exact ⟨_, rfl⟩

/-! ## The lines of a page -/

/-- What encloses the lines of a page. -/
def pageFrame : Frame := ⟨0, none⟩

/-- The grammar reads demos and all other blocks, and no notice takes the place of demos. -/
structure ReadsDemos (g : Grammar) : Prop where
  rich : g.dialect.rich = true
  demos : g.demos = true
  unnoticed : Marker.keyword ∉ g.notices

theorem isCode_of_indent {l : Line} (h : l.indent = 0) : isCode g pageFrame l = false := by
  have : ¬ l.indent - (pageFrame.indent : Int) ≥ 4 := by
    rw [h]
    decide
  rw [isCode, decide_eq_false this, Bool.and_false]

/-- A table has a bar in its first line. -/
theorem header?_of_not_mem {first : Text} (h : '|' ∉ Text.strip first) (second : Text) :
    Table.header? first second = none := by
  rw [Table.header?]
  cases Table.alignments? second with
  | none => rfl
  | some a => simp [h]

/-- A table has a row of dashes in its second line. -/
theorem header?_of_looksLikeRule {second : Text} (h : Table.looksLikeRule second = false)
    (first : Text) : Table.header? first second = none := by
  rw [Table.header?, Table.alignments?, h]
  rfl

theorem tableRule_eq_none {l second : Line} {more : List Line} {window limit : Nat}
    (h : Table.header? l.content second.content = none) :
    tableRule g pageFrame l (second :: more) window limit = none := by
  rw [tableRule, table?, h, ite_self, Option.map_none]

/-- No table, and no indented listing: the rule for containers comes next, then that for fences. -/
theorem rule_of_first {inner inItem : Reader} {l : Line} {ls : List Line} {window limit : Nat}
    {s : Step} (hrich : g.dialect.rich = true) (hl : l.indent = 0)
    (htable : tableRule g pageFrame l ls window limit = none)
    (hs : containerRule g inner pageFrame l ls window limit = some s ∨
      containerRule g inner pageFrame l ls window limit = none ∧
        fencedCodeRule g pageFrame l ls window limit = some s) :
    rule g inner inItem pageFrame l ls window limit = some s := by
  have hcode : indentedCodeRule g pageFrame l ls window limit = none := by
    rw [indentedCodeRule, isCode_of_indent hl]
    rfl
  rw [rule, if_pos hrich, htable, hcode]
  rcases hs with h | ⟨h, h'⟩
  · rw [h]
    rfl
  · rw [h, h']
    rfl

/-- As long as nesting is not exhausted, a reader reads a sequence of blocks. -/
theorem exists_reader_succ (g : Grammar) (depth : Nat) :
    ∃ inner inItem, ∀ f ls window limit, reader g (depth + 1) f ls window limit =
      sequence (rule g inner inItem) f false true ls window limit := by
  cases depth with
  | zero => exact ⟨tooDeep, tooDeep, fun _ _ _ _ => rfl⟩
  | succ depth => exact ⟨reader g (depth + 1), reader g depth, fun _ _ _ _ => rfl⟩

end Showcase.Block
