import Showcase.Page.Spelling
import Showcase.Proofs.Markup.Reader
import Showcase.Proofs.Markup.Tokens
import Showcase.Proofs.Page.Complete
import Showcase.Proofs.Page.DemoPage
import Showcase.Proofs.Page.Widget

/-!
# The tokens of demos

A page is written token by token: the texts of its tokens, one after the other, are its HTML, and
the text of each token of a demo is the markup for the event there (`Html.Spells`). The source of a
demo is what stands right behind its first token, so the payloads of a page are those of what stands
behind the tokens that open demos, in their order (`Block.opened_readPage`).

No token of a demo depends on what follows the demo, for at least its last token comes after its
first one. So all is shown for blocks that have more tokens behind them, whatever these are.
-/

namespace Showcase

/-! ## What stands behind a token -/

/-- Positions that count from the beginning are those of the list. -/
theorem Mark.at?_natCast (marks : List Mark) (i : Nat) : Mark.at? marks (i : Int) = marks[i]? := by
  have hpos : ¬(i : Int) < 0 := Int.not_lt.2 (Int.natCast_nonneg i)
  rw [Mark.at?]
  simp only [if_neg hpos, Int.toNat_natCast]

/-- The event at a position, by the token there and the one behind it. -/
theorem Event.ofMarks?_natCast (marks : List Mark) (i : Nat) :
    Event.ofMarks? marks (i : Int) = marks[i]?.map fun m =>
      if m.nesting = 1 then
        .opening (Marker.description m.info) ((marks[i + 1]?.map Mark.content).getD [])
      else .closing := by
  have hnext : (if (i : Int) + 1 < marks.length then Mark.at? marks ((i : Int) + 1) else none) =
      marks[i + 1]? := by
    have hcast : (i : Int) + 1 = ((i + 1 : Nat) : Int) := rfl
    rw [hcast, Mark.at?_natCast]
    split
    · rfl
    · next h => exact (List.getElem?_eq_none (Nat.le_of_not_lt (mt Int.ofNat_lt.2 h))).symm
  rw [Event.ofMarks?, Mark.at?_natCast]
  dsimp only
  rw [hnext]

namespace Block

/-- The content of a token, if there is one. -/
def Token.contentOf (t : Option Token) : Text := (t.map fun t => t.content).getD []

/-- The event at a token of a demo, given the token right behind it. -/
def Token.event (t : Token) (next : Option Token) : Event :=
  if t.nesting = 1 then .opening (Marker.description t.info) (contentOf next) else .closing

/-- So it is for the tokens of a page. -/
theorem ofMarks?_tokens (ts : List Token) (i : Nat) :
    Event.ofMarks? (ts.map Token.toMark) (i : Int) = ts[i]?.map fun t => t.event ts[i + 1]? := by
  rw [Event.ofMarks?_natCast, List.getElem?_map, List.getElem?_map, Option.map_map, Option.map_map]
  rfl

open Token

/-- What stands right behind each token that opens a demo. -/
def opened : List Token → List Text
  | [] => []
  | t :: ts => (if t.opensDemo then [contentOf ts.head?] else []) ++ opened ts

theorem opened_cons_of_not_opensDemo {t : Token} (h : t.opensDemo = false) (ts : List Token) :
    opened (t :: ts) = opened ts := by
  rw [opened, h]
  rfl

/-- Tokens without demos open none. -/
theorem opened_append_of_hasNoDemo {ts : List Token} (h : HasNoDemo ts) (rest : List Token) :
    opened (ts ++ rest) = opened rest := by
  induction ts with
  | nil => rfl
  | cons t ts ih =>
    obtain ⟨ht, hts⟩ := List.forall_mem_cons.1 h
    rw [List.cons_append, opened_cons_of_not_opensDemo (not_opensDemo_of_not_isDemo ht), ih hts]

/-- Where nothing stands behind tokens that open demos there are none. -/
theorem not_opensDemo_of_opened_eq_nil {ts : List Token} (h : opened ts = []) :
    ∀ t ∈ ts, t.opensDemo = false := by
  induction ts with
  | nil => exact fun t ht => absurd ht List.not_mem_nil
  | cons t ts ih =>
    rw [opened, List.append_eq_nil_iff] at h
    refine List.forall_mem_cons.2 ⟨?_, ih h.2⟩
    cases hopen : t.opensDemo with
    | false => rfl
    | true =>
      rw [hopen] at h
      exact nomatch h.1

/-- The first token of a block has its raw content. -/
theorem exists_tokens_eq_cons (b : Block) :
    ∃ t ts, b.tokens = t :: ts ∧ t.content = b.rawContent := by
  cases b <;> exact ⟨_, _, rfl, rfl⟩

/-- What comes first in a demo, be it only its last token. -/
theorem exists_content_eq_cons (content : List Block) (name : Text) (rest : List Token) :
    ∃ t ts, tokensOf content ++ stop name :: rest = t :: ts ∧ t.content = Html.body content := by
  cases content with
  | nil => exact ⟨_, _, rfl, rfl⟩
  | cons b bs =>
    obtain ⟨t, ts, htokens, hcontent⟩ := exists_tokens_eq_cons b
    refine ⟨t, ts ++ tokensOf bs ++ stop name :: rest, ?_, hcontent⟩
    rw [tokensOf, htokens, List.cons_append, List.cons_append]

/-- The tokens open demos with these sources, and whatever opens behind them is not changed. -/
def Opens (ts : List Token) (sources : List Text) : Prop :=
  ∀ rest, opened (ts ++ rest) = sources ++ opened rest

/-- **A demo** opens, and then the demos in it do. -/
theorem opens_demo (info : Text) {content : List Block} {sources : List Text}
    (h : Opens (tokensOf content) sources) :
    Opens (tokens (.demo info content)) (Html.body content :: sources) := by
  intro rest
  -- the demos in it do not see that its last token follows and not the rest
  have hinside : opened (tokensOf content ++ stop Marker.keyword :: rest) =
      sources ++ opened rest := by
    rw [h, opened_cons_of_not_opensDemo (not_opensDemo_stop Marker.keyword)]
  obtain ⟨t, ts, htokens, hcontent⟩ := exists_content_eq_cons content Marker.keyword rest
  rw [tokens, between, List.cons_append, List.append_assoc, List.singleton_append, opened,
    opensDemo_start, if_pos rfl, hinside, htokens, ← hcontent]
  rfl

/-! ## Pages part by part -/

/-- Blocks that have no others in them are of no account to demos. -/
theorem gives_of_hasNoDemo {g : Grammar} (hdemo : Marker.keyword ∉ g.notices) {P : Block → Prop}
    (hleaf : ∀ b : Block, HasNoDemo b.tokens → Engine.bodies b = [] → P b)
    (hquote : ∀ content, (∀ b ∈ content, P b) → P (.quote content))
    (hlist : ∀ start tight items, (∀ i ∈ items, ∀ b ∈ i, P b) → P (.list start tight items))
    (hinside : ∀ info content, (∀ b ∈ content, P b) → P (.demo info content))
    (hnotice : ∀ name, name ≠ Marker.keyword → ∀ content, (∀ b ∈ content, P b) →
      P (.notice name content)) : g.Gives P where
  paragraph source := hleaf _ (hasNoDemo_sourced source) rfl
  heading _ source := hleaf _ (hasNoDemo_sourced source) rfl
  thematicBreak := hleaf _ (hasNoDemo_single [] []) rfl
  code content := hleaf _ (hasNoDemo_single [] content) rfl
  fence info content := hleaf _ (hasNoDemo_single info content) rfl
  html _ content := hleaf _ (hasNoDemo_single [] content) rfl
  table alignments header rows := hleaf _ (hasNoDemo_tableTokens alignments header rows) rfl
  quote := hquote
  list := hlist
  demo _ _ info _ := hinside info
  notice name hname := hnotice name fun e => hdemo (e ▸ hname)

/-- What passes from the tokens of parts of a page, and the sources of the demos there, to those of
the whole. -/
structure Composes (R : List Token → List Text → Prop) : Prop where
  hasNoDemo : ∀ ts, HasNoDemo ts → R ts []
  append : ∀ ts us sources more, R ts sources → R us more → R (ts ++ us) (sources ++ more)
  demo : ∀ info content sources, R (tokensOf content) sources →
    R (tokens (.demo info content)) (Html.body content :: sources)

/-- Balanced tokens make balanced tokens. -/
theorem composes_isBalanced : Composes fun ts _ => IsBalanced ts where
  hasNoDemo _ := HasNoDemo.isBalanced
  append _ _ _ _ := IsBalanced.append
  demo info _ _ := IsBalanced.demo info

/-- Tokens that open the demos of their blocks make such tokens. -/
theorem composes_opens : Composes Opens where
  hasNoDemo _ h := opened_append_of_hasNoDemo h
  append ts us sources more h h' rest := by
    rw [List.append_assoc, h, h', List.append_assoc]
  demo info _ _ := opens_demo info

namespace Composes

variable {R : List Token → List Text → Prop} (hR : Composes R) {g : Grammar}
include hR

/-- A block that is no demo only adds its own two tokens. -/
theorem between {first last : Token} (hfirst : first.isDemo = false)
    (hlast : last.isDemo = false) {ts : List Token} {sources : List Text} (h : R ts sources) :
    R (between first last ts) sources := by
  have hends (t : Token) (ht : t.isDemo = false) : R [t] [] :=
    hR.hasNoDemo [t] (List.forall_mem_singleton.2 ht)
  have := hR.append _ _ _ _ (hends first hfirst) (hR.append _ _ _ _ h (hends last hlast))
  rwa [List.append_nil] at this

/-- What holds of the tokens of each block holds of the tokens of all of them. -/
theorem tokensOf {bs : List Block} (h : ∀ b ∈ bs, R b.tokens (Engine.bodies b)) :
    R (tokensOf bs) (Engine.allBodies bs) := by
  induction bs with
  | nil => exact hR.hasNoDemo [] fun t ht => absurd ht List.not_mem_nil
  | cons b bs ih =>
    obtain ⟨hb, hbs⟩ := List.forall_mem_cons.1 h
    exact hR.append _ _ _ _ hb (ih hbs)

/-- And so for the items of a list. -/
theorem tokensIn {is : List (List Block)} (h : ∀ i ∈ is, ∀ b ∈ i, R b.tokens (Engine.bodies b)) :
    R (tokensIn is) (Engine.itemBodies is) := by
  induction is with
  | nil => exact hR.hasNoDemo [] fun t ht => absurd ht List.not_mem_nil
  | cons i is ih =>
    obtain ⟨hi, his⟩ := List.forall_mem_cons.1 h
    exact hR.append _ _ _ _ (hR.between rfl rfl (hR.tokensOf hi)) (ih his)

/-- A relation that composes holds of every block that is read. -/
theorem gives (hdemo : Marker.keyword ∉ g.notices) :
    g.Gives fun b => R b.tokens (Engine.bodies b) := by
  refine gives_of_hasNoDemo hdemo ?leaf ?quote ?list ?demo ?notice
  -- Every other block stands on its own, or shows what it holds between two tokens.
  case leaf =>
    intro b hb hnone
    rw [hnone]
    exact hR.hasNoDemo b.tokens hb
  case quote =>
    intro content hcontent
    exact hR.between rfl rfl (hR.tokensOf hcontent)
  case list =>
    intro start tight items hitems
    exact hR.between rfl rfl (hR.tokensIn hitems)
  case demo =>
    intro info content hcontent
    exact hR.demo info content _ (hR.tokensOf hcontent)
  case notice =>
    intro name hname content hcontent
    exact hR.between (not_isDemo_of_ne hname _) (not_isDemo_of_ne hname _) (hR.tokensOf hcontent)

/-- **What composes** holds of pages, if no notice is called as demos are. -/
theorem readPage (hdemo : Marker.keyword ∉ g.notices) (page : Text) :
    R (Block.tokensOf (readPage g page).1) (Engine.allBodies (readPage g page).1) :=
  hR.tokensOf (forall_mem_readPage (hR.gives hdemo) page)

end Composes

variable {g : Grammar} (hdemo : Marker.keyword ∉ g.notices) (page : Text)
include hdemo

/-- **The demos on a page** are balanced, however they are nested and whether or not a marker ends
them. -/
theorem isBalanced_readPage : IsBalanced (tokensOf (readPage g page).1) :=
  composes_isBalanced.readPage hdemo page

/-- **The sources of the demos** on a page stand right behind the tokens that open them. -/
theorem opened_readPage :
    opened (tokensOf (readPage g page).1) = Engine.allBodies (readPage g page).1 := by
  have h := composes_opens.readPage hdemo page []
  rwa [List.append_nil, opened, List.append_nil] at h

end Block

/-! ## Texts of tokens -/

namespace Html

open Block Block.Token

variable {k : Look} {ts us : List Token} {html more : Text}

/-- The text of a token of a demo, given the token right behind it. -/
def demoText (k : Look) (t : Token) (next : Option Token) : Text :=
  if t.nesting = 1 then k.demoStart t.info (contentOf next) else k.demoEnd

/-- Texts of tokens. Nothing is said about the texts of tokens that are not of demos. -/
inductive AreTexts (k : Look) : List Token → List Text → Prop
  | nil : AreTexts k [] []
  | cons {t : Token} {ts : List Token} {x : Text} {xs : List Text}
      (head : t.isDemo = true → x = demoText k t ts.head?) (tail : AreTexts k ts xs) :
      AreTexts k (t :: ts) (x :: xs)

/-- There is a text for each token. -/
theorem AreTexts.length_eq {xs : List Text} (h : AreTexts k ts xs) : xs.length = ts.length := by
  induction h with
  | nil => rfl
  | cons _ _ ih => rw [List.length_cons, List.length_cons, ih]

/-- The text of a token of a demo is told by that token and the next one. -/
theorem AreTexts.getElem? {xs : List Text} (h : AreTexts k ts xs) {i : Nat} {t : Token}
    (ht : ts[i]? = some t) (hdemo : t.isDemo = true) :
    xs[i]? = some (demoText k t ts[i + 1]?) := by
  induction h generalizing i with
  | nil => cases ht
  | @cons t' ts x xs head tail ih =>
    cases i with
    | zero =>
      obtain rfl := Option.some.inj ht
      rw [List.getElem?_cons_zero, head hdemo, List.head?_eq_getElem?, List.getElem?_cons_succ]
    | succ i => exact ih ht

/-- The tokens are written as the HTML, whatever is behind them. -/
def Spells (k : Look) (ts : List Token) (html : Text) : Prop :=
  ∀ rest xs, AreTexts k rest xs →
    ∃ own, own.flatten = html ∧ AreTexts k (ts ++ rest) (own ++ xs)

theorem spells_nil : Spells k [] [] := fun _ _ h => ⟨[], rfl, h⟩

/-- HTML that is put together from two pieces spells their tokens one after the other. -/
theorem Spells.append (h : Spells k ts html) (h' : Spells k us more) :
    Spells k (ts ++ us) (html ++ more) := by
  intro rest xs hrest
  obtain ⟨last, hlast, hus⟩ := h' rest xs hrest
  obtain ⟨first, hfirst, hts⟩ := h _ _ hus
  refine ⟨first ++ last, ?_, ?_⟩
  · rw [List.flatten_append, hfirst, hlast]
  · rwa [List.append_assoc, List.append_assoc]

/-- Any HTML spells a token that is none of a demo. -/
theorem spells_of_not_isDemo {t : Token} (ht : t.isDemo = false) (html : Text) :
    Spells k [t] html := by
  intro rest xs hrest
  refine ⟨[html], List.flatten_singleton, .cons (fun h => ?_) hrest⟩
  exact absurd (ht.symm.trans h) Bool.false_ne_true

/-- Tokens without demos may be spelled by nothing at all. -/
theorem spells_nil_of_hasNoDemo (h : HasNoDemo ts) : Spells k ts [] := by
  induction ts with
  | nil => exact spells_nil
  | cons t ts ih =>
    obtain ⟨ht, hts⟩ := List.forall_mem_cons.1 h
    exact (spells_of_not_isDemo ht []).append (ih hts)

/-- Tokens that are not of demos may be written as anything. -/
theorem spells_of_hasNoDemo {t : Token} (h : HasNoDemo (t :: ts)) (html : Text) :
    Spells k (t :: ts) html := by
  obtain ⟨ht, hts⟩ := List.forall_mem_cons.1 h
  -- the first token has all of the text
  have htexts : Spells k ([t] ++ ts) (html ++ []) :=
    (spells_of_not_isDemo ht html).append (spells_nil_of_hasNoDemo hts)
  rwa [List.append_nil] at htexts

/-- What a block puts around its content belongs to its own two tokens. -/
theorem Spells.between {first last : Token} (hfirst : first.isDemo = false)
    (hlast : last.isDemo = false) (h : Spells k ts html) (before after : Text) :
    Spells k (between first last ts) (before ++ html ++ after) := by
  rw [List.append_assoc]
  exact (spells_of_not_isDemo hfirst before).append (h.append (spells_of_not_isDemo hlast after))

/-- **A demo** is written with the source that stands right behind its first token. -/
theorem spells_demo (info : Text) {content : List Block} (h : Spells k (tokensOf content) html) :
    Spells k (tokens (.demo info content))
      (k.demoStart info (body content) ++ html ++ k.demoEnd) := by
  intro rest xs hrest
  -- what is in the demo is written before its last token, so that comes first here
  have hlast : AreTexts k (stop Marker.keyword :: rest) (k.demoEnd :: xs) :=
    .cons (fun _ => rfl) hrest
  obtain ⟨own, hown, hinside⟩ := h _ _ hlast
  obtain ⟨t, ts, htokens, hcontent⟩ := exists_content_eq_cons content Marker.keyword rest
  have hfirst : demoText k (start Marker.keyword info)
      (tokensOf content ++ stop Marker.keyword :: rest).head? =
        k.demoStart info (body content) := by
    rw [htokens, ← hcontent]
    rfl
  have htokens' : tokens (.demo info content) ++ rest =
      start Marker.keyword info :: (tokensOf content ++ stop Marker.keyword :: rest) := by
    rw [tokens, Block.between, List.cons_append, List.append_assoc, List.singleton_append]
  refine ⟨k.demoStart info (body content) :: (own ++ [k.demoEnd]), ?_, ?_⟩
  · rw [List.flatten_cons, List.flatten_append, hown, List.flatten_singleton, List.append_assoc]
  · rw [htokens', List.cons_append, List.append_assoc, List.singleton_append]
    exact .cons (fun _ => hfirst.symm) hinside

/-- The tokens of a block are written as its HTML, after a line feed if it begins on a new line. -/
def IsSpelled (k : Look) (b : Block) : Prop :=
  ∀ bare taken before, (breaksLine b = false → before = []) →
    Spells k b.tokens (before ++ (block k bare b taken).1)

/-- The HTML of several blocks spells their tokens. -/
theorem spells_tokensOf {bs : List Block} (h : ∀ b ∈ bs, IsSpelled k b) (bare afterBare : Bool)
    (taken : List Text) : Spells k (tokensOf bs) (blocks k bare afterBare bs taken).1 := by
  induction bs generalizing afterBare taken with
  | nil => exact spells_nil
  | cons b bs ih =>
    obtain ⟨hb, hbs⟩ := List.forall_mem_cons.1 h
    have hbefore : breaksLine b = false →
        (if afterBare && breaksLine b then ['\n'] else []) = [] := fun hb => by
      rw [hb, Bool.and_false]
      rfl
    exact (hb bare taken _ hbefore).append (ih hbs _ _)

/-- And so does that of the items of a list. -/
theorem spells_tokensIn {is : List (List Block)} (h : ∀ i ∈ is, ∀ b ∈ i, IsSpelled k b)
    (tight : Bool) (taken : List Text) : Spells k (tokensIn is) (items k tight is taken).1 := by
  induction is generalizing taken with
  | nil => exact spells_nil
  | cons i is ih =>
    obtain ⟨hi, his⟩ := List.forall_mem_cons.1 h
    rw [items_cons]
    exact ((spells_tokensOf hi tight false taken).between rfl rfl _ _).append (ih his _)

/-- An element around what is written. -/
theorem Spells.around {first last : Token} (hfirst : first.isDemo = false)
    (hlast : last.isDemo = false) (h : Spells k ts html) (before name attributes : Text) :
    Spells k (Block.between first last ts) (before ++ around name attributes html) := by
  have := h.between hfirst hlast
    (before ++ '<' :: (name ++ attributes ++ if html = [] then ['>'] else ['>', '\n']))
    ("</".toList ++ name ++ ['>', '\n'])
  rw [Html.around]
  simpa only [List.append_assoc, List.cons_append] using this

/-- A block without demos is spelled in any way. -/
theorem HasNoDemo.isSpelled {b : Block} (h : HasNoDemo b.tokens) : IsSpelled k b := by
  intro bare taken before _
  obtain ⟨t, ts, htokens, -⟩ := exists_tokens_eq_cons b
  rw [htokens] at h ⊢
  exact spells_of_hasNoDemo h _

/-- Whatever is read is written token by token. -/
theorem gives_isSpelled {g : Grammar} (hdemo : Marker.keyword ∉ g.notices) :
    g.Gives (IsSpelled k) := by
  refine gives_of_hasNoDemo hdemo (fun b hb _ => HasNoDemo.isSpelled hb) ?quote ?list ?demo ?notice
  case quote =>
    intro content hcontent bare taken before _
    exact (spells_tokensOf hcontent false false taken).around rfl rfl before _ _
  case list =>
    intro start tight items hitems bare taken before _
    have hspelled := spells_tokensIn hitems tight taken
    cases start with
    | none => exact hspelled.around rfl rfl before _ _
    | some n => exact hspelled.around rfl rfl before _ _
  case demo =>
    intro info content hcontent bare taken before hbefore
    -- a demo does not begin on a new line, so its first token has nothing before it
    rw [hbefore rfl, List.nil_append]
    exact spells_demo info (spells_tokensOf hcontent false false taken)
  case notice =>
    intro name hname content hcontent bare taken before _
    exact (spells_tokensOf hcontent false false taken).around (not_isDemo_of_ne hname _)
      (not_isDemo_of_ne hname _) before _ _

/-- **The HTML of a page** is the texts of its tokens, one after the other. -/
theorem exists_texts_readPage {g : Grammar} (hdemo : Marker.keyword ∉ g.notices) (k : Look)
    (source : Text) :
    ∃ xs, page k (readPage g source).1 = xs.flatten ∧
      AreTexts k (tokensOf (readPage g source).1) xs := by
  obtain ⟨own, hown, htexts⟩ := spells_tokensOf (forall_mem_readPage (gives_isSpelled hdemo) source)
    false false [] [] [] .nil
  rw [List.append_nil, List.append_nil] at htexts
  exact ⟨own, hown.symm, htexts⟩

end Html

/-! ## Engines -/

namespace WidgetSettings

variable {s : WidgetSettings} {w : Widget} (h : s.widget = .ok w)
include h

/-- The name of a widget element that can be written is not missing. -/
theorem need_of_widget : need elementKey s.element = .ok w.element := by
  obtain ⟨element, helement, h⟩ := exists_of_bind_eq_ok h
  obtain ⟨boxClass, -, h⟩ := exists_of_bind_eq_ok h
  obtain ⟨property, -, h⟩ := exists_of_bind_eq_ok h
  obtain rfl := Except.ok.inj h
  exact helement

/-- The markup for an event at a token is the text of the token. -/
theorem markup_event (e : Engine) (definitions : Definitions) (t : Block.Token)
    (next : Option Block.Token) :
    (t.event next).markup s = .ok (Html.demoText (e.look w definitions) t next) := by
  rw [Block.Token.event, Html.demoText]
  split
  · rw [Event.markup, h]
    rfl
  · rw [Event.markup, need_of_widget h]
    rfl

end WidgetSettings

namespace Engine

open Block

/-- Texts of the tokens of a page. Those of demos are the markup for the events there. -/
structure AreWritten (s : WidgetSettings) (ts : List Token) (texts : List Text) : Prop where
  length_eq : texts.length = ts.length
  demos : ∀ (i : Nat) (t : Token), ts[i]? = some t → t.isDemo = true →
    ∃ event text, Event.ofMarks? (ts.map Token.toMark) i = some event ∧
      event.markup s = .ok text ∧ texts[i]? = some text

/-- The texts of tokens are what the events write. -/
theorem areWritten_of_areTexts {s : WidgetSettings} {w : Widget} (hw : s.widget = .ok w)
    {e : Engine} {definitions : Definitions} {ts : List Token} {texts : List Text}
    (h : Html.AreTexts (e.look w definitions) ts texts) : AreWritten s ts texts where
  length_eq := h.length_eq
  demos i t ht hdemo := by
    refine ⟨t.event ts[i + 1]?, _, ?_, WidgetSettings.markup_event hw e definitions t ts[i + 1]?,
      h.getElem? ht hdemo⟩
    rw [ofMarks?_tokens, ht]
    rfl

/-- Tokens without demos have no events. -/
theorem areWritten_of_hasNoDemo {s : WidgetSettings} {k : Html.Look} {ts : List Token}
    {texts : List Text} (h : Html.AreTexts k ts texts) (hnone : HasNoDemo ts) :
    AreWritten s ts texts where
  length_eq := h.length_eq
  demos _ t ht hdemo :=
    absurd ((hnone t (List.mem_of_getElem? ht)).symm.trans hdemo) Bool.false_ne_true

variable {e : Engine} (hdemo : Marker.keyword ∉ e.grammar.notices)
include hdemo

/-- **A page** is written token by token. -/
theorem exists_areWritten {w : Widget} (hw : e.widget.widget = .ok w) {known : Definitions}
    {source : Text} {made : Rendered} (hrender : e.render known source = .ok made) :
    ∃ texts, made.html = texts.flatten ∧
      AreWritten e.widget (tokensOf (e.blocks source)) texts := by
  by_cases hnone : allBodies (e.blocks source) = []
  · -- the widget element is not looked up, but no token would be written with it
    have hopened : opened (tokensOf (e.blocks source)) = [] :=
      (opened_readPage hdemo _).trans hnone
    have hno := (isBalanced_readPage hdemo _).hasNoDemo (not_opensDemo_of_opened_eq_nil hopened)
    rw [render] at hrender
    rw [blocks] at hnone
    simp only [if_pos hnone, bind, Except.bind, pure, Except.pure, Except.ok.injEq] at hrender
    obtain rfl := hrender
    obtain ⟨texts, htexts, hare⟩ := Html.exists_texts_readPage hdemo
      (e.look ⟨[], [], []⟩ (known ++ (readPage e.grammar (Source.readable source)).2))
      (Source.readable source)
    exact ⟨texts, htexts, areWritten_of_hasNoDemo hare hno⟩
  · obtain ⟨definitions, hhtml⟩ := exists_html_of_render hw hrender hnone
    obtain ⟨texts, htexts, hare⟩ := Html.exists_texts_readPage hdemo (e.look w definitions)
      (Source.readable source)
    exact ⟨texts, hhtml.trans htexts, areWritten_of_areTexts hw hare⟩

omit hdemo

/-- **Demos in pairs.** With a complete configuration, and no notice that is called as demos are,
every page is written token by token. The tokens of demos are balanced brackets, each of them is
written as the markup for the event there, and the payloads end with one for each demo that is
opened: that of the raw content of the token right behind. -/
theorem demos_in_pairs {c : Config} (h : c.IsComplete)
    (hnotices : ∀ s ∈ Setting.Record.find? c "notice_containers".toList,
      Marker.keyword ∉ s.items.map Setting.display) (spelling : Slug.Transliteration) :
    ∃ e, ofConfig spelling c = .ok e ∧
      ∀ (m : Session.Memory) (source : Text), ∃ made, e.render m.definitions source = .ok made ∧
        IsBalanced (tokensOf (e.blocks source)) ∧
        (m.after made).payloads = m.payloads ++
          (opened (tokensOf (e.blocks source))).map Payload.ofBody ∧
        ∃ texts, made.html = texts.flatten ∧
          AreWritten e.widget (tokensOf (e.blocks source)) texts := by
  obtain ⟨e, he, hsettings⟩ := h.exists_engine spelling
  obtain ⟨w, hw⟩ := h.exists_widget
  rw [← hsettings] at hw
  have hdemo : Marker.keyword ∉ e.grammar.notices := by
    obtain ⟨s, hs, hread⟩ := exists_notices he
    exact hread ▸ hnotices s hs
  refine ⟨e, he, fun m source => ?_⟩
  obtain ⟨made, hmade, hpayloads⟩ := exists_render hw m.definitions source
  refine ⟨made, hmade, isBalanced_readPage hdemo _, ?_, exists_areWritten hdemo hw hmade⟩
  rw [blocks, opened_readPage hdemo, ← payloads, ← hpayloads]
  rfl

/-- Demos in a quotation, in a list and in each other. Only one of them is ended by a marker. -/
def tangled : Text :=
  "> ::: demo a\n> - ::: demo b\n>   <i>\n:::: demo c\n::: demo d\n:::\n".toList

/-- What stands behind a token that opens a demo may be a list, a demo, or the end of the demo; then
the source is empty. -/
theorem demos_in_pairs_tangled :
    ∃ e made texts, ofConfig Slug.spelling Config.default = .ok e ∧
      e.render [] tangled = .ok made ∧
      (tokensOf (e.blocks tangled)).filterMap Token.bracket? = [.U, .U, .D, .D, .U, .U, .D, .D] ∧
      IsBalanced (tokensOf (e.blocks tangled)) ∧
      made.payloads = [[], "<i>\n".toList, [], []].map Payload.ofBody ∧
      made.html = texts.flatten ∧ AreWritten e.widget (tokensOf (e.blocks tangled)) texts := by
  obtain ⟨e, he, hpages⟩ := demos_in_pairs Config.isComplete_default
    (fun s hs => by
      obtain rfl := Option.some.inj hs
      decide)
    Slug.spelling
  obtain rfl := Except.ok.inj ((DemoSection.ofConfig_default Slug.spelling).symm.trans he)
  obtain ⟨made, hmade, hbalanced, hpayloads, texts, hhtml, hwritten⟩ :=
    hpages Session.Memory.empty tangled
  have hopened : opened (tokensOf ((DemoSection.defaultEngine Slug.spelling).blocks tangled)) =
      [[], "<i>\n".toList, [], []] := by decide +kernel
  rw [hopened] at hpayloads
  exact ⟨_, made, texts, he, hmade, by decide +kernel, hbalanced, hpayloads, hhtml, hwritten⟩

end Engine

end Showcase
