import Showcase.Page.Spelling
import Showcase.Proofs.Page.Session

/-!
# Renders that fail in a session

Whether a page can be made depends on its source and its configuration alone
(`Request.fails`). A render that fails has written into the context by then, but of all that is
there a later render reads nothing but the wish for a component, which is never taken back. So the
pages of a session are those of the session without the requests that fail, with their wishes handed
on to the next request that does not fail (`withoutFailures`).

Main statement: `Context.answers_after_failures`.
-/

namespace Showcase.Session

variable {spelling : Slug.Transliteration}

/-- No page can be made for the request. -/
def Request.fails (spelling : Slug.Transliteration) (r : Request) : Bool :=
  !(page spelling r.config r.asComponent r.source).isOk

/-- Whether a component is wanted makes no page fail. -/
theorem isOk_page (spelling : Slug.Transliteration) (c : Config) (asComponent : Bool)
    (source : Text) :
    (page spelling c asComponent source).isOk = (page spelling c false source).isOk := by
  rw [page, page]
  cases Engine.ofConfig spelling c with
  | error f => rfl
  | ok engine =>
    simp only [bind, Except.bind]
    cases engine.render [] (Source.clean source) with
    | error f => rfl
    | ok made =>
      cases Engine.need c "component_class" with
      | error f => rfl
      | ok sectionClass => rfl

theorem isOk_page_eq_not_fails (spelling : Slug.Transliteration) (asComponent : Bool)
    (r : Request) :
    (page spelling r.config asComponent r.source).isOk = !r.fails spelling := by
  rw [Request.fails, Bool.not_not, isOk_page, isOk_page spelling r.config r.asComponent]

/-- The requests without those that fail. The wish of such a request for a component is handed on to
the next one that does not fail; `wished` tells whether there is one to hand on. -/
def withoutFailures (spelling : Slug.Transliteration) : (wished : Bool) → List Request →
    List Request
  | _, [] => []
  | wished, r :: rs =>
    if r.fails spelling then withoutFailures spelling (wished || r.asComponent) rs
    else { r with asComponent := wished || r.asComponent } :: withoutFailures spelling false rs

/-- Where no request that fails wishes for a component, there is nothing to hand on. -/
theorem withoutFailures_eq_filter {rs : List Request}
    (h : ∀ r ∈ rs, r.fails spelling = true → r.asComponent = false) :
    withoutFailures spelling false rs = rs.filter (!Request.fails spelling ·) := by
  induction rs with
  | nil => rfl
  | cons r rs ih =>
    obtain ⟨hr, hrs⟩ := List.forall_mem_cons.1 h
    rw [withoutFailures, Bool.false_or, List.filter_cons, ih hrs]
    cases hfails : r.fails spelling with
    | true => simp only [if_true, Bool.not_true, if_neg Bool.false_ne_true, hr hfails, ih hrs]
    | false => simp only [if_true, Bool.not_false, if_neg Bool.false_ne_true]

namespace Context

/-- The answers of a session: each page or failure, with whether components are wanted by then. -/
def answers (spelling : Slug.Transliteration) (ctx : Context) (rs : List Request) :
    List (Except Failure Page × Bool) :=
  (renders spelling ctx rs).map fun x => (x.1.map (⟨·, x.2.payloads⟩), x.2.asComponent)

/-- A context that wants a component or not. -/
def wanting (ctx : Context) (wished : Bool) : Context :=
  { ctx with asComponent := ctx.asComponent || wished }

theorem answers_cons (spelling : Slug.Transliteration) (ctx : Context) (r : Request)
    (rs : List Request) :
    answers spelling ctx (r :: rs) =
      (page spelling r.config (ctx.asComponent || r.asComponent) r.source,
        ctx.asComponent || r.asComponent) :: answers spelling (ctx.render spelling r).2 rs := by
  rw [page_eq_map_render, ← (render_eq spelling ctx.config ctx r).2.1]
  rfl

/-- The answers depend on nothing in the context but the wish for a component. -/
theorem answers_congr {ctx ctx' : Context} (h : ctx.asComponent = ctx'.asComponent)
    (rs : List Request) : answers spelling ctx rs = answers spelling ctx' rs := by
  induction rs generalizing ctx ctx' with
  | nil => rfl
  | cons r rs ih =>
    have hafter : (ctx.render spelling r).2.asComponent =
        (ctx'.render spelling r).2.asComponent := by
      rw [(render_eq spelling ctx.config ctx r).2.1, (render_eq spelling ctx.config ctx' r).2.1, h]
    rw [answers_cons, answers_cons, h, ih hafter]

/-- The pages of a session to which a wish has been handed on. -/
theorem filter_answers (spelling : Slug.Transliteration) (ctx : Context) (wished : Bool)
    (rs : List Request) :
    (answers spelling (ctx.wanting wished) rs).filter (·.1.isOk) =
      answers spelling ctx (withoutFailures spelling wished rs) := by
  induction rs generalizing ctx wished with
  | nil => rfl
  | cons r rs ih =>
    have hafter (ctx : Context) (r : Request) : (ctx.render spelling r).2.asComponent =
        (ctx.asComponent || r.asComponent) := (render_eq spelling ctx.config ctx r).2.1
    have hwanted : ((ctx.wanting wished).asComponent || r.asComponent) =
        (ctx.asComponent || (wished || r.asComponent)) := Bool.or_assoc ..
    rw [answers_cons, List.filter_cons, isOk_page_eq_not_fails, withoutFailures, hwanted]
    cases hfails : r.fails spelling with
    | true =>
      -- the wish stays in the context
      rw [Bool.not_true, if_neg Bool.false_ne_true, if_pos rfl, ← ih]
      exact congrArg _ (answers_congr ((hafter _ r).trans hwanted) rs)
    | false =>
      rw [Bool.not_false, if_pos rfl, if_neg Bool.false_ne_true, answers_cons, ← ih]
      refine congrArg _ (congrArg _ (answers_congr ?_ rs))
      rw [hafter, hwanted, wanting, hafter, Bool.or_false]

/-- **Pages after failures.** The pages of a session, their payloads included, are the answers to
its requests without those that fail, with the wishes of these for a component handed on. If none of
them wishes for one, they leave no trace at all. -/
theorem answers_after_failures (spelling : Slug.Transliteration) (ctx : Context)
    (rs : List Request) :
    (answers spelling ctx rs).filter (·.1.isOk) =
        answers spelling ctx (withoutFailures spelling false rs) ∧
      ((∀ r ∈ rs, r.fails spelling = true → r.asComponent = false) →
        (answers spelling ctx rs).filter (·.1.isOk) =
          answers spelling ctx (rs.filter (!Request.fails spelling ·))) := by
  have hall : (answers spelling ctx rs).filter (·.1.isOk) =
      answers spelling ctx (withoutFailures spelling false rs) := by
    rw [← filter_answers]
    exact congrArg _ (answers_congr (Bool.or_false _).symm rs)
  exact ⟨hall, fun h => by rw [hall, withoutFailures_eq_filter h]⟩

/-! ### A wish in vain -/

/-- A request in a dialect that there is not. -/
def inVain (asComponent : Bool) : Request :=
  ⟨"a".toList, Config.default.change "preset".toList (.text "b".toList), asComponent⟩

/-- A request that asks for nothing but a page. -/
def modest : Request := ⟨"a".toList, Config.default, false⟩

theorem fails_inVain (asComponent : Bool) : (inVain asComponent).fails Slug.spelling = true := rfl

theorem not_fails_modest : modest.fails Slug.spelling = false := by decide +kernel

/-- What is left of a session with one failure and one page. -/
theorem filter_fails (asComponent : Bool) :
    [inVain asComponent, modest].filter (!Request.fails Slug.spelling ·) = [modest] := by
  rw [List.filter_cons, fails_inVain, List.filter_cons, not_fails_modest]
  rfl

theorem answers_after_failures_modest :
    (∀ r ∈ [inVain false, modest], r.fails Slug.spelling = true → r.asComponent = false) ∧
      (answers Slug.spelling (fresh Config.default) [inVain false, modest]).filter (·.1.isOk) =
        answers Slug.spelling (fresh Config.default) [modest] := by
  have hmodest : ∀ r ∈ [inVain false, modest], r.fails Slug.spelling = true →
      r.asComponent = false := by
    intro r hr _
    simp only [List.mem_cons, List.not_mem_nil, or_false] at hr
    rcases hr with rfl | rfl <;> rfl
  have h := (answers_after_failures Slug.spelling (fresh Config.default) _).2 hmodest
  rw [filter_fails] at h
  exact ⟨hmodest, h⟩

/-- **A failure leaves its wish behind**: the page after it is made as a component, although it
would be none had the request that failed not been there. -/
theorem component_after_failure :
    (answers Slug.spelling (fresh Config.default) [inVain true, modest]).filter (·.1.isOk) =
      [(page Slug.spelling Config.default true "a".toList, true)] ∧
    answers Slug.spelling (fresh Config.default)
        ([inVain true, modest].filter (!Request.fails Slug.spelling ·)) =
      [(page Slug.spelling Config.default false "a".toList, false)] ∧
    (answers Slug.spelling (fresh Config.default) [inVain true, modest]).filter (·.1.isOk) ≠
      answers Slug.spelling (fresh Config.default)
        ([inVain true, modest].filter (!Request.fails Slug.spelling ·)) := by
  -- without the request that fails, what it asked for is asked for by the next one
  have hleft : withoutFailures Slug.spelling false [inVain true, modest] =
      [{ modest with asComponent := true }] := by
    rw [withoutFailures, fails_inVain, if_pos rfl, withoutFailures, not_fails_modest]
    rfl
  have hwith : (answers Slug.spelling (fresh Config.default) [inVain true, modest]).filter
      (·.1.isOk) = [(page Slug.spelling Config.default true "a".toList, true)] := by
    have h := filter_answers Slug.spelling (fresh Config.default) false [inVain true, modest]
    rw [hleft] at h
    exact h.trans (answers_cons ..)
  have hwithout : answers Slug.spelling (fresh Config.default) [modest] =
      [(page Slug.spelling Config.default false "a".toList, false)] := answers_cons ..
  rw [filter_fails]
  refine ⟨hwith, hwithout, fun h => ?_⟩
  rw [h, hwithout] at hwith
  exact absurd (congrArg (List.map Prod.snd) hwith) (by decide)

end Context

end Showcase.Session
