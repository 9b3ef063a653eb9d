import Showcase.Demo.Event

/-!
# Events that share a register

Writing an event may fail in one of three lookups, and the payload is recorded after the first of
them. So what is recorded depends on the name of the element alone, and what comes out depends on
nothing that was recorded before (`render_eq`). A failure is about the first of the keys needed that
is missing (`markup_eq_error_iff`).

Main statement: `renders_of_record` (what comes of any events, and what is recorded by then,
whichever of the settings are missing).
-/

namespace Showcase.Event

open WidgetSettings Setting

/-- The source of a demo, where an event opens one. -/
def body? : Event → Option Text
  | opening _ body => some body
  | closing => none

/-- The payloads of the demos that several events open, in their order. -/
def opened (es : List Event) : List Payload := (es.filterMap body?).map Payload.ofBody

/-- The keys that are looked up for an event, in their order. -/
def needed : Event → List Text
  | opening _ _ => [elementKey, classKey, propertyKey]
  | closing => [elementKey]

/-- The first key that is looked up in vain. -/
def firstMissing? (demo : Record) (e : Event) : Option Text :=
  (needed e).find? fun key => (Record.find? demo key).isNone

/-! ## One event -/

/-- **An event is written** without regard to what is in the register, and adds its payload
to it. -/
theorem render_eq (s : WidgetSettings) (register : Register) (e : Event) :
    render s register e = (markup s e, register.map (· ++ (payload? s e).toList)) := by
  obtain ⟨element, boxClass, property⟩ := s
  have hkept : register = register.map (· ++ []) := by
    simp only [List.append_nil, Option.map_id']
  cases e with
  | closing =>
    cases element with
    | none => exact congrArg (Prod.mk _) hkept
    | some element => exact congrArg (Prod.mk _) hkept
  | opening description body =>
    cases element with
    | none => exact congrArg (Prod.mk _) hkept
    | some element =>
      -- the payload is recorded by now, whatever comes of the other lookups
      cases boxClass with
      | none => rfl
      | some boxClass =>
        cases property with
        | none => rfl
        | some property => rfl

theorem markup_cases (demo : Record) (e : Event) :
    (∃ key, firstMissing? demo e = some key ∧
        markup (.ofRecord demo) e = .error (.missing key)) ∨
      firstMissing? demo e = none ∧ ∃ text, markup (.ofRecord demo) e = .ok text := by
  cases e with
  | closing =>
    simp only [firstMissing?, needed, List.find?, markup, ofRecord]
    cases Record.find? demo elementKey with
    | none => exact Or.inl ⟨elementKey, rfl, rfl⟩
    | some element => exact Or.inr ⟨rfl, _, rfl⟩
  | opening description body =>
    simp only [firstMissing?, needed, List.find?, markup, widget, ofRecord]
    cases Record.find? demo elementKey with
    | none => exact Or.inl ⟨elementKey, rfl, rfl⟩
    | some element =>
      cases Record.find? demo classKey with
      | none => exact Or.inl ⟨classKey, rfl, rfl⟩
      | some boxClass =>
        cases Record.find? demo propertyKey with
        | none => exact Or.inl ⟨propertyKey, rfl, rfl⟩
        | some property => exact Or.inr ⟨rfl, _, rfl⟩

/-- Writing an event fails exactly at the first key that is missing. -/
theorem markup_eq_error_iff {demo : Record} {e : Event} {failure : Failure} :
    markup (.ofRecord demo) e = .error failure ↔
      ∃ key, firstMissing? demo e = some key ∧ failure = .missing key := by
  rcases markup_cases demo e with ⟨key, hkey, hmarkup⟩ | ⟨hkey, text, hmarkup⟩
  · rw [hkey, hmarkup]
    constructor
    · intro h
      exact ⟨key, rfl, (Except.error.inj h).symm⟩
    · rintro ⟨key', hkey', rfl⟩
      rw [Option.some.inj hkey']
  · rw [hkey, hmarkup]
    exact ⟨fun h => (nomatch h), fun ⟨_, h, _⟩ => (nomatch h)⟩

/-! ## Several events -/

/-- Events are written one by one as if nothing was recorded, and their payloads gather. -/
theorem renders_eq (s : WidgetSettings) (register : Register) (es : List Event) :
    renders s register es = es.mapIdx fun i e =>
      (markup s e, register.map (· ++ (es.take (i + 1)).filterMap (payload? s))) := by
  induction es generalizing register with
  | nil => rfl
  | cons e es ih =>
    have hrecorded (es : List Event) :
        (e :: es).filterMap (payload? s) = (payload? s e).toList ++ es.filterMap (payload? s) := by
      cases h : payload? s e with
      | none => exact List.filterMap_cons_none h
      | some payload => exact List.filterMap_cons_some h
    rw [renders, render_eq, ih, List.mapIdx_cons]
    simp only [List.take_succ_cons, List.take_zero, hrecorded, List.filterMap_nil, List.append_nil,
      Option.map_map, Function.comp_def, List.append_assoc]

/-- Of the settings, only the name of the element matters to what is recorded. -/
theorem filterMap_payload? (s : WidgetSettings) (es : List Event) :
    es.filterMap (payload? s) = if s.element.isSome then opened es else [] := by
  cases h : s.element with
  | none =>
    refine List.filterMap_eq_nil_iff.2 fun e _ => ?_
    cases e with
    | closing => rfl
    | opening description body => rw [payload?, h]; rfl
  | some element =>
    have hpayload : payload? s = fun e => (body? e).map Payload.ofBody := by
      funext e
      cases e with
      | closing => rfl
      | opening description body => rw [payload?, h]; rfl
    rw [Option.isSome_some, if_pos rfl, opened, List.map_filterMap, hpayload]

/-- **What is recorded by several events** that are written with one register: the payloads of all
demos opened so far if the element has a name, whatever else is missing, and none otherwise. A
closing event leaves the register alone. What comes of an event is what comes of it alone; it is a
failure exactly if a key is missing that the event needs, and then about the first such key. -/
theorem renders_of_record (demo : Record) (es : List Event) :
    renders (.ofRecord demo) (some []) es = es.mapIdx (fun i e =>
        ((render (.ofRecord demo) (some []) e).1,
          some (if (Record.find? demo elementKey).isSome then opened (es.take (i + 1)) else []))) ∧
      (∀ register, (render (.ofRecord demo) register closing).2 = register) ∧
      ∀ e failure, (render (.ofRecord demo) (some []) e).1 = .error failure ↔
        ∃ key, firstMissing? demo e = some key ∧ failure = .missing key := by
  have halone (e : Event) :
      (render (.ofRecord demo) (some []) e).1 = markup (.ofRecord demo) e :=
    congrArg Prod.fst (render_eq _ _ e)
  have helement : (WidgetSettings.ofRecord demo).element.isSome =
      (Record.find? demo elementKey).isSome := Option.isSome_map
  refine ⟨?_, fun register => ?_, fun e failure => ?_⟩
  · rw [renders_eq]
    simp only [Option.map_some, List.nil_append, filterMap_payload?, halone, helement]
  · rw [render_eq]
    simp only [payload?, Option.toList_none, List.append_nil, Option.map_id']
  · rw [halone]
    exact markup_eq_error_iff

/-- Without a class no demo is written, and yet each of them is recorded. -/
example (description body : Text) :
    renders (.ofRecord [(elementKey, .text ['d'])]) (some [])
        [.opening description body, .closing, .opening description body] =
      [(.error (.missing classKey), some [Payload.ofBody body]),
        (.ok (Widget.closing ['d']), some [Payload.ofBody body]),
        (.error (.missing classKey), some [Payload.ofBody body, Payload.ofBody body])] := rfl

end Showcase.Event
