import ArkRoutes.Source.Grammar

namespace ArkRoutes

variable (P : String → Prop)

def Event.Fits : Event → Prop
  | .word text => P text
  | .opens name _ => P name
  | _ => True

namespace Source

def Token.Fits (t : Token) : Prop := t.shape = .word ∨ t.shape = .privateWord → P t.text

namespace Node

mutual

/-- All names in the tree have the property, except in what leaves no word: a type says nothing about
its members, and a decorator nothing about its arguments. -/
@[simp] def Fits : Node → Prop
  | name t => P t
  | privateName t => P t
  | shorthand t => P t
  | member o p => o.Fits ∧ p.Fits
  | object entries => AllFit entries
  | binding target typing value => target.Fits ∧ typing.Fits ∧ value.Fits
  | computed _ key => key.Fits
  | wrapped inner around => inner.Fits ∧ around.Fits
  | variableList bindings => AllFit bindings
  | classDecl _ n _ => P n
  | enumDecl n _ => P n
  | exported _ declaration => declaration.Fits
  | recovered parts => AllFit parts
  | form _ parts => AllFit parts
  | _ => True

def AllFit : List Node → Prop
  | [] => True
  | n :: rest => n.Fits ∧ AllFit rest

end

variable {P}

@[simp] theorem allFit_iff {nodes : List Node} : AllFit P nodes ↔ ∀ n ∈ nodes, n.Fits P := by
  induction nodes with
  | nil => simp [AllFit]
  | cons n nodes ih => simp [AllFit, ih]

theorem fits_of_decoration? {nodes : List Node} {e : Event} (h : e ∈ nodes.filterMap decoration?) : e.Fits P := by
  obtain ⟨n, -, hn⟩ := List.mem_filterMap.mp h
  unfold decoration? at hn
  split at hn <;> cases hn <;> trivial

theorem fits_typeEvents {decorators members : List Node} {name : String} (h : P name) :
    ∀ e ∈ typeEvents decorators name members, e.Fits P := by
  intro e he
  rw [typeEvents, List.cons_append, List.mem_cons, List.mem_append, List.mem_singleton] at he
  rcases he with rfl | he | rfl
  · exact h
  · exact fits_of_decoration? he
  · trivial

mutual

theorem fits_events (topLevel : Bool) : (n : Node) → n.Fits P → ∀ e ∈ n.events topLevel, e.Fits P
  | name t, h | privateName t, h | shorthand t, h => by simpa [events, Event.Fits] using h
  | numeral _, _ | string _, _ | flag _, _ => by simp [events]
  | member o p, h => by
      rw [events]
      exact List.forall_mem_append.mpr ⟨fits_events false o h.1, fits_events false p h.2⟩
  | object entries, h => fits_eventsAll false entries h
  | binding target typing value, h => by
      rw [events]
      exact List.forall_mem_append.mpr ⟨List.forall_mem_append.mpr
        ⟨fits_events false target h.1, fits_events false typing h.2.1⟩, fits_events false value h.2.2⟩
  | computed _ key, h => fits_events false key h
  | wrapped inner around, h => by
      rw [events]
      exact List.forall_mem_append.mpr ⟨fits_events false inner h.1, fits_events false around h.2⟩
  | decorator _, _ | decoratorCall _ _, _ => by simp [events, Event.Fits]
  | variableList bindings, h => by
      cases topLevel with
      | true =>
          intro e he
          obtain ⟨n, -, hn⟩ := List.mem_filterMap.mp he
          unfold constant? at hn
          split at hn <;> cases hn
          trivial
      | false => exact fits_eventsAll false bindings h
  | classDecl _ _ _, h => fits_typeEvents h
  | enumDecl _ _, h => fits_typeEvents h
  | exported outer declaration, h => by
      have ih := fits_events topLevel declaration h
      cases declaration with
      | classDecl own n members => exact fits_typeEvents h
      | _ => exact List.forall_mem_append.mpr ⟨fun e => fits_of_decoration?, ih⟩
  | importFrom names _, _ | exportFrom names _, _ => by
      rw [events]
      split <;> simp [Event.Fits]
  | exportAll _, _ => by simp [events, Event.Fits]
  | recovered parts, h => fits_eventsAll topLevel parts h
  | form _ parts, h => fits_eventsAll false parts h

theorem fits_eventsAll (topLevel : Bool) : (nodes : List Node) → AllFit P nodes →
    ∀ e ∈ eventsAll topLevel nodes, e.Fits P
  | [], _ => by simp [eventsAll]
  | n :: rest, h => by
      rw [eventsAll]
      exact List.forall_mem_append.mpr ⟨fits_events topLevel n h.1, fits_eventsAll topLevel rest h.2⟩

end

end Node

namespace Parser

variable {α β : Type} {p : Parser α} {q : α → Prop} {r : β → Prop}

def Yields (p : Parser α) (q : α → Prop) : Prop :=
  ∀ n tokens a rest, (∀ t ∈ tokens, t.Fits P) → p n tokens = some (a, rest) → q a ∧ ∀ t ∈ rest, t.Fits P

abbrev Passes (p : Parser α) : Prop := Yields P p fun _ => True

abbrev YieldsNode (p : Parser Node) : Prop := Yields P p (Node.Fits P)

abbrev YieldsNodes (p : Parser (List Node)) : Prop := Yields P p fun ns => ∀ n ∈ ns, n.Fits P

variable {P}

theorem Yields.imp (h : Yields P p q) {q' : α → Prop} (hq : ∀ a, q a → q' a) : Yields P p q' :=
  fun n tokens a rest ht ha => ⟨hq a (h n tokens a rest ht ha).1, (h n tokens a rest ht ha).2⟩

theorem Yields.passes (h : Yields P p q) : Passes P p := h.imp fun _ _ => trivial

theorem yields_pure {a : α} (h : q a) : Yields P (pure a) q := by
  rintro n tokens b rest ht ⟨⟩
  exact ⟨h, ht⟩

theorem yields_bind {f : α → Parser β} (hp : Yields P p q) (hf : ∀ a, q a → Yields P (f a) r) :
    Yields P (p >>= f) r := by
  intro n tokens b rest ht hb
  obtain ⟨⟨a, mid⟩, ha, hb⟩ := Option.bind_eq_some_iff.mp
    (hb : (p n tokens).bind (fun x => f x.1 n x.2) = some (b, rest))
  obtain ⟨hq, hm⟩ := hp n tokens a mid ht ha
  exact hf a hq n mid b rest hm hb

theorem yields_orElse {p' : Unit → Parser α} (hp : Yields P p q) (hp' : Yields P (p' ()) q) :
    Yields P (HOrElse.hOrElse p p') q := by
  intro n tokens b rest ht hb
  have hb : (p n tokens <|> p' () n tokens) = some (b, rest) := hb
  cases hr : p n tokens with
  | none =>
      rw [hr] at hb
      exact hp' n tokens b rest ht hb
  | some x =>
      rw [hr] at hb
      cases hb
      exact hp n tokens b rest ht hr

theorem yields_failure : Yields P (failure : Parser α) q := by
  rintro n tokens b rest ht ⟨⟩

theorem yields_ite {c : Prop} [Decidable c] {p' : Parser α} (hp : Yields P p q) (hp' : Yields P p' q) :
    Yields P (if c then p else p') q := by
  split
  · exact hp
  · exact hp'

theorem yields_get : Yields P (get : Parser (List Token)) fun tokens => ∀ t ∈ tokens, t.Fits P := by
  rintro n tokens b rest ht ⟨⟩
  exact ⟨ht, ht⟩

theorem yields_set {tokens : List Token} (h : ∀ t ∈ tokens, t.Fits P) : Passes P (set tokens : Parser Unit) := by
  rintro n _ b rest ht ⟨⟩
  exact ⟨trivial, h⟩

theorem yields_read : Passes P (read : Parser Nat) := by
  rintro n tokens b rest ht ⟨⟩
  exact ⟨trivial, ht⟩

/-! ### Single tokens -/

theorem yields_next : Yields P next (Token.Fits P) := by
  refine yields_bind yields_get fun tokens ht => ?_
  cases tokens with
  | nil => exact yields_failure
  | cons t rest =>
      obtain ⟨ht, hrest⟩ := List.forall_mem_cons.mp ht
      exact yields_bind (yields_set hrest) fun _ _ => yields_pure ht

theorem passes_isNext (test : Token → Bool) : Passes P (isNext test) :=
  yields_bind yields_get fun _ _ => yields_pure trivial

theorem yields_satisfying (test : Token → Bool) :
    Yields P (satisfying test) fun t => t.Fits P ∧ test t = true := by
  refine yields_bind yields_next fun t ht => ?_
  split
  next h => exact yields_pure ⟨ht, h⟩
  next => exact yields_failure

theorem passes_satisfying (test : Token → Bool) : Passes P (satisfying test) := (yields_satisfying test).passes

theorem passes_succeeds (h : Yields P p q) : Passes P (succeeds p) :=
  yields_bind yields_get fun _ ht => yields_orElse
    (yields_bind h fun _ _ => yields_bind (yields_set ht) fun _ _ => yields_pure trivial) (yields_pure trivial)

theorem passes_mark (text : String) : Passes P (mark text) :=
  yields_bind (yields_satisfying _) fun _ _ => yields_pure trivial

theorem passes_word (text : String) : Passes P (word text) :=
  yields_bind (yields_satisfying _) fun _ _ => yields_pure trivial

theorem passes_skipMark (text : String) : Passes P (skipMark text) :=
  yields_orElse (passes_mark text) (yields_pure trivial)

theorem passes_skipWord (text : String) : Passes P (skipWord text) :=
  yields_orElse (passes_word text) (yields_pure trivial)

theorem passes_sameLine : Passes P sameLine :=
  yields_bind (passes_isNext _) fun _ _ => yields_ite (yields_pure trivial) yields_failure

/-- A token that passes as a word brings a name. -/
theorem yields_text {test : Token → Bool} (ht : ∀ t, test t = true → t.shape = .word ∨ t.shape = .privateWord)
    {f : String → α} (hf : ∀ s, P s → q (f s)) : Yields P (do return f (← satisfying test).text) q :=
  yields_bind (yields_satisfying test) fun t h => yields_pure (hf _ (h.1 (ht t h.2)))

theorem isName_word {t : Token} (h : t.isName = true) : t.shape = .word ∨ t.shape = .privateWord := by
  simp only [Token.isName, Bool.and_eq_true, decide_eq_true_eq] at h
  exact .inl h.1

theorem yields_name : YieldsNode P name := yields_text (fun _ => isName_word) fun _ h => h

theorem yields_propertyName : YieldsNode P propertyName :=
  yields_text (fun _ h => .inl (by simpa using h)) fun _ h => h

theorem yields_privateName : YieldsNode P privateName :=
  yields_text (fun _ h => .inr (by simpa using h)) fun _ h => h

theorem yields_stringNode : YieldsNode P stringNode := by
  refine yields_bind yields_next fun t _ => ?_
  split
  · exact yields_pure trivial
  · exact yields_failure

theorem passes_stringText : Passes P stringText := by
  refine yields_bind yields_next fun t _ => ?_
  split
  · exact yields_pure trivial
  · exact yields_failure

/-! ### Combinations -/

theorem yields_option {p : Parser Node} (h : YieldsNode P p) : YieldsNode P (option p) :=
  yields_orElse h (yields_pure trivial)

theorem yields_repeated (h : Yields P p q) (n : Nat) : Yields P (repeated p n) fun as => ∀ a ∈ as, q a := by
  induction n with
  | zero => exact yields_pure (by simp)
  | succ n ih =>
      refine yields_orElse (yields_bind h fun a ha => yields_bind ih fun as has => yields_pure ?_)
        (yields_pure (by simp))
      exact List.forall_mem_cons.mpr ⟨ha, has⟩

theorem yields_many (h : Yields P p q) : Yields P (many p) fun as => ∀ a ∈ as, q a :=
  yields_bind yields_read fun n _ => yields_repeated h n

theorem yields_separated (h : Yields P p q) : Yields P (separated p) fun as => ∀ a ∈ as, q a := by
  refine yields_bind (q := fun as => ∀ a ∈ as, q a) (yields_orElse ?_ (yields_pure (by simp))) fun as has =>
    yields_bind (passes_skipMark _) fun _ _ => yields_pure has
  refine yields_bind h fun a ha => yields_bind (yields_many (yields_bind (passes_mark _) fun _ _ => h)) fun as has =>
    yields_pure ?_
  exact List.forall_mem_cons.mpr ⟨ha, has⟩

theorem yields_between {opening closing : String} (h : Yields P p q) : Yields P (between opening closing p) q :=
  yields_bind (passes_mark _) fun _ _ => yields_bind h fun _ ha =>
    yields_bind (passes_mark _) fun _ _ => yields_pure ha

theorem yields_spelled (h : Yields P p q) : Yields P (spelled p) fun x => q x.2 :=
  yields_bind yields_get fun _ _ => yields_bind h fun _ ha => yields_bind yields_get fun _ _ => yields_pure ha

theorem yields_form {kind : String} {parts : Parser (List Node)}
    (h : YieldsNodes P parts) : YieldsNode P (form kind parts) :=
  yields_bind h fun _ hn => yields_pure (Node.allFit_iff.mpr hn)

end Parser

end Source

end ArkRoutes
