import ArkRoutes.Proofs.Stretches
import ArkRoutes.Source.Node.Walk

namespace ArkRoutes

namespace Source

/-! ### The walk -/

section Walk

variable {σ : Type} {take : Sink σ}

namespace Walk

variable {w : Walk σ} {events : List Event}

theorem emitAll_cons (w : Walk σ) (e : Event) (events : List Event) :
    w.emitAll take (e :: events) = (w.emit take e).emitAll take events := rfl

theorem emitAll_append (w : Walk σ) (events rest : List Event) :
    w.emitAll take (events ++ rest) = (w.emitAll take events).emitAll take rest := List.foldl_append

theorem emitAll_of_stopped (h : w.stopped = true) (events : List Event) : w.emitAll take events = w := by
  induction events with
  | nil => rfl
  | cons e events ih => rw [emitAll_cons, emit, if_pos h, ih]

/-- To go on only while the sink takes more is the same as to offer it everything. -/
theorem thenGo_eq {go : Walk σ → Walk σ} (h : ∀ w, go w = w.emitAll take events) (w : Walk σ) :
    w.thenGo go = w.emitAll take events := by
  rw [thenGo]
  split
  next hs => rw [emitAll_of_stopped hs]
  next => exact h w

theorem decorators_eq (w : Walk σ) (nodes : List Node) :
    w.decorators take nodes = w.emitAll take (nodes.filterMap Node.decoration?) := by
  induction nodes generalizing w with
  | nil => rfl
  | cons d nodes ih =>
      have hd : (d :: nodes).filterMap Node.decoration? = d.decoration?.toList ++ nodes.filterMap Node.decoration? := by
        rw [List.filterMap_cons]
        cases d.decoration? <;> rfl
      rw [decorators, hd]
      split
      next hs => rw [emitAll_of_stopped hs]
      next => rw [ih, emitAll_append]

theorem type_eq (w : Walk σ) (decorators : List Node) (name : String) (members : List Node) :
    w.type take decorators name members = w.emitAll take (Node.typeEvents decorators name members) := by
  rw [type, decorators_eq, Node.typeEvents, List.cons_append, emitAll_cons, emitAll_append]
  rfl

end Walk

namespace Node

mutual

theorem walk_eq (topLevel : Bool) : (n : Node) → (w : Walk σ) →
    n.walk take topLevel w = w.emitAll take (n.events topLevel)
  | name _, _ | privateName _, _ | shorthand _, _ | numeral _, _ | string _, _ | flag _, _ => rfl
  | decorator _, _ | decoratorCall _ _, _ | exportAll _, _ => rfl
  | member o p, w => by
      rw [walk, events, Walk.emitAll_append, walk_eq false o, Walk.thenGo_eq (walk_eq false p)]
  | object entries, w => walkAll_eq false entries w
  | binding target typing value, w => by
      rw [walk, events, Walk.emitAll_append, Walk.emitAll_append, walk_eq false target,
        Walk.thenGo_eq (walk_eq false typing), Walk.thenGo_eq (walk_eq false value)]
  | computed _ key, w => walk_eq false key w
  | wrapped inner around, w => by
      rw [walk, events, Walk.emitAll_append, walk_eq false inner, Walk.thenGo_eq (walk_eq false around)]
  | variableList bindings, w => by
      cases topLevel with
      | true => rfl
      | false => exact walkAll_eq false bindings w
  | classDecl own n members, w => Walk.type_eq w own n members
  | enumDecl n members, w => Walk.type_eq w [] n members
  | exported outer declaration, w => by
      have ih := walk_eq topLevel declaration
      cases declaration with
      | classDecl own n members => exact Walk.type_eq w (outer ++ own) n members
      | _ => exact (ih _).trans (Walk.emitAll_append w _ _).symm
  | importFrom names _, w | exportFrom names _, w => by
      rw [walk, events]
      split <;> rfl
  | recovered parts, w => walkAll_eq topLevel parts w
  | form _ parts, w => walkAll_eq false parts w

theorem walkAll_eq (topLevel : Bool) : (nodes : List Node) → (w : Walk σ) →
    walkAll take topLevel nodes w = w.emitAll take (eventsAll topLevel nodes)
  | [], _ => rfl
  | n :: rest, w => by
      rw [walkAll, eventsAll]
      split
      next hs => rw [Walk.emitAll_of_stopped hs]
      next => rw [walkAll_eq topLevel rest, walk_eq topLevel n, Walk.emitAll_append]

end

end Node

end Walk

/-- A sink that keeps what it gets has the events up to the first one with which it breaks off. -/
theorem sink_emitAll_keeping {breaks : List Event → Bool} {kept events : List Event} {k : Nat}
    (hq : ∀ j, 0 < j → j < k → breaks (kept ++ events.take j) = false)
    (hb : events.length ≤ k ∨ 0 < k ∧ breaks (kept ++ events.take k) = true) :
    ((⟨kept, false⟩ : Walk (List Event)).emitAll (Sink.keeping breaks) events).sink = kept ++ events.take k := by
  induction events generalizing kept k with
  | nil => simp [Walk.emitAll]
  | cons e events ih =>
      rw [Walk.emitAll_cons, Walk.emit, if_neg Bool.false_ne_true]
      cases k with
      | zero => simp at hb
      | succ k =>
          have hk : kept ++ (e :: events).take (k + 1) = (kept ++ [e]) ++ events.take k := by simp
          rw [hk] at hb ⊢
          rcases Nat.eq_zero_or_pos k with rfl | hpos
          · rcases hb with hb | ⟨-, hb⟩
            · obtain rfl : events = [] := List.length_eq_zero_iff.mp (by simpa using hb)
              simp [Walk.emitAll, Sink.keeping]
            · rw [List.take_zero, List.append_nil] at hb ⊢
              rw [Walk.emitAll_of_stopped (by simpa [Sink.keeping] using hb)]
              rfl
          · have hf : breaks (kept ++ [e]) = false := by simpa using hq 1 Nat.one_pos (by omega)
            simp only [Sink.keeping, hf]
            refine ih (fun j hj hjk => ?_) ?_
            · simpa using hq (j + 1) (Nat.succ_pos j) (by omega)
            · rcases hb with hb | ⟨-, hb⟩
              · exact .inl (by simpa using hb)
              · exact .inr ⟨hpos, hb⟩

/-! ### Delivered events -/

theorem delivered_eq_take {breaks : List Event → Bool} {nodes : List Node} {k : Nat}
    (hq : ∀ j, 0 < j → j < k → breaks ((Node.eventsAll true nodes).take j) = false)
    (hb : (Node.eventsAll true nodes).length ≤ k ∨ 0 < k ∧ breaks ((Node.eventsAll true nodes).take k) = true) :
    delivered breaks nodes = (Node.eventsAll true nodes).take k := by
  rw [delivered, Node.walkAll_eq]
  exact sink_emitAll_keeping hq hb

theorem delivered_unbroken (nodes : List Node) : delivered (fun _ => false) nodes = Node.eventsAll true nodes :=
  (delivered_eq_take (fun _ _ _ => rfl) (.inl (Nat.le_refl _))).trans List.take_length

/-- What a sink gets of a text are stretches, one for each type of the text among plain events. A sink
that has not broken off by then gets all of them; one that breaks off with its `k`-th event gets `k` events. -/
theorem delivered_bracketed (text : String) :
    ∃ stretches : List Stretch, (∀ s ∈ stretches, s.IsSound) ∧
      stretches.filterMap Stretch.type? = Node.typesAll true (statements text) ∧
      delivered (fun _ => false) (statements text) = stretches.flatMap Stretch.events ∧
      ∀ breaks k, (∀ j, 0 < j → j < k → breaks ((stretches.flatMap Stretch.events).take j) = false) →
        ((stretches.flatMap Stretch.events).length ≤ k ∨
          0 < k ∧ breaks ((stretches.flatMap Stretch.events).take k) = true) →
        delivered breaks (statements text) = (stretches.flatMap Stretch.events).take k := by
  obtain ⟨stretches, he, hs, ht⟩ := Node.splits_eventsAll true (statements text)
  refine ⟨stretches, hs, ht, (delivered_unbroken _).trans he, fun breaks k hq hb => ?_⟩
  rw [← he] at hb hq ⊢
  exact delivered_eq_take hq hb

def twiceDecorated : String := "import { Hall } from './hall'; @Outer() export @Own class Room extends Hall {}"

theorem twiceDecorated_delivered :
    ∃ rest, events twiceDecorated = delivered (fun kept => kept.length == 3) (statements twiceDecorated) ++ rest ∧
      rest.length = 2 := by
  obtain ⟨stretches, -, -, hall, hbroken⟩ := delivered_bracketed twiceDecorated
  have he : stretches.flatMap Stretch.events = events twiceDecorated := hall.symm.trans (delivered_unbroken _)
  have hl : (events twiceDecorated).length = 5 := by decide +kernel
  rw [he] at hbroken
  refine ⟨(events twiceDecorated).drop 3, ?_, by rw [List.length_drop, hl]⟩
  rw [hbroken (fun kept => kept.length == 3) 3 (fun j _ hj => by simp [hl]; omega)
    (.inr ⟨by decide, by simp [hl]⟩), List.take_append_drop]

end Source

end ArkRoutes
