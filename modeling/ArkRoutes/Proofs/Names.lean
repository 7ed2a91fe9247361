import ArkRoutes.Proofs.EntryFile
import ArkRoutes.Proofs.References

namespace ArkRoutes

namespace Expr

mutual

/-- Keys and the names of members are not names in this sense. -/
def mentions : Expr → List String
  | .literal _ => []
  | .name x => [x]
  | .member o _ => [o]
  | .object properties => mentionsOf properties
  | .other _ => []

def mentionsOf : List (String × Expr) → List String
  | [] => []
  | (_, e) :: properties => mentions e ++ mentionsOf properties

end

theorem mentions_subset {key : String} {e : Expr} {properties : List (String × Expr)} (h : (key, e) ∈ properties) :
    e.mentions ⊆ mentionsOf properties := by
  induction properties with
  | nil => cases h
  | cons p properties ih =>
      obtain ⟨k, i⟩ := p
      intro x hx
      rw [mentionsOf, List.mem_append]
      rcases List.mem_cons.mp h with h | h
      · cases h
        exact .inl hx
      · exact .inr (ih h hx)

@[simp] theorem mentions_expr (r : Reference) : r.expr.mentions = [r.subject] := by
  cases r <;> rfl

end Expr

namespace Event

def introduced (e : Event) : List String := e.imported.map (·.name.localName) ++ e.declared?.toList

def initializers : Event → List Expr
  | .constant _ value => [value]
  | .opens _ fields => fields.map (·.2)
  | _ => []

theorem declared?_of_constant? {e : Event} {p : String × Expr} (h : e.constant? = some p) :
    e.declared? = some p.1 := by
  cases e <;> cases h
  rfl

theorem declared?_of_type? {e : Event} {p : String × List (String × Expr)} (h : e.type? = some p) :
    e.declared? = some p.1 := by
  cases e <;> cases h
  rfl

/-- What answers a question is part of an initializer. -/
theorem mentions_of_declares {q : Query} {event : Event} {e : Expr} (h : q.Declares event e) :
    ∃ i ∈ event.initializers, e.mentions ⊆ i.mentions := by
  cases h with
  | constant h => exact ⟨e, by simp [initializers], fun _ h => h⟩
  | property h hp =>
      refine ⟨_, List.mem_singleton.mpr rfl, ?_⟩
      rw [Expr.mentions]
      exact Expr.mentions_subset hp.mem
  | field h hf =>
      refine ⟨e, ?_, fun _ h => h⟩
      obtain ⟨before, after, rfl, -⟩ := List.lookup_eq_some_iff.mp hf
      simp [initializers]

end Event

def introducedBy (events : List Event) : List String := events.flatMap Event.introduced

@[simp] theorem introducedBy_append (events events' : List Event) :
    introducedBy (events ++ events') = introducedBy events ++ introducedBy events' := List.flatMap_append

theorem mem_introducedBy_of_imported {events : List Event} {b : ImportBinding}
    (h : b ∈ events.flatMap Event.imported) : b.name.localName ∈ introducedBy events := by
  obtain ⟨e, he, hb⟩ := List.mem_flatMap.mp h
  exact List.mem_flatMap.mpr ⟨e, he, List.mem_append_left _ (List.mem_map_of_mem hb)⟩

theorem mem_introducedBy_of_declared {events : List Event} {x : String}
    (h : x ∈ events.filterMap Event.declared?) : x ∈ introducedBy events := by
  obtain ⟨e, he, hx⟩ := List.mem_filterMap.mp h
  exact List.mem_flatMap.mpr ⟨e, he, List.mem_append_right _ (by simp [hx])⟩

/-- `f` gives the entries of one kind of declaration. -/
theorem lookup_eq_none_of_not_declared {β : Type} {events : List Event} {f : Event → Option (String × β)}
    (hf : ∀ {e p}, f e = some p → e.declared? = some p.1) {x : String} (h : x ∉ events.filterMap Event.declared?) :
    (events.filterMap f).reverse.lookup x = none := by
  rw [List.lookup_eq_none_iff]
  intro p hp
  obtain ⟨e, he, hp⟩ := List.mem_filterMap.mp (List.mem_reverse.mp hp)
  rw [bne_iff_ne]
  rintro rfl
  exact h (List.mem_filterMap.mpr ⟨e, he, hf hp⟩)

namespace Scope

variable {s s' : Scope} {w : Surroundings} {x : String}

structure AgreeAt (s s' : Scope) (x : String) : Prop where
  imports : s.bindings.import? x = s'.bindings.import? x
  constants : s.constants.lookup x = s'.constants.lookup x
  types : s.types.lookup x = s'.types.lookup x

theorem AgreeAt.initializer {r : Reference} (h : AgreeAt s s' r.subject) (path : Path) :
    s.initializer path r = s'.initializer path r := by
  cases r with
  | name x =>
      have hc : s.constants.lookup x = s'.constants.lookup x := h.constants
      simp only [Scope.initializer, constant, hc]
  | member o m =>
      have ht : s.types.lookup o = s'.types.lookup o := h.types
      have hc : s.constants.lookup o = s'.constants.lookup o := h.constants
      simp only [Scope.initializer, member, ht, hc]

theorem AgreeAt.imported {r : Reference} (h : AgreeAt s s' r.subject) :
    w.imported s.bindings r = w.imported s'.bindings r := by
  simp only [Surroundings.imported, h.imports]

def Closed (s : Scope) (path : Path) (names : List String) : Prop :=
  ∀ r e, r.subject ∈ names → s.initializer path r = .ok e → e.mentions ⊆ names

theorem evaluate_congr {names : List String} (hc : s.Closed w.path names) (ha : ∀ x ∈ names, AgreeAt s s' x)
    {steps : Nat} {e : Expr} (he : e.mentions ⊆ names) : s.evaluate w steps e = s'.evaluate w steps e := by
  induction steps generalizing e with
  | zero => rfl
  | succ steps ih =>
      cases hr : e.reference? with
      | none => rw [evaluate_plain hr, evaluate_plain hr]
      | some r =>
          rw [Expr.eq_expr_of_reference? hr] at he ⊢
          have hx : r.subject ∈ names := he (by simp)
          cases hi : s.bindings.import? r.subject with
          | some b =>
              rw [evaluate_imported (by simp [hi]), evaluate_imported (by simp [← (ha _ hx).imports, hi]),
                (ha _ hx).imported]
          | none =>
              rw [evaluate_declared hi, evaluate_declared (by rw [← (ha _ hx).imports, hi]),
                ← (ha _ hx).initializer]
              cases hd : s.initializer w.path r with
              | error cause => rfl
              | ok i => exact ih (hc r i hx hd)

/-- Later events do not change what a name stands for unless they introduce it. -/
theorem agreeAt_append (seen : List Event) {rest : List Event} (h : x ∉ introducedBy rest) :
    AgreeAt (after seen) (after (seen ++ rest)) x := by
  have hs : after (seen ++ rest) = rest.foldl note (after seen) := by rw [after, List.foldl_append, ← after]
  have hd : x ∉ rest.filterMap Event.declared? := fun hx => h (mem_introducedBy_of_declared hx)
  constructor
  · have hi : (rest.flatMap Event.imported).reverse.find? (fun b => b.name.localName == x) = none := by
      rw [List.find?_eq_none]
      intro b hb
      rw [beq_iff_eq]
      rintro rfl
      exact h (mem_introducedBy_of_imported (List.mem_reverse.mp hb))
    rw [hs, Bindings.import?, Bindings.import?, imports_foldl, List.find?_append, hi, Option.none_or]
  · rw [hs, constants_foldl, List.lookup_append, lookup_eq_none_of_not_declared Event.declared?_of_constant? hd,
      Option.none_or]
  · rw [hs, types_foldl, List.lookup_append, lookup_eq_none_of_not_declared Event.declared?_of_type? hd,
      Option.none_or]

end Scope

end ArkRoutes
