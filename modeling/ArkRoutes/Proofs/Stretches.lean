import ArkRoutes.Proofs.TypeDecorators
import ArkRoutes.Source.Node
import Mathlib.Data.List.Basic

namespace ArkRoutes

def Event.IsPlain : Event → Prop
  | .opens _ _ => False
  | .closes => False
  | _ => True

namespace Source

structure TypeSite where
  outer : List Node
  own : List Node
  name : String
  members : List Node

namespace Node

mutual

/-- The types that a walk comes by, in their order. It does not go into a class, nor at the top level
into the values of variables. -/
def types (topLevel : Bool) : Node → List TypeSite
  | member o p => o.types false ++ p.types false
  | object entries => typesAll false entries
  | binding target typing value => target.types false ++ typing.types false ++ value.types false
  | computed _ key => key.types false
  | wrapped inner around => inner.types false ++ around.types false
  | variableList bindings => if topLevel then [] else typesAll false bindings
  | classDecl own n members => [⟨[], own, n, members⟩]
  | enumDecl n members => [⟨[], [], n, members⟩]
  | exported outer (classDecl own n members) => [⟨outer, own, n, members⟩]
  | exported _ declaration => declaration.types topLevel
  | recovered parts => typesAll topLevel parts
  | form _ parts => typesAll false parts
  | _ => []

def typesAll (topLevel : Bool) : List Node → List TypeSite
  | [] => []
  | n :: rest => n.types topLevel ++ typesAll topLevel rest

end

def decoration : Node → Option Decoration
  | decorator callee => some ⟨callee, none⟩
  | decoratorCall callee args => some ⟨callee, some (args.map expr)⟩
  | _ => none

theorem decoration?_eq (n : Node) : n.decoration? = n.decoration.map Decoration.event := by
  cases n <;> rfl

theorem filterMap_decoration? (nodes : List Node) :
    nodes.filterMap decoration? = (nodes.filterMap decoration).map Decoration.event := by
  rw [List.map_filterMap]
  exact List.filterMap_congr fun n _ => decoration?_eq n

theorem isPlain_of_decoration? {nodes : List Node} {e : Event} (h : e ∈ nodes.filterMap decoration?) : e.IsPlain := by
  rw [filterMap_decoration?] at h
  obtain ⟨d, -, rfl⟩ := List.mem_map.mp h
  trivial

theorem isPlain_of_constant? {nodes : List Node} {e : Event} (h : e ∈ nodes.filterMap constant?) : e.IsPlain := by
  obtain ⟨n, -, hn⟩ := List.mem_filterMap.mp h
  unfold constant? at hn
  split at hn
  next =>
    cases hn
    trivial
  next => cases hn

end Node

inductive Stretch where
  | plain (event : Event)
  | type (site : TypeSite)

namespace Stretch

def events : Stretch → List Event
  | plain e => [e]
  | type t =>
    .opens t.name (t.members.filterMap Node.field?) ::
      ((t.outer.filterMap Node.decoration).map Decoration.event ++
        ((t.own.filterMap Node.decoration).map Decoration.event ++ [.closes]))

def type? : Stretch → Option TypeSite
  | plain _ => none
  | type t => some t

def IsSound : Stretch → Prop
  | plain e => e.IsPlain
  | type _ => True

end Stretch

def Splits (events : List Event) (types : List TypeSite) : Prop :=
  ∃ stretches : List Stretch, events = stretches.flatMap Stretch.events ∧
    (∀ s ∈ stretches, s.IsSound) ∧ stretches.filterMap Stretch.type? = types

namespace Splits

theorem nil : Splits [] [] := ⟨[], rfl, by simp, rfl⟩

theorem append {events rest : List Event} {types more : List TypeSite} (h : Splits events types)
    (hr : Splits rest more) : Splits (events ++ rest) (types ++ more) := by
  obtain ⟨stretches, rfl, hs, rfl⟩ := h
  obtain ⟨others, rfl, ho, rfl⟩ := hr
  exact ⟨stretches ++ others, by simp, List.forall_mem_append.mpr ⟨hs, ho⟩, by simp⟩

theorem of_plain {events : List Event} (h : ∀ e ∈ events, e.IsPlain) : Splits events [] :=
  ⟨events.map .plain, by simp [List.flatMap_map, Stretch.events], by simpa [Stretch.IsSound] using h,
    by simp [List.filterMap_map, Function.comp_def, Stretch.type?]⟩

theorem single {e : Event} (h : e.IsPlain) : Splits [e] [] := of_plain (by simpa using h)

theorem of_type (outer own : List Node) (name : String) (members : List Node) :
    Splits (Node.typeEvents (outer ++ own) name members) [⟨outer, own, name, members⟩] := by
  refine ⟨[.type ⟨outer, own, name, members⟩], ?_, by simp [Stretch.IsSound], rfl⟩
  simp [Node.typeEvents, Stretch.events, Node.filterMap_decoration?]

end Splits

namespace Node

mutual

theorem splits_events (topLevel : Bool) : (n : Node) → Splits (n.events topLevel) (n.types topLevel)
  | name _ | privateName _ | shorthand _ => .single trivial
  | numeral _ | string _ | flag _ => .nil
  | decorator _ | decoratorCall _ _ | exportAll _ => .single trivial
  | member o p => (splits_events false o).append (splits_events false p)
  | object entries => splits_eventsAll false entries
  | binding target typing value =>
      ((splits_events false target).append (splits_events false typing)).append (splits_events false value)
  | computed _ key => splits_events false key
  | wrapped inner around => (splits_events false inner).append (splits_events false around)
  | variableList bindings => by
      cases topLevel with
      | true => exact .of_plain fun e => isPlain_of_constant?
      | false => exact splits_eventsAll false bindings
  | classDecl own n members => .of_type [] own n members
  | enumDecl n members => .of_type [] [] n members
  | exported outer declaration => by
      have ih := splits_events topLevel declaration
      have ho : Splits (outer.filterMap decoration?) [] := .of_plain fun e => isPlain_of_decoration?
      cases declaration with
      | classDecl own n members => exact .of_type outer own n members
      | _ => exact ho.append ih
  | importFrom names _ | exportFrom names _ => by
      rw [events]
      split
      next => exact .nil
      next => exact .single trivial
  | recovered parts => splits_eventsAll topLevel parts
  | form _ parts => splits_eventsAll false parts

theorem splits_eventsAll (topLevel : Bool) : (nodes : List Node) →
    Splits (eventsAll topLevel nodes) (typesAll topLevel nodes)
  | [] => .nil
  | n :: rest => (splits_events topLevel n).append (splits_eventsAll topLevel rest)

end

end Node

end Source

end ArkRoutes
