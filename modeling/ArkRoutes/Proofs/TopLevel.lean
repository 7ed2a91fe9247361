import ArkRoutes.Proofs.Delivery
import ArkRoutes.Proofs.Orderly

namespace ArkRoutes

def Event.isConstant : Event → Bool
  | .constant _ _ => true
  | _ => false

namespace Source

/-! ### Declarators -/

/-- What a list of variables stands in: a node in which the parser recovered, the declaration of an
export, or anything else. -/
inductive Around where
  | recovered
  | exported
  | other
deriving DecidableEq

def Around.areTopLevel : List Around → Bool
  | .exported :: around => around.all (· = .recovered)
  | around => around.all (· = .recovered)

structure Declarator where
  around : List Around
  node : Node

def Declarator.isTopLevel (d : Declarator) : Bool := Around.areTopLevel d.around

namespace Node

mutual

def declarators (around : List Around) : Node → List Declarator
  | member o p => o.declarators (.other :: around) ++ p.declarators (.other :: around)
  | object entries => declaratorsAll (.other :: around) entries
  | binding target typing value =>
    target.declarators (.other :: around) ++ typing.declarators (.other :: around) ++
      value.declarators (.other :: around)
  | computed _ key => key.declarators (.other :: around)
  | wrapped inner type => inner.declarators (.other :: around) ++ type.declarators (.other :: around)
  | decoratorCall _ args => declaratorsAll (.other :: around) args
  | variableList bindings => declaratorsListed around bindings
  | classDecl decorators _ members =>
    declaratorsAll (.other :: around) decorators ++ declaratorsAll (.other :: around) members
  | enumDecl _ members => declaratorsAll (.other :: around) members
  | exported decorators declaration =>
    declaratorsAll (.other :: around) decorators ++ declaration.declarators (.exported :: around)
  | recovered parts => declaratorsAll (.recovered :: around) parts
  | form _ parts => declaratorsAll (.other :: around) parts
  | _ => []

def declaratorsAll (around : List Around) : List Node → List Declarator
  | [] => []
  | n :: rest => n.declarators around ++ declaratorsAll around rest

/-- Those of a list of variables: each of its own, and behind it those within. -/
def declaratorsListed (around : List Around) : List Node → List Declarator
  | [] => []
  | n :: rest => ⟨around, n⟩ :: n.declarators (.other :: around) ++ declaratorsListed around rest

end

def constantsOf (declarators : List Declarator) : List Event :=
  (declarators.filter Declarator.isTopLevel).filterMap (·.node.constant?)

theorem constantsOf_nil : constantsOf [] = [] := rfl

theorem constantsOf_append (ds es : List Declarator) : constantsOf (ds ++ es) = constantsOf ds ++ constantsOf es := by
  simp [constantsOf]

theorem constantsOf_singleton {around : List Around} (h : Around.areTopLevel around = true) (n : Node) :
    constantsOf [⟨around, n⟩] = n.constant?.toList := by
  rw [constantsOf, List.filter_cons_of_pos (by exact h), List.filter_nil, List.filterMap_cons]
  cases n.constant? <;> rfl

theorem areTopLevel_of_other {around : List Around} (h : .other ∈ around) : Around.areTopLevel around = false := by
  unfold Around.areTopLevel
  split
  next nearer =>
    exact List.all_eq_false.mpr ⟨.other, by simpa using h, by decide⟩
  next => exact List.all_eq_false.mpr ⟨.other, h, by decide⟩

theorem areTopLevel_of_recovered {around : List Around} (h : ∀ a ∈ around, a = .recovered) :
    Around.areTopLevel around = true := by
  unfold Around.areTopLevel
  split
  next => cases h .exported (by simp)
  next => simpa using h

mutual

/-- Below anything else the top level does not come back. -/
theorem constantsOf_below {around : List Around} (h : .other ∈ around) :
    (n : Node) → constantsOf (n.declarators around) = []
  | name _ | privateName _ | shorthand _ | numeral _ | string _ | flag _ => rfl
  | decorator _ | importFrom _ _ | exportFrom _ _ | exportAll _ => rfl
  | member o p => by
      rw [declarators, constantsOf_append, constantsOf_below (by simp) o, constantsOf_below (by simp) p,
        List.nil_append]
  | object entries => constantsOf_belowAll (by simp) entries
  | binding target typing value => by
      rw [declarators, constantsOf_append, constantsOf_append, constantsOf_below (by simp) target,
        constantsOf_below (by simp) typing, constantsOf_below (by simp) value, List.nil_append, List.nil_append]
  | computed _ key => constantsOf_below (by simp) key
  | wrapped inner type => by
      rw [declarators, constantsOf_append, constantsOf_below (by simp) inner, constantsOf_below (by simp) type,
        List.nil_append]
  | decoratorCall _ args => constantsOf_belowAll (by simp) args
  | variableList bindings => constantsOf_belowListed h bindings
  | classDecl decorators _ members => by
      rw [declarators, constantsOf_append, constantsOf_belowAll (by simp) decorators,
        constantsOf_belowAll (by simp) members, List.nil_append]
  | enumDecl _ members => constantsOf_belowAll (by simp) members
  | exported decorators declaration => by
      rw [declarators, constantsOf_append, constantsOf_belowAll (by simp) decorators,
        constantsOf_below (.tail _ h) declaration, List.nil_append]
  | recovered parts => constantsOf_belowAll (.tail _ h) parts
  | form _ parts => constantsOf_belowAll (by simp) parts

theorem constantsOf_belowAll {around : List Around} (h : .other ∈ around) :
    (nodes : List Node) → constantsOf (declaratorsAll around nodes) = []
  | [] => rfl
  | n :: rest => by
      rw [declaratorsAll, constantsOf_append, constantsOf_below h n, constantsOf_belowAll h rest, List.nil_append]

theorem constantsOf_belowListed {around : List Around} (h : .other ∈ around) :
    (nodes : List Node) → constantsOf (declaratorsListed around nodes) = []
  | [] => rfl
  | n :: rest => by
      have hn : constantsOf [⟨around, n⟩] = [] := by
        simp [constantsOf, Declarator.isTopLevel, areTopLevel_of_other h]
      rw [declaratorsListed, List.cons_append, ← List.singleton_append, constantsOf_append, hn, constantsOf_append,
        constantsOf_below (.tail _ h) n, constantsOf_belowListed h rest, List.nil_append, List.nil_append]

end

theorem constantsOf_listed {around : List Around} (h : Around.areTopLevel around = true) (bindings : List Node) :
    constantsOf (declaratorsListed around bindings) = bindings.filterMap constant? := by
  induction bindings with
  | nil => rfl
  | cons n bindings ih =>
      rw [declaratorsListed, List.cons_append, ← List.singleton_append, constantsOf_append, constantsOf_append,
        constantsOf_singleton h, constantsOf_below (by simp), ih, List.filterMap_cons]
      cases n.constant? <;> rfl

/-! ### Constants among events -/

theorem isConstant_of_constant? {nodes : List Node} {e : Event} (h : e ∈ nodes.filterMap constant?) :
    e.isConstant = true := by
  obtain ⟨n, -, hn⟩ := List.mem_filterMap.mp h
  unfold constant? at hn
  split at hn <;> cases hn
  rfl

theorem constants_decorations (nodes : List Node) : (nodes.filterMap decoration?).filter Event.isConstant = [] := by
  refine List.filter_eq_nil_iff.mpr fun e he => ?_
  obtain ⟨n, -, hn⟩ := List.mem_filterMap.mp he
  unfold decoration? at hn
  split at hn <;> cases hn <;> simp [Event.isConstant]

theorem constants_typeEvents (decorators : List Node) (name : String) (members : List Node) :
    (typeEvents decorators name members).filter Event.isConstant = [] := by
  simp [typeEvents, constants_decorations, Event.isConstant]

mutual

/-- Below the top level there are no constants. -/
theorem constants_events_false : (n : Node) → (n.events false).filter Event.isConstant = []
  | name _ | privateName _ | shorthand _ | numeral _ | string _ | flag _ => rfl
  | decorator _ | decoratorCall _ _ | exportAll _ => rfl
  | member o p => by simp [events, constants_events_false o, constants_events_false p]
  | object entries => constants_eventsAll_false entries
  | binding target typing value => by
      simp [events, constants_events_false target, constants_events_false typing, constants_events_false value]
  | computed _ key => constants_events_false key
  | wrapped inner type => by simp [events, constants_events_false inner, constants_events_false type]
  | variableList bindings => constants_eventsAll_false bindings
  | classDecl own n members => constants_typeEvents own n members
  | enumDecl n members => constants_typeEvents [] n members
  | exported outer declaration => by
      have ih := constants_events_false declaration
      cases declaration with
      | classDecl own n members => exact constants_typeEvents (outer ++ own) n members
      | _ => exact (List.filter_append ..).trans (by rw [constants_decorations, ih, List.append_nil])
  | importFrom names _ | exportFrom names _ => by
      rw [events]
      split <;> rfl
  | recovered parts | form _ parts => constants_eventsAll_false parts

theorem constants_eventsAll_false : (nodes : List Node) → (eventsAll false nodes).filter Event.isConstant = []
  | [] => rfl
  | n :: rest => by simp [eventsAll, constants_events_false n, constants_eventsAll_false rest]

end

/-! ### Trees of texts -/

theorem constants_ordinary {n : Node} {around : List Around} (hn : n.IsOrdinary)
    (ha : Around.areTopLevel around = true) :
    (n.events true).filter Event.isConstant = constantsOf (n.declarators around) := by
  have he := constants_events_false n
  cases n with
  | variableList bindings =>
      rw [declarators, constantsOf_listed ha]
      exact List.filter_eq_self.mpr fun e he => isConstant_of_constant? he
  | recovered | exported => cases hn
  | _ =>
      refine Eq.trans he ?_
      simp [declarators, constantsOf_append, constantsOf_below, constantsOf_belowAll, constantsOf_nil]

theorem constants_export {outer : List Node} {declaration : Node} {around : List Around}
    (hn : declaration.IsOrdinary) (ha : ∀ a ∈ around, a = .recovered) :
    ((exported outer declaration).events true).filter Event.isConstant =
      constantsOf ((exported outer declaration).declarators around) := by
  have hd : constantsOf (declaratorsAll (.other :: around) outer) = [] := constantsOf_belowAll (by simp) outer
  have ha' : Around.areTopLevel (.exported :: around) = true := by simpa [Around.areTopLevel] using ha
  have ih := constants_ordinary hn ha'
  rw [declarators, constantsOf_append, hd, List.nil_append, ← ih]
  cases declaration with
  | classDecl own n members =>
      exact (constants_typeEvents (outer ++ own) n members).trans (constants_typeEvents own n members).symm
  | _ => exact (List.filter_append ..).trans (by rw [constants_decorations, List.nil_append])

mutual

theorem constants_events {around : List Around} (ha : ∀ a ∈ around, a = .recovered) (n : Node) (h : n.IsOrderly) :
    (n.events true).filter Event.isConstant = constantsOf (n.declarators around) := by
  cases n with
  | recovered parts => exact constants_eventsAll (by simpa using ha) parts h
  | exported outer declaration => exact constants_export h ha
  | _ => exact constants_ordinary trivial (areTopLevel_of_recovered ha)

theorem constants_eventsAll {around : List Around} (ha : ∀ a ∈ around, a = .recovered) :
    (nodes : List Node) → AllOrderly nodes →
      (eventsAll true nodes).filter Event.isConstant = constantsOf (declaratorsAll around nodes)
  | [], _ => rfl
  | n :: rest, h => by
      rw [eventsAll, declaratorsAll, List.filter_append, constantsOf_append, constants_events ha n h.1,
        constants_eventsAll ha rest h.2]

end

end Node

/-- The constants of a tree are its declarators at the top level that declare a plain name, in their
order. What it takes for that of a tree, every text has. -/
theorem constants_at_top_level :
    (∀ nodes, Node.AllOrderly nodes →
      (delivered (fun _ => false) nodes).filter Event.isConstant =
        Node.constantsOf (Node.declaratorsAll [] nodes)) ∧
      ∀ text, Node.AllOrderly (statements text) := by
  refine ⟨fun nodes h => ?_, orderly_statements⟩
  rw [delivered_unbroken]
  exact Node.constants_eventsAll (by simp) nodes h

def scatteredVariables : List Node :=
  let list (name : String) (value : Node) : Node := .variableList [.binding (.name name) .nothing value]
  [.recovered [.exported [] (list "EXPORTED" (.flag true))],
    .exported [] (.form "function" [.form "block" [list "INNER" (.flag true)]]),
    list "PLAIN" (.form "arrow_function" [.form "block" [list "WITHIN" (.flag true)]])]

theorem scatteredVariables_constants :
    (delivered (fun _ => false) scatteredVariables).filter Event.isConstant =
      [.constant "EXPORTED" (.literal (.flag true)), .constant "PLAIN" (.other "arrow_function")] :=
  constants_at_top_level.1 scatteredVariables ⟨⟨trivial, trivial⟩, trivial, trivial, trivial⟩

end Source

end ArkRoutes
