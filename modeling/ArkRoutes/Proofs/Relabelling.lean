import ArkRoutes.Proofs.Modules
import Mathlib.Logic.Embedding.Basic

namespace ArkRoutes

open Resolution

/-! ### Other words -/

def Decorator.relabel (f k : String → String) (keys : Decorator) : Decorator :=
  ⟨f keys.name, k keys.routeNameKey, k keys.loginKey, k keys.hasParamKey, k keys.paramNameKey⟩

def Settings.relabel (f k : String → String) (s : Settings) : Settings :=
  { s with decorator := s.decorator.relabel f k }

def relabelKeys (k : String → String) (properties : List (String × Expr)) : List (String × Expr) :=
  properties.map fun p => (k p.1, p.2)

/-- The keys of the object itself, not those of objects in it. -/
def Expr.relabel (k : String → String) : Expr → Expr
  | .object properties => .object (relabelKeys k properties)
  | e => e

def Event.relabel (f k : String → String) : Event → Event
  | .decorator callee args => .decorator (f callee) (args.map (·.modifyHead (·.relabel k)))
  | e => e

variable {f k : String → String}

theorem Draft.set_relabel (hk : Function.Injective k) (keys : Decorator) (d : Draft) (key : String) (v : Literal) :
    d.set (keys.relabel f k) (k key) v = d.set keys key v := by
  simp only [set, Decorator.relabel, hk.eq_iff]

theorem Draft.apply_relabel (hk : Function.Injective k) (keys : Decorator) (value : Expr → Except ResolveError Literal)
    (d : Draft) (properties : List (String × Expr)) :
    d.apply (keys.relabel f k) value (relabelKeys k properties) = d.apply keys value properties := by
  simp only [apply, relabelKeys, List.foldl_map, set_relabel hk]

theorem Collector.routeArguments?_relabel (hf : Function.Injective f) (keys : Decorator) (callee : String)
    (args : Option (List Expr)) :
    routeArguments? (keys.relabel f k) (f callee) (args.map (·.modifyHead (·.relabel k))) =
      (routeArguments? keys callee args).map (relabelKeys k) := by
  cases args with
  | none => rfl
  | some args =>
      cases args with
      | nil => rfl
      | cons e args =>
          cases e with
          | object properties =>
              simp only [routeArguments?, Option.map_some, List.modifyHead_cons, Expr.relabel, Decorator.relabel,
                hf.eq_iff]
              split <;> rfl
          | _ => rfl

/-! ### What does not depend on the words -/

def Surroundings.marked (w : Surroundings) (keys : Decorator) : Surroundings :=
  { w with settings := { w.settings with decorator := keys } }

@[simp] theorem Surroundings.decorator_marked (w : Surroundings) (keys : Decorator) :
    (w.marked keys).settings.decorator = keys := rfl

section Marked

variable (w : Surroundings) (keys : Decorator)

theorem Scope.evaluate_marked (c : Scope) (steps : Nat) (e : Expr) :
    c.evaluate (w.marked keys) steps e = c.evaluate w steps e := by
  induction steps generalizing e with
  | zero => rfl
  | succ steps ih =>
      cases e with
      | name x | member o m =>
          simp only [evaluate, ih]
          rfl
      | _ => rfl

theorem Scope.value_marked (c : Scope) : c.value (w.marked keys) = c.value w :=
  funext fun e => c.evaluate_marked w keys _ e

theorem Query.answer?_marked (q : Query) (c : Scope) (event : Event) :
    q.answer? (w.marked keys) c event = q.answer? w c event := by
  cases event with
  | reexports names source => rfl
  | _ => simp only [answer?, Scope.value_marked]

theorem Query.search_marked (q : Query) (c : Scope) (events : List Event) :
    q.search (w.marked keys) c events = q.search w c events := by
  induction events generalizing c with
  | nil => rfl
  | cons event events ih => simp only [search, answer?_marked, ih]

theorem Query.answerFrom_marked (q : Query) (events : List Event) :
    q.answerFrom (w.marked keys) events = q.answerFrom w events := by
  rw [answerFrom, search_marked]
  rfl

end Marked

namespace Resolution

variable (s : Settings) (t : FileTree) (keys : Decorator)

theorem surroundings_marked (path : Path) (ask : Path → Query → Except ResolveError Literal) :
    surroundings { s with decorator := keys } t path ask = (surroundings s t path ask).marked keys := by
  simp only [surroundings, Module.locate_settings s t keys s.depthLimit]
  rfl

/-- What a module answers does not depend on how routes are declared. -/
theorem resolve_marked (depth : Nat) : resolve { s with decorator := keys } t depth = resolve s t depth := by
  induction depth with
  | zero => rfl
  | succ depth ih =>
      funext chain path q
      rw [resolve, resolve, ih, surroundings_marked]
      split
      next => rfl
      next =>
        split
        next => rfl
        next events _ => exact Query.answerFrom_marked _ keys q events

theorem around_marked (chain : List Path) (path : Path) :
    around { s with decorator := keys } t chain path = (around s t chain path).marked keys := by
  have hq : query { s with decorator := keys } t chain = query s t chain := by
    funext path q
    rw [query, resolve_marked]
    rfl
  rw [around, hq, surroundings_marked]
  rfl

end Resolution

/-! ### Routes -/

namespace Collector

variable {w : Surroundings}

theorem onDecorator_relabel (hk : Function.Injective k) (c : Collector) (properties : List (String × Expr)) :
    c.onDecorator (w.marked (w.settings.decorator.relabel f k)) (relabelKeys k properties) =
      c.onDecorator w properties := by
  have ha (d : Draft) : d.apply (w.settings.decorator.relabel f k)
      (c.scope.value (w.marked (w.settings.decorator.relabel f k))) (relabelKeys k properties) =
      d.apply w.settings.decorator (c.scope.value w) properties := by
    rw [Scope.value_marked, Draft.apply_relabel hk]
  simp only [onDecorator, Surroundings.decorator_marked, ha]
  rfl

theorem step_relabel (hf : Function.Injective f) (hk : Function.Injective k) (c : Collector) (event : Event) :
    step (w.marked (w.settings.decorator.relabel f k)) c (event.relabel f k) = step w c event := by
  cases event with
  | decorator callee args =>
      have hr := routeArguments?_relabel (k := k) hf w.settings.decorator callee args
      simp only [step, Event.relabel, Surroundings.decorator_marked, hr]
      cases routeArguments? w.settings.decorator callee args with
      | none => rfl
      | some properties => exact onDecorator_relabel hk _ properties
  | _ => rfl

theorem run_relabel (hf : Function.Injective f) (hk : Function.Injective k) (w : Surroundings) (events : List Event) :
    run (w.marked (w.settings.decorator.relabel f k)) (events.map (Event.relabel f k)) = run w events := by
  simp only [run, List.foldl_map, step_relabel hf hk]

/-- The name of the decorator and the keys of its arguments can be any words that differ where the old ones do. -/
theorem routes_relabel (f k : String ↪ String) (s : Settings) (t : FileTree) (chain : List Path) (path : Path)
    (events : List Event) :
    (run (around (s.relabel f k) t chain path) (events.map (Event.relabel f k))).routes =
      (run (around s t chain path) events).routes := by
  rw [Settings.relabel, around_marked]
  exact congrArg Collector.routes (run_relabel f.injective k.injective (around s t chain path) events)

/-- Where two keys fall together, an argument that said nothing takes the place of another. -/
example :
    let page : List Event :=
      [.decorator "AppRouter" (some [.object [("name", .literal (.text "home")), ("title", .literal (.text "Home"))]]),
        .word "struct", .word "Home"]
    let k (key : String) := if key = "title" then "name" else key
    (run (around {} ⟨[], []⟩ [] ⟨"/Home.ets"⟩) page).routes.map Route.name = ["home"] ∧
      (run (around (Settings.relabel id k {}) ⟨[], []⟩ [] ⟨"/Home.ets"⟩) (page.map (Event.relabel id k))).routes.map
        Route.name = ["Home"] := by
  decide +kernel

end Collector

end ArkRoutes
