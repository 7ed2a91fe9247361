import ArkRoutes.Collector
import Mathlib.Tactic.SplitIfs

namespace ArkRoutes

variable {α : Type}

def lastValue (value : Expr → Except ResolveError Literal) (kind : Literal → Option α) (key : String)
    (properties : List (String × Expr)) : Option α :=
  properties.reverse.findSome? fun p => if p.1 = key then (value p.2).toOption.bind kind else none

namespace Decorator

def KeysDiffer (keys : Decorator) : Prop :=
  [keys.routeNameKey, keys.loginKey, keys.hasParamKey, keys.paramNameKey].Nodup

instance (keys : Decorator) : Decidable keys.KeysDiffer := inferInstanceAs (Decidable (List.Nodup _))

end Decorator

section

variable {value : Expr → Except ResolveError Literal} {kind : Literal → Option α} {key : String} {k : String}
  {e : Expr} {properties : List (String × Expr)}

@[simp] theorem lastValue_nil : lastValue value kind key [] = none := rfl

theorem lastValue_cons : lastValue value kind key ((k, e) :: properties) =
    (lastValue value kind key properties).or
      (if k = key then (value e).toOption.bind kind else none) := by
  simp [lastValue, List.findSome?_append]

theorem lastValue_cons_error {cause : ResolveError} (h : value e = .error cause) :
    lastValue value kind key ((k, e) :: properties) = lastValue value kind key properties := by
  simp [lastValue_cons, h, Except.toOption]

theorem lastValue_cons_of_ne (h : k ≠ key) :
    lastValue value kind key ((k, e) :: properties) = lastValue value kind key properties := by
  simp [lastValue_cons, h]

theorem lastValue_cons_of_eq {v : Literal} (h : value e = .ok v) :
    lastValue value kind key ((key, e) :: properties) = (lastValue value kind key properties).or (kind v) := by
  simp [lastValue_cons, h, Except.toOption]

end

namespace Draft

variable (keys : Decorator) (value : Expr → Except ResolveError Literal)

def filled (d : Draft) (properties : List (String × Expr)) : Draft where
  component? := d.component?
  name? := (lastValue value Literal.text? keys.routeNameKey properties).or d.name?
  login := (lastValue value Literal.flag? keys.loginKey properties).getD d.login
  hasParam := (lastValue value Literal.flag? keys.hasParamKey properties).getD d.hasParam
  paramName := (lastValue value Literal.text? keys.paramNameKey properties).getD d.paramName

variable {keys value}

theorem filled_set (h : keys.KeysDiffer) {d : Draft} {k : String} {e : Expr} {v : Literal} (hv : value e = .ok v)
    (properties : List (String × Expr)) :
    (d.set keys k v).filled keys value properties = d.filled keys value ((k, e) :: properties) := by
  simp only [Decorator.KeysDiffer, List.nodup_cons, List.mem_cons, List.not_mem_nil, or_false, not_or] at h
  obtain ⟨⟨h12, h13, h14⟩, ⟨h23, h24⟩, h34, -⟩ := h
  by_cases h1 : k = keys.routeNameKey
  · subst h1
    cases v <;> simp [set, filled, lastValue_cons_of_eq hv, lastValue_cons_of_ne, h12, h13, h14, Literal.text?]
  by_cases h2 : k = keys.loginKey
  · subst h2
    cases v <;>
      simp [set, filled, lastValue_cons_of_eq hv, lastValue_cons_of_ne, h1, h23, h24, Literal.flag?]
  by_cases h3 : k = keys.hasParamKey
  · subst h3
    cases v <;>
      simp [set, filled, lastValue_cons_of_eq hv, lastValue_cons_of_ne, h1, h2, h34, Literal.flag?]
  by_cases h4 : k = keys.paramNameKey
  · subst h4
    cases v <;>
      simp [set, filled, lastValue_cons_of_eq hv, lastValue_cons_of_ne, h1, h2, h3, Literal.text?]
  · simp [set, filled, lastValue_cons_of_ne, h1, h2, h3, h4]

theorem apply_eq_filled (h : keys.KeysDiffer) (d : Draft) (properties : List (String × Expr)) :
    d.apply keys value properties = d.filled keys value properties := by
  induction properties generalizing d with
  | nil => simp [apply, filled]
  | cons p properties ih =>
      obtain ⟨k, e⟩ := p
      cases hv : value e with
      | error cause =>
          have hd : d.apply keys value ((k, e) :: properties) = d.apply keys value properties := by
            simp [apply, hv]
          rw [hd, ih]
          simp only [filled, lastValue_cons_error hv]
      | ok v =>
          have hd : d.apply keys value ((k, e) :: properties) = (d.set keys k v).apply keys value properties := by
            simp [apply, hv]
          rw [hd, ih, filled_set h hv]

theorem name?_set (d : Draft) (key : String) (v : Literal) :
    (d.set keys key v).name? = (if key = keys.routeNameKey then v.text? else none).or d.name? := by
  by_cases h : key = keys.routeNameKey
  · cases v <;> simp [set, h, Literal.text?]
  · simp only [set, h, if_false, Option.none_or]
    split_ifs <;> cases v <;> rfl

theorem component?_set (d : Draft) (key : String) (v : Literal) :
    (d.set keys key v).component? = d.component? := by
  simp only [set]
  split_ifs <;> cases v <;> rfl

theorem apply_cons (d : Draft) (key : String) (e : Expr) (properties : List (String × Expr)) :
    d.apply keys value ((key, e) :: properties) =
      (match value e with
        | .ok v => d.set keys key v
        | .error _ => d).apply keys value properties := rfl

theorem apply_congr {value' : Expr → Except ResolveError Literal} (d : Draft) {properties : List (String × Expr)}
    (h : ∀ p ∈ properties, (value p.2).toOption = (value' p.2).toOption) :
    d.apply keys value properties = d.apply keys value' properties := by
  induction properties generalizing d with
  | nil => rfl
  | cons p properties ih =>
      obtain ⟨key, e⟩ := p
      have he : (value e).toOption = (value' e).toOption := h (key, e) (by simp)
      rw [apply_cons, apply_cons, ih _ (fun p hp => h p (by simp [hp]))]
      congr 1
      cases hv : value e <;> cases hv' : value' e <;> simp_all [Except.toOption]

/-- The last text under the route's key is the name, whatever the other keys are. -/
theorem name?_apply (d : Draft) (properties : List (String × Expr)) :
    (d.apply keys value properties).name? =
      (lastValue value Literal.text? keys.routeNameKey properties).or d.name? := by
  induction properties generalizing d with
  | nil => rfl
  | cons p properties ih =>
      obtain ⟨key, e⟩ := p
      rw [apply_cons, ih, lastValue_cons, Option.or_assoc]
      congr 1
      cases value e with
      | error cause => simp [Except.toOption]
      | ok v =>
          rw [name?_set]
          rfl

variable (keys value) in
theorem component?_apply (d : Draft) (properties : List (String × Expr)) :
    (d.apply keys value properties).component? = d.component? := by
  induction properties generalizing d with
  | nil => rfl
  | cons p properties ih =>
      obtain ⟨key, e⟩ := p
      rw [apply_cons, ih]
      cases value e with
      | error cause => rfl
      | ok v => exact component?_set d key v

variable (keys value) in
theorem isNamed_apply {d : Draft} (hd : d.isNamed = false) (properties : List (String × Expr)) :
    (d.apply keys value properties).isNamed =
      (lastValue value Literal.text? keys.routeNameKey properties).any (· != "") := by
  rw [isNamed, name?_apply]
  cases lastValue value Literal.text? keys.routeNameKey properties with
  | none => exact hd
  | some name => rfl

theorem component_of_route? {d : Draft} {file : Path} {r : Route} {name : String} (h : d.route? file = some r)
    (hc : d.component? = some name) : r.component = name := by
  simp only [route?, hc] at h
  split at h
  next =>
    split at h
    next => cases h
    next hn =>
      cases h
      simp_all
  next => cases h

end Draft

end ArkRoutes
