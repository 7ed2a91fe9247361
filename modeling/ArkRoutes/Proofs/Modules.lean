import ArkRoutes.Proofs.Arguments
import ArkRoutes.Proofs.Search

namespace ArkRoutes

theorem toOption_bind {ε α β : Type} (x : Except ε α) (f : α → Except ε β) :
    (x >>= f).toOption = x.toOption.bind fun a => (f a).toOption := by
  cases x <;> rfl

theorem toOption_eq_cases {ε α : Type} {x y : Except ε α} (h : x.toOption = y.toOption) :
    (∃ a, x = .ok a ∧ y = .ok a) ∨ ∃ cause cause', x = .error cause ∧ y = .error cause' := by
  cases x with
  | ok a =>
      cases y with
      | ok b => exact .inl ⟨a, rfl, congrArg Except.ok (Option.some.inj h).symm⟩
      | error cause => cases h
  | error cause =>
      cases y with
      | ok b => cases h
      | error cause' => exact .inr ⟨cause, cause', rfl, rfl⟩

theorem findSome?_congr {α β : Type} {f g : α → Option β} {l : List α} (h : ∀ a ∈ l, f a = g a) :
    l.findSome? f = l.findSome? g := by
  induction l with
  | nil => rfl
  | cons a l ih =>
      rw [List.findSome?_cons, List.findSome?_cons, h a (by simp), ih (fun a ha => h a (by simp [ha]))]

def Event.specifiers : Event → List String
  | .imports _ source => [source]
  | .reexports _ source => [source]
  | .reexportsAll source => [source]
  | _ => []

def specifiersOf (events : List Event) : List String := events.flatMap Event.specifiers

section Specifiers

variable {events : List Event}

theorem specifier_of_imported {b : ImportBinding} (h : b ∈ events.flatMap Event.imported) :
    b.specifier ∈ specifiersOf events := by
  obtain ⟨e, he, hb⟩ := List.mem_flatMap.mp h
  refine List.mem_flatMap.mpr ⟨e, he, ?_⟩
  cases e with
  | imports names source =>
      obtain ⟨n, -, rfl⟩ := List.mem_map.mp hb
      simp [Event.specifiers]
  | _ => simp [Event.imported] at hb

end Specifiers

namespace Surroundings

def module? (w : Surroundings) (specifier : String) : Option (Bool × (Query → Option Literal)) :=
  (w.locate specifier).toOption.map fun l => (l.isEntry, fun q => (w.ask l.path q).toOption)

def answer? (w : Surroundings) (specifier : String) (q : Bool → Query) : Option Literal :=
  (w.module? specifier).bind fun m => m.2 (q m.1)

variable {w w' : Surroundings}

theorem toOption_locate_bind (w : Surroundings) (x : String) (q : Bool → Query) :
    ((w.locate x).bind fun l => w.ask l.path (q l.isEntry)).toOption = w.answer? x q := by
  simp only [answer?, module?]
  cases w.locate x <;> rfl

theorem toOption_imported (w : Surroundings) (b : Bindings) (r : Reference) :
    (w.imported b r).toOption = (b.import? r.subject).bind fun binding =>
      (binding.name.query r).toOption.bind fun q =>
        w.answer? binding.specifier fun entry => { q with indexed := entry } := by
  simp only [imported]
  cases b.import? r.subject with
  | none => rfl
  | some binding =>
      rw [toOption_bind, Option.bind_some]
      congr 1
      funext q
      exact w.toOption_locate_bind binding.specifier fun entry => { q with indexed := entry }

/-- The same settings and the same answers for some events. Whether a module is there at all shows
only where names of it are passed on, since there an entry file stops. -/
structure Alike (events : List Event) (w w' : Surroundings) : Prop where
  settings : w.settings = w'.settings
  answers : ∀ x ∈ specifiersOf events, w.answer? x = w'.answer? x
  modules : ∀ names x, .reexports names x ∈ events → w.module? x = w'.module? x

namespace Alike

variable {events : List Event}

theorem of_modules (hs : w.settings = w'.settings) (h : ∀ x ∈ specifiersOf events, w.module? x = w'.module? x) :
    Alike events w w' where
  settings := hs
  answers x hx := by
    funext q
    rw [answer?, answer?, h x hx]
  modules names x hx := h x (List.mem_flatMap.mpr ⟨_, hx, by simp [Event.specifiers]⟩)

theorem refl (events : List Event) (w : Surroundings) : Alike events w w := of_modules rfl fun _ _ => rfl

theorem symm (h : Alike events w w') : Alike events w' w :=
  ⟨h.settings.symm, fun x hx => (h.answers x hx).symm, fun names x hx => (h.modules names x hx).symm⟩

theorem mono {fewer : List Event} (h : Alike events w w') (hf : fewer ⊆ events) : Alike fewer w w' where
  settings := h.settings
  answers x hx := by
    obtain ⟨e, he, hx⟩ := List.mem_flatMap.mp hx
    exact h.answers x (List.mem_flatMap.mpr ⟨e, hf he, hx⟩)
  modules names x hx := h.modules names x (hf hx)

end Alike

end Surroundings

open Surroundings (Alike)

namespace Scope

variable {w w' : Surroundings} {seen : List Event}

theorem toOption_member (s : Scope) (path path' : Path) (object member : String) :
    (s.member path object member).toOption = (s.member path' object member).toOption := by
  simp only [Scope.member]
  split
  next fields _ => cases fields.lookup member <;> rfl
  next =>
    split
    next properties _ => cases Expr.property? properties member <;> rfl
    next => rfl
    next => rfl

theorem toOption_imported_alike (h : Alike seen w w') (r : Reference) :
    (w.imported (after seen).bindings r).toOption = (w'.imported (after seen).bindings r).toOption := by
  rw [Surroundings.toOption_imported, Surroundings.toOption_imported]
  cases hb : (after seen).bindings.import? r.subject with
  | none => rfl
  | some binding =>
      have hx := h.answers _ (specifier_of_imported (import?_after.mp hb).mem)
      rw [Option.bind_some, Option.bind_some, hx]

theorem toOption_evaluate_alike (h : Alike seen w w') (steps : Nat) (e : Expr) :
    ((after seen).evaluate w steps e).toOption = ((after seen).evaluate w' steps e).toOption := by
  induction steps generalizing e with
  | zero => rfl
  | succ steps ih =>
      cases e with
      | name x =>
          simp only [evaluate]
          split
          next => exact toOption_imported_alike h _
          next =>
            rw [toOption_bind, toOption_bind]
            simp only [ih]
      | member o m =>
          simp only [evaluate]
          split
          next => exact toOption_imported_alike h _
          next =>
            rw [toOption_bind, toOption_bind, toOption_member _ w.path w'.path]
            simp only [ih]
      | _ => rfl

theorem toOption_value_alike (h : Alike seen w w') (e : Expr) :
    ((after seen).value w e).toOption = ((after seen).value w' e).toOption := by
  rw [value, value, h.settings]
  exact toOption_evaluate_alike h _ e

end Scope

namespace Query

variable {w w' : Surroundings} {q : Query} {events : List Event}

theorem toOption_follow_wholesale {b : Bindings} (hr : b.redirect? q.owner = none) :
    (q.follow w b none).toOption = b.wholesale.findSome? fun x => w.answer? x (q.redirected q.owner) := by
  have ha (x : String) : w.answer? x (q.redirected q.owner) =
      (w.locate x).toOption.bind fun l => (w.ask l.path (q.redirected q.owner l.isEntry)).toOption := by
    rw [← w.toOption_locate_bind x (q.redirected q.owner)]
    exact toOption_bind _ _
  simp only [follow, hr, ha]
  split
  next v hv => exact hv.symm
  next hn => exact hn.symm

theorem toOption_follow_redirect {b : Bindings} {r : Redirect} (hr : b.redirect? q.owner = some r) :
    (q.follow w b none).toOption = w.answer? r.specifier (q.redirected r.original) := by
  rw [follow_redirect hr, ← w.toOption_locate_bind]

end Query

namespace Module

variable (s : Settings) (t : FileTree) (keys : Decorator) (d : Nat)

theorem exactFile?_settings : exactFile? { s with decorator := keys, depthLimit := d } t = exactFile? s t := rfl

theorem entryIn?_settings : entryIn? { s with decorator := keys, depthLimit := d } t = entryIn? s t := rfl

theorem inPackage?_settings : inPackage? { s with decorator := keys, depthLimit := d } t = inPackage? s t := by
  funext directory subpath
  simp only [inPackage?, entryFile?, mainFile?, probe, exactFile?_settings, entryIn?_settings]

theorem packageDirectory_settings :
    packageDirectory { s with decorator := keys, depthLimit := d } t = packageDirectory s t := by
  funext start package
  simp only [packageDirectory, manifestDirectory?, dependencyDirectory]
  rfl

/-- Modules are found without a look at the decorator and at the limit. -/
theorem locate_settings : locate { s with decorator := keys, depthLimit := d } t = locate s t := by
  funext start specifier
  simp only [locate, candidate?, probe, inStores?, exactFile?_settings, entryIn?_settings, inPackage?_settings,
    packageDirectory_settings]

end Module

theorem Draft.map_route? (d : Draft) (file file' : Path) :
    (d.route? file).toList.map ({ · with file := file' }) = (d.route? file').toList := by
  simp only [route?]
  split
  next => split <;> rfl
  next => rfl

namespace Collector

variable {w w' : Surroundings}

def moved (file : Path) (c : Collector) : Collector := { c with routes := c.routes.map ({ · with file := file }) }

theorem moved_publish (c : Collector) (file file' : Path) (d : Draft) :
    (c.publish file d).moved file' = (c.moved file').publish file' d := by
  simp [moved, publish, ← d.map_route? file file']

theorem moved_onDecorator {seen : List Event} (h : Alike seen w w') {c : Collector} (hc : c.scope = Scope.after seen)
    (properties : List (String × Expr)) :
    (c.onDecorator w properties).moved w'.path = (c.moved w'.path).onDecorator w' properties := by
  have ha (d : Draft) : d.apply w.settings.decorator (c.scope.value w) properties =
      d.apply w'.settings.decorator (c.scope.value w') properties := by
    rw [h.settings, hc]
    exact d.apply_congr fun p _ => Scope.toOption_value_alike h p.2
  simp only [onDecorator, ha]
  cases hs : c.stage with
  | declaring draft =>
      simp only [moved, hs]
      split
      next => exact moved_publish c w.path w'.path _
      next => rfl
  | _ => simp only [moved, hs]

theorem moved_onWord (hs : w.settings = w'.settings) (c : Collector) (word : String) :
    (c.onWord w word).moved w'.path = (c.moved w'.path).onWord w' word := by
  simp only [onWord, hs]
  cases hc : c.stage with
  | awaiting d keywordSeen =>
      simp only [moved, hc]
      split
      next => rfl
      next =>
        split
        next => exact moved_publish c w.path w'.path _
        next => simp [hc]
  | _ => simp only [moved, hc]

theorem moved_onClose (c : Collector) (file : Path) : c.onClose.moved file = (c.moved file).onClose := by
  simp only [onClose]
  cases hc : c.stage <;> simp only [moved, hc]

theorem moved_step {seen : List Event} (h : Alike seen w w') {c : Collector} (hc : c.scope = Scope.after seen)
    (e : Event) : (step w c e).moved w'.path = step w' (c.moved w'.path) e := by
  cases e with
  | decorator callee args =>
      simp only [step, h.settings, Scope.note]
      split
      next => exact moved_onDecorator h hc _
      next => rfl
  | word text => exact moved_onWord h.settings _ text
  | closes => exact moved_onClose _ _
  | _ => rfl

theorem scope_step (c : Collector) (e : Event) : (step w c e).scope = c.scope.note e := by
  cases e with
  | closes =>
      simp only [step, onClose]
      split <;> rfl
  | decorator callee args =>
      simp only [step, onDecorator]
      split
      next =>
        split
        next => split <;> rfl
        next => rfl
      next => rfl
  | word text =>
      simp only [step, onWord]
      split
      next =>
        split
        next => rfl
        next => split <;> rfl
      next => rfl
  | _ => rfl

theorem moved_foldl {events : List Event} (seen : List Event) (h : Alike (seen ++ events) w w') {c : Collector}
    (hc : c.scope = Scope.after seen) :
    (events.foldl (step w) c).moved w'.path = events.foldl (step w') (c.moved w'.path) := by
  induction events generalizing seen c with
  | nil => rfl
  | cons e events ih =>
      rw [List.foldl_cons, List.foldl_cons, ← moved_step (h.mono (List.subset_append_left _ _)) hc]
      refine ih (seen ++ [e]) (by simpa using h) ?_
      rw [scope_step, hc, Scope.after_concat]

/-- Surroundings that look alike give the same routes, up to the file that they are found in. -/
theorem routes_run_alike {events : List Event} (h : Alike events w w') :
    (run w' events).routes = (run w events).routes.map ({ · with file := w'.path }) :=
  congrArg Collector.routes (moved_foldl (c := {}) [] h rfl).symm

end Collector

end ArkRoutes
