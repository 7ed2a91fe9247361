import ArkRoutes.Proofs.TypeDecorators
import Mathlib.Data.List.Induction
import Mathlib.Order.Fin.Basic

namespace ArkRoutes

def Stage.IsSound : Stage → Prop
  | idle => True
  | awaiting draft _ => draft.isNamed = true ∧ draft.component? = none
  | declaring draft => draft.component?.isSome = true ∧ draft.isNamed = false

/-- At position `i` stands a route decorator whose last text under the route's key is `name`, where the
tables are those of the events before it. -/
def NamedAt (w : Surroundings) (events : List Event) (i : Nat) (name : String) : Prop :=
  ∃ callee args properties, events[i]? = some (.decorator callee args) ∧
    Collector.routeArguments? w.settings.decorator callee args = some properties ∧
    lastValue ((Scope.after (events.take i)).value w) Literal.text? w.settings.decorator.routeNameKey properties =
      some name

variable {w : Surroundings} {seen : List Event} {i : Nat} {name : String}

theorem NamedAt.lt (h : NamedAt w seen i name) : i < seen.length := by
  obtain ⟨_, _, _, he, -⟩ := h
  exact (List.getElem?_eq_some_iff.mp he).1

theorem NamedAt.append (h : NamedAt w seen i name) (events : List Event) : NamedAt w (seen ++ events) i name := by
  have hi := h.lt
  obtain ⟨callee, args, properties, he, hr, hn⟩ := h
  refine ⟨callee, args, properties, ?_, hr, ?_⟩
  · rw [List.getElem?_append_left hi, he]
  · rw [List.take_append_of_le_length hi.le]
    exact hn

theorem namedAt_concat {callee : String} {args : Option (List Expr)} {properties : List (String × Expr)}
    (hr : Collector.routeArguments? w.settings.decorator callee args = some properties)
    (hn : lastValue ((Scope.after seen).value w) Literal.text? w.settings.decorator.routeNameKey properties =
      some name) : NamedAt w (seen ++ [.decorator callee args]) seen.length name := by
  refine ⟨callee, args, properties, by simp, hr, ?_⟩
  rw [List.take_left]
  exact hn

namespace Draft

theorem of_route? {d : Draft} {file : Path} {r : Route} (h : d.route? file = some r) :
    d.name? = some r.name ∧ r.name ≠ "" ∧ r.component ≠ "" ∧ r.file = file := by
  simp only [route?] at h
  split at h
  next name component hname hcomponent =>
    split at h
    next => cases h
    next hne =>
      obtain ⟨hn, hc⟩ := not_or.mp (by simpa using hne)
      cases h
      exact ⟨hname, hn, hc, rfl⟩
  next => cases h

theorem name_of_apply {keys : Decorator} {value : Expr → Except ResolveError Literal} {d : Draft}
    (hd : d.isNamed = false) {properties : List (String × Expr)}
    (h : (d.apply keys value properties).isNamed = true) :
    ∃ name, name ≠ "" ∧ (d.apply keys value properties).name? = some name ∧
      lastValue value Literal.text? keys.routeNameKey properties = some name := by
  rw [isNamed_apply keys value hd] at h
  cases hl : lastValue value Literal.text? keys.routeNameKey properties with
  | none => simp [hl] at h
  | some name =>
      have hn : name ≠ "" := by simpa [hl] using h
      exact ⟨name, hn, by rw [name?_apply, hl, Option.some_or], rfl⟩

end Draft

/-- Every route is credited to a decorator that has named it, the routes in the order of their decorators. -/
structure Credited (w : Surroundings) (seen : List Event) (credits : List Credit) : Prop where
  named : ∀ c ∈ credits, NamedAt w seen c.decorator c.route.name
  whole : ∀ c ∈ credits, c.route.name ≠ "" ∧ c.route.component ≠ "" ∧ c.route.file = w.path
  increasing : credits.Pairwise fun c d => c.decorator < d.decorator

/-- A decorator that waits for its component stands behind those that have got theirs. -/
def Pending.IsTidy (w : Surroundings) (seen : List Event) (credits : List Credit) : Pending → Prop
  | idle => True
  | awaiting draft _ decorator => draft.component? = none ∧ (∀ c ∈ credits, c.decorator < decorator) ∧
      ∃ name, name ≠ "" ∧ draft.name? = some name ∧ NamedAt w seen decorator name
  | declaring draft _ => draft.component?.isSome = true ∧ draft.isNamed = false

theorem Pending.IsTidy.stage {credits : List Credit} {pending : Pending} (h : pending.IsTidy w seen credits) :
    pending.stage.IsSound := by
  cases pending with
  | idle => trivial
  | declaring draft component => exact h
  | awaiting draft keywordSeen decorator =>
      obtain ⟨hc, -, name, hne, hn, -⟩ := h
      exact ⟨by simp [Draft.isNamed, hn, hne], hc⟩

namespace Ledger

structure IsTidy (w : Surroundings) (seen : List Event) (l : Ledger) : Prop where
  scope : l.scope = Scope.after seen
  credited : Credited w seen l.credits
  pending : l.pending.IsTidy w seen l.credits

variable {l : Ledger} {credits : List Credit}

theorem credited_append (h : Credited w seen credits) (events : List Event) :
    Credited w (seen ++ events) credits :=
  ⟨fun c hc => (h.named c hc).append events, h.whole, h.increasing⟩

theorem pending_append {pending : Pending} (h : pending.IsTidy w seen credits) (events : List Event) :
    pending.IsTidy w (seen ++ events) credits := by
  cases pending with
  | awaiting draft keywordSeen decorator =>
      obtain ⟨hc, hb, name, hne, hn, ha⟩ := h
      exact ⟨hc, hb, name, hne, hn, ha.append events⟩
  | _ => exact h

/-- A draft that was named behind all earlier routes is published behind them. -/
theorem credited_publish {d : Draft} {decorator : Nat} (component : Nat) (h : Credited w seen l.credits)
    (hb : ∀ c ∈ l.credits, c.decorator < decorator) (hn : d.name? = some name) (ha : NamedAt w seen decorator name) :
    Credited w seen (l.publish w.path d decorator component).credits := by
  have hnew : ∀ c ∈ ((d.route? w.path).map fun r => (⟨r, decorator, component⟩ : Credit)).toList,
      c.decorator = decorator ∧ c.route.name = name ∧ c.route.name ≠ "" ∧ c.route.component ≠ "" ∧
        c.route.file = w.path := by
    intro c hc
    obtain ⟨r, hr, rfl⟩ := Option.map_eq_some_iff.mp (Option.mem_toList.mp hc)
    obtain ⟨hname, hwhole⟩ := Draft.of_route? hr
    exact ⟨rfl, Option.some.inj (hname.symm.trans hn), hwhole⟩
  refine ⟨?_, ?_, ?_⟩
  · intro c hc
    rcases List.mem_append.mp hc with hc | hc
    · exact h.named c hc
    · obtain ⟨hd, hname, -⟩ := hnew c hc
      rwa [hd, hname]
  · intro c hc
    rcases List.mem_append.mp hc with hc | hc
    · exact h.whole c hc
    · exact (hnew c hc).2.2
  · refine List.pairwise_append.mpr ⟨h.increasing, ?_, ?_⟩
    · cases d.route? w.path <;> simp
    · intro c hc c' hc'
      rw [(hnew c' hc').1]
      exact hb c hc

theorem tidy_onDecorator {callee : String} {args : Option (List Expr)} {properties : List (String × Expr)}
    (h : l.IsTidy w seen) (hr : Collector.routeArguments? w.settings.decorator callee args = some properties) :
    (l.onDecorator w seen.length properties).IsTidy w (seen ++ [.decorator callee args]) := by
  have hcredited := credited_append h.credited [.decorator callee args]
  have hbehind : ∀ c ∈ l.credits, c.decorator < seen.length := fun c hc => (h.credited.named c hc).lt
  have hscope : l.scope = Scope.after (seen ++ [.decorator callee args]) := by
    rw [h.scope, Scope.after_concat]
    rfl
  -- A draft that is named now has its name from this decorator.
  have hnamed {d : Draft} (hd : d.isNamed = false)
      (ha : (d.apply w.settings.decorator (l.scope.value w) properties).isNamed = true) :
      ∃ name, name ≠ "" ∧ (d.apply w.settings.decorator (l.scope.value w) properties).name? = some name ∧
        NamedAt w (seen ++ [.decorator callee args]) seen.length name := by
    obtain ⟨name, hne, hn, hl⟩ := Draft.name_of_apply hd ha
    rw [h.scope] at hl
    exact ⟨name, hne, hn, namedAt_concat hr hl⟩
  obtain ⟨s, pending, credits⟩ := l
  cases pending with
  | declaring draft component =>
      obtain ⟨hc, hd⟩ := h.pending
      simp only [onDecorator]
      split
      next ha =>
        obtain ⟨name, -, hn, hat⟩ := hnamed hd ha
        exact ⟨hscope, credited_publish component hcredited hbehind hn hat, trivial⟩
      next ha =>
        refine ⟨hscope, hcredited, ?_, by simpa using ha⟩
        rw [Draft.component?_apply]
        exact hc
  | _ =>
      simp only [onDecorator]
      split
      next ha =>
        obtain ⟨name, hne, hn, hat⟩ := hnamed rfl ha
        exact ⟨hscope, hcredited, Draft.component?_apply _ _ _ _, hbehind, name, hne, hn, hat⟩
      next => exact ⟨hscope, hcredited, trivial⟩

theorem tidy_onWord (h : l.IsTidy w seen) (position : Nat) (word : String) :
    (l.onWord w position word).IsTidy w (seen ++ [.word word]) := by
  have hcredited := credited_append h.credited [.word word]
  have hpending := pending_append h.pending [.word word]
  have hscope : l.scope = Scope.after (seen ++ [.word word]) := by
    rw [h.scope, Scope.after_concat]
    rfl
  obtain ⟨s, pending, credits⟩ := l
  cases pending with
  | awaiting draft keywordSeen decorator =>
      obtain ⟨hc, hb, name, hne, hn, hat⟩ := hpending
      simp only [onWord]
      split_ifs
      · exact ⟨hscope, hcredited, hc, hb, name, hne, hn, hat⟩
      · exact ⟨hscope, credited_publish position hcredited hb hn hat, trivial⟩
      · exact ⟨hscope, hcredited, hc, hb, name, hne, hn, hat⟩
  | _ => exact ⟨hscope, hcredited, hpending⟩

theorem tidy_step (h : l.IsTidy w seen) (e : Event) : (step w l (e, seen.length)).IsTidy w (seen ++ [e]) := by
  have hcredited := credited_append h.credited [e]
  have hpending := pending_append h.pending [e]
  have hscope : l.scope.note e = Scope.after (seen ++ [e]) := by rw [h.scope, Scope.after_concat]
  cases e with
  | opens name fields => exact ⟨hscope, hcredited, rfl, rfl⟩
  | closes =>
      obtain ⟨s, pending, credits⟩ := l
      cases pending with
      | declaring draft component => exact ⟨hscope, hcredited, trivial⟩
      | _ => exact ⟨hscope, hcredited, hpending⟩
  | decorator callee args =>
      simp only [step]
      cases hr : Collector.routeArguments? w.settings.decorator callee args with
      | none => exact ⟨hscope, hcredited, hpending⟩
      | some properties => exact tidy_onDecorator h hr
  | word text => exact tidy_onWord h _ text
  | _ => exact ⟨hscope, hcredited, hpending⟩

theorem tidy_run (w : Surroundings) (events : List Event) : (run w events).IsTidy w events := by
  induction events using List.reverseRecOn with
  | nil => exact ⟨rfl, ⟨by simp [run], by simp [run], by simp [run]⟩, trivial⟩
  | append_singleton events e ih =>
      rw [run_append]
      exact tidy_step ih e

end Ledger

namespace Collector

theorem routes_publish (c : Collector) (file : Path) (d : Draft) :
    (c.publish file d).routes = c.routes ++ (d.route? file).toList := rfl

/-- An event publishes one route at most, behind those that are there. -/
theorem routes_step (c : Collector) (e : Event) :
    ∃ new : Option Route, (step w c e).routes = c.routes ++ new.toList := by
  have hnone : ∃ new : Option Route, c.routes = c.routes ++ new.toList := ⟨none, by simp⟩
  cases e with
  | closes =>
      simp only [step, onClose]
      split <;> exact hnone
  | decorator callee args =>
      simp only [step]
      split
      next =>
        simp only [onDecorator]
        split
        next =>
          split
          next => exact ⟨_, routes_publish _ _ _⟩
          next => exact hnone
        next => exact hnone
      next => exact hnone
  | word text =>
      simp only [step, onWord]
      split
      next =>
        split_ifs
        · exact hnone
        · exact ⟨_, routes_publish _ _ _⟩
        · exact hnone
      next => exact hnone
  | _ => exact hnone

theorem stage_run_isSound (w : Surroundings) (events : List Event) : (run w events).stage.IsSound := by
  rw [← Ledger.collector_run]
  exact (Ledger.tidy_run w events).pending.stage

theorem whole_of_mem_run {events : List Event} {r : Route} (h : r ∈ (run w events).routes) :
    r.name ≠ "" ∧ r.component ≠ "" ∧ r.file = w.path := by
  rw [← Ledger.collector_run] at h
  obtain ⟨c, hc, rfl⟩ := List.mem_map.mp h
  exact (Ledger.tidy_run w events).credited.whole c hc

/-- The routes belong to different decorators, each of which has named its route, and have the order of
their decorators. -/
theorem exists_position (w : Surroundings) (events : List Event) :
    ∃ position : Fin (run w events).routes.length → Fin events.length, StrictMono position ∧
      ∀ k, NamedAt w events (position k) ((run w events).routes.get k).name := by
  have htidy := Ledger.tidy_run w events
  rw [← Ledger.collector_run]
  have hlen (k : Fin (Ledger.run w events).collector.routes.length) : k.val < (Ledger.run w events).credits.length := by
    simpa [Ledger.collector] using k.isLt
  refine ⟨fun k => ⟨((Ledger.run w events).credits.get ⟨k, hlen k⟩).decorator,
    (htidy.credited.named _ (List.get_mem _ _)).lt⟩, ?_, ?_⟩
  · intro j k hjk
    exact List.pairwise_iff_getElem.mp htidy.credited.increasing j k (hlen j) (hlen k) hjk
  · intro k
    have hroute : (Ledger.run w events).collector.routes.get k =
        ((Ledger.run w events).credits.get ⟨k, hlen k⟩).route := List.getElem_map Credit.route
    rw [hroute]
    exact htidy.credited.named _ (List.get_mem _ _)

end Collector

end ArkRoutes
