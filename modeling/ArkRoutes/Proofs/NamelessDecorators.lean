import ArkRoutes.Proofs.Modules
import ArkRoutes.Proofs.Stages

namespace ArkRoutes

open Resolution

def Route.plain (r : Route) : Route := { r with login := false, hasParam := false, paramName := "" }

namespace Draft

def SameOptions (d d' : Draft) : Prop := d.login = d'.login ∧ d.hasParam = d'.hasParam ∧ d.paramName = d'.paramName

instance (d d' : Draft) : Decidable (d.SameOptions d') :=
  inferInstanceAs (Decidable (d.login = d'.login ∧ d.hasParam = d'.hasParam ∧ d.paramName = d'.paramName))

variable {keys : Decorator} {value : Expr → Except ResolveError Literal} {d d' : Draft}
  {properties : List (String × Expr)} {file : Path}

theorem SameOptions.set (h : d.SameOptions d') (key : String) (v : Literal) :
    (d.set keys key v).SameOptions (d'.set keys key v) := by
  obtain ⟨hl, hp, hn⟩ := h
  simp only [Draft.set]
  split_ifs <;> cases v <;> exact ⟨by simp [hl], by simp [hp], by simp [hn]⟩

theorem SameOptions.apply (h : d.SameOptions d') (properties : List (String × Expr)) :
    (d.apply keys value properties).SameOptions (d'.apply keys value properties) := by
  induction properties generalizing d d' with
  | nil => exact h
  | cons p properties ih =>
      obtain ⟨key, e⟩ := p
      rw [apply_cons, apply_cons]
      cases value e with
      | error cause => exact ih h
      | ok v => exact ih (h.set key v)

theorem eq_of_sameOptions (hc : d.component? = d'.component?) (hn : d.name? = d'.name?) (h : d.SameOptions d') :
    d = d' := by
  obtain ⟨hl, hp, ht⟩ := h
  cases d
  cases d'
  simp_all

theorem map_plain_route? (hc : d.component? = d'.component?) (hn : d.name? = d'.name?) :
    (d.route? file).map Route.plain = (d'.route? file).map Route.plain := by
  simp only [route?, ← hc, ← hn]
  cases d.name? with
  | none => rfl
  | some name =>
      cases d.component? with
      | none => rfl
      | some component =>
          dsimp only
          split_ifs <;> rfl

end Draft

namespace Event

def isNameless (w : Surroundings) (s : Scope) : Event → Bool
  | .decorator callee args => callee = w.settings.decorator.name && !Decoration.names w s ⟨callee, args⟩
  | _ => false

def withoutNameless (w : Surroundings) : Scope → List Event → List Event
  | _, [] => []
  | s, e :: rest =>
    if e.isNameless w s then withoutNameless w (s.note e) rest else e :: withoutNameless w (s.note e) rest

def namesLater (w : Surroundings) : Scope → List Event → Bool
  | _, [] => false
  | _, .opens _ _ :: _ => false
  | _, .closes :: _ => false
  | s, .decorator callee args :: rest => Decoration.names w s ⟨callee, args⟩ || namesLater w s rest
  | s, e :: rest => namesLater w (s.note e) rest

def componentLater (w : Surroundings) : (keywordSeen : Bool) → Scope → List Event → Bool
  | _, _, [] => false
  | _, _, .opens _ _ :: _ => false
  | keywordSeen, s, .decorator callee args :: rest =>
    !Decoration.names w s ⟨callee, args⟩ && componentLater w keywordSeen s rest
  | keywordSeen, s, .word text :: rest =>
    if text = w.settings.keyword then componentLater w true s rest
    else if keywordSeen then text != ""
    else componentLater w keywordSeen s rest
  | keywordSeen, s, e :: rest => componentLater w keywordSeen (s.note e) rest

end Event

namespace Collector

/-- Whether a decorator pushes no route out that would find its component, and leaves no option to a later
decorator of its type. -/
def spares (w : Surroundings) (c : Collector) (e : Event) (rest : List Event) : Bool :=
  match c.stage, (c.step w e).stage with
  | .awaiting _ keywordSeen, .idle => !Event.componentLater w keywordSeen c.scope rest
  | .declaring d, .declaring d' => !Event.namesLater w c.scope rest || d'.SameOptions d
  | _, _ => true

def undisturbed (w : Surroundings) : Collector → List Event → Bool
  | _, [] => true
  | c, e :: rest => (!e.isNameless w c.scope || c.spares w e rest) && undisturbed w (c.step w e) rest

end Collector

/-- What is pending with all decorators and without those that name no route. Without them a route may
still wait that has been pushed out, and a type may have other options; if the routes are to be exactly the
same, neither of them is ever published. -/
inductive Stage.Trails (exact : Prop) (w : Surroundings) (s : Scope) (rest : List Event) : Stage → Stage → Prop
  | idle : Trails exact w s rest .idle .idle
  | awaiting (d : Draft) (keywordSeen : Bool) :
      Trails exact w s rest (.awaiting d keywordSeen) (.awaiting d keywordSeen)
  | pushedOut (d : Draft) {keywordSeen : Bool} (h : exact → Event.componentLater w keywordSeen s rest = false) :
      Trails exact w s rest .idle (.awaiting d keywordSeen)
  | declaring {d d' : Draft} (hc : d.component? = d'.component?) (hd : d.isNamed = false) (hd' : d'.isNamed = false)
      (ho : exact → Event.namesLater w s rest = true → d.SameOptions d') :
      Trails exact w s rest (.declaring d) (.declaring d')

/-- A pair of stages behind an event that leaves both of them as they are. -/
theorem Stage.Trails.next {exact : Prop} {w : Surroundings} {s : Scope} {e : Event} {rest : List Event}
    {st st' : Stage} (h : Trails exact w s (e :: rest) st st')
    (hn : Event.namesLater w (s.note e) rest = true → Event.namesLater w s (e :: rest) = true)
    (hk : ∀ k, Event.componentLater w k (s.note e) rest = Event.componentLater w k s (e :: rest)) :
    Trails exact w (s.note e) rest st st' := by
  cases h with
  | idle => exact .idle
  | awaiting d keywordSeen => exact .awaiting d keywordSeen
  | pushedOut d hx => exact .pushedOut d fun hex => (hk _).trans (hx hex)
  | declaring hc hd hd' ho => exact .declaring hc hd hd' fun hx hl => ho hx (hn hl)

namespace Collector

structure Trailing (exact : Prop) (w : Surroundings) (rest : List Event) (c c' : Collector) : Prop where
  scope : c'.scope = c.scope
  stage : Stage.Trails exact w c.scope rest c.stage c'.stage
  routes : (c.routes.map Route.plain).Sublist (c'.routes.map Route.plain)
  same : exact → c.routes = c'.routes

variable {exact : Prop} {w : Surroundings} {events rest : List Event} {c c' : Collector} {e : Event}

theorem names_eq {callee : String} {args : Option (List Expr)} {properties : List (String × Expr)}
    (hr : routeArguments? w.settings.decorator callee args = some properties) (s : Scope) :
    Decoration.names w s ⟨callee, args⟩ =
      (lastValue (s.value w) Literal.text? w.settings.decorator.routeNameKey properties).any (· != "") := by
  rw [Decoration.names, hr]

theorem callee_of_routeArguments? {keys : Decorator} {callee : String} {args : Option (List Expr)}
    {properties : List (String × Expr)} (hr : routeArguments? keys callee args = some properties) :
    callee = keys.name := by
  simp only [routeArguments?] at hr
  split at hr
  next => split_ifs at hr with h; exact h
  next => cases hr

theorem Trailing.note (h : Trailing exact w (e :: rest) c c')
    (hn : Event.namesLater w (c.scope.note e) rest = true → Event.namesLater w c.scope (e :: rest) = true)
    (hk : ∀ k, Event.componentLater w k (c.scope.note e) rest = Event.componentLater w k c.scope (e :: rest)) :
    Trailing exact w rest { c with scope := c.scope.note e } { c' with scope := c'.scope.note e } :=
  ⟨by rw [h.scope], h.stage.next hn hk, h.routes, h.same⟩

theorem Trailing.publish {d d' : Draft} {file : Path} (h : Trailing exact w (e :: rest) c c')
    (hc : d.component? = d'.component?) (hn : d.name? = d'.name?) (ho : exact → d.SameOptions d') (s : Scope) :
    Trailing exact w rest (publish { c with scope := s } file d) (publish { c' with scope := s } file d') := by
  refine ⟨rfl, .idle, ?_, fun hx => ?_⟩
  · have hp : (d.route? file).toList.map Route.plain = (d'.route? file).toList.map Route.plain := by
      rw [← Option.toList_map, ← Option.toList_map, Draft.map_plain_route? hc hn]
    simp only [Collector.publish, List.map_append, hp]
    exact h.routes.append_right _
  · simp only [Collector.publish, h.same hx, Draft.eq_of_sameOptions hc hn (ho hx)]

theorem step_decorator {callee : String} {args : Option (List Expr)} {properties : List (String × Expr)}
    (hr : routeArguments? w.settings.decorator callee args = some properties) (c : Collector) :
    c.step w (.decorator callee args) = c.onDecorator w properties := by
  simp only [step, hr]
  rfl

theorem step_other_decorator {callee : String} {args : Option (List Expr)}
    (hr : routeArguments? w.settings.decorator callee args = none) (c : Collector) :
    c.step w (.decorator callee args) = { c with scope := c.scope.note (.decorator callee args) } := by
  simp only [step, hr]

theorem namesLater_decorator {s : Scope} {callee : String} {args : Option (List Expr)}
    (h : Decoration.names w s ⟨callee, args⟩ = false) :
    Event.namesLater w s (.decorator callee args :: rest) = true ↔ Event.namesLater w s rest = true := by
  rw [Event.namesLater, h, Bool.false_or]

theorem componentLater_decorator {s : Scope} {callee : String} {args : Option (List Expr)}
    (h : Decoration.names w s ⟨callee, args⟩ = false) (keywordSeen : Bool) :
    Event.componentLater w keywordSeen s (.decorator callee args :: rest) =
      Event.componentLater w keywordSeen s rest := by
  rw [Event.componentLater, h, Bool.not_false, Bool.true_and]

theorem Trailing.keep_decorator {callee : String} {args : Option (List Expr)}
    (h : Trailing exact w (.decorator callee args :: rest) c c')
    (he : (Event.decorator callee args).isNameless w c.scope = false) :
    Trailing exact w rest (c.step w (.decorator callee args)) (c'.step w (.decorator callee args)) := by
  cases hr : routeArguments? w.settings.decorator callee args with
  | none =>
      rw [step_other_decorator hr, step_other_decorator hr]
      have hnames : Decoration.names w c.scope ⟨callee, args⟩ = false := by rw [Decoration.names, hr]
      exact h.note (namesLater_decorator hnames).mpr (fun k => (componentLater_decorator hnames k).symm)
  | some properties =>
      rw [step_decorator hr, step_decorator hr]
      have hnames : Decoration.names w c.scope ⟨callee, args⟩ = true := by
        simpa [Event.isNameless, callee_of_routeArguments? hr] using he
      have hnamed {d : Draft} (hd : d.isNamed = false) :
          (d.apply w.settings.decorator (c.scope.value w) properties).isNamed = true := by
        rw [Draft.isNamed_apply _ _ hd, ← names_eq hr, hnames]
      have hname (d : Draft) : (d.apply w.settings.decorator (c.scope.value w) properties).name? =
          lastValue (c.scope.value w) Literal.text? w.settings.decorator.routeNameKey properties := by
        have hany := hnames
        rw [names_eq hr, Option.any_eq_true] at hany
        obtain ⟨name, hl, -⟩ := hany
        rw [Draft.name?_apply, hl, Option.some_or]
      obtain ⟨s, st, routes⟩ := c
      obtain ⟨s', st', routes'⟩ := c'
      obtain rfl : s' = s := h.scope
      cases h.stage with
      | @declaring d d' hc hd hd' ho =>
          simp only [onDecorator, hnamed hd, hnamed hd', if_true]
          refine h.publish ?_ ((hname d).trans (hname d').symm) (fun hx => (ho hx ?_).apply properties) s'
          · rw [Draft.component?_apply, Draft.component?_apply, hc]
          · rw [Event.namesLater, hnames, Bool.true_or]
      | _ =>
          simp only [onDecorator, hnamed (d := {}) rfl, if_true]
          exact ⟨rfl, .awaiting _ false, h.routes, h.same⟩

theorem Trailing.keep_word {text : String} (h : Trailing exact w (.word text :: rest) c c') :
    Trailing exact w rest (c.step w (.word text)) (c'.step w (.word text)) := by
  obtain ⟨s, st, routes⟩ := c
  obtain ⟨s', st', routes'⟩ := c'
  obtain rfl : s' = s := h.scope
  cases h.stage with
  | idle => exact ⟨rfl, .idle, h.routes, h.same⟩
  | declaring hc hd hd' ho => exact ⟨rfl, .declaring hc hd hd' ho, h.routes, h.same⟩
  | awaiting d keywordSeen =>
      simp only [step, onWord]
      split_ifs
      · exact ⟨rfl, .awaiting d true, h.routes, h.same⟩
      · exact h.publish rfl rfl (fun _ => ⟨rfl, rfl, rfl⟩) _
      · exact ⟨rfl, .awaiting d keywordSeen, h.routes, h.same⟩
  | @pushedOut d keywordSeen hx =>
      simp only [step, onWord]
      split_ifs with hw hk
      · refine ⟨rfl, .pushedOut d fun hex => ?_, h.routes, h.same⟩
        simpa [Event.componentLater, Scope.note, hw] using hx hex
      · refine ⟨rfl, .idle, h.routes.trans ?_, fun hex => ?_⟩
        · simp only [Collector.publish, List.map_append]
          exact List.sublist_append_left _ _
        · have ht : text = "" := by simpa [Event.componentLater, hw, hk] using hx hex
          have hr : Draft.route? { d with component? := some text } w.path = none := by
            cases d.name? <;> simp [Draft.route?, ht]
          simpa [Collector.publish, hr] using h.same hex
      · refine ⟨rfl, .pushedOut d fun hex => ?_, h.routes, h.same⟩
        simpa [Event.componentLater, Scope.note, hw, hk] using hx hex

theorem Trailing.keep (h : Trailing exact w (e :: rest) c c') (he : e.isNameless w c.scope = false) :
    Trailing exact w rest (c.step w e) (c'.step w e) := by
  cases e with
  | imports names source => exact h.note id fun _ => rfl
  | reexports names source => exact h.note id fun _ => rfl
  | reexportsAll source => exact h.note id fun _ => rfl
  | constant name value => exact h.note id fun _ => rfl
  | opens name fields =>
      refine ⟨?_, .declaring rfl rfl rfl fun _ _ => ⟨rfl, rfl, rfl⟩, h.routes, h.same⟩
      exact congrArg (fun s => s.note (.opens name fields)) h.scope
  | closes =>
      obtain ⟨s, st, routes⟩ := c
      obtain ⟨s', st', routes'⟩ := c'
      obtain ⟨hs, hst, hr, hsame⟩ := h
      cases hst with
      | idle => exact ⟨hs, .idle, hr, hsame⟩
      | awaiting d keywordSeen => exact ⟨hs, .awaiting d keywordSeen, hr, hsame⟩
      | pushedOut d hx => exact ⟨hs, .pushedOut d hx, hr, hsame⟩
      | declaring => exact ⟨hs, .idle, hr, hsame⟩
  | decorator callee args => exact h.keep_decorator he
  | word text => exact h.keep_word

/-- Without a decorator that names no route, the collector stays as close as it was, and if need be exact. -/
theorem Trailing.skip (h : Trailing exact w (e :: rest) c c') (he : e.isNameless w c.scope = true)
    (hx : exact → c.spares w e rest = true) : Trailing exact w rest (c.step w e) c' := by
  cases e with
  | decorator callee args =>
      have hnames : Decoration.names w c.scope ⟨callee, args⟩ = false := by
        simp only [Event.isNameless, Bool.and_eq_true, Bool.not_eq_true'] at he
        exact he.2
      have hstage := h.stage.next (namesLater_decorator hnames).mpr fun k => (componentLater_decorator hnames k).symm
      cases hr : routeArguments? w.settings.decorator callee args with
      | none =>
          rw [step_other_decorator hr]
          exact ⟨h.scope, hstage, h.routes, h.same⟩
      | some properties =>
          have hnamed {d : Draft} (hd : d.isNamed = false) :
              (d.apply w.settings.decorator (c.scope.value w) properties).isNamed = false := by
            rw [Draft.isNamed_apply _ _ hd, ← names_eq hr, hnames]
          rw [spares, step_decorator hr] at hx
          rw [step_decorator hr]
          obtain ⟨s, st, routes⟩ := c
          obtain ⟨s', st', routes'⟩ := c'
          obtain rfl : s' = s := h.scope
          cases hstage with
          | idle =>
              simp only [onDecorator, hnamed (d := {}) rfl]
              exact ⟨rfl, .idle, h.routes, h.same⟩
          | awaiting d keywordSeen =>
              simp only [onDecorator, hnamed (d := {}) rfl] at hx ⊢
              exact ⟨rfl, .pushedOut d fun hex => by simpa using hx hex, h.routes, h.same⟩
          | pushedOut d hk =>
              simp only [onDecorator, hnamed (d := {}) rfl]
              exact ⟨rfl, .pushedOut d hk, h.routes, h.same⟩
          | @declaring d d' hc hd hd' ho =>
              simp only [onDecorator, hnamed hd, Bool.false_eq_true, if_false] at hx ⊢
              refine ⟨rfl, .declaring ?_ (hnamed hd) hd' fun hex hl => ?_, h.routes, h.same⟩
              · rw [Draft.component?_apply, hc]
              · obtain ⟨hl', hp', ht'⟩ := ho hex hl
                obtain ⟨hl, hp, ht⟩ : Draft.SameOptions _ d := by simpa [hl] using hx hex
                exact ⟨hl.trans hl', hp.trans hp', ht.trans ht'⟩
  | _ => cases he

theorem Trailing.run (h : Trailing exact w events c c') (hx : exact → undisturbed w c events = true) :
    Trailing exact w [] (events.foldl (step w) c) ((Event.withoutNameless w c.scope events).foldl (step w) c') := by
  induction events generalizing c c' with
  | nil => exact h
  | cons e events ih =>
      rw [List.foldl_cons, Event.withoutNameless, ← scope_step (w := w)]
      have hx' (hex : exact) := by
        simpa only [undisturbed, Bool.and_eq_true, Bool.or_eq_true, Bool.not_eq_true'] using hx hex
      split
      next he =>
        refine ih (h.skip he fun hex => ?_) fun hex => (hx' hex).2
        exact (hx' hex).1.resolve_left (by simp [he])
      next he =>
        rw [List.foldl_cons]
        exact ih (h.keep (by simpa using he)) fun hex => (hx' hex).2

/-- Without the decorators that name no route a file has all its routes, with other options perhaps. It has
the same routes if these decorators push no route out and leave no options to a later decorator. -/
theorem run_withoutNameless (s : Settings) (t : FileTree) (chain : List Path) (path : Path) (events : List Event) :
    ((run (around s t chain path) events).routes.map Route.plain).Sublist
      ((run (around s t chain path) (Event.withoutNameless (around s t chain path) {} events)).routes.map Route.plain) ∧
    (undisturbed (around s t chain path) {} events = true →
      (run (around s t chain path) (Event.withoutNameless (around s t chain path) {} events)).routes =
        (run (around s t chain path) events).routes) := by
  have start (exact : Prop) : Trailing exact (around s t chain path) events {} {} :=
    ⟨rfl, .idle, List.Sublist.refl _, fun _ => rfl⟩
  refine ⟨((start False).run False.elim).routes, fun hu => ?_⟩
  exact (((start True).run fun _ => hu).same trivial).symm

def lonePage : Surroundings := around {} ⟨[], []⟩ [] ⟨"Page.ets"⟩

def namelessAlone : List Event :=
  [.decorator "AppRouter" (some [.object [("name", .name "MISSING")]]), .word "struct", .word "Lost", .opens "Home" [],
    .decorator "AppRouter" (some [.object [("name", .name "MISSING")]]),
    .decorator "AppRouter" (some [.object [("name", .literal (.text "home"))]]), .closes]

theorem namelessAlone_routes :
    (Event.withoutNameless lonePage {} namelessAlone).length = 5 ∧
      (run lonePage namelessAlone).routes = [⟨"home", "Home", ⟨"Page.ets"⟩, false, false, "routerParam"⟩] ∧
      (run lonePage (Event.withoutNameless lonePage {} namelessAlone)).routes = (run lonePage namelessAlone).routes :=
  ⟨by decide +kernel, by decide +kernel,
    (run_withoutNameless {} ⟨[], []⟩ [] ⟨"Page.ets"⟩ namelessAlone).2 (by decide +kernel)⟩

def optionsFirst : List Event :=
  [.opens "Home" [], .decorator "AppRouter" (some [.object [("login", .literal (.flag true))]]),
    .decorator "AppRouter" (some [.object [("name", .literal (.text "home"))]]), .closes]

def namelessBehind : List Event :=
  [.decorator "AppRouter" (some [.object [("name", .literal (.text "home"))]]),
    .decorator "AppRouter" (some [.object [("name", .name "MISSING")]]), .word "struct", .word "Home"]

/-- In a type a decorator without a name gives its options away; ahead of a keyword it gives none, but takes
the route of the decorator ahead of it. -/
theorem nameless_leave_traces :
    ((run lonePage optionsFirst).routes = [⟨"home", "Home", ⟨"Page.ets"⟩, true, false, "routerParam"⟩] ∧
      (run lonePage (Event.withoutNameless lonePage {} optionsFirst)).routes =
        [⟨"home", "Home", ⟨"Page.ets"⟩, false, false, "routerParam"⟩]) ∧
    ((run lonePage namelessBehind).routes = [] ∧
      (run lonePage (Event.withoutNameless lonePage {} namelessBehind)).routes =
        [⟨"home", "Home", ⟨"Page.ets"⟩, false, false, "routerParam"⟩]) := by
  decide +kernel

end Collector

end ArkRoutes
