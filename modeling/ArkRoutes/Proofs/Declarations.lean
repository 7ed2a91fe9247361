import ArkRoutes.Proofs.Arguments
import ArkRoutes.Proofs.Tables
import ArkRoutes.Resolution

namespace ArkRoutes

structure Decoration where
  callee : String
  args : Option (List Expr)

namespace Decoration

def event (d : Decoration) : Event := .decorator d.callee d.args

def recognised (keys : Decorator) (decorations : List Decoration) : List (List (String × Expr)) :=
  decorations.filterMap fun d => Collector.routeArguments? keys d.callee d.args

end Decoration

inductive Segment where
  | stray (event : Event)
  | typed (name : String) (fields : List (String × Expr)) (decorations : List Decoration)
  | keyworded (decorations : List Decoration) (words : List String) (name : String)

/-- Events that stand for themselves: neither bounds of a type nor a route decorator with its object. -/
def Event.IsStray (keys : Decorator) : Event → Prop
  | .opens _ _ => False
  | .closes => False
  | .decorator callee args => Collector.routeArguments? keys callee args = none
  | _ => True

namespace Segment

def events (keyword : String) : Segment → List Event
  | stray event => [event]
  | typed name fields decorations =>
    .opens name fields :: (decorations.map Decoration.event ++ [.closes])
  | keyworded decorations words name =>
    decorations.map Decoration.event ++ (words.map .word ++ [.word keyword, .word name])

def WellFormed (s : Settings) : Segment → Prop
  | stray event => event.IsStray s.decorator
  | typed name _ decorations => name ≠ "" ∧ (Decoration.recognised s.decorator decorations).length ≤ 1
  | keyworded decorations words name =>
    name ≠ "" ∧ name ≠ s.keyword ∧ s.keyword ∉ words ∧
      (Decoration.recognised s.decorator decorations).length ≤ 1

def argued (w : Surroundings) (s : Scope) (component : String) (properties : List (String × Expr)) : Option Route :=
  let keys := w.settings.decorator
  match lastValue (s.value w) Literal.text? keys.routeNameKey properties with
  | none => none
  | some name =>
    if name = "" then none
    else some
      { name, component, file := w.path
        login := (lastValue (s.value w) Literal.flag? keys.loginKey properties).getD false
        hasParam := (lastValue (s.value w) Literal.flag? keys.hasParamKey properties).getD false
        paramName := (lastValue (s.value w) Literal.text? keys.paramNameKey properties).getD "routerParam" }

def declared (w : Surroundings) (s : Scope) (component : String) (decorations : List Decoration) : Option Route :=
  (Decoration.recognised w.settings.decorator decorations).head?.bind (argued w s component)

def route? (w : Surroundings) (before : List Event) : Segment → Option Route
  | stray _ => none
  | typed name fields decorations =>
    declared w (Scope.after (before ++ [.opens name fields])) name decorations
  | keyworded decorations _ name => declared w (Scope.after before) name decorations

def routes (w : Surroundings) : List Event → List Segment → List Route
  | _, [] => []
  | before, g :: rest =>
    (g.route? w before).toList ++ routes w (before ++ g.events w.settings.keyword) rest

end Segment

namespace Collector

variable {w : Surroundings}

theorem step_decoration (c : Collector) (d : Decoration) :
    step w c d.event = match routeArguments? w.settings.decorator d.callee d.args with
      | some properties => c.onDecorator w properties
      | none => c := rfl

theorem foldl_decorations (c : Collector) (decorations : List Decoration) :
    (decorations.map Decoration.event).foldl (step w) c =
      (Decoration.recognised w.settings.decorator decorations).foldl (fun c p => c.onDecorator w p) c := by
  induction decorations generalizing c with
  | nil => rfl
  | cons d decorations ih =>
      rw [List.map_cons, List.foldl_cons, ih, step_decoration]
      simp only [Decoration.recognised, List.filterMap_cons]
      cases routeArguments? w.settings.decorator d.callee d.args <;> rfl

theorem foldl_decorations_of_le_one (c : Collector) {decorations : List Decoration}
    (h : (Decoration.recognised w.settings.decorator decorations).length ≤ 1) :
    (decorations.map Decoration.event).foldl (step w) c =
      match (Decoration.recognised w.settings.decorator decorations).head? with
      | some properties => c.onDecorator w properties
      | none => c := by
  rw [foldl_decorations]
  match Decoration.recognised w.settings.decorator decorations, h with
  | [], _ => rfl
  | [properties], _ => rfl

theorem step_stray (s : Scope) (routes : List Route) {e : Event} (he : e.IsStray w.settings.decorator) :
    step w ⟨s, .idle, routes⟩ e = ⟨s.note e, .idle, routes⟩ := by
  cases e with
  | opens name fields => exact he.elim
  | closes => exact he.elim
  | decorator callee args =>
      have hn : routeArguments? w.settings.decorator callee args = none := he
      simp only [step, hn]
  | _ => rfl

theorem foldl_words_idle (s : Scope) (routes : List Route) (words : List String) :
    (words.map Event.word).foldl (step w) ⟨s, .idle, routes⟩ = ⟨s, .idle, routes⟩ := by
  induction words with
  | nil => rfl
  | cons word words ih => exact ih

/-- A route decorator waits for the keyword through any other words. -/
theorem foldl_words_awaiting (s : Scope) (d : Draft) (routes : List Route) {words : List String}
    (hw : w.settings.keyword ∉ words) :
    (words.map Event.word).foldl (step w) ⟨s, .awaiting d false, routes⟩ = ⟨s, .awaiting d false, routes⟩ := by
  induction words with
  | nil => rfl
  | cons word words ih =>
      simp only [List.mem_cons, not_or] at hw
      have hs : step w ⟨s, .awaiting d false, routes⟩ (.word word) = ⟨s, .awaiting d false, routes⟩ := by
        simp only [step, onWord, Scope.note, Ne.symm hw.1, if_false, Bool.false_eq_true]
      rw [List.map_cons, List.foldl_cons, hs, ih hw.2]

variable {s : Scope} {component : String}

theorem route?_filled (hn : component ≠ "") (properties : List (String × Expr)) :
    Draft.route? (Draft.filled w.settings.decorator (s.value w) { component? := some component } properties) w.path =
      Segment.argued w s component properties := by
  simp only [Draft.route?, Draft.filled, Segment.argued, Option.or_none]
  cases lastValue (s.value w) Literal.text? w.settings.decorator.routeNameKey properties with
  | none => rfl
  | some name => simp [hn]

theorem isNamed_filled (component : String) (component? : Option String) (properties : List (String × Expr)) :
    Draft.isNamed (Draft.filled w.settings.decorator (s.value w) { component? } properties) =
      (Segment.argued w s component properties).isSome := by
  simp only [Draft.isNamed, Draft.filled, Segment.argued, Option.or_none]
  cases lastValue (s.value w) Literal.text? w.settings.decorator.routeNameKey properties with
  | none => rfl
  | some name => by_cases hname : name = "" <;> simp [hname]

theorem onDecorator_declaring (hk : w.settings.decorator.KeysDiffer) (hn : component ≠ "") (routes : List Route)
    (properties : List (String × Expr)) :
    onClose (onDecorator ⟨s, .declaring { component? := some component }, routes⟩ w properties) =
      ⟨s, .idle, routes ++ (Segment.argued w s component properties).toList⟩ := by
  simp only [onDecorator, Draft.apply_eq_filled hk, isNamed_filled component, publish, route?_filled hn]
  cases Segment.argued w s component properties <;> simp [onClose]

theorem step_keyword (d : Draft) (keywordSeen : Bool) (routes : List Route) :
    step w ⟨s, .awaiting d keywordSeen, routes⟩ (.word w.settings.keyword) = ⟨s, .awaiting d true, routes⟩ := by
  simp only [step, onWord, Scope.note, if_true]

theorem step_name (d : Draft) (routes : List Route) (hw : component ≠ w.settings.keyword) :
    step w ⟨s, .awaiting d true, routes⟩ (.word component) =
      ⟨s, .idle, routes ++ (Draft.route? { d with component? := some component } w.path).toList⟩ := by
  simp only [step, onWord, Scope.note, hw, if_false, if_true, publish]

theorem onDecorator_awaiting (hk : w.settings.decorator.KeysDiffer) (hn : component ≠ "")
    (hw : component ≠ w.settings.keyword) {words : List String} (hws : w.settings.keyword ∉ words)
    (routes : List Route) (properties : List (String × Expr)) :
    (words.map Event.word ++ [Event.word w.settings.keyword, Event.word component]).foldl (step w)
      (onDecorator ⟨s, .idle, routes⟩ w properties) =
      ⟨s, .idle, routes ++ (Segment.argued w s component properties).toList⟩ := by
  have hr := route?_filled (w := w) (s := s) hn properties
  simp only [onDecorator, Draft.apply_eq_filled hk, isNamed_filled component]
  rw [List.foldl_append]
  cases ha : Segment.argued w s component properties with
  | none =>
      simp only [Option.isSome_none, Bool.false_eq_true, if_false, foldl_words_idle, Option.toList_none,
        List.append_nil]
      exact foldl_words_idle s routes [w.settings.keyword, component]
  | some route =>
      simp only [Option.isSome_some, if_true, foldl_words_awaiting _ _ _ hws, List.foldl_cons, List.foldl_nil,
        step_keyword, step_name _ _ hw]
      rw [← ha, ← hr]
      rfl

/-- A segment begins and ends with nothing pending. -/
theorem foldl_segment (hk : w.settings.decorator.KeysDiffer) {g : Segment} (hg : g.WellFormed w.settings)
    (before : List Event) (routes : List Route) :
    (g.events w.settings.keyword).foldl (step w) ⟨Scope.after before, .idle, routes⟩ =
      ⟨Scope.after (before ++ g.events w.settings.keyword), .idle, routes ++ (g.route? w before).toList⟩ := by
  cases g with
  | stray event =>
      rw [Segment.events, List.foldl_cons, step_stray _ _ hg, ← Scope.after_concat]
      simp [Segment.route?]
  | typed name fields decorations =>
      obtain ⟨hn, hl⟩ := hg
      have hscope : Scope.after (before ++ .opens name fields :: (decorations.map Decoration.event ++ [.closes])) =
          Scope.after (before ++ [.opens name fields]) := by
        rw [List.append_cons]
        apply Scope.after_append_of_note_eq
        intro e he s
        simp only [List.mem_append, List.mem_map, List.mem_singleton] at he
        rcases he with ⟨d, -, rfl⟩ | rfl <;> rfl
      rw [Segment.events, hscope, List.foldl_cons, List.foldl_append, foldl_decorations_of_le_one _ hl,
        Segment.route?, Segment.declared]
      cases (Decoration.recognised w.settings.decorator decorations).head? with
      | none => simp [step, onClose, Scope.note]
      | some properties =>
          rw [Option.bind_some, ← onDecorator_declaring hk hn routes properties, Scope.after_concat]
          rfl
  | keyworded decorations words name =>
      obtain ⟨hn, hw, hws, hl⟩ := hg
      have hscope : Scope.after (before ++ (decorations.map Decoration.event ++
          (words.map Event.word ++ [.word w.settings.keyword, .word name]))) = Scope.after before := by
        apply Scope.after_append_of_note_eq
        intro e he s
        simp only [List.mem_append, List.mem_map, List.mem_cons, List.not_mem_nil, or_false] at he
        rcases he with ⟨d, -, rfl⟩ | ⟨word, -, rfl⟩ | rfl | rfl <;> rfl
      rw [Segment.events, hscope, List.foldl_append, foldl_decorations_of_le_one _ hl, Segment.route?,
        Segment.declared]
      cases (Decoration.recognised w.settings.decorator decorations).head? with
      | none =>
          have hi := foldl_words_idle (w := w) (Scope.after before) routes (words ++ [w.settings.keyword, name])
          simpa using hi
      | some properties => exact onDecorator_awaiting hk hn hw hws routes properties

/-- A run over segments publishes the routes of the segments, one by one. -/
theorem foldl_segments (hk : w.settings.decorator.KeysDiffer) {segments : List Segment}
    (hs : ∀ g ∈ segments, g.WellFormed w.settings) (before : List Event) (routes : List Route) :
    ((segments.flatMap (Segment.events w.settings.keyword)).foldl (step w)
      ⟨Scope.after before, .idle, routes⟩).routes = routes ++ Segment.routes w before segments := by
  induction segments generalizing before routes with
  | nil => simp [Segment.routes]
  | cons g segments ih =>
      rw [List.flatMap_cons, List.foldl_append, foldl_segment hk (hs g (by simp)),
        ih (fun g hg => hs g (by simp [hg])), Segment.routes, List.append_assoc]

/-- Each declaration of a file gives the route that its own decorator names behind the events before
it, and no route comes from anywhere else. -/
theorem routes_of_segments (w : Surroundings) (hk : w.settings.decorator.KeysDiffer) (segments : List Segment)
    (hs : ∀ g ∈ segments, g.WellFormed w.settings) :
    (run w (segments.flatMap (Segment.events w.settings.keyword))).routes = Segment.routes w [] segments :=
  foldl_segments hk hs [] []

def threeDeclarations : List Segment :=
  [.stray (.constant "HOME" (.literal (.text "home/Main"))),
    .stray (.imports [.named "GONE" "GONE"] "./gone"),
    .keyworded [⟨"Entry", none⟩, ⟨"AppRouter", some [.object [("name", .name "HOME"),
      ("login", .literal (.text "yes")), ("hasParam", .literal (.flag true))]]⟩] ["export"] "Home",
    .typed "Detail" [("NAME", .literal (.text "detail"))] [⟨"AppRouter", some [.object
      [("name", .member "Detail" "NAME"), ("paramName", .literal (.text "args"))]]⟩],
    .keyworded [⟨"AppRouter", some [.object [("name", .name "GONE")]]⟩] [] "Lost"]

theorem routes_of_threeDeclarations :
    (run (Resolution.around {} ⟨[], []⟩ [] ⟨"/Page.ets"⟩)
      (threeDeclarations.flatMap (Segment.events "struct"))).routes =
      [⟨"home/Main", "Home", ⟨"/Page.ets"⟩, false, true, "routerParam"⟩,
        ⟨"detail", "Detail", ⟨"/Page.ets"⟩, false, false, "args"⟩] := by
  have hs : ∀ g ∈ threeDeclarations, g.WellFormed {} := by
    simp [threeDeclarations, Segment.WellFormed, Event.IsStray, Decoration.recognised, routeArguments?]
  have hr := routes_of_segments (Resolution.around {} ⟨[], []⟩ [] ⟨"/Page.ets"⟩) (by decide) threeDeclarations hs
  refine hr.trans ?_
  decide +kernel

end Collector

end ArkRoutes
