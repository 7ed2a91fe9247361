import ArkRoutes.Proofs.Attribution

namespace ArkRoutes

def Decoration.names (w : Surroundings) (s : Scope) (d : Decoration) : Bool :=
  match Collector.routeArguments? w.settings.decorator d.callee d.args with
  | some properties =>
    (lastValue (s.value w) Literal.text? w.settings.decorator.routeNameKey properties).any (· != "")
  | none => false

def Pending.decorator? : Pending → Option Nat
  | awaiting _ _ decorator => some decorator
  | _ => none

namespace Ledger

variable {w : Surroundings}

@[simp] theorem scope_onDecorator (l : Ledger) (position : Nat) (properties : List (String × Expr)) :
    (l.onDecorator w position properties).scope = l.scope := by
  simp only [onDecorator]
  split
  next => split <;> rfl
  next => rfl

@[simp] theorem scope_onWord (l : Ledger) (position : Nat) (word : String) :
    (l.onWord w position word).scope = l.scope := by
  simp only [onWord]
  split
  next => split_ifs <;> rfl
  next => rfl

theorem scope_step (l : Ledger) (e : Event) (position : Nat) :
    (step w l (e, position)).scope = l.scope.note e := by
  cases e with
  | closes =>
      simp only [step, onClose]
      split <;> rfl
  | decorator callee args =>
      simp only [step]
      split
      next => rw [scope_onDecorator]
      next => rfl
  | word text => exact scope_onWord _ _ _
  | _ => rfl

theorem scope_foldl (l : Ledger) (events : List Event) (position : Nat) :
    ((events.zipIdx position).foldl (step w) l).scope = events.foldl Scope.note l.scope := by
  induction events generalizing l position with
  | nil => rfl
  | cons e events ih => rw [List.zipIdx_cons, List.foldl_cons, List.foldl_cons, ih, scope_step]

/-- A step credits a decorator that stands at the step itself or was pending before it. -/
theorem credits_step (l : Ledger) (e : Event) (position : Nat) :
    ∃ new, (step w l (e, position)).credits = l.credits ++ new ∧
      ∀ c ∈ new, c.decorator = position ∨ l.pending.decorator? = some c.decorator := by
  obtain ⟨s, pending, credits⟩ := l
  cases e with
  | closes => exact ⟨[], by cases pending <;> simp [step, onClose], by simp⟩
  | decorator callee args =>
      simp only [step]
      cases Collector.routeArguments? w.settings.decorator callee args with
      | none => exact ⟨[], by simp, by simp⟩
      | some properties =>
          cases pending with
          | declaring draft component =>
              simp only [onDecorator]
              split
              next =>
                refine ⟨_, rfl, ?_⟩
                intro c hc
                obtain ⟨r, -, rfl⟩ := Option.map_eq_some_iff.mp (Option.mem_toList.mp hc)
                exact .inl rfl
              next => exact ⟨[], by simp, by simp⟩
          | _ => exact ⟨[], by simp [onDecorator], by simp⟩
  | word text =>
      cases pending with
      | awaiting draft keywordSeen decorator =>
          simp only [step, onWord]
          split_ifs
          · exact ⟨[], by simp, by simp⟩
          · refine ⟨_, rfl, ?_⟩
            intro c hc
            obtain ⟨r, -, rfl⟩ := Option.map_eq_some_iff.mp (Option.mem_toList.mp hc)
            exact .inr rfl
          · exact ⟨[], by simp, by simp⟩
      | _ => exact ⟨[], by simp [step, onWord], by simp⟩
  | _ => exact ⟨[], by simp [step], by simp⟩

theorem pending_step (l : Ledger) (e : Event) (position : Nat) {decorator : Nat}
    (h : (step w l (e, position)).pending.decorator? = some decorator) :
    decorator = position ∨ l.pending.decorator? = some decorator := by
  obtain ⟨s, pending, credits⟩ := l
  cases e with
  | opens name fields => simp [step, Pending.decorator?] at h
  | closes => cases pending <;> simp_all [step, onClose, Pending.decorator?]
  | decorator callee args =>
      simp only [step] at h
      cases hr : Collector.routeArguments? w.settings.decorator callee args with
      | none => exact .inr (by simpa only [hr] using h)
      | some properties =>
          rw [hr] at h
          cases pending with
          | declaring draft component =>
              simp only [onDecorator] at h
              split at h <;> simp [publish, Pending.decorator?] at h
          | _ =>
              simp only [onDecorator] at h
              split at h <;> simp_all [Pending.decorator?]
  | word text =>
      cases pending with
      | awaiting draft keywordSeen i =>
          simp only [step, onWord] at h
          split_ifs at h <;> simp_all [publish, Pending.decorator?]
      | _ => exact .inr h
  | _ => exact .inr h

theorem credits_foldl (l : Ledger) (events : List Event) (position : Nat) :
    let after := (events.zipIdx position).foldl (step w) l
    let Known (i : Nat) := (position ≤ i ∧ i < position + events.length) ∨ l.pending.decorator? = some i
    (∃ new, after.credits = l.credits ++ new ∧ ∀ c ∈ new, Known c.decorator) ∧
      ∀ i, after.pending.decorator? = some i → Known i := by
  induction events generalizing l position with
  | nil => exact ⟨⟨[], by simp, by simp⟩, fun i hi => .inr hi⟩
  | cons e events ih =>
      obtain ⟨first, hf, hfirst⟩ := credits_step (w := w) l e position
      obtain ⟨⟨new, hn, hnew⟩, hp⟩ := ih (step w l (e, position)) (position + 1)
      have known {i : Nat} (h : (position + 1 ≤ i ∧ i < position + 1 + events.length) ∨
          (step w l (e, position)).pending.decorator? = some i) :
          (position ≤ i ∧ i < position + (e :: events).length) ∨ l.pending.decorator? = some i := by
        rw [List.length_cons]
        rcases h with h | h
        · exact .inl (by omega)
        · rcases pending_step l e position h with rfl | h
          · exact .inl (by omega)
          · exact .inr h
      refine ⟨⟨first ++ new, ?_, ?_⟩, fun i hi => known (hp i hi)⟩
      · rw [List.zipIdx_cons, List.foldl_cons, hn, hf, List.append_assoc]
      · intro c hc
        rcases List.mem_append.mp hc with hc | hc
        · rcases hfirst c hc with h | h
          · exact .inl (by simp [h])
          · exact .inr h
        · exact known (hnew c hc)

theorem step_decoration (l : Ledger) (d : Decoration) (position : Nat) :
    step w l (d.event, position) =
      match Collector.routeArguments? w.settings.decorator d.callee d.args with
      | some properties => l.onDecorator w position properties
      | none => l := rfl

theorem foldl_nameless (s : Scope) (credits : List Credit) {decorations : List Decoration}
    (h : ∀ d ∈ decorations, d.names w s = false) (position : Nat) :
    ((decorations.map Decoration.event).zipIdx position).foldl (step w) ⟨s, .idle, credits⟩ =
      ⟨s, .idle, credits⟩ := by
  induction decorations generalizing position with
  | nil => rfl
  | cons d decorations ih =>
      have hd : step w ⟨s, .idle, credits⟩ (d.event, position) = ⟨s, .idle, credits⟩ := by
        have hn := h d (by simp)
        rw [step_decoration]
        rw [Decoration.names] at hn
        cases hr : Collector.routeArguments? w.settings.decorator d.callee d.args with
        | none => rfl
        | some properties =>
            simp only [hr] at hn
            have ha := Draft.isNamed_apply w.settings.decorator (s.value w) (d := {}) rfl properties
            simp [onDecorator, ha, hn]
      rw [List.map_cons, List.zipIdx_cons, List.foldl_cons, hd, ih (fun d hd => h d (by simp [hd]))]

/-- Inside a type there is one decorator at most that names a route, and it is published for the type. -/
theorem foldl_type (s : Scope) (credits : List Credit) (component : Nat) {name : String} {draft : Draft}
    (hn : draft.isNamed = false) (hc : draft.component? = some name) {decorations : List Decoration}
    (h : (decorations.filter (Decoration.names w s)).length ≤ 1) (position : Nat) :
    ∃ new, (((decorations.map Decoration.event).zipIdx position).foldl (step w)
        ⟨s, .declaring draft component, credits⟩).onClose = ⟨s, .idle, credits ++ new⟩ ∧
      ∀ c ∈ new, c.component = component ∧ c.route.component = name := by
  induction decorations generalizing draft position with
  | nil => exact ⟨[], by simp [onClose], by simp⟩
  | cons d decorations ih =>
      rw [List.map_cons, List.zipIdx_cons, List.foldl_cons, step_decoration]
      cases hr : Collector.routeArguments? w.settings.decorator d.callee d.args with
      | none =>
          have hd : d.names w s = false := by simp [Decoration.names, hr]
          rw [List.filter_cons_of_neg (by simp [hd])] at h
          exact ih hn hc h (position + 1)
      | some properties =>
          have ha := Draft.isNamed_apply w.settings.decorator (s.value w) hn properties
          have hcomp := Draft.component?_apply w.settings.decorator (s.value w) draft properties
          have hd : d.names w s = (draft.apply w.settings.decorator (s.value w) properties).isNamed := by
            rw [Decoration.names, hr, ha]
          simp only [onDecorator]
          cases hname : (draft.apply w.settings.decorator (s.value w) properties).isNamed with
          | false =>
              rw [hname] at hd
              rw [List.filter_cons_of_neg (by simp [hd])] at h
              exact ih hname (hcomp.trans hc) h (position + 1)
          | true =>
              rw [hname] at hd
              rw [List.filter_cons_of_pos hd, List.length_cons] at h
              have hrest : decorations.filter (Decoration.names w s) = [] := List.eq_nil_of_length_eq_zero (by omega)
              have hsilent : ∀ d ∈ decorations, d.names w s = false := by simpa using hrest
              simp only [if_true, publish, foldl_nameless s _ hsilent]
              refine ⟨_, rfl, ?_⟩
              intro c hc'
              obtain ⟨r, hroute, rfl⟩ := Option.map_eq_some_iff.mp (Option.mem_toList.mp hc')
              exact ⟨rfl, Draft.component_of_route? hroute (hcomp.trans hc)⟩

theorem run_append (before events : List Event) :
    run w (before ++ events) = (events.zipIdx before.length).foldl (step w) (run w before) := by
  rw [run, List.zipIdx_append, List.foldl_append, Nat.zero_add]
  rfl

theorem scope_run (events : List Event) : (run w events).scope = Scope.after events := scope_foldl _ _ _

theorem step_opens (l : Ledger) (name : String) (fields : List (String × Expr)) (position : Nat) :
    step w l (.opens name fields, position) =
      ⟨l.scope.note (.opens name fields), .declaring { component? := some name } position, l.credits⟩ := rfl

theorem step_closes (l : Ledger) (position : Nat) : step w l (.closes, position) = l.onClose := rfl

theorem foldl_bracket (l : Ledger) (name : String) (fields : List (String × Expr)) (decorations : List Decoration)
    (position : Nat) :
    ((Event.opens name fields :: (decorations.map Decoration.event ++ [.closes])).zipIdx position).foldl (step w) l =
      (((decorations.map Decoration.event).zipIdx (position + 1)).foldl (step w)
        ⟨l.scope.note (.opens name fields), .declaring { component? := some name } position, l.credits⟩).onClose := by
  rw [List.zipIdx_cons, List.foldl_cons, List.zipIdx_append, List.foldl_append, List.zipIdx_singleton,
    List.foldl_cons, List.foldl_nil, step_opens, step_closes]

/-- A type that names one route at most is over when it ends. -/
theorem foldl_opens (l : Ledger) (name : String) (fields : List (String × Expr)) {decorations : List Decoration}
    (h : (decorations.filter (Decoration.names w (l.scope.note (.opens name fields)))).length ≤ 1)
    (position : Nat) :
    ∃ new, ((Event.opens name fields :: (decorations.map Decoration.event ++ [.closes])).zipIdx position).foldl
        (step w) l = ⟨l.scope.note (.opens name fields), .idle, l.credits ++ new⟩ ∧
      ∀ c ∈ new, c.component = position ∧ c.route.component = name := by
  rw [foldl_bracket]
  exact foldl_type _ _ _ rfl rfl h _

/-- Of a type whose decorators name one route at most, no decorator is credited with a component that
is named anywhere else: its routes are routes of the type. -/
theorem type_keeps_its_routes (w : Surroundings) (before after : List Event) (name : String)
    (fields : List (String × Expr)) (decorations : List Decoration)
    (h : (decorations.filter
      (Decoration.names w (Scope.after (before ++ [.opens name fields])))).length ≤ 1) :
    let events := before ++ .opens name fields :: (decorations.map Decoration.event ++ .closes :: after)
    (run w events).credits.map Credit.route = (Collector.run w events).routes ∧
      ∀ c ∈ (run w events).credits,
        before.length < c.decorator → c.decorator ≤ before.length + decorations.length →
          c.component = before.length ∧ c.route.component = name := by
  intro events
  refine ⟨congrArg Collector.routes (collector_run w events), ?_⟩
  have hsplit : events =
      before ++ ((.opens name fields :: (decorations.map Decoration.event ++ [.closes])) ++ after) := by
    simp [events]
  rw [Scope.after_concat, ← scope_run (w := w)] at h
  obtain ⟨⟨earlier, hearlier, hbefore⟩, -⟩ := credits_foldl (w := w) {} before 0
  obtain ⟨own, hown, hcomponent⟩ := foldl_opens (run w before) name fields h before.length
  obtain ⟨⟨later, hlater, hafter⟩, -⟩ := credits_foldl (w := w)
    ⟨(run w before).scope.note (.opens name fields), .idle, (run w before).credits ++ own⟩ after
    (before.length + (decorations.length + 2))
  have hrun : (run w events).credits = earlier ++ own ++ later := by
    rw [hsplit, run_append, List.zipIdx_append, List.foldl_append, hown]
    simp only [List.length_cons, List.length_append, List.length_map, List.length_nil]
    rw [hlater]
    exact congrArg (· ++ own ++ later) hearlier
  rw [hrun]
  intro c hc hlow hhigh
  simp only [List.mem_append] at hc
  rcases hc with (hc | hc) | hc
  · rcases hbefore c hc with hb | hb
    · omega
    · cases hb
  · exact hcomponent c hc
  · rcases hafter c hc with ha | ha
    · omega
    · cases ha

def routed (name : String) : Decoration := ⟨"AppRouter", some [.object [("name", .literal (.text name))]]⟩

def routedOnce : List Event :=
  .constant "HOME" (.literal (.text "home")) :: .opens "Login" [] ::
    ([⟨"AppRouter", some [.object [("login", .literal (.flag true))]]⟩, ⟨"Entry", none⟩, routed "login"].map
      Decoration.event ++ .closes :: [.word "struct", .word "Home"])

theorem routedOnce_keeps_its_routes :
    (run (Resolution.around {} ⟨[], []⟩ [] ⟨"/Page.ets"⟩) routedOnce).credits =
        [⟨⟨"login", "Login", ⟨"/Page.ets"⟩, true, false, "routerParam"⟩, 4, 1⟩] ∧
      ∀ c ∈ (run (Resolution.around {} ⟨[], []⟩ [] ⟨"/Page.ets"⟩) routedOnce).credits,
        1 < c.decorator → c.decorator ≤ 4 → c.component = 1 ∧ c.route.component = "Login" := by
  refine ⟨by decide +kernel, ?_⟩
  exact (type_keeps_its_routes (Resolution.around {} ⟨[], []⟩ [] ⟨"/Page.ets"⟩)
    [.constant "HOME" (.literal (.text "home"))] [.word "struct", .word "Home"] "Login" []
    [⟨"AppRouter", some [.object [("login", .literal (.flag true))]]⟩, ⟨"Entry", none⟩, routed "login"]
    (by decide +kernel)).2

def routedTwice : List Event :=
  .opens "Login" [] :: ([routed "login", routed "start"].map Decoration.event ++
    .closes :: [.word "struct", .word "Home"])

/-- The second decorator of the type is credited with the component behind the type. -/
theorem routedTwice_loses_a_route :
    (run (Resolution.around {} ⟨[], []⟩ [] ⟨"/Page.ets"⟩) routedTwice).credits =
        [⟨⟨"login", "Login", ⟨"/Page.ets"⟩, false, false, "routerParam"⟩, 1, 0⟩,
          ⟨⟨"start", "Home", ⟨"/Page.ets"⟩, false, false, "routerParam"⟩, 2, 5⟩] ∧
      ¬ ∀ c ∈ (run (Resolution.around {} ⟨[], []⟩ [] ⟨"/Page.ets"⟩) routedTwice).credits,
        0 < c.decorator → c.decorator ≤ 2 → c.component = 0 ∧ c.route.component = "Login" := by
  decide +kernel

end Ledger

end ArkRoutes
