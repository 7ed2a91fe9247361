import ArkRoutes.Proofs.Declarations

namespace ArkRoutes

/-- A route with the positions of the two events that it was taken from. -/
structure Credit where
  route : Route
  decorator : Nat
  component : Nat
deriving DecidableEq

inductive Pending where
  | idle
  | awaiting (draft : Draft) (keywordSeen : Bool) (decorator : Nat)
  | declaring (draft : Draft) (component : Nat)
deriving DecidableEq

def Pending.stage : Pending → Stage
  | idle => .idle
  | awaiting draft keywordSeen _ => .awaiting draft keywordSeen
  | declaring draft _ => .declaring draft

structure Ledger where
  scope : Scope := {}
  pending : Pending := .idle
  credits : List Credit := []

namespace Ledger

def collector (l : Ledger) : Collector := ⟨l.scope, l.pending.stage, l.credits.map Credit.route⟩

def publish (l : Ledger) (file : Path) (d : Draft) (decorator component : Nat) : Ledger :=
  { l with
    pending := .idle
    credits := l.credits ++ ((d.route? file).map (⟨·, decorator, component⟩)).toList }

def onDecorator (l : Ledger) (w : Surroundings) (position : Nat) (properties : List (String × Expr)) : Ledger :=
  let apply (d : Draft) := d.apply w.settings.decorator (l.scope.value w) properties
  match l.pending with
  | .declaring draft component =>
    let d := apply draft
    if d.isNamed then l.publish w.path d position component
    else { l with pending := .declaring d component }
  | _ =>
    let d := apply {}
    { l with pending := if d.isNamed then .awaiting d false position else .idle }

def onWord (l : Ledger) (w : Surroundings) (position : Nat) (word : String) : Ledger :=
  match l.pending with
  | .awaiting d keywordSeen decorator =>
    if word = w.settings.keyword then { l with pending := .awaiting d true decorator }
    else if keywordSeen then l.publish w.path { d with component? := some word } decorator position
    else l
  | _ => l

def onClose (l : Ledger) : Ledger :=
  match l.pending with
  | .declaring _ _ => { l with pending := .idle }
  | _ => l

def step (w : Surroundings) (l : Ledger) : Event × Nat → Ledger
  | (e, position) =>
    let l := { l with scope := l.scope.note e }
    match e with
    | .opens name _ => { l with pending := .declaring { component? := some name } position }
    | .closes => l.onClose
    | .decorator callee args =>
      match Collector.routeArguments? w.settings.decorator callee args with
      | some properties => l.onDecorator w position properties
      | none => l
    | .word text => l.onWord w position text
    | _ => l

def run (w : Surroundings) (events : List Event) : Ledger := events.zipIdx.foldl (step w) {}

variable {w : Surroundings}

theorem collector_publish (l : Ledger) (file : Path) (d : Draft) (decorator component : Nat) :
    (l.publish file d decorator component).collector = l.collector.publish file d := by
  simp only [publish, collector, Collector.publish, Pending.stage, List.map_append]
  cases d.route? file <;> rfl

theorem collector_onDecorator (l : Ledger) (position : Nat) (properties : List (String × Expr)) :
    (l.onDecorator w position properties).collector = l.collector.onDecorator w properties := by
  obtain ⟨s, pending, credits⟩ := l
  cases pending with
  | declaring draft component =>
      by_cases hd : (draft.apply w.settings.decorator (s.value w) properties).isNamed = true
      · simp only [onDecorator, collector_publish, hd, if_true]
        simp [Collector.onDecorator, collector, Pending.stage, hd]
      · simp [onDecorator, Collector.onDecorator, collector, Pending.stage, hd]
  | _ =>
      by_cases hd : (Draft.apply w.settings.decorator (s.value w) {} properties).isNamed = true <;>
        simp [onDecorator, Collector.onDecorator, collector, Pending.stage, hd]

theorem collector_onWord (l : Ledger) (position : Nat) (word : String) :
    (l.onWord w position word).collector = l.collector.onWord w word := by
  obtain ⟨s, pending, credits⟩ := l
  cases pending with
  | awaiting draft keywordSeen decorator =>
      simp only [onWord, Collector.onWord, collector, Pending.stage]
      split
      next => rfl
      next =>
        split
        next => exact collector_publish _ _ _ _ _
        next => rfl
  | _ => rfl

theorem collector_step (l : Ledger) (e : Event) (position : Nat) :
    (step w l (e, position)).collector = Collector.step w l.collector e := by
  cases e with
  | closes =>
      obtain ⟨s, pending, credits⟩ := l
      cases pending <;> rfl
  | decorator callee args =>
      simp only [step, Collector.step]
      cases Collector.routeArguments? w.settings.decorator callee args with
      | some properties => exact collector_onDecorator _ _ _
      | none => rfl
  | word text => exact collector_onWord _ _ _
  | _ => rfl

/-- The notes change nothing. -/
theorem collector_run (w : Surroundings) (events : List Event) :
    (run w events).collector = Collector.run w events := by
  have h (l : Ledger) (n : Nat) (c : Collector) (hl : l.collector = c) :
      ((events.zipIdx n).foldl (step w) l).collector = events.foldl (Collector.step w) c := by
    induction events generalizing l n c with
    | nil => exact hl
    | cons e events ih =>
        rw [List.zipIdx_cons, List.foldl_cons, List.foldl_cons]
        exact ih _ _ _ (by rw [collector_step, hl])
  exact h {} 0 {} rfl

end Ledger

end ArkRoutes
