import ArkRoutes.Proofs.Reach
import ArkRoutes.Proofs.Stages

namespace ArkRoutes

open Resolution

structure Inquiry where
  query : Query
  value? : Option Literal := none
  notLiteral : Bool := false
  target? : Option Path := none
deriving DecidableEq

namespace Inquiry

def filled (i : Inquiry) : Nat := [i.value?.isSome, i.notLiteral, i.target?.isSome].count true

def tell (i : Inquiry) : Except ResolveError Literal → Inquiry
  | .ok v => { i with value? := some v }
  | .error _ => { i with notLiteral := true }

def found (q : Query) : Option Finding → Inquiry
  | none => { query := q }
  | some (.value v) => { query := q, value? := some v }
  | some .notLiteral => { query := q, notLiteral := true }
  | some (.redirected path) => { query := q, target? := some path }

end Inquiry

inductive Stand where
  | idle
  | awaitingName (keywordSeen : Bool)
  | inDeclaration
deriving DecidableEq

/-- The route that is put together is kept apart from the stand of the visit. -/
structure Visitor where
  inquiry? : Option Inquiry := none
  scope : Scope := {}
  stand : Stand := .idle
  pending? : Option Draft := none
  routes : List Route := []

namespace Visitor

def publish (v : Visitor) (file : Path) (d : Draft) : Visitor :=
  { v with stand := .idle, pending? := none, routes := v.routes ++ (d.route? file).toList }

def onReexports (v : Visitor) (w : Surroundings) (names : List ReExport) (source : String) : Visitor × Bool :=
  match v.inquiry? with
  | none => (v, false)
  | some i =>
    if i.query.indexed && names.any (·.exported == i.query.owner) then
      match w.locate source with
      | .ok l => ({ v with inquiry? := some { i with target? := some l.path } }, true)
      | .error _ => (v, false)
    else (v, false)

/-- `s` holds what the initializer may refer to. -/
def onDeclaration (v : Visitor) (w : Surroundings) (s : Scope) (e : Event) : Visitor × Bool :=
  match v.inquiry? with
  | none => (v, false)
  | some i =>
    match i.query.declaration? e with
    | some initializer => ({ v with inquiry? := some (i.tell (s.value w initializer)) }, true)
    | none => (v, false)

def onOpen (v : Visitor) (name : String) : Visitor :=
  if v.inquiry?.isSome then v
  else { v with stand := .inDeclaration, pending? := some { component? := some name } }

def onClose (v : Visitor) : Visitor :=
  if v.stand = .inDeclaration then { v with stand := .idle, pending? := none } else v

def onDecorator (v : Visitor) (w : Surroundings) (properties : List (String × Expr)) : Visitor :=
  if v.inquiry?.isSome then v
  else
    let apply (d : Draft) := d.apply w.settings.decorator (v.scope.value w) properties
    match v.stand with
    | .inDeclaration =>
      let d := apply (v.pending?.getD {})
      if d.isNamed then v.publish w.path d else { v with pending? := some d }
    | _ =>
      let d := apply {}
      if d.isNamed then { v with stand := .awaitingName false, pending? := some d }
      else { v with stand := .idle, pending? := none }

def onWord (v : Visitor) (w : Surroundings) (word : String) : Visitor :=
  match v.stand with
  | .awaitingName keywordSeen =>
    if word = w.settings.keyword then { v with stand := .awaitingName true }
    else if keywordSeen then
      match v.pending? with
      | some d => v.publish w.path { d with component? := some word }
      | none => { v with stand := .idle }
    else v
  | _ => v

def step (w : Surroundings) (v : Visitor) (e : Event) : Visitor × Bool :=
  let noted := { v with scope := v.scope.note e }
  match e with
  | .reexports names source => noted.onReexports w names source
  | .constant _ _ => noted.onDeclaration w v.scope e
  | .opens name _ =>
    match noted.onDeclaration w noted.scope e with
    | (answered, true) => (answered, true)
    | (v, false) => (v.onOpen name, false)
  | .closes => (noted.onClose, false)
  | .decorator callee args =>
    match Collector.routeArguments? w.settings.decorator callee args with
    | some properties => (noted.onDecorator w properties, false)
    | none => (noted, false)
  | .word text => (noted.onWord w text, false)
  | _ => (noted, false)

def visit (w : Surroundings) : Visitor → List Event → Visitor × Bool
  | v, [] => (v, false)
  | v, e :: rest =>
    match step w v e with
    | (v, true) => (v, true)
    | (v, false) => visit w v rest

end Visitor

def Stage.stand : Stage → Stand
  | idle => .idle
  | awaiting _ keywordSeen => .awaitingName keywordSeen
  | declaring _ => .inDeclaration

def Stage.draft? : Stage → Option Draft
  | idle => none
  | awaiting d _ => some d
  | declaring d => some d

namespace Query

variable {q : Query} {w : Surroundings} {s : Scope}

/-- A declaration is answered by the value of what it declares, among what is in view there. -/
theorem answer?_eq_of_declaration {e : Event} (h : ∀ names source, e ≠ .reexports names source) :
    q.answer? w s e = (q.declaration? e).map fun i =>
      .ofResult ((match e with | .opens _ _ => s.note e | _ => s).value w i) := by
  cases e with
  | constant name value =>
      simp only [Query.answer?, Query.declaration?]
      split_ifs
      · cases q.attribute? with
        | none => rfl
        | some a => cases value <;> rfl
      · rfl
  | opens name fields =>
      simp only [Query.answer?, Query.declaration?]
      split_ifs
      · cases q.attribute? with
        | none => rfl
        | some a => cases hf : fields.lookup a <;> simp [hf]
      · rfl
  | reexports names source => exact (h names source rfl).elim
  | _ => rfl

end Query

theorem Inquiry.tell_eq_found (q : Query) (r : Except ResolveError Literal) :
    ({ query := q } : Inquiry).tell r = Inquiry.found q (some (.ofResult r)) := by
  cases r <;> rfl

namespace Visitor

variable {w : Surroundings}

def collecting (c : Collector) : Visitor :=
  { scope := c.scope, stand := c.stage.stand, pending? := c.stage.draft?, routes := c.routes }

theorem step_collecting (c : Collector) (e : Event) :
    step w (collecting c) e = (collecting (c.step w e), false) := by
  obtain ⟨s, stage, routes⟩ := c
  cases e with
  | closes => cases stage <;> rfl
  | decorator callee args =>
      simp only [step, Collector.step]
      cases Collector.routeArguments? w.settings.decorator callee args with
      | none => rfl
      | some properties =>
          cases stage with
          | declaring draft =>
              by_cases hd : (draft.apply w.settings.decorator (s.value w) properties).isNamed = true <;>
                simp [onDecorator, Collector.onDecorator, collecting, Stage.stand, Stage.draft?, Scope.note, publish,
                  Collector.publish, hd]
          | _ =>
              by_cases hd : (Draft.apply w.settings.decorator (s.value w) {} properties).isNamed = true <;>
                simp [onDecorator, Collector.onDecorator, collecting, Stage.stand, Stage.draft?, Scope.note, hd]
  | word text =>
      cases stage with
      | awaiting draft keywordSeen =>
          simp only [step, Collector.step, onWord, Collector.onWord, collecting, Stage.stand, Stage.draft?]
          split_ifs <;> rfl
      | _ => rfl
  | _ => rfl

/-- Without a question the visitor is the collector, and never stops. -/
theorem visit_collecting (c : Collector) (events : List Event) :
    visit w (collecting c) events = (collecting (events.foldl (Collector.step w) c), false) := by
  induction events generalizing c with
  | nil => rfl
  | cons e events ih =>
      rw [visit, step_collecting]
      exact ih _

theorem visit_eq_run (events : List Event) : visit w {} events = (collecting (Collector.run w events), false) :=
  visit_collecting {} events

def IsSound (v : Visitor) : Prop :=
  match v.stand with
  | .idle => v.pending? = none
  | .awaitingName _ => ∃ d, v.pending? = some d ∧ d.isNamed = true ∧ d.component? = none
  | .inDeclaration => ∃ d, v.pending? = some d ∧ d.component?.isSome = true ∧ d.isNamed = false

theorem isSound_collecting {c : Collector} (h : c.stage.IsSound) : (collecting c).IsSound := by
  obtain ⟨s, stage, routes⟩ := c
  cases stage with
  | idle => rfl
  | awaiting draft keywordSeen => exact ⟨draft, rfl, h⟩
  | declaring draft => exact ⟨draft, rfl, h⟩

/-- However the events of a file come to a visitor without a question: what is pending fits where it stands,
every event adds one route at most, behind the others, and every route is whole. The routes belong to
different decorators, each of which has named its route, and have the order of their decorators. -/
theorem routes_in_order (w : Surroundings) (events : List Event) :
    (visit w {} events).2 = false ∧ (visit w {} events).1.IsSound ∧
      (∀ e, ∃ new : Option Route,
        (visit w {} (events ++ [e])).1.routes = (visit w {} events).1.routes ++ new.toList) ∧
      (∀ r ∈ (visit w {} events).1.routes, r.name ≠ "" ∧ r.component ≠ "" ∧ r.file = w.path) ∧
      (∃ position : Fin (visit w {} events).1.routes.length → Fin events.length, StrictMono position ∧
        ∀ k, NamedAt w events (position k) ((visit w {} events).1.routes.get k).name) ∧
      (visit w {} events).1.routes = (Collector.run w events).routes := by
  rw [visit_eq_run events]
  refine ⟨rfl, isSound_collecting (Collector.stage_run_isSound w events), fun e => ?_,
    fun r => Collector.whole_of_mem_run, Collector.exists_position w events, rfl⟩
  rw [visit_eq_run, Collector.run, List.foldl_append]
  exact Collector.routes_step _ e

def asking (q : Query) (s : Scope) : Visitor := { inquiry? := some { query := q }, scope := s }

/-- A question stops the visitor at the events that answer it, and only there. -/
theorem step_asking (q : Query) (s : Scope) (e : Event) :
    step w (asking q s) e =
      match q.answer? w s e with
      | some finding => ({ asking q (s.note e) with inquiry? := some (Inquiry.found q finding) }, true)
      | none => (asking q (s.note e), false) := by
  cases e with
  | reexports names source =>
      simp only [step, onReexports, asking, Query.answer?]
      split_ifs
      · cases w.locate source <;> rfl
      · rfl
  | constant name value =>
      rw [Query.answer?_eq_of_declaration (by simp)]
      simp only [step, onDeclaration, asking]
      cases q.declaration? (.constant name value) with
      | none => rfl
      | some i => simp [Inquiry.tell_eq_found]
  | opens name fields =>
      rw [Query.answer?_eq_of_declaration (by simp)]
      simp only [step, onDeclaration, asking]
      cases q.declaration? (.opens name fields) with
      | none => rfl
      | some i => simp [Inquiry.tell_eq_found]
  | decorator callee args =>
      simp only [step]
      cases Collector.routeArguments? w.settings.decorator callee args <;> rfl
  | _ => rfl

theorem visit_asking (q : Query) (s : Scope) (events : List Event) :
    visit w (asking q s) events =
      ({ asking q (q.search w s events).1 with inquiry? := some (Inquiry.found q (q.search w s events).2) },
        (q.search w s events).2.isSome) := by
  induction events generalizing s with
  | nil => rfl
  | cons e events ih =>
      rw [visit, step_asking, Query.search]
      cases q.answer? w s e with
      | none => exact ih _
      | some finding => rfl

end Visitor

namespace Event

def isEntry : Event → Bool
  | .closes | .decorator _ _ | .word _ => false
  | _ => true

theorem note_of_isEntry_eq_false {e : Event} (h : e.isEntry = false) (s : Scope) : s.note e = s := by
  cases e <;> first | rfl | cases h

theorem answer?_of_isEntry_eq_false {e : Event} (h : e.isEntry = false) (q : Query) (w : Surroundings) (s : Scope) :
    q.answer? w s e = none := by
  cases e <;> first | rfl | cases h

end Event

namespace Query

variable {q : Query} {w : Surroundings}

theorem search_filter_isEntry (q : Query) (w : Surroundings) (s : Scope) (events : List Event) :
    q.search w s (events.filter Event.isEntry) = q.search w s events := by
  induction events generalizing s with
  | nil => rfl
  | cons e events ih =>
      cases he : e.isEntry with
      | true => rw [List.filter_cons_of_pos he, search, search, ih]
      | false =>
          rw [List.filter_cons_of_neg (by simp [he]), search, Event.answer?_of_isEntry_eq_false he,
            Event.note_of_isEntry_eq_false he]
          exact ih s

/-- Earlier modules that pass the owner on and are not there do no harm: the redirect on record is the
one that the search stopped at. -/
theorem search_redirected {events : List Event} {path : Path}
    (h : (q.search w {} events).2 = some (.redirected path)) :
    q.indexed = true ∧ ∃ r l, (q.search w {} events).1.bindings.redirect? q.owner = some r ∧
      w.locate r.specifier = .ok l ∧ l.path = path := by
  rcases silent_or_settled q w.locate events with hs | ⟨before, event, rest, rfl, hb, hn⟩
  · have hsearch := search_append [] [] hs
    rw [List.append_nil] at hsearch
    rw [show ({} : Scope) = Scope.after [] from rfl, hsearch] at h
    cases h
  · rcases hn with ⟨e, hd⟩ | ⟨names, source, l, rfl, hl⟩
    · rw [search_settled rest hb (answer?_declares hd)] at h
      cases hv : (Scope.after (event.inView before)).value w e <;> simp [hv, Finding.ofResult] at h
    · rw [search_settled rest hb (answer?_handedOn hl)] at h ⊢
      obtain ⟨n, -, hr⟩ := Scope.redirect?_after_reexports before source hl.exports
      exact ⟨hl.indexed, _, l, hr, hl.located, by simpa using h⟩

end Query

namespace Visitor

structure Inert (v : Visitor) : Prop where
  idle : v.stand = .idle
  nothingPending : v.pending? = none
  noRoutes : v.routes = []

def inquire (w : Surroundings) (q : Query) (events : List Event) : Visitor × Bool := visit w (asking q {}) events

theorem inquire_eq (w : Surroundings) (q : Query) (events : List Event) :
    inquire w q events =
      ({ asking q (q.search w {} events).1 with inquiry? := some (Inquiry.found q (q.search w {} events).2) },
        (q.search w {} events).2.isSome) := visit_asking q {} events

structure Coherent (w : Surroundings) (q : Query) (v : Visitor) (stopped : Bool) (i : Inquiry) : Prop where
  carried : v.inquiry? = some i
  asked : i.query = q
  atMostOne : i.filled ≤ 1
  stops : stopped = true ↔ i.filled = 1
  redirected : ∀ p, i.target? = some p → q.indexed = true ∧
    ∃ r l, v.scope.bindings.redirect? q.owner = some r ∧ w.locate r.specifier = .ok l ∧ l.path = p

theorem inert_inquire (w : Surroundings) (q : Query) (events : List Event) : (inquire w q events).1.Inert := by
  rw [inquire_eq]
  exact ⟨rfl, rfl, rfl⟩

theorem coherent_inquire (w : Surroundings) (q : Query) (events : List Event) :
    Coherent w q (inquire w q events).1 (inquire w q events).2 (Inquiry.found q (q.search w {} events).2) := by
  have hr := @Query.search_redirected q w events
  rw [inquire_eq]
  refine ⟨rfl, ?_, ?_, ?_, fun p hp => ?_⟩
  all_goals
    cases hf : (q.search w {} events).2 with
    | none => simp_all [Inquiry.found, Inquiry.filled]
    | some finding => cases finding <;> simp_all [Inquiry.found, Inquiry.filled, asking]

/-- A visitor with a question touches nothing of the routes. What it finds out is what the search finds
out, hangs on no event but the entries of the file's tables, and is borne out by these tables. -/
theorem inert_and_coherent (s : Settings) (t : FileTree) (chain : List Path) (path : Path) (q : Query)
    (events : List Event) :
    (∀ n, (inquire (around s t chain path) q (events.take n)).1.Inert) ∧
    inquire (around s t chain path) q (events.filter Event.isEntry) = inquire (around s t chain path) q events ∧
    (inquire (around s t chain path) q events).1.scope = (q.search (around s t chain path) {} events).1 ∧
    Coherent (around s t chain path) q (inquire (around s t chain path) q events).1
      (inquire (around s t chain path) q events).2
      (Inquiry.found q (q.search (around s t chain path) {} events).2) := by
  refine ⟨fun n => inert_inquire _ q _, ?_, ?_, coherent_inquire _ q events⟩
  · rw [inquire_eq, inquire_eq, Query.search_filter_isEntry]
  · rw [inquire_eq]
    rfl

def relayedTwice : List Event :=
  [.reexports [⟨"HOME", "START"⟩] "./gone", .decorator "AppRouter" (some [.object [("name", .literal (.text "home"))]]),
    .word "struct", .word "Home", .reexports [⟨"HOME", "START"⟩] "./home", .constant "START" (.literal (.text "far"))]

theorem relayedTwice_inquire :
    (inquire (around {} relayedPackage [] ⟨"/oh_modules/lib/Index.ets"⟩) ⟨"START", none, true⟩ relayedTwice).1.Inert ∧
      ∃ l, Module.locate {} relayedPackage (Path.directory ⟨"/oh_modules/lib/Index.ets"⟩) "./home" = .ok l ∧
        l.path = ⟨"/oh_modules/lib/./home.ets"⟩ := by
  obtain ⟨hi, -, hs, h⟩ :=
    inert_and_coherent {} relayedPackage [] ⟨"/oh_modules/lib/Index.ets"⟩ ⟨"START", none, true⟩ relayedTwice
  obtain ⟨-, r, l, hr, hl, hp⟩ := h.redirected ⟨"/oh_modules/lib/./home.ets"⟩ (by decide +kernel)
  have hr' : r = ⟨"START", "HOME", "./home"⟩ := by
    rw [hs] at hr
    have hc : (Query.search ⟨"START", none, true⟩ (around {} relayedPackage [] ⟨"/oh_modules/lib/Index.ets"⟩) {}
        relayedTwice).1.bindings.redirect? "START" = some ⟨"START", "HOME", "./home"⟩ := by decide +kernel
    exact Option.some.inj (hr.symm.trans hc)
  subst hr'
  exact ⟨hi relayedTwice.length, l, hl, hp⟩

end Visitor

end ArkRoutes
