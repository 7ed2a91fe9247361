import ArkRoutes.Proofs.Tables
import ArkRoutes.Resolution

namespace ArkRoutes

/-- What an initializer may refer to: the events before its own and, in a type, the type itself. -/
def Event.inView (before : List Event) : Event → List Event
  | .opens name fields => before ++ [.opens name fields]
  | _ => before

namespace Query

inductive Declares (q : Query) : Event → Expr → Prop
  | constant {e : Expr} (h : q.attribute? = none) : Declares q (.constant q.owner e) e
  | property {a : String} {properties : List (String × Expr)} {e : Expr} (h : q.attribute? = some a)
      (hp : IsLast (fun p => p.1 = a) properties (a, e)) : Declares q (.constant q.owner (.object properties)) e
  | field {a : String} {fields : List (String × Expr)} {e : Expr} (h : q.attribute? = some a)
      (hf : fields.lookup a = some e) : Declares q (.opens q.owner fields) e

/-- A question to an entry file is handed on by an event that passes its owner on from a module that
is there. -/
structure HandedOn (q : Query) (locate : String → Except ResolveError Located) (names : List ReExport)
    (source : String) (l : Located) : Prop where
  indexed : q.indexed = true
  exports : ∃ n ∈ names, n.exported = q.owner
  located : locate source = .ok l

structure Silent (q : Query) (locate : String → Except ResolveError Located) (event : Event) : Prop where
  undeclared : ∀ e, ¬ q.Declares event e
  keeps : ∀ names source l, event = .reexports names source → ¬ q.HandedOn locate names source l

variable {q : Query} {w : Surroundings} {s : Scope}

theorem answer?_declares {seen : List Event} {event : Event} {e : Expr} (h : q.Declares event e) :
    q.answer? w (Scope.after seen) event =
      some (.ofResult ((Scope.after (event.inView seen)).value w e)) := by
  cases h with
  | constant h => simp [answer?, h, Event.inView]
  | property h hp => simp [answer?, h, Expr.property?_eq_some_iff.mpr hp, Event.inView]
  | field h hf => simp [answer?, h, hf, Event.inView]

theorem answer?_handedOn {names : List ReExport} {source : String} {l : Located}
    (h : q.HandedOn w.locate names source l) :
    q.answer? w s (.reexports names source) = some (.redirected l.path) := by
  have hn : names.any (fun n => n.exported == q.owner) = true := by simpa using h.exports
  simp [answer?, h.indexed, hn, h.located]

/-- An answer has one of two reasons. -/
theorem answer?_cases {event : Event} {f : Finding} (h : q.answer? w s event = some f) :
    (∃ e, q.Declares event e) ∨
      ∃ names source l, event = .reexports names source ∧ q.HandedOn w.locate names source l := by
  cases event with
  | constant name value =>
      left
      simp only [answer?] at h
      split at h
      next hn =>
        subst hn
        cases ha : q.attribute? with
        | none => exact ⟨value, .constant ha⟩
        | some a =>
            cases value with
            | object properties =>
                simp only [ha, Option.map_eq_some_iff] at h
                obtain ⟨e, he, -⟩ := h
                exact ⟨e, .property ha (Expr.property?_eq_some_iff.mp he)⟩
            | _ => simp [ha] at h
      next => simp at h
  | opens name fields =>
      left
      simp only [answer?] at h
      split at h
      next hn =>
        subst hn
        cases ha : q.attribute? with
        | none => simp [ha] at h
        | some a =>
            cases hf : fields.lookup a with
            | none => simp [ha, hf] at h
            | some e => exact ⟨e, .field ha hf⟩
      next => simp at h
  | reexports names source =>
      right
      simp only [answer?] at h
      split at h
      next hn =>
        obtain ⟨hi, he⟩ : q.indexed = true ∧ ∃ n ∈ names, n.exported = q.owner := by simpa using hn
        cases hl : w.locate source with
        | error cause => simp [hl] at h
        | ok l => exact ⟨names, source, l, rfl, hi, he, hl⟩
      next => simp at h
  | _ => simp [answer?] at h

theorem answer?_eq_none_iff {seen : List Event} {event : Event} :
    q.answer? w (Scope.after seen) event = none ↔ q.Silent w.locate event := by
  constructor
  · intro h
    refine ⟨fun e he => ?_, ?_⟩
    · simp [answer?_declares he] at h
    · rintro names source l rfl hl
      simp [answer?_handedOn hl] at h
  · intro h
    cases ha : q.answer? w (Scope.after seen) event with
    | none => rfl
    | some f =>
        obtain ⟨e, he⟩ | ⟨names, source, l, he, hl⟩ := answer?_cases ha
        · exact (h.undeclared e he).elim
        · exact (h.keeps names source l he hl).elim

/-- The search stops behind the first event that is not silent. -/
theorem search_append (seen : List Event) {before : List Event} (rest : List Event)
    (h : ∀ e ∈ before, q.Silent w.locate e) :
    q.search w (Scope.after seen) (before ++ rest) = q.search w (Scope.after (seen ++ before)) rest := by
  induction before generalizing seen with
  | nil => simp
  | cons e before ih =>
      have he : q.answer? w (Scope.after seen) e = none := answer?_eq_none_iff.mpr (h e (by simp))
      rw [List.cons_append, search, he]
      simp only [← Scope.after_concat]
      rw [ih (seen ++ [e]) (fun e he => h e (by simp [he])), List.append_assoc]
      rfl

theorem answerFrom_silent {events : List Event} (h : ∀ e ∈ events, q.Silent w.locate e) :
    q.answerFrom w events = q.follow w (Scope.after events).bindings none := by
  have hs := search_append [] [] h
  simp only [List.append_nil, List.nil_append, search] at hs
  rw [answerFrom, show ({} : Scope) = Scope.after [] from rfl, hs]

theorem search_settled {before : List Event} {event : Event} {f : Finding} (rest : List Event)
    (h : ∀ e ∈ before, q.Silent w.locate e) (hf : q.answer? w (Scope.after before) event = some f) :
    q.search w {} (before ++ event :: rest) = (Scope.after (before ++ [event]), some f) := by
  have hs := search_append [] (event :: rest) h
  rw [List.nil_append, search, hf, ← Scope.after_concat] at hs
  exact hs

/-- The first declaration of what is asked for decides, for good or ill. -/
theorem answerFrom_declared {before : List Event} {event : Event} {e : Expr} (rest : List Event)
    (h : ∀ e ∈ before, q.Silent w.locate e) (hd : q.Declares event e) :
    q.answerFrom w (before ++ event :: rest) =
      match (Scope.after (event.inView before)).value w e with
      | .ok v => .ok v
      | .error _ => .error (.notLiteral q.describe) := by
  rw [answerFrom, search_settled rest h (answer?_declares hd)]
  cases (Scope.after (event.inView before)).value w e <;> rfl

theorem answerFrom_handedOn {before : List Event} {names : List ReExport} {source : String} {l : Located}
    (rest : List Event) (h : ∀ e ∈ before, q.Silent w.locate e) (hl : q.HandedOn w.locate names source l) :
    q.answerFrom w (before ++ .reexports names source :: rest) =
      q.follow w (Scope.after (before ++ [.reexports names source])).bindings (some l.path) := by
  rw [answerFrom, search_settled rest h (answer?_handedOn hl)]

/-- Either the whole file is silent, or there is a first event that is not. -/
theorem silent_or_settled (q : Query) (locate : String → Except ResolveError Located) (events : List Event) :
    (∀ e ∈ events, q.Silent locate e) ∨ ∃ before event rest, events = before ++ event :: rest ∧
      (∀ e ∈ before, q.Silent locate e) ∧ ((∃ e, q.Declares event e) ∨
        ∃ names source l, event = .reexports names source ∧ q.HandedOn locate names source l) := by
  induction events with
  | nil => simp
  | cons e events ih =>
      by_cases hd : ∃ i, q.Declares e i
      · exact .inr ⟨[], e, events, rfl, by simp, .inl hd⟩
      by_cases hl : ∃ names source l, e = .reexports names source ∧ q.HandedOn locate names source l
      · exact .inr ⟨[], e, events, rfl, by simp, .inr hl⟩
      have he : q.Silent locate e :=
        ⟨fun i hi => hd ⟨i, hi⟩, fun names source l hn hh => hl ⟨names, source, l, hn, hh⟩⟩
      rcases ih with h | ⟨before, event, rest, rfl, hb, hn⟩
      · left
        simpa using ⟨he, h⟩
      · right
        exact ⟨e :: before, event, rest, rfl, by simpa using ⟨he, hb⟩, hn⟩

theorem follow_target {b : Bindings} {r : Redirect} (hr : b.redirect? q.owner = some r) (path : Path) :
    q.follow w b (some path) = w.ask path (q.redirected r.original false) := by
  simp only [follow, hr]
  rfl

theorem follow_redirect {b : Bindings} {r : Redirect} (hr : b.redirect? q.owner = some r) :
    q.follow w b none = (w.locate r.specifier).bind fun l => w.ask l.path (q.redirected r.original l.isEntry) := by
  simp only [follow, hr]
  rfl

/-- A file that passes the owner on from a module that is there is not silent to a question to an
entry file. -/
theorem indexed_eq_false_of_silent {locate : String → Except ResolveError Located} {events : List Event}
    (h : ∀ e ∈ events, q.Silent locate e) {r : Redirect} (hr : r ∈ events.flatMap Event.redirects)
    (hx : r.exported = q.owner) {l : Located} (hl : locate r.specifier = .ok l) : q.indexed = false := by
  obtain ⟨event, he, hm⟩ := List.mem_flatMap.mp hr
  cases event with
  | reexports names source =>
      obtain ⟨n, hn, rfl⟩ := List.mem_map.mp hm
      cases hi : q.indexed with
      | false => rfl
      | true => exact ((h _ he).keeps names source l rfl ⟨hi, ⟨n, hn, hx⟩, hl⟩).elim
  | _ => simp [Event.redirects] at hm

end Query

end ArkRoutes
