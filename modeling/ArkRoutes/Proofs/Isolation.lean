import ArkRoutes.Proofs.Files
import ArkRoutes.Proofs.Stretches
import ArkRoutes.Scan
import Mathlib.Data.List.Chain

namespace ArkRoutes

inductive Bracketed : List Event → Prop
  | nil : Bracketed []
  | plain {e : Event} {rest : List Event} (he : e.IsPlain) (hr : Bracketed rest) : Bracketed (e :: rest)
  | type (name : String) (fields : List (String × Expr)) (decorations : List Decoration) {rest : List Event}
      (hr : Bracketed rest) : Bracketed (.opens name fields :: (decorations.map Decoration.event ++ .closes :: rest))

namespace Bracketed

theorem append {events rest : List Event} (h : Bracketed events) (hr : Bracketed rest) :
    Bracketed (events ++ rest) := by
  induction h with
  | nil => exact hr
  | plain he _ ih => exact .plain he ih
  | type name fields decorations _ ih =>
      simp only [List.cons_append, List.append_assoc]
      exact .type name fields decorations ih

theorem of_splits {events : List Event} {types : List Source.TypeSite} (h : Source.Splits events types) :
    Bracketed events := by
  obtain ⟨stretches, rfl, hs, -⟩ := h
  induction stretches with
  | nil => exact .nil
  | cons s stretches ih =>
      obtain ⟨hs, hrest⟩ := List.forall_mem_cons.mp hs
      rw [List.flatMap_cons]
      refine append ?_ (ih hrest)
      cases s with
      | plain e => exact .plain hs .nil
      | type t =>
          rw [Source.Stretch.events, ← List.append_assoc, ← List.map_append]
          exact .type t.name _ _ .nil

end Bracketed

theorem Source.bracketed_events (text : String) : Bracketed (Source.events text) :=
  .of_splits (Node.splits_eventsAll true (statements text))

namespace Scope

/-- Whether the value of an expression is looked for in an import. -/
def consults (s : Scope) (path : Path) : (steps : Nat) → Expr → Bool
  | steps + 1, .name x =>
    (s.bindings.import? x).isSome || match s.constant x with
      | .ok e => s.consults path steps e
      | .error _ => false
  | steps + 1, .member o m =>
    (s.bindings.import? o).isSome || match s.member path o m with
      | .ok e => s.consults path steps e
      | .error _ => false
  | _, _ => false

theorem evaluate_of_not_consults {s : Scope} {w w' : Surroundings} (hs : w.settings = w'.settings)
    (hp : w.path = w'.path) {steps : Nat} {e : Expr} (h : s.consults w.path steps e = false) :
    s.evaluate w steps e = s.evaluate w' steps e := by
  induction steps generalizing e with
  | zero => simp only [evaluate, hs]
  | succ steps ih =>
      cases e with
      | name x =>
          obtain ⟨hi, hc⟩ := Bool.or_eq_false_iff.mp h
          simp only [evaluate, hi, Bool.false_eq_true, if_false]
          cases hx : s.constant x with
          | error cause => rfl
          | ok e => exact ih (by simpa only [hx] using hc)
      | member o m =>
          obtain ⟨hi, hc⟩ := Bool.or_eq_false_iff.mp h
          simp only [evaluate, hi, Bool.false_eq_true, if_false, ← hp]
          cases hx : s.member w.path o m with
          | error cause => rfl
          | ok e => exact ih (by simpa only [hx] using hc)
      | _ => rfl

end Scope

/-- Whether the route decorator at a position finds the values of all its arguments among the events
before it. -/
def selfContained (s : Settings) (path : Path) (events : List Event) (position : Nat) : Bool :=
  match events[position]? with
  | some (.decorator callee args) =>
    match Collector.routeArguments? s.decorator callee args with
    | some properties =>
      properties.all fun p => !(Scope.after (events.take position)).consults path (s.depthLimit + 1) p.2
    | none => false
  | _ => false

theorem selfContained_append {s : Settings} {d : Decoration} {properties : List (String × Expr)}
    (hr : Collector.routeArguments? s.decorator d.callee d.args = some properties) (path : Path)
    (seen rest : List Event) :
    selfContained s path (seen ++ d.event :: rest) seen.length =
      properties.all fun p => !(Scope.after seen).consults path (s.depthLimit + 1) p.2 := by
  simp [selfContained, Decoration.event, hr]

def RoutedOnce (keys : Decorator) (events : List Event) : Prop :=
  ∀ before name fields decorations after,
    events = before ++ .opens name fields :: (decorations.map Decoration.event ++ .closes :: after) →
      (Decoration.recognised keys decorations).length ≤ 1

namespace Pending

variable (own : Nat → Bool)

def IsForeign : Pending → Prop
  | idle => True
  | awaiting _ _ decorator => own decorator = false
  | declaring _ _ => False

inductive Agree : Pending → Pending → Prop
  | same (draft : Draft) (keywordSeen : Bool) (decorator : Nat) :
      Agree (awaiting draft keywordSeen decorator) (awaiting draft keywordSeen decorator)
  | foreign {p p' : Pending} (h : p.IsForeign own) (h' : p'.IsForeign own) : Agree p p'

variable {own} in
theorem Agree.not_declaring {p p' : Pending} (h : Agree own p p') (draft : Draft) (component : Nat) :
    p ≠ .declaring draft component ∧ p' ≠ .declaring draft component := by
  cases h with
  | same => simp
  | foreign h h' =>
      constructor
      · rintro rfl
        exact h
      · rintro rfl
        exact h'

end Pending

namespace Ledger

structure Agree (own : Nat → Bool) (l l' : Ledger) : Prop where
  scope : l.scope = l'.scope
  credits : l.credits.filter (own ·.decorator) = l'.credits.filter (own ·.decorator)
  pending : Pending.Agree own l.pending l'.pending

variable {own : Nat → Bool} {w w' : Surroundings}

theorem filter_publish_foreign (l : Ledger) (file : Path) (d : Draft) {decorator : Nat} (h : own decorator = false)
    (component : Nat) :
    (l.publish file d decorator component).credits.filter (own ·.decorator) =
      l.credits.filter (own ·.decorator) := by
  simp only [publish, List.filter_append]
  cases d.route? file <;> simp [h]

theorem onWord_foreign {l : Ledger} (h : l.pending.IsForeign own) (position : Nat) (word : String) :
    (l.onWord w position word).pending.IsForeign own ∧
      (l.onWord w position word).credits.filter (own ·.decorator) = l.credits.filter (own ·.decorator) := by
  cases hp : l.pending with
  | awaiting draft keywordSeen decorator =>
      rw [hp] at h
      simp only [onWord, hp]
      split_ifs
      · exact ⟨h, rfl⟩
      · exact ⟨trivial, filter_publish_foreign l w.path _ h position⟩
      · exact ⟨by simpa only [hp] using h, rfl⟩
  | _ => simp_all [onWord]

theorem Agree.onWord (hs : w.settings = w'.settings) (hp : w.path = w'.path) {l l' : Ledger} (h : Agree own l l')
    (position : Nat) (word : String) : Agree own (l.onWord w position word) (l'.onWord w' position word) := by
  obtain ⟨s, pending, credits⟩ := l
  obtain ⟨s', pending', credits'⟩ := l'
  obtain ⟨hscope, hcredits, hpending⟩ := h
  cases hpending with
  | same draft keywordSeen decorator =>
      simp only [Ledger.onWord, ← hs, ← hp]
      split_ifs
      · exact ⟨hscope, hcredits, .same draft true decorator⟩
      · exact ⟨hscope, by simp only [publish, List.filter_append, hcredits], .foreign trivial trivial⟩
      · exact ⟨hscope, hcredits, .same draft keywordSeen decorator⟩
  | foreign h h' =>
      obtain ⟨hf, hc⟩ := onWord_foreign (w := w) (l := ⟨s, pending, credits⟩) h position word
      obtain ⟨hf', hc'⟩ := onWord_foreign (w := w') (l := ⟨s', pending', credits'⟩) h' position word
      refine ⟨?_, ?_, .foreign hf hf'⟩
      · rw [scope_onWord, scope_onWord]
        exact hscope
      · rw [hc, hc']
        exact hcredits

theorem onDecorator_awaiting (s : Scope) (pending : Pending) (credits : List Credit)
    (hp : ∀ draft component, pending ≠ .declaring draft component) (position : Nat)
    (properties : List (String × Expr)) :
    onDecorator ⟨s, pending, credits⟩ w position properties =
      ⟨s, if (Draft.apply w.settings.decorator (s.value w) {} properties).isNamed then
          .awaiting (Draft.apply w.settings.decorator (s.value w) {} properties) false position
        else .idle, credits⟩ := by
  cases pending with
  | declaring draft component => exact (hp draft component rfl).elim
  | _ => rfl

/-- A decorator in front of a keyword takes the place of what was pending. -/
theorem Agree.onDecorator (hs : w.settings = w'.settings) {l l' : Ledger} (h : Agree own l l') {position : Nat}
    {properties : List (String × Expr)}
    (hv : own position = true → ∀ p ∈ properties, l.scope.value w p.2 = l.scope.value w' p.2) :
    Agree own (l.onDecorator w position properties) (l'.onDecorator w' position properties) := by
  obtain ⟨s, pending, credits⟩ := l
  obtain ⟨s', pending', credits'⟩ := l'
  obtain ⟨hscope, hcredits, hpending⟩ := h
  obtain rfl : s = s' := hscope
  rw [onDecorator_awaiting s pending credits fun draft component => (hpending.not_declaring draft component).1,
    onDecorator_awaiting s pending' credits' fun draft component => (hpending.not_declaring draft component).2, ← hs]
  refine ⟨rfl, hcredits, ?_⟩
  cases ho : own position with
  | true =>
      rw [Draft.apply_congr {} fun p hp => congrArg Except.toOption (hv ho p hp)]
      dsimp only
      split
      next => exact .same _ _ _
      next => exact .foreign trivial trivial
  | false =>
      have hf (d : Draft) : (if d.isNamed then Pending.awaiting d false position else .idle).IsForeign own := by
        cases d.isNamed with
        | true => exact ho
        | false => trivial
      exact .foreign (hf _) (hf _)

/-- Whether a decorator inside a type publishes its route or not, the type ends with nothing pending. -/
theorem onClose_onDecorator (s : Scope) (draft : Draft) (component : Nat) (credits : List Credit) (position : Nat)
    (properties : List (String × Expr)) :
    (onDecorator ⟨s, .declaring draft component, credits⟩ w position properties).onClose =
      ⟨s, .idle, credits ++ (((draft.apply w.settings.decorator (s.value w) properties).route? w.path).map
        (⟨·, position, component⟩)).toList⟩ := by
  simp only [Ledger.onDecorator]
  cases hn : (draft.apply w.settings.decorator (s.value w) properties).isNamed with
  | true => rfl
  | false =>
      have hr : (draft.apply w.settings.decorator (s.value w) properties).route? w.path = none := by
        simp only [Draft.isNamed, Option.any_eq_false_iff_get] at hn
        simp only [Draft.route?]
        split
        next name component hname _ => simp_all
        next => rfl
      simp [hr, onClose]

theorem foldl_unrecognised (l : Ledger) {decorations : List Decoration}
    (h : Decoration.recognised w.settings.decorator decorations = []) (position : Nat) :
    ((decorations.map Decoration.event).zipIdx position).foldl (step w) l = l := by
  induction decorations generalizing position with
  | nil => rfl
  | cons d decorations ih =>
      simp only [Decoration.recognised, List.filterMap_cons] at h
      cases hr : Collector.routeArguments? w.settings.decorator d.callee d.args with
      | some properties => simp [hr] at h
      | none =>
          rw [List.map_cons, List.zipIdx_cons, List.foldl_cons, step_decoration, hr]
          simp only [hr] at h
          exact ih h (position + 1)

theorem value_of_selfContained (hs : w.settings = w'.settings) (hp : w.path = w'.path) {d : Decoration}
    {properties : List (String × Expr)}
    (hr : Collector.routeArguments? w.settings.decorator d.callee d.args = some properties)
    {seen rest : List Event} (h : selfContained w.settings w.path (seen ++ d.event :: rest) seen.length = true) :
    ∀ p ∈ properties, (Scope.after seen).value w p.2 = (Scope.after seen).value w' p.2 := by
  intro p hm
  rw [selfContained_append hr, List.all_eq_true] at h
  have hc : (Scope.after seen).consults w.path (w.settings.depthLimit + 1) p.2 = false := by simpa using h p hm
  rw [Scope.value, Scope.value, ← hs]
  exact Scope.evaluate_of_not_consults hs hp hc

theorem agree_decorations (hs : w.settings = w'.settings) (hp : w.path = w'.path) {events seen rest : List Event}
    {decorations : List Decoration} (he : events = seen ++ (decorations.map Decoration.event ++ rest))
    (h1 : (Decoration.recognised w.settings.decorator decorations).length ≤ 1) (draft : Draft) (component : Nat)
    {credits credits' : List Credit}
    (hc : credits.filter (selfContained w.settings w.path events ·.decorator) =
      credits'.filter (selfContained w.settings w.path events ·.decorator)) :
    Agree (selfContained w.settings w.path events)
      (((decorations.map Decoration.event).zipIdx seen.length).foldl (step w)
        ⟨Scope.after seen, .declaring draft component, credits⟩).onClose
      (((decorations.map Decoration.event).zipIdx seen.length).foldl (step w')
        ⟨Scope.after seen, .declaring draft component, credits'⟩).onClose := by
  induction decorations generalizing seen with
  | nil => exact ⟨rfl, hc, .foreign trivial trivial⟩
  | cons d decorations ih =>
      simp only [List.map_cons, List.zipIdx_cons, List.foldl_cons, step_decoration, ← hs]
      cases hr : Collector.routeArguments? w.settings.decorator d.callee d.args with
      | none =>
          have hseen : Scope.after (seen ++ [d.event]) = Scope.after seen := by
            rw [Scope.after_concat]
            rfl
          have hd : Decoration.recognised w.settings.decorator (d :: decorations) =
              Decoration.recognised w.settings.decorator decorations := by
            simp [Decoration.recognised, hr]
          have hi := @ih (seen ++ [d.event]) (by simpa using he) (hd ▸ h1)
          rw [hseen, List.length_append] at hi
          exact hi
      | some properties =>
          have hd : Decoration.recognised w.settings.decorator decorations = [] := by
            simp only [Decoration.recognised, List.filterMap_cons, hr, List.length_cons] at h1
            exact List.eq_nil_of_length_eq_zero (by rw [Decoration.recognised]; omega)
          rw [foldl_unrecognised _ hd, foldl_unrecognised (w := w') _ (hs ▸ hd), onClose_onDecorator,
            onClose_onDecorator, ← hs, ← hp]
          refine ⟨rfl, ?_, .foreign trivial trivial⟩
          rw [List.filter_append, List.filter_append, hc]
          congr 1
          cases ho : selfContained w.settings w.path events seen.length with
          | true =>
              have hv := value_of_selfContained hs hp hr (by rw [← ho, he]; rfl)
              rw [Draft.apply_congr draft fun p hp => congrArg Except.toOption (hv p hp)]
          | false =>
              have hf (r : Option Route) : (r.map (Credit.mk · seen.length component)).toList.filter
                  (selfContained w.settings w.path events ·.decorator) = [] := by
                cases r <;> simp [ho]
              rw [hf, hf]

theorem agree_step (hs : w.settings = w'.settings) (hp : w.path = w'.path) {events seen rest : List Event} {e : Event}
    (he : events = seen ++ e :: rest) (hplain : e.IsPlain) {l l' : Ledger} (hl : l.scope = Scope.after seen)
    (h : Agree (selfContained w.settings w.path events) l l') :
    Agree (selfContained w.settings w.path events) (step w l (e, seen.length)) (step w' l' (e, seen.length)) := by
  cases e with
  | opens name fields => exact hplain.elim
  | closes => exact hplain.elim
  | decorator callee args =>
      have hd := step_decoration (w := w) l ⟨callee, args⟩ seen.length
      have hd' := step_decoration (w := w') l' ⟨callee, args⟩ seen.length
      simp only [Decoration.event] at hd hd'
      rw [hd, hd', ← hs]
      cases hr : Collector.routeArguments? w.settings.decorator callee args with
      | none => exact h
      | some properties =>
          refine h.onDecorator hs ?_
          intro ho
          rw [hl]
          exact value_of_selfContained (d := ⟨callee, args⟩) hs hp hr (by rw [← ho, he]; rfl)
  | word text => exact Agree.onWord hs hp h _ _
  | _ => exact ⟨by rw [scope_step, scope_step, h.scope], h.credits, h.pending⟩

theorem agree_type (hs : w.settings = w'.settings) (hp : w.path = w'.path) {events seen rest : List Event}
    {name : String} {fields : List (String × Expr)} {decorations : List Decoration}
    (he : events = seen ++ .opens name fields :: (decorations.map Decoration.event ++ .closes :: rest))
    (h1 : (Decoration.recognised w.settings.decorator decorations).length ≤ 1) {l l' : Ledger}
    (hl : l.scope = Scope.after seen) (h : Agree (selfContained w.settings w.path events) l l') :
    Agree (selfContained w.settings w.path events)
      (((Event.opens name fields :: (decorations.map Decoration.event ++ [.closes])).zipIdx seen.length).foldl
        (step w) l)
      (((Event.opens name fields :: (decorations.map Decoration.event ++ [.closes])).zipIdx seen.length).foldl
        (step w') l') := by
  have hopen : l.scope.note (.opens name fields) = Scope.after (seen ++ [.opens name fields]) := by
    rw [Scope.after_concat, hl]
  have hsplit : events = seen ++ [.opens name fields] ++ (decorations.map Decoration.event ++ .closes :: rest) := by
    simpa using he
  have ht := agree_decorations hs hp hsplit h1 { component? := some name } seen.length h.credits
  rw [foldl_bracket, foldl_bracket, ← h.scope, hopen]
  rwa [List.length_append, List.length_singleton] at ht

theorem agree_foldl (hs : w.settings = w'.settings) (hp : w.path = w'.path) {events : List Event}
    (h1 : RoutedOnce w.settings.decorator events) {rest : List Event} (hb : Bracketed rest) (seen : List Event)
    (he : events = seen ++ rest) {l l' : Ledger} (hl : l.scope = Scope.after seen)
    (h : Agree (selfContained w.settings w.path events) l l') :
    Agree (selfContained w.settings w.path events) ((rest.zipIdx seen.length).foldl (step w) l)
      ((rest.zipIdx seen.length).foldl (step w') l') := by
  induction hb generalizing seen l l' with
  | nil => exact h
  | @plain e rest hplain _ ih =>
      have hi := ih (seen ++ [e]) (by simpa using he) (by rw [scope_step, hl, Scope.after_concat])
        (agree_step hs hp he hplain hl h)
      rwa [List.length_append] at hi
  | @type name fields decorations rest _ ih =>
      have ht := agree_type hs hp he (h1 _ _ _ _ _ he) hl h
      have hi := ih (seen ++ .opens name fields :: (decorations.map Decoration.event ++ [.closes]))
        (by simpa using he) ?_ ht
      · have hlist : .opens name fields :: (decorations.map Decoration.event ++ .closes :: rest) =
            (.opens name fields :: (decorations.map Decoration.event ++ [.closes])) ++ rest := by simp
        rw [hlist, List.zipIdx_append, List.foldl_append, List.foldl_append, ← List.length_append]
        exact hi
      · rw [scope_foldl, hl, Scope.after, Scope.after, List.foldl_append]

theorem agree_run (hs : w.settings = w'.settings) (hp : w.path = w'.path) {events : List Event}
    (hb : Bracketed events) (h1 : RoutedOnce w.settings.decorator events) :
    (run w events).credits.filter (selfContained w.settings w.path events ·.decorator) =
      (run w' events).credits.filter (selfContained w.settings w.path events ·.decorator) := by
  have h : Agree (selfContained w.settings w.path events) {} {} := ⟨rfl, rfl, .foreign trivial trivial⟩
  exact (agree_foldl hs hp h1 hb [] rfl rfl h).credits

end Ledger

namespace FileTree

def credits (t : FileTree) (s : Settings) (entry : Path) : Except ScanError (List Credit) :=
  match t.canonical entry with
  | .error cause => .error (.io entry cause)
  | .ok key => do
    let events ← t.events entry
    return (Ledger.run (Resolution.around s t [key] entry) events).credits

theorem scan_eq_credits (t : FileTree) (s : Settings) (entry : Path) :
    t.scan s entry = (t.credits s entry).map (List.map Credit.route) := by
  rw [scan, credits]
  cases t.canonical entry with
  | error cause => rfl
  | ok key =>
      cases t.events entry with
      | error cause => rfl
      | ok events =>
          exact congrArg Except.ok
            (congrArg Collector.routes (Ledger.collector_run (Resolution.around s t [key] entry) events)).symm

variable {t : FileTree} {entry : Path} {content : Content} {text : String}

theorem canonical_of_read (h : t.read entry = .ok content) : ∃ key, t.canonical entry = .ok key := by
  obtain ⟨place, -, -, hc⟩ := place_of_isFile (isFile_of_read h)
  exact ⟨pathOf place, hc⟩

theorem events_of_read (h : t.read entry = .ok content) :
    t.events entry = match content.decode with
      | .ok text => .ok (Source.events text)
      | .error fault => .error (.encoding fault) := by
  simp only [FileTree.events, h]
  cases content.decode <;> rfl

theorem credits_of_read {s : Settings} {key : Path} (hc : t.canonical entry = .ok key)
    (hr : t.read entry = .ok content) (hd : content.decode = .ok text) :
    t.credits s entry = .ok (Ledger.run (Resolution.around s t [key] entry) (Source.events text)).credits := by
  simp only [credits, hc, events_of_read hr, hd]
  rfl

/-- A scan fails by its entry file only. -/
theorem scan_error_iff (t : FileTree) (s : Settings) (entry : Path) :
    (∃ e, t.scan s entry = .error e) ↔ (∃ cause, t.canonical entry = .error cause) ∨
      (∃ cause, t.read entry = .error cause) ∨
        ∃ content fault, t.read entry = .ok content ∧ content.decode = .error fault := by
  cases hr : t.read entry with
  | error cause =>
      constructor
      · intro _
        exact .inr (.inl ⟨cause, rfl⟩)
      · intro _
        rw [scan]
        cases t.canonical entry with
        | error cause' => exact ⟨_, rfl⟩
        | ok key =>
            rw [FileTree.events, hr]
            exact ⟨_, rfl⟩
  | ok content =>
      obtain ⟨key, hc⟩ := canonical_of_read hr
      cases hd : content.decode with
      | error fault =>
          constructor
          · intro _
            exact .inr (.inr ⟨content, fault, rfl, hd⟩)
          · intro _
            simp only [scan, hc, events_of_read hr, hd]
            exact ⟨_, rfl⟩
      | ok text =>
          rw [scan_eq_credits, credits_of_read hc hr hd]
          simp [hc, hd, Except.map]

end FileTree

/-- Two trees in which the entry file reads the same: both scans fail or neither does, and where no type
has more than one route decorator, they credit the decorators that need no import with the same
routes. A scan fails when the entry file cannot be found, read or decoded, and for no other reason. -/
theorem scan_isolated (s : Settings) (entry : Path) :
    (∀ t : FileTree, (∃ e, t.scan s entry = .error e) ↔ (∃ cause, t.canonical entry = .error cause) ∨
      (∃ cause, t.read entry = .error cause) ∨
        ∃ content fault, t.read entry = .ok content ∧ content.decode = .error fault) ∧
      ∀ (t t' : FileTree) (content content' : Content), t.read entry = .ok content → t'.read entry = .ok content' →
        content.decode = content'.decode →
        ((∃ e, t.scan s entry = .error e) ↔ ∃ e, t'.scan s entry = .error e) ∧
          ∀ text, content.decode = .ok text → RoutedOnce s.decorator (Source.events text) →
            ∃ credits credits', t.credits s entry = .ok credits ∧ t'.credits s entry = .ok credits' ∧
              t.scan s entry = .ok (credits.map Credit.route) ∧ t'.scan s entry = .ok (credits'.map Credit.route) ∧
              credits.filter (selfContained s entry (Source.events text) ·.decorator) =
                credits'.filter (selfContained s entry (Source.events text) ·.decorator) := by
  refine ⟨fun t => t.scan_error_iff s entry, ?_⟩
  intro t t' content content' hr hr' hd
  obtain ⟨key, hc⟩ := FileTree.canonical_of_read hr
  obtain ⟨key', hc'⟩ := FileTree.canonical_of_read hr'
  constructor
  · rw [t.scan_error_iff, t'.scan_error_iff]
    simp [hc, hc', hr, hr', hd]
  · intro text ht h1
    have hcredits := FileTree.credits_of_read (s := s) hc hr ht
    have hcredits' := FileTree.credits_of_read (s := s) hc' hr' (hd ▸ ht)
    refine ⟨_, _, hcredits, hcredits', ?_, ?_, ?_⟩
    · rw [FileTree.scan_eq_credits, hcredits]
      rfl
    · rw [FileTree.scan_eq_credits, hcredits']
      rfl
    · have hs : (Resolution.around s t [key] entry).settings = (Resolution.around s t' [key'] entry).settings := rfl
      exact Ledger.agree_run hs rfl (Source.bracketed_events text) h1

def Event.isDecorator : Event → Bool
  | .decorator _ _ => true
  | _ => false

theorem routedOnce_of_isChain (keys : Decorator) {events : List Event}
    (h : events.IsChain fun a b => ¬ (a.isDecorator = true ∧ b.isDecorator = true)) : RoutedOnce keys events := by
  rintro before name fields decorations after rfl
  match decorations with
  | [] => simp [Decoration.recognised]
  | [d] => exact List.length_filterMap_le _ _
  | d :: d' :: decorations =>
      simp [List.isChain_append, List.isChain_cons_cons, Decoration.event, Event.isDecorator] at h

def halfImported : String :=
  "import \x7bGONE\x7d from './gone'\nconst HOME = 'home/Main'\n" ++
    "@AppRouter(\x7bname: GONE\x7d) class Lost \x7b\x7d\n@AppRouter(\x7bname: HOME\x7d) class Home \x7b\x7d"

def withImport : FileTree :=
  ⟨[], [(["Page.ets"], .file (.text halfImported)), (["gone.ets"], .file (.text "const GONE = 'lost'"))]⟩

def withoutImport : FileTree := ⟨[], [(["Page.ets"], .file (.text halfImported)), (["gone.ets"], .directory)]⟩

theorem halfImported_isolated :
    (withImport.scan {} ⟨"/Page.ets"⟩).toOption = some
        [⟨"lost", "Lost", ⟨"/Page.ets"⟩, false, false, "routerParam"⟩,
          ⟨"home/Main", "Home", ⟨"/Page.ets"⟩, false, false, "routerParam"⟩] ∧
      (withoutImport.scan {} ⟨"/Page.ets"⟩).toOption = some
        [⟨"home/Main", "Home", ⟨"/Page.ets"⟩, false, false, "routerParam"⟩] ∧
      ∃ credits credits', withImport.credits {} ⟨"/Page.ets"⟩ = .ok credits ∧
        withoutImport.credits {} ⟨"/Page.ets"⟩ = .ok credits' ∧
        credits.filter (selfContained {} ⟨"/Page.ets"⟩ (Source.events halfImported) ·.decorator) =
          credits'.filter (selfContained {} ⟨"/Page.ets"⟩ (Source.events halfImported) ·.decorator) := by
  refine ⟨by decide +kernel, by decide +kernel, ?_⟩
  have hr : withImport.read ⟨"/Page.ets"⟩ = .ok (.text halfImported) := ok_of_toOption (by decide +kernel)
  have hr' : withoutImport.read ⟨"/Page.ets"⟩ = .ok (.text halfImported) := ok_of_toOption (by decide +kernel)
  have h1 : RoutedOnce {} (Source.events halfImported) := routedOnce_of_isChain {} (by decide +kernel)
  obtain ⟨credits, credits', hc, hc', -, -, hf⟩ :=
    ((scan_isolated {} ⟨"/Page.ets"⟩).2 withImport withoutImport _ _ hr hr' rfl).2 halfImported rfl h1
  exact ⟨credits, credits', hc, hc', hf⟩

end ArkRoutes
