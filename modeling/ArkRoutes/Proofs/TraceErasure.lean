import ArkRoutes.Proofs.Search
import ArkRoutes.Proofs.Trace

namespace ArkRoutes

namespace Watch

variable {w : Watch}

section erasure

/-- Answers that are the same as those of the modules, as long as their log is one of acts with `P`. -/
def Hears (w : Watch) (P : Act → Prop) (ask : Path → Query → Answer) : Prop :=
  ∀ path q, (w.ask path q).Only P → (w.ask path q).value = ask path q

variable {P : Act → Prop} {ask : Path → Query → Answer}

theorem Hears.imported (hw : w.Hears P ask) {b : Bindings} {r : Reference} (h : (w.imported b r).Only P) :
    (w.imported b r).value = (w.hearing ask).imported b r := by
  simp only [Watch.imported, Surroundings.imported] at h ⊢
  cases hb : b.import? r.subject with
  | none => rfl
  | some binding =>
      cases hq : binding.name.query r with
      | error cause => simp only [hq]; rfl
      | ok q =>
          cases hl : w.locate binding.specifier with
          | error cause => simp only [hq, hearing, hl]; rfl
          | ok l =>
              simp only [hb, hq, hl] at h
              simp only [hq, hearing, hl]
              exact hw l.path _ h

theorem Hears.evaluate (hw : w.Hears P ask) {s : Scope} {steps : Nat} {e : Expr}
    (h : (w.evaluate s steps e).Only P) :
    (w.evaluate s steps e).value = s.evaluate (w.hearing ask) steps e := by
  induction steps generalizing e with
  | zero => rfl
  | succ steps ih =>
      cases e with
      | name x =>
          simp only [Watch.evaluate, Scope.evaluate] at h ⊢
          split
          next hi => exact hw.imported (by simpa only [hi, if_true] using h)
          next hi =>
            cases hc : s.constant x with
            | error cause => rfl
            | ok e => exact ih (by simpa [hi, hc] using h)
      | member o m =>
          simp only [Watch.evaluate, Scope.evaluate] at h ⊢
          split
          next hi => exact hw.imported (by simpa only [hi, if_true] using h)
          next hi =>
            cases hm : s.member w.path o m with
            | error cause => simp only [hearing, hm]; rfl
            | ok e =>
                simp only [hearing, hm]
                exact ih (by simpa [hi, hm] using h)
      | _ => rfl

theorem Hears.finding (hw : w.Hears P ask) {s : Scope} {e : Expr} (h : (w.finding s e).Only P) :
    (w.finding s e).value = some (.ofResult (s.value (w.hearing ask) e)) := by
  have he := hw.evaluate (Logged.only_bind_iff.mp h).1
  simp only [Watch.finding, Watch.value, Logged.value_bind, he]
  rfl

theorem Hears.answer? (hw : w.Hears P ask) {q : Query} {s : Scope} {e : Event} (h : (w.answer? q s e).Only P) :
    (w.answer? q s e).value = q.answer? (w.hearing ask) s e := by
  cases e with
  | constant name value =>
      simp only [Watch.answer?, Query.answer?] at h ⊢
      split
      next hn =>
        rw [if_pos hn] at h
        cases ha : q.attribute? with
        | none => exact hw.finding (by simpa only [ha] using h)
        | some a =>
            cases value with
            | object properties =>
                cases hp : Expr.property? properties a with
                | none => simp [hp]
                | some e => simpa [hp] using hw.finding (by simpa only [ha, hp] using h)
            | _ => rfl
      next => rfl
  | opens name fields =>
      simp only [Watch.answer?, Query.answer?] at h ⊢
      split
      next hn =>
        rw [if_pos hn] at h
        cases ha : q.attribute? with
        | none => rfl
        | some a =>
            cases hf : fields.lookup a with
            | none => simp [hf]
            | some e => simpa [hf] using hw.finding (by simpa only [ha, hf] using h)
      next => rfl
  | reexports names source =>
      simp only [Watch.answer?, Query.answer?]
      split
      next => cases hl : w.locate source <;> simp [hearing, hl]
      next => rfl
  | _ => rfl

theorem Hears.search (hw : w.Hears P ask) {q : Query} {s : Scope} {events : List Event}
    (h : (w.search q s events).Only P) : (w.search q s events).value = q.search (w.hearing ask) s events := by
  induction events generalizing s with
  | nil => rfl
  | cons e rest ih =>
      obtain ⟨he, hr⟩ := Logged.only_bind_iff.mp h
      rw [hw.answer? he] at hr
      simp only [Watch.search, Query.search, Logged.value_bind, hw.answer? he]
      cases ha : q.answer? (w.hearing ask) s e with
      | none => exact ih (by simpa only [ha] using hr)
      | some finding => rfl

theorem Hears.askEach (hw : w.Hears P ask) {q : Query} {specifiers : List String}
    (h : (w.askEach q specifiers).Only P) :
    (w.askEach q specifiers).value = specifiers.findSome? (fun specifier => do
      let l ← (w.locate specifier).toOption
      (ask l.path (q.redirected q.owner l.isEntry)).toOption) := by
  induction specifiers with
  | nil => rfl
  | cons specifier rest ih =>
      rw [Watch.askEach] at h
      rw [List.findSome?_cons, Watch.askEach]
      cases hl : w.locate specifier with
      | error cause => simpa [hl, Except.toOption] using ih (by simpa only [hl] using h)
      | ok l =>
          rw [hl] at h
          obtain ⟨ha, hr⟩ := Logged.only_bind_iff.mp h
          rw [hw l.path _ ha] at hr
          cases hv : ask l.path (q.redirected q.owner l.isEntry) with
          | error cause =>
              simpa [hw l.path _ ha, hv, Except.toOption] using ih (by simpa only [hv] using hr)
          | ok v => simp [hw l.path _ ha, hv, Except.toOption]

theorem Hears.follow (hw : w.Hears P ask) {q : Query} {b : Bindings} {target? : Option Path}
    (h : (w.follow q b target?).Only P) :
    (w.follow q b target?).value = q.follow (w.hearing ask) b target? := by
  simp only [Watch.follow, Query.follow] at h ⊢
  cases hb : b.redirect? q.owner with
  | none =>
      rw [hb] at h
      obtain ⟨ha, -⟩ := Logged.only_bind_iff.mp h
      rw [Logged.value_bind, hw.askEach ha]
      split <;> rename_i hs <;> simp only [hearing, hs] <;> rfl
  | some r =>
      rw [hb] at h
      cases target? with
      | some path => exact hw path _ h
      | none =>
          cases hl : w.locate r.specifier with
          | error cause => simp only [hearing, hl]; rfl
          | ok l =>
              simp only [hl] at h
              simp only [hearing, hl]
              exact hw l.path _ h

theorem Hears.answerFrom (hw : w.Hears P ask) {q : Query} {events : List Event}
    (h : (w.answerFrom q events).Only P) :
    (w.answerFrom q events).value = q.answerFrom (w.hearing ask) events := by
  obtain ⟨hs, hf⟩ := Logged.only_bind_iff.mp h
  rw [hw.search hs] at hf
  simp only [Watch.answerFrom, Query.answerFrom, Logged.value_bind, hw.search hs]
  rcases hq : q.search (w.hearing ask) {} events with ⟨s, _ | v | _ | path⟩
  · exact hw.follow (by simpa only [hq] using hf)
  · rfl
  · rfl
  · exact hw.follow (by simpa only [hq] using hf)

theorem Hears.apply (hw : w.Hears P ask) {s : Scope} {d : Draft} {properties : List (String × Expr)}
    (h : (w.apply s d properties).Only P) :
    (w.apply s d properties).value = d.apply w.settings.decorator (s.value (w.hearing ask)) properties := by
  induction properties generalizing d with
  | nil => rfl
  | cons property rest ih =>
      obtain ⟨he, hr⟩ := Logged.only_bind_iff.mp h
      have hv : (w.value s property.2).value = s.value (w.hearing ask) property.2 := hw.evaluate he
      rw [hv] at hr
      simp only [Watch.apply, Draft.apply, List.foldl_cons, Logged.value_bind, hv]
      cases hp : s.value (w.hearing ask) property.2 with
      | ok v => exact ih (by simpa only [hp] using hr)
      | error cause => exact ih (by simpa only [hp] using hr)

theorem Hears.onDecorator (hw : w.Hears P ask) {c : Collector} {properties : List (String × Expr)}
    (h : (w.onDecorator c properties).Only P) :
    (w.onDecorator c properties).value = c.onDecorator (w.hearing ask) properties := by
  simp only [Watch.onDecorator, Collector.onDecorator] at h ⊢
  cases hs : c.stage <;> rw [hs] at h <;>
    simp only [Logged.value_bind, hw.apply (Logged.only_bind_iff.mp h).1] <;> rfl

theorem Hears.step (hw : w.Hears P ask) {c : Collector} {e : Event} (h : (w.step c e).Only P) :
    (w.step c e).value = c.step (w.hearing ask) e := by
  cases e with
  | decorator callee args =>
      simp only [Watch.step, Collector.step] at h ⊢
      cases ha : Collector.routeArguments? w.settings.decorator callee args with
      | none => simp only [hearing, ha]; rfl
      | some properties =>
          simp only [hearing, ha]
          exact hw.onDecorator (by simpa only [ha] using h)
  | _ => rfl

theorem Hears.run (hw : w.Hears P ask) {c : Collector} {events : List Event} (h : (w.run c events).Only P) :
    (w.run c events).value = events.foldl (Collector.step (w.hearing ask)) c := by
  induction events generalizing c with
  | nil => rfl
  | cons e rest ih =>
      obtain ⟨he, hr⟩ := Logged.only_bind_iff.mp h
      rw [hw.step he] at hr
      simp only [Watch.run, Logged.value_bind, hw.step he, List.foldl_cons]
      exact ih hr

end erasure

section acts

def Keeps (w : Watch) (P : Act → Prop) : Prop :=
  ∀ specifier l q, w.locate specifier = .ok l → (w.ask l.path q).Only P

variable {P : Act → Prop}

theorem Keeps.imported (hw : w.Keeps P) (b : Bindings) (r : Reference) : (w.imported b r).Only P := by
  rw [Watch.imported]
  cases b.import? r.subject with
  | none => simp
  | some binding =>
      cases hq : binding.name.query r with
      | error cause => simp [hq]
      | ok q =>
          cases hl : w.locate binding.specifier with
          | error cause => simp [hq, hl]
          | ok l => simpa [hq, hl] using hw binding.specifier l _ hl

theorem Keeps.evaluate (hw : w.Keeps P) (s : Scope) (steps : Nat) (e : Expr) :
    (w.evaluate s steps e).Only P := by
  induction steps generalizing e with
  | zero => simp [Watch.evaluate]
  | succ steps ih =>
      cases e with
      | name x =>
          rw [Watch.evaluate]
          split
          next => exact hw.imported s.bindings (.name x)
          next => cases s.constant x with
            | error cause => simp
            | ok e => exact ih e
      | member o m =>
          rw [Watch.evaluate]
          split
          next => exact hw.imported s.bindings (.member o m)
          next => cases s.member w.path o m with
            | error cause => simp
            | ok e => exact ih e
      | _ => simp [Watch.evaluate]

theorem Keeps.finding (hw : w.Keeps P) (s : Scope) (e : Expr) : (w.finding s e).Only P :=
  Logged.only_bind (hw.evaluate s _ e) (Logged.only_pure _)

theorem Keeps.answer? (hw : w.Keeps P) (q : Query) (s : Scope) (e : Event) : (w.answer? q s e).Only P := by
  cases e with
  | constant name value =>
      simp only [Watch.answer?]
      split
      next =>
        cases q.attribute? with
        | none => exact hw.finding s value
        | some a =>
            cases value with
            | object properties =>
                cases hp : Expr.property? properties a with
                | none => simp [hp]
                | some e => simpa [hp] using hw.finding s e
            | _ => simp
      next => simp
  | opens name fields =>
      rw [Watch.answer?]
      split
      next => cases q.attribute? with
        | none => simp
        | some a => cases hf : fields.lookup a with
          | none => simp [hf]
          | some e => simpa [hf] using hw.finding _ e
      next => simp
  | reexports names source =>
      rw [Watch.answer?]
      split
      next => cases w.locate source <;> simp
      next => simp
  | _ => simp [Watch.answer?]

theorem Keeps.search (hw : w.Keeps P) (q : Query) (s : Scope) (events : List Event) :
    (w.search q s events).Only P := by
  induction events generalizing s with
  | nil => simp [Watch.search]
  | cons e rest ih =>
      refine Logged.only_bind (hw.answer? q s e) ?_
      cases (w.answer? q s e).value with
      | none => exact ih (s.note e)
      | some finding => simp

theorem Keeps.askEach (hw : w.Keeps P) (q : Query) (specifiers : List String) :
    (w.askEach q specifiers).Only P := by
  induction specifiers with
  | nil => simp [Watch.askEach]
  | cons specifier rest ih =>
      rw [Watch.askEach]
      cases hl : w.locate specifier with
      | error cause => simpa [hl] using ih
      | ok l =>
          refine Logged.only_bind (hw specifier l _ hl) ?_
          cases (w.ask l.path (q.redirected q.owner l.isEntry)).value with
          | error cause => exact ih
          | ok v => simp

theorem Keeps.follow (hw : w.Keeps P) (q : Query) (b : Bindings) {target? : Option Path}
    (ht : ∀ path, target? = some path → ∃ specifier l, w.locate specifier = .ok l ∧ l.path = path) :
    (w.follow q b target?).Only P := by
  rw [Watch.follow]
  cases b.redirect? q.owner with
  | none =>
      refine Logged.only_bind (hw.askEach q b.wholesale) ?_
      cases (w.askEach q b.wholesale).value <;> simp
  | some r =>
      cases target? with
      | some path =>
          obtain ⟨specifier, l, hl, rfl⟩ := ht path rfl
          exact hw specifier l _ hl
      | none =>
          cases hl : w.locate r.specifier with
          | error cause => simp [hl]
          | ok l => simpa [hl] using hw r.specifier l _ hl

theorem redirected_of_answer? {q : Query} {s : Scope} {e : Event} {path : Path}
    (h : (w.answer? q s e).value = some (.redirected path)) :
    ∃ specifier l, w.locate specifier = .ok l ∧ l.path = path := by
  have hr (x : Answer) : Finding.ofResult x ≠ .redirected path := by cases x <;> simp [Finding.ofResult]
  have hw : w.Hears (fun _ => True) fun path q => (w.ask path q).value := fun _ _ _ => rfl
  rw [hw.answer? (Logged.only_true _)] at h
  obtain ⟨i, hi⟩ | ⟨names, source, l, rfl, hl⟩ := Query.answer?_cases h
  · exfalso
    cases hi with
    | constant ha => exact hr _ (by simpa [Query.answer?, ha] using h)
    | property ha hp => exact hr _ (by simpa [Query.answer?, ha, Expr.property?_eq_some_iff.mpr hp] using h)
    | field ha hf => exact hr _ (by simpa [Query.answer?, ha, hf] using h)
  · exact ⟨source, l, hl.located, by simpa [Query.answer?_handedOn hl] using h⟩

/-- Only a module that is there is handed a question on by name. -/
theorem redirected_of_search {q : Query} {s s' : Scope} {events : List Event} {path : Path}
    (h : (w.search q s events).value = (s', some (.redirected path))) :
    ∃ specifier l, w.locate specifier = .ok l ∧ l.path = path := by
  induction events generalizing s with
  | nil => cases h
  | cons e rest ih =>
      simp only [Watch.search, Logged.value_bind] at h
      cases ha : (w.answer? q s e).value with
      | none => exact ih (by simpa [ha] using h)
      | some finding =>
          simp only [ha, Logged.value_pure, Prod.mk.injEq, Option.some.injEq] at h
          exact redirected_of_answer? (by rw [ha, h.2])

theorem Keeps.answerFrom (hw : w.Keeps P) (q : Query) (events : List Event) : (w.answerFrom q events).Only P := by
  refine Logged.only_bind (hw.search q {} events) ?_
  split
  next => simp
  next => simp
  next s path hs =>
    refine hw.follow q s.bindings ?_
    rintro _ ⟨⟩
    exact redirected_of_search hs
  next s hs => exact hw.follow q s.bindings (by simp)

theorem Keeps.apply (hw : w.Keeps P) (s : Scope) (d : Draft) (properties : List (String × Expr)) :
    (w.apply s d properties).Only P := by
  induction properties generalizing d with
  | nil => simp [Watch.apply]
  | cons property rest ih =>
      refine Logged.only_bind (hw.evaluate s _ property.2) ?_
      split
      next => exact ih _
      next => exact ih d

theorem Keeps.step (hw : w.Keeps P) (c : Collector) (e : Event) : (w.step c e).Only P := by
  cases e with
  | decorator callee args =>
      simp only [Watch.step]
      cases Collector.routeArguments? w.settings.decorator callee args with
      | none => simp
      | some properties =>
          simp only [Watch.onDecorator]
          split <;> exact Logged.only_bind (hw.apply c.scope _ properties) (Logged.only_pure _)
  | _ => simp [Watch.step]

theorem Keeps.run (hw : w.Keeps P) (c : Collector) (events : List Event) : (w.run c events).Only P := by
  induction events generalizing c with
  | nil => simp [Watch.run]
  | cons e rest ih => exact Logged.only_bind (hw.step c e) (ih _)

end acts

end Watch

namespace Resolution

variable {s : Settings} {t : FileTree}

theorem hears_watch {resolve : Path → Query → Logged Answer} {ask : Path → Query → Answer} (path : Path)
    (chain : List Path) (h : ∀ path q, (resolve path q).value = ask path q) :
    (watch s t path chain resolve).Hears (fun _ => True) ask :=
  fun path q _ => h path q

theorem resolveLogged_value (depth : Nat) (chain : List Path) (path : Path) (q : Query) :
    (resolveLogged s t depth chain path q).value = resolve s t depth chain path q := by
  induction depth generalizing chain path q with
  | zero =>
      rw [resolveLogged, resolve]
      split <;> rfl
  | succ depth ih =>
      rw [resolveLogged, resolve]
      split
      next => rfl
      next =>
        cases t.events (t.key path) with
        | error cause => rfl
        | ok events =>
            exact (hears_watch (t.key path) (chain ++ [t.key path]) (ih _)).answerFrom (Logged.only_true _)

theorem queryLogged_value (chain : List Path) (path : Path) (q : Query) :
    (queryLogged s t chain path q).value = query s t chain path q :=
  resolveLogged_value _ chain path q

theorem hears_answered (path : Path) (chain : List Path) (resolve : Path → Query → Logged Answer)
    (ask : Path → Query → Answer) : (watch s t path chain resolve).Hears (Act.Answered chain ask) ask := by
  intro path q h
  exact Logged.only_act.mp (Logged.only_bind_iff.mp h).1 path q _ rfl

end Resolution

theorem FileTree.scanLogged_value (t : FileTree) (s : Settings) (entry : Path) :
    (t.scanLogged s entry).value = t.scan s entry := by
  rw [scanLogged, scan]
  cases t.canonical entry with
  | error cause => rfl
  | ok key =>
      cases t.events entry with
      | error cause => rfl
      | ok events =>
          have hw : (Resolution.aroundLogged s t [key] entry).Hears (fun _ => True) (Resolution.query s t [key]) :=
            Resolution.hears_watch entry [key] (Resolution.queryLogged_value [key])
          simp only [Logged.value_bind, hw.run (Logged.only_true _)]
          rfl

/-- A scan depends on no answer that is not in its log. -/
theorem FileTree.scan_of_answered {t : FileTree} {s : Settings} {entry key : Path} {events : List Event}
    {ask : Path → Query → Answer} (hc : t.canonical entry = .ok key) (he : t.events entry = .ok events)
    (h : (t.scanLogged s entry).Only (Act.Answered [key] ask)) :
    t.scan s entry = .ok (Collector.run (Resolution.surroundings s t entry ask) events).routes := by
  rw [← scanLogged_value]
  simp only [scanLogged, hc, he] at h ⊢
  have hr := (Resolution.hears_answered entry [key] _ ask).run (Logged.only_bind_iff.mp h).1
  rw [Logged.value_bind, Resolution.aroundLogged, hr]
  rfl

end ArkRoutes
