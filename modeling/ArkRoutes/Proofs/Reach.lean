import ArkRoutes.Proofs.Chain
import ArkRoutes.Proofs.EntryFile

namespace ArkRoutes

open Resolution

namespace Query

def declaration? (q : Query) : Event → Option Expr
  | .constant name value =>
    if name = q.owner then
      match q.attribute?, value with
      | none, value => some value
      | some a, .object properties => Expr.property? properties a
      | some _, _ => none
    else none
  | .opens name fields => if name = q.owner then q.attribute?.bind (fields.lookup ·) else none
  | _ => none

variable {q : Query} {event : Event} {e : Expr}

theorem declaration?_eq_some_iff : q.declaration? event = some e ↔ q.Declares event e := by
  constructor
  · intro h
    cases event with
    | constant name value =>
        simp only [declaration?] at h
        split_ifs at h with hn
        subst hn
        cases ha : q.attribute? with
        | none =>
            simp only [ha, Option.some.injEq] at h
            subst h
            exact .constant ha
        | some a =>
            cases value with
            | object properties =>
                simp only [ha] at h
                exact .property ha (Expr.property?_eq_some_iff.mp h)
            | _ => simp [ha] at h
    | opens name fields =>
        simp only [declaration?] at h
        split_ifs at h with hn
        subst hn
        obtain ⟨a, ha, hf⟩ := Option.bind_eq_some_iff.mp h
        exact .field ha hf
    | _ => cases h
  · intro h
    cases h with
    | constant h => simp [declaration?, h]
    | property h hp => simp [declaration?, h, Expr.property?_eq_some_iff.mpr hp]
    | field h hf => simp [declaration?, h, hf]

theorem declares_flag (flag : Bool) : Declares { q with indexed := flag } event e ↔ q.declaration? event = some e :=
  declaration?_eq_some_iff.symm

theorem HandedOn.mem_redirects {locate : String → Except ResolveError Located} {names : List ReExport} {source : String}
    {l : Located} (h : q.HandedOn locate names source l) {events : List Event} (he : .reexports names source ∈ events) :
    ∃ r ∈ (events.flatMap Event.redirects).filter (·.exported = q.owner), r.specifier = source := by
  obtain ⟨n, hn, hx⟩ := h.exports
  refine ⟨⟨n.exported, n.original, source⟩, List.mem_filter.mpr ⟨?_, by simpa using hx⟩, rfl⟩
  exact List.mem_flatMap.mpr ⟨_, he, List.mem_map.mpr ⟨n, hn, rfl⟩⟩

end Query

theorem eq_singleton_literal {es : List Expr} {v : Literal} (h : es.map Expr.literal? = [some v]) :
    es = [.literal v] := by
  obtain ⟨e, rfl, he⟩ := List.map_eq_singleton_iff.mp h
  cases e <;> cases he
  rfl

section

variable (s : Settings) (t : FileTree)

/-- `PassedAlong path q files v`: the module at `path` and the ones that it passes `q` on to are the
`files`, each under its key, and the last of them has no other declaration for it than the literal `v`.
The others declare nothing of it and pass its owner on once, by any name. -/
inductive PassedAlong : Path → Query → List Path → Literal → Prop
  | answered {path q events v} (hf : t.events (t.key path) = .ok events)
      (hd : events.filterMap q.declaration? = [.literal v])
      (hr : (events.flatMap Event.redirects).filter (·.exported = q.owner) = []) :
      PassedAlong path q [t.key path] v
  | passedOn {path q events r l files v} (hf : t.events (t.key path) = .ok events)
      (hd : events.filterMap q.declaration? = [])
      (hr : (events.flatMap Event.redirects).filter (·.exported = q.owner) = [r])
      (hl : Module.locate s t (t.key path).directory r.specifier = .ok l)
      (hn : PassedAlong l.path (q.redirected r.original l.isEntry) files v) :
      PassedAlong path q (t.key path :: files) v

end

variable {s : Settings} {t : FileTree} {q : Query} {w : Surroundings} {events : List Event}

namespace Query

theorem answerFrom_literal {v : Literal} (hd : events.filterMap q.declaration? = [.literal v])
    (hr : (events.flatMap Event.redirects).filter (·.exported = q.owner) = []) (flag : Bool) :
    answerFrom { q with indexed := flag } w events = .ok v := by
  obtain hb | ⟨before, event, rest, rfl, hb, ⟨e, he⟩ | ⟨names, source, l, rfl, hl⟩⟩ :=
    silent_or_settled { q with indexed := flag } w.locate events
  · have hm : .literal v ∈ events.filterMap q.declaration? := by simp [hd]
    obtain ⟨event, he, hv⟩ := List.mem_filterMap.mp hm
    exact ((hb event he).undeclared _ ((declares_flag flag).mpr hv)).elim
  · have hm : e ∈ (before ++ event :: rest).filterMap q.declaration? :=
      List.mem_filterMap.mpr ⟨event, by simp, (declares_flag flag).mp he⟩
    rw [hd, List.mem_singleton] at hm
    subst hm
    rw [answerFrom_declared rest hb he]
    rfl
  · have he : .reexports names source ∈ before ++ .reexports names source :: rest := by simp
    obtain ⟨r, hm, -⟩ := hl.mem_redirects he
    have hn : r ∈ [] := hr ▸ hm
    cases hn

/-- A question that a file passes on goes to the module that the owner comes from. -/
theorem answerFrom_passedOn {r : Redirect} {l : Located} (hd : events.filterMap q.declaration? = [])
    (hr : (events.flatMap Event.redirects).filter (·.exported = q.owner) = [r])
    (hl : w.locate r.specifier = .ok l) (flag : Bool) :
    ∃ entry, answerFrom { q with indexed := flag } w events = w.ask l.path (q.redirected r.original entry) := by
  have honly : ∀ r' ∈ events.flatMap Event.redirects, r'.exported = q.owner → r' = r := by
    intro r' hm hx
    have hf : r' ∈ (events.flatMap Event.redirects).filter (·.exported = q.owner) := List.mem_filter.mpr ⟨hm, by simpa⟩
    simpa [hr] using hf
  obtain hb | ⟨before, event, rest, rfl, hb, ⟨e, he⟩ | ⟨names, source, l', rfl, hl'⟩⟩ :=
    silent_or_settled { q with indexed := flag } w.locate events
  · have hlast : (Scope.after events).bindings.redirect? q.owner = some r := by
      obtain ⟨before, after, heq, -, hx, ha⟩ := List.filter_eq_cons_iff.mp hr
      refine Scope.redirect?_after.mpr ⟨before, after, heq, by simpa using hx, ?_⟩
      simpa [List.filter_eq_nil_iff] using ha
    refine ⟨l.isEntry, ?_⟩
    rw [answerFrom_silent hb, follow_redirect (q := { q with indexed := flag }) hlast, hl]
    rfl
  · have hm : e ∈ (before ++ event :: rest).filterMap q.declaration? :=
      List.mem_filterMap.mpr ⟨event, by simp, (declares_flag flag).mp he⟩
    simp [hd] at hm
  · obtain ⟨n, hn, hredirect⟩ := Scope.redirect?_after_reexports before source hl'.exports
    have heq : (⟨n.exported, n.original, source⟩ : Redirect) = r := by
      refine honly _ (List.mem_flatMap.mpr ⟨.reexports names source, by simp, ?_⟩) hn.holds
      exact List.mem_map.mpr ⟨n, hn.mem, rfl⟩
    subst heq
    obtain rfl : l' = l := Except.ok.inj (hl'.located.symm.trans hl)
    exact ⟨false, by rw [answerFrom_handedOn rest hb hl', follow_target hredirect]; rfl⟩

end Query

theorem any_same_eq_false {chain files : List Path} {file : Path}
    (h : (chain ++ file :: files).Pairwise fun a b => a.same b = false) : chain.any file.same = false := by
  rw [List.any_eq_false]
  intro a ha
  have hs := (List.pairwise_append.mp h).2.2 a ha file (by simp)
  simp [Path.same_comm file a, hs]

section

variable {chain : List Path} {path : Path}

theorem resolve_zero (hc : chain.any (t.key path).same = false) :
    resolve s t 0 chain path q = .error (.depthExceeded s.depthLimit) := by
  rw [resolve, if_neg (by simp [hc])]

theorem resolve_succ (hc : chain.any (t.key path).same = false) (hf : t.events (t.key path) = .ok events)
    (depth : Nat) : resolve s t (depth + 1) chain path q =
      q.answerFrom (surroundings s t (t.key path) (resolve s t depth (chain ++ [t.key path]))) events := by
  rw [resolve, if_neg (by simp [hc])]
  simp only [hf]

end

/-- As many files as a question is passed along may still join the chain, or there are too few. -/
theorem resolve_passedAlong {path : Path} {files : List Path} {v : Literal} (h : PassedAlong s t path q files v)
    (depth : Nat) {chain : List Path} (hc : (chain ++ files).Pairwise fun a b => a.same b = false) (flag : Bool) :
    resolve s t depth chain path { q with indexed := flag } =
      if files.length ≤ depth then .ok v else .error (.depthExceeded s.depthLimit) := by
  -- every file that passes the question on takes one of the places that are left
  induction h generalizing depth chain flag with
  | answered hf hd hr =>
      have hnew := any_same_eq_false hc
      cases depth with
      | zero => rw [resolve_zero hnew, if_neg (by simp)]
      | succ depth =>
          rw [resolve_succ hnew hf, if_pos (by simp)]
          exact Query.answerFrom_literal hd hr flag
  | passedOn hf hd hr hl _ ih =>
      have hnew := any_same_eq_false hc
      cases depth with
      | zero => rw [resolve_zero hnew, if_neg (by simp)]
      | succ depth =>
          rw [List.append_cons] at hc
          obtain ⟨entry, ha⟩ := Query.answerFrom_passedOn (w := surroundings s t _ (resolve s t depth _)) hd hr hl flag
          rw [resolve_succ hnew hf, ha]
          simp only [List.length_cons, Nat.add_le_add_iff_right]
          exact ih depth hc entry

theorem two_le_of_fault? (h : s.fault? = none) : 2 ≤ s.depthLimit := by
  grind [Settings.fault?]

/-- An import whose question is passed along `n` files has its value exactly if the limit is not less
than `n`, and every limit that settings may have leaves room for one file that passes it on. -/
theorem imported_passedAlong {first entry : Path} {b : Bindings} {r : Reference} {binding : ImportBinding} {l : Located}
    {files : List Path} {v : Literal} (hb : b.import? r.subject = some binding) (hq : binding.name.query r = .ok q)
    (hl : Module.locate s t entry.directory binding.specifier = .ok l) (hp : PassedAlong s t l.path q files v)
    (hd : (first :: files).Pairwise fun a b => a.same b = false) :
    (around s t [first] entry).imported b r =
        (if files.length ≤ s.depthLimit then .ok v else .error (.depthExceeded s.depthLimit)) ∧
      (s.fault? = none → files.length ≤ 2 → (around s t [first] entry).imported b r = .ok v) := by
  have hi : (around s t [first] entry).imported b r =
      if files.length ≤ s.depthLimit then .ok v else .error (.depthExceeded s.depthLimit) := by
    have ha : query s t [first] l.path { q with indexed := l.isEntry } =
        if files.length ≤ s.depthLimit then .ok v else .error (.depthExceeded s.depthLimit) :=
      resolve_passedAlong hp (room s [first]) hd l.isEntry
    have hw : (around s t [first] entry).locate binding.specifier = .ok l := hl
    simp only [Surroundings.imported, hb, hq, hw]
    exact ha
  refine ⟨hi, fun hf hn => ?_⟩
  have hs := two_le_of_fault? hf
  rw [hi, if_pos (by omega)]

def relayedPackage : FileTree where
  home := []
  entries :=
    [(["oh_modules"], .directory), (["oh_modules", "lib"], .directory),
      (["oh_modules", "lib", "Index.ets"], .file (.text "export {HOME as START} from './home'")),
      (["oh_modules", "lib", "home.ets"], .file (.text "export {MAIN as HOME} from './main'")),
      (["oh_modules", "lib", "main.ets"], .file (.text "export const MAIN = 'home/Main'"))]

def relayedFiles : List Path :=
  [⟨"/oh_modules/lib/Index.ets"⟩, ⟨"/oh_modules/lib/home.ets"⟩, ⟨"/oh_modules/lib/main.ets"⟩]

theorem relayedPackage_locate (d : Nat) {directory : Path} {specifier : String} {l : Located}
    (h : (Module.locate {} relayedPackage directory specifier).toOption = some l) :
    Module.locate { depthLimit := d } relayedPackage directory specifier = .ok l := ok_of_toOption h

theorem exists_events (t : FileTree) (path : Path) (P : List Event → Prop) [DecidablePred P]
    (h : (t.events path).toOption.any (fun events => decide (P events)) = true) :
    ∃ events, t.events path = .ok events ∧ P events := by
  cases he : t.events path with
  | error cause => simp [he, Except.toOption] at h
  | ok events => exact ⟨events, rfl, by simpa [he, Except.toOption] using h⟩

theorem relayedPackage_passedAlong (d : Nat) :
    PassedAlong { depthLimit := d } relayedPackage ⟨"/oh_modules/lib/Index.ets"⟩ ⟨"START", none, false⟩ relayedFiles
      (.text "home/Main") := by
  have keys : [⟨"/oh_modules/lib/Index.ets"⟩, ⟨"/oh_modules/lib/./home.ets"⟩, ⟨"/oh_modules/lib/./main.ets"⟩].map
      relayedPackage.key = relayedFiles := by decide +kernel
  rw [← keys]
  obtain ⟨index, hf, hd, hr⟩ :=
    exists_events relayedPackage (relayedPackage.key ⟨"/oh_modules/lib/Index.ets"⟩)
      (fun events => events.filterMap (Query.declaration? ⟨"START", none, false⟩) = [] ∧
        (events.flatMap Event.redirects).filter (·.exported = "START") = [⟨"START", "HOME", "./home"⟩])
      (by decide +kernel)
  refine .passedOn hf hd hr (l := ⟨⟨"/oh_modules/lib/./home.ets"⟩, false⟩)
    (relayedPackage_locate d (by decide +kernel)) ?_
  obtain ⟨home, hf, hd, hr⟩ :=
    exists_events relayedPackage (relayedPackage.key ⟨"/oh_modules/lib/./home.ets"⟩)
      (fun events => events.filterMap (Query.declaration? ⟨"HOME", none, false⟩) = [] ∧
        (events.flatMap Event.redirects).filter (·.exported = "HOME") = [⟨"HOME", "MAIN", "./main"⟩])
      (by decide +kernel)
  refine .passedOn hf hd hr (l := ⟨⟨"/oh_modules/lib/./main.ets"⟩, false⟩)
    (relayedPackage_locate d (by decide +kernel)) ?_
  obtain ⟨main, hf, hd, hr⟩ :=
    exists_events relayedPackage (relayedPackage.key ⟨"/oh_modules/lib/./main.ets"⟩)
      (fun events => (events.filterMap (Query.declaration? ⟨"MAIN", none, false⟩)).map Expr.literal? =
          [some (.text "home/Main")] ∧
        (events.flatMap Event.redirects).filter (·.exported = "MAIN") = [])
      (by decide +kernel)
  exact .answered hf (eq_singleton_literal hd) hr

/-- Three files are out of reach for a limit of two, and within reach for a limit of three. -/
theorem relayedPackage_imported :
    Settings.fault? { depthLimit := 2 } = none ∧
      (around { depthLimit := 2 } relayedPackage [⟨"/Page.ets"⟩] ⟨"/Page.ets"⟩).imported
        { imports := [⟨.named "START" "S", "lib"⟩] } (.name "S") = .error (.depthExceeded 2) ∧
      (around { depthLimit := 3 } relayedPackage [⟨"/Page.ets"⟩] ⟨"/Page.ets"⟩).imported
        { imports := [⟨.named "START" "S", "lib"⟩] } (.name "S") = .ok (.text "home/Main") := by
  have hl (d : Nat) : Module.locate { depthLimit := d } relayedPackage (Path.directory ⟨"/Page.ets"⟩) "lib" =
      .ok ⟨⟨"/oh_modules/lib/Index.ets"⟩, true⟩ := relayedPackage_locate d (by decide +kernel)
  have hd : (⟨"/Page.ets"⟩ :: relayedFiles).Pairwise fun a b => a.same b = false := by decide +kernel
  have hi (d : Nat) : (around { depthLimit := d } relayedPackage [⟨"/Page.ets"⟩] ⟨"/Page.ets"⟩).imported
      { imports := [⟨.named "START" "S", "lib"⟩] } (.name "S") =
        if 3 ≤ d then .ok (.text "home/Main") else .error (.depthExceeded d) := by
    have hb : Bindings.import? { imports := [⟨.named "START" "S", "lib"⟩] } (Reference.name "S").subject =
        some ⟨.named "START" "S", "lib"⟩ := rfl
    exact (imported_passedAlong hb rfl (hl d) (relayedPackage_passedAlong d) hd).1
  exact ⟨by decide +kernel, hi 2, hi 3⟩

end ArkRoutes
