import ArkRoutes.Proofs.Files
import ArkRoutes.Proofs.Search

namespace ArkRoutes

open Resolution

variable (s : Settings) (t : FileTree)

mutual

/-- `Means file seen e v`: behind the events `seen` of `file`, the expression `e` stands for `v`. What
is imported hides what the file declares itself. -/
inductive Means : Path → List Event → Expr → Literal → Prop
  | literal {file seen v} : Means file seen (.literal v) v
  | constant {file seen x e v} (hi : ∀ b ∈ seen.flatMap Event.imported, b.name.localName ≠ x)
      (hc : IsLast (fun p => p.1 = x) (seen.filterMap Event.constant?) (x, e))
      (he : Means file seen e v) : Means file seen (.name x) v
  | field {file seen o m fields e v} (hi : ∀ b ∈ seen.flatMap Event.imported, b.name.localName ≠ o)
      (ht : IsLast (fun p => p.1 = o) (seen.filterMap Event.type?) (o, fields))
      (hf : fields.lookup m = some e) (he : Means file seen e v) : Means file seen (.member o m) v
  | property {file seen o m properties e v} (hi : ∀ b ∈ seen.flatMap Event.imported, b.name.localName ≠ o)
      (ht : ∀ p ∈ seen.filterMap Event.type?, p.1 ≠ o)
      (hc : IsLast (fun p => p.1 = o) (seen.filterMap Event.constant?) (o, .object properties))
      (hp : IsLast (fun p => p.1 = m) properties (m, e)) (he : Means file seen e v) :
      Means file seen (.member o m) v
  | importedName {file seen x b v}
      (hi : IsLast (fun b => b.name.localName = x) (seen.flatMap Event.imported) b)
      (hb : Imports file b (.name x) v) : Means file seen (.name x) v
  | importedMember {file seen o m b v}
      (hi : IsLast (fun b => b.name.localName = o) (seen.flatMap Event.imported) b)
      (hb : Imports file b (.member o m) v) : Means file seen (.member o m) v

/-- `Imports file b r v`: the reference `r` to what `file` imports by `b` stands for `v` in the module
it comes from. The members of a module as a whole are its exports. -/
inductive Imports : Path → ImportBinding → Reference → Literal → Prop
  | name {file b x l v} (hn : b.name.isEverything = false)
      (hl : Module.locate s t file.directory b.specifier = .ok l)
      (hq : Justified l.path ⟨b.name.exportedName, none, l.isEntry⟩ v) : Imports file b (.name x) v
  | member {file b o m l v} (hn : b.name.isEverything = false)
      (hl : Module.locate s t file.directory b.specifier = .ok l)
      (hq : Justified l.path ⟨b.name.exportedName, some m, l.isEntry⟩ v) : Imports file b (.member o m) v
  | exported {file b o m l v} (hn : b.name.isEverything = true)
      (hl : Module.locate s t file.directory b.specifier = .ok l)
      (hq : Justified l.path ⟨m, none, l.isEntry⟩ v) : Imports file b (.member o m) v

/-- `Justified path q v`: the module at `path` answers `q` with `v`. Its first declaration of what is
asked for says so, or no declaration does and the module that the owner is passed on from answers; at
an entry file only what stands before the module is passed on counts. -/
inductive Justified : Path → Query → Literal → Prop
  | declared {path q before event rest e v} (hf : t.events (t.key path) = .ok (before ++ event :: rest))
      (hb : ∀ earlier ∈ before, q.Silent (Module.locate s t (t.key path).directory) earlier)
      (hd : q.Declares event e) (he : Means (t.key path) (event.inView before) e v) : Justified path q v
  | passedOn {path q events r l v} (hi : q.indexed = false) (hf : t.events (t.key path) = .ok events)
      (hb : ∀ event ∈ events, ∀ e, ¬ q.Declares event e)
      (hr : IsLast (fun r => r.exported = q.owner) (events.flatMap Event.redirects) r)
      (hl : Module.locate s t (t.key path).directory r.specifier = .ok l)
      (hq : Justified l.path (q.redirected r.original l.isEntry) v) : Justified path q v
  | handedOn {path q before names source rest n l v} (hi : q.indexed = true)
      (hf : t.events (t.key path) = .ok (before ++ .reexports names source :: rest))
      (hb : ∀ earlier ∈ before, q.Silent (Module.locate s t (t.key path).directory) earlier)
      (hn : IsLast (fun n => n.exported = q.owner) names n)
      (hl : Module.locate s t (t.key path).directory source = .ok l)
      (hq : Justified l.path (q.redirected n.original false) v) : Justified path q v
  | wholesale {path q events source l v} (hf : t.events (t.key path) = .ok events)
      (hb : ∀ event ∈ events, ∀ e, ¬ q.Declares event e)
      (hr : ∀ r ∈ events.flatMap Event.redirects, r.exported ≠ q.owner) (hs : .reexportsAll source ∈ events)
      (hl : Module.locate s t (t.key path).directory source = .ok l)
      (hq : Justified l.path (q.redirected q.owner l.isEntry) v) : Justified path q v

end

variable {s t} {file : Path} {ask : Path → Query → Except ResolveError Literal}

theorem imports_of_imported (hask : ∀ path q v, ask path q = .ok v → Justified s t path q v)
    {b : Bindings} {r : Reference} {v : Literal} (h : (surroundings s t file ask).imported b r = .ok v) :
    ∃ binding, b.import? r.subject = some binding ∧ Imports s t file binding r v := by
  rw [Surroundings.imported] at h
  cases hb : b.import? r.subject with
  | none => simp [hb] at h
  | some binding =>
      simp only [hb] at h
      obtain ⟨q, hq, h⟩ := ok_of_bind h
      obtain ⟨l, hl, h⟩ := ok_of_bind h
      have hj := hask _ _ _ h
      refine ⟨binding, rfl, ?_⟩
      cases r with
      | name x =>
          cases he : binding.name.isEverything with
          | true => simp [ImportedName.query, he] at hq
          | false =>
              simp only [ImportedName.query, he, Bool.false_eq_true, if_false, Except.ok.injEq] at hq
              subst hq
              exact .name he hl hj
      | member o m =>
          cases he : binding.name.isEverything with
          | true =>
              simp only [ImportedName.query, he, if_true, Except.ok.injEq] at hq
              subst hq
              exact .exported he hl hj
          | false =>
              simp only [ImportedName.query, he, Bool.false_eq_true, if_false, Except.ok.injEq] at hq
              subst hq
              exact .member he hl hj

theorem means_of_evaluate (hask : ∀ path q v, ask path q = .ok v → Justified s t path q v)
    {seen : List Event} {steps : Nat} {e : Expr} {v : Literal}
    (h : (Scope.after seen).evaluate (surroundings s t file ask) steps e = .ok v) : Means s t file seen e v := by
  induction steps generalizing e with
  | zero => simp [Scope.evaluate] at h
  | succ steps ih =>
      cases e with
      | literal u =>
          simp only [Scope.evaluate, Except.ok.injEq] at h
          subst h
          exact .literal
      | name x =>
          cases hi : (Scope.after seen).bindings.import? x with
          | some b =>
              simp only [Scope.evaluate, hi, Option.isSome_some, if_true] at h
              obtain ⟨binding, hb, hj⟩ := imports_of_imported hask h
              exact .importedName (Scope.import?_after.mp hb) hj
          | none =>
              simp only [Scope.evaluate, hi, Option.isSome_none, Bool.false_eq_true, if_false] at h
              obtain ⟨e, hc, he⟩ := ok_of_bind h
              exact .constant (Scope.import?_after_eq_none.mp hi) (Scope.constant_after_eq_ok_iff.mp hc) (ih he)
      | member o m =>
          cases hi : (Scope.after seen).bindings.import? o with
          | some b =>
              simp only [Scope.evaluate, hi, Option.isSome_some, if_true] at h
              obtain ⟨binding, hb, hj⟩ := imports_of_imported hask h
              exact .importedMember (Scope.import?_after.mp hb) hj
          | none =>
              simp only [Scope.evaluate, hi, Option.isSome_none, Bool.false_eq_true, if_false] at h
              obtain ⟨e, hm, he⟩ := ok_of_bind h
              have hi := Scope.import?_after_eq_none.mp hi
              obtain ⟨fields, ht, hf⟩ | ⟨ht, properties, hc, hp⟩ := Scope.member_after_eq_ok_iff.mp hm
              · exact .field hi ht hf (ih he)
              · exact .property hi ht hc hp (ih he)
      | object properties => simp [Scope.evaluate] at h
      | other kind => simp [Scope.evaluate] at h

variable {path : Path} {q : Query} {v : Literal}

/-- A question that no event of the file settles goes where the file passes its owner on from. -/
theorem justified_of_follow (hask : ∀ path q v, ask path q = .ok v → Justified s t path q v)
    {events : List Event} (hf : t.events (t.key path) = .ok events)
    (hb : ∀ event ∈ events, q.Silent (Module.locate s t (t.key path).directory) event)
    (h : q.follow (surroundings s t (t.key path) ask) (Scope.after events).bindings none = .ok v) :
    Justified s t path q v := by
  have hd : ∀ event ∈ events, ∀ e, ¬ q.Declares event e := fun event he => (hb event he).undeclared
  cases hr : (Scope.after events).bindings.redirect? q.owner with
  | some r =>
      rw [Query.follow_redirect hr] at h
      obtain ⟨l, hl, h⟩ := ok_of_bind h
      have hlast := Scope.redirect?_after.mp hr
      have hi := Query.indexed_eq_false_of_silent hb hlast.mem hlast.holds hl
      exact .passedOn hi hf hd hlast hl (hask _ _ _ h)
  | none =>
      simp only [Query.follow, hr] at h
      split at h
      next u hu =>
        cases h
        obtain ⟨source, hs, ha⟩ := List.exists_of_findSome?_eq_some hu
        obtain ⟨l, hl, ha⟩ := Option.bind_eq_some_iff.mp ha
        exact .wholesale hf hd (Scope.redirect?_after_eq_none.mp hr) (Scope.mem_wholesale_after.mp hs)
          (ok_of_toOption hl) (hask _ _ _ (ok_of_toOption ha))
      next => simp at h

theorem justified_of_answerFrom (hask : ∀ path q v, ask path q = .ok v → Justified s t path q v)
    {events : List Event} (hf : t.events (t.key path) = .ok events)
    (h : q.answerFrom (surroundings s t (t.key path) ask) events = .ok v) : Justified s t path q v := by
  obtain hb | ⟨before, event, rest, rfl, hb, ⟨e, hd⟩ | ⟨names, source, l, rfl, hn⟩⟩ :=
    q.silent_or_settled (Module.locate s t (t.key path).directory) events
  · rw [Query.answerFrom_silent hb] at h
    exact justified_of_follow hask hf hb h
  · rw [Query.answerFrom_declared rest hb hd] at h
    cases he : (Scope.after (event.inView before)).value (surroundings s t (t.key path) ask) e with
    | error cause => simp [he] at h
    | ok u =>
        simp only [he, Except.ok.injEq] at h
        subst h
        exact .declared hf hb hd (means_of_evaluate hask he)
  · obtain ⟨n, hlast, hr⟩ := Scope.redirect?_after_reexports before source hn.exports
    rw [Query.answerFrom_handedOn rest hb hn, Query.follow_target hr] at h
    exact .handedOn hn.indexed hf hb hlast hn.located (hask _ _ _ h)

theorem justified_of_resolve {depth : Nat} {chain : List Path} (h : resolve s t depth chain path q = .ok v) :
    Justified s t path q v := by
  induction depth generalizing chain path q v with
  | zero =>
      rw [resolve] at h
      split at h <;> simp at h
  | succ depth ih =>
      rw [resolve] at h
      split at h
      next => simp at h
      next =>
        cases hf : t.events (t.key path) with
        | error cause => simp [hf] at h
        | ok events =>
            simp only [hf] at h
            exact justified_of_answerFrom (fun _ _ _ => ih) hf h

/-- Whatever files there are and however they import and pass on each other's names, a question to a
module and a reference to an import come up with justified values only. -/
theorem resolved_values_justified (s : Settings) (t : FileTree) (chain : List Path) :
    (∀ path q v, query s t chain path q = .ok v → Justified s t path q v) ∧
      ∀ file b r v, (around s t chain file).imported b r = .ok v →
        ∃ binding, b.import? r.subject = some binding ∧ Imports s t file binding r v :=
  ⟨fun _ _ _ h => justified_of_resolve h,
    fun _ _ _ _ h => imports_of_imported (fun _ _ _ ha => justified_of_resolve ha) h⟩

/-- An entry file that renames what a second file passes on from a third one as a whole, where it comes
from a fourth; the second and the third pass on each other. -/
def renamingPackage : FileTree where
  home := []
  entries :=
    [(["Index.ets"], .file (.text "export {Pages as Routes} from './pages'")),
      (["pages.ets"], .file (.text "export * from './names'")),
      (["names.ets"], .file (.text ("export * from './pages'\n" ++ "import {HOME as H} from './home'\n" ++
        "class Pages {static FIRST = Pages.MAIN; static MAIN = H}"))),
      (["home.ets"], .file (.text "const HOME = 'home/Main'"))]

theorem renamingPackage_justified :
    Justified {} renamingPackage ⟨"/Index.ets"⟩ ⟨"Routes", some "FIRST", true⟩ (.text "home/Main") ∧
      ∃ binding, Bindings.import? { imports := [⟨.everything "Home", "./home"⟩] } "Home" = some binding ∧
        Imports {} renamingPackage ⟨"/Page.ets"⟩ binding (.member "Home" "HOME") (.text "home/Main") := by
  constructor
  · apply (resolved_values_justified {} renamingPackage []).1
    apply ok_of_toOption
    decide +kernel
  · apply (resolved_values_justified {} renamingPackage [⟨"/Page.ets"⟩]).2
      ⟨"/Page.ets"⟩ { imports := [⟨.everything "Home", "./home"⟩] } (.member "Home" "HOME")
    apply ok_of_toOption
    decide +kernel

end ArkRoutes
