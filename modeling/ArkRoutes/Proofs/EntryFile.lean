import ArkRoutes.Proofs.Files
import ArkRoutes.Proofs.Search

namespace ArkRoutes

open Resolution

namespace Event

def passedOn (e : Event) : List String := e.redirects.map (·.exported)

def declared? : Event → Option String
  | .constant name _ => some name
  | .opens name _ => some name
  | _ => none

end Event

/-- No name is both passed on and declared, and no name is passed on by two statements. -/
def NamesApart (events : List Event) : Prop :=
  (∀ x ∈ events.flatMap Event.passedOn, x ∉ events.filterMap Event.declared?) ∧
    events.Pairwise fun a b => ∀ x ∈ a.passedOn, x ∉ b.passedOn

instance (events : List Event) : Decidable (NamesApart events) := inferInstanceAs (Decidable (_ ∧ _))

namespace Query

def plain (q : Query) : Query := { q with indexed := false }

variable {q : Query} {locate : String → Except ResolveError Located}

theorem declares_plain {event : Event} {e : Expr} : q.plain.Declares event e ↔ q.Declares event e := by
  constructor
  · intro h
    cases h with
    | constant h => exact .constant h
    | property h hp => exact .property h hp
    | field h hf => exact .field h hf
  · intro h
    cases h with
    | constant h => exact .constant (q := q.plain) h
    | property h hp => exact .property (q := q.plain) h hp
    | field h hf => exact .field (q := q.plain) h hf

theorem declared?_of_declares {event : Event} {e : Expr} (h : q.Declares event e) :
    event.declared? = some q.owner := by
  cases h <;> rfl

theorem silent_plain {event : Event} (h : ∀ e, ¬ q.Declares event e) : q.plain.Silent locate event := by
  refine ⟨fun e he => h e (declares_plain.mp he), ?_⟩
  intro names source l _ hl
  cases hl.indexed

end Query

namespace NamesApart

variable {before rest : List Event} {names : List ReExport} {source x : String}

theorem undeclared {q : Query} {events : List Event} (h : NamesApart events)
    (hx : q.owner ∈ events.flatMap Event.passedOn) {event : Event} (he : event ∈ events) (e : Expr) :
    ¬ q.Declares event e := by
  intro hd
  apply h.1 q.owner hx
  exact List.mem_filterMap.mpr ⟨event, he, Query.declared?_of_declares hd⟩

theorem redirects_rest (h : NamesApart (before ++ .reexports names source :: rest))
    (hx : ∃ n ∈ names, n.exported = x) : ∀ r ∈ rest.flatMap Event.redirects, r.exported ≠ x := by
  intro r hr he
  obtain ⟨event, hm, hr⟩ := List.mem_flatMap.mp hr
  obtain ⟨n, hn, hx⟩ := hx
  have hp := (List.pairwise_cons.mp (List.pairwise_append.mp h.2).2.1).1 event hm x
  apply hp
  · simpa [Event.passedOn, Event.redirects] using ⟨n, hn, hx⟩
  · exact List.mem_map.mpr ⟨r, hr, he⟩

end NamesApart

namespace Query

variable {q : Query} {w : Surroundings}

/-- Whether a file is asked as an entry file makes no difference to the modules it asks in turn. -/
def FlagBlind (ask : Path → Query → Except ResolveError Literal) : Prop := ∀ path q, ask path q = ask path q.plain

/-- The shortcut through an entry file and the way through the whole of it meet again. -/
theorem answerFrom_plain (ha : FlagBlind w.ask) {events : List Event} (hn : NamesApart events) :
    q.answerFrom w events = q.plain.answerFrom w events := by
  obtain hb | ⟨before, event, rest, rfl, hb, ⟨e, hd⟩ | ⟨names, source, l, rfl, hl⟩⟩ :=
    q.silent_or_settled w.locate events
  · rw [answerFrom_silent hb, answerFrom_silent (fun e he => silent_plain (hb e he).undeclared)]
    rfl
  · rw [answerFrom_declared rest hb hd,
      answerFrom_declared rest (fun e he => silent_plain (hb e he).undeclared) (declares_plain.mpr hd)]
    rfl
  · have hx : q.owner ∈ (before ++ .reexports names source :: rest).flatMap Event.passedOn := by
      obtain ⟨n, hm, hx⟩ := hl.exports
      simp only [List.flatMap_append, List.flatMap_cons, List.mem_append]
      right
      left
      simpa [Event.passedOn, Event.redirects] using ⟨n, hm, hx⟩
    obtain ⟨n, -, hr⟩ := Scope.redirect?_after_reexports before source hl.exports
    have hr' : (Scope.after (before ++ .reexports names source :: rest)).bindings.redirect? q.owner =
        some ⟨n.exported, n.original, source⟩ := by
      rw [List.append_cons, Scope.redirect?_after_append _ (hn.redirects_rest hl.exports), hr]
    have hask := ha l.path (q.redirected n.original false)
    have hask' := ha l.path (q.redirected n.original l.isEntry)
    rw [answerFrom_handedOn rest hb hl,
      answerFrom_silent (fun e he => silent_plain (hn.undeclared hx he)), follow_target hr,
      follow_redirect (q := q.plain) hr', hl.located]
    exact hask.trans hask'.symm

end Query

variable {s : Settings} {t : FileTree}

/-- The way a file is asked does not matter, however long the chain behind it is. -/
theorem resolve_plain (ht : ∀ path events, t.events path = .ok events → NamesApart events) (depth : Nat)
    (chain : List Path) : Query.FlagBlind (resolve s t depth chain) := by
  induction depth generalizing chain with
  | zero =>
      intro path q
      rw [resolve, resolve]
  | succ depth ih =>
      intro path q
      rw [resolve, resolve]
      split
      next => rfl
      next =>
        cases he : t.events (t.key path) with
        | error cause => rfl
        | ok events => exact Query.answerFrom_plain (ih (chain ++ [t.key path])) (ht _ _ he)

/-- A module is known by the file that its path leads to. -/
theorem resolve_congr_key {depth : Nat} {chain : List Path} {path path' : Path} (h : t.key path = t.key path')
    (q : Query) : resolve s t depth chain path q = resolve s t depth chain path' q := by
  cases depth with
  | zero => rw [resolve, resolve, h]
  | succ depth => rw [resolve, resolve, h]

/-- Where the names of every file are apart, a question to an entry file has the answer of the same
question to a plain file, and what is imported by the name of a package is what is imported by any
other specifier that leads to its entry file. -/
theorem entry_file_as_plain_file (s : Settings) (t : FileTree)
    (ht : ∀ path events, t.events path = .ok events → NamesApart events) (chain : List Path) :
    (∀ (path : Path) (q : Query), query s t chain path { q with indexed := true } =
      query s t chain path { q with indexed := false }) ∧
      ∀ (file : Path) (r : Reference) (n : ImportedName) (b b' : Bindings) (package specifier : String)
        (l l' : Located), b.import? r.subject = some ⟨n, package⟩ → b'.import? r.subject = some ⟨n, specifier⟩ →
        Module.locate s t file.directory package = .ok l → Module.locate s t file.directory specifier = .ok l' →
        t.key l.path = t.key l'.path →
        (around s t chain file).imported b r = (around s t chain file).imported b' r := by
  have hq := resolve_plain (s := s) ht (room s chain) chain
  refine ⟨fun path q => hq path { q with indexed := true }, ?_⟩
  intro file r n b b' package specifier l l' hb hb' hl hl' hk
  have hw : (around s t chain file).locate package = .ok l := hl
  have hw' : (around s t chain file).locate specifier = .ok l' := hl'
  simp only [Surroundings.imported, hb, hb', hw, hw']
  cases n.query r with
  | error cause => rfl
  | ok q =>
      have hp := hq l.path { q with indexed := l.isEntry }
      have hp' := hq l'.path { q with indexed := l'.isEntry }
      exact hp.trans ((resolve_congr_key hk _).trans hp'.symm)

def installedPackage : FileTree where
  home := []
  entries :=
    [(["oh_modules"], .directory), (["oh_modules", "lib"], .directory),
      (["oh_modules", "lib", "Index.ets"], .file (.text "export {HOME as START} from './home'")),
      (["oh_modules", "lib", "home.ets"], .file (.text "const HOME = 'home/Main'"))]

theorem installedPackage_namesApart (path : Path) (events : List Event)
    (h : installedPackage.events path = .ok events) : NamesApart events := by
  obtain ⟨content, text, hr, hd, rfl⟩ := FileTree.text_of_events h
  obtain ⟨place, hm⟩ := FileTree.mem_entries_of_read hr
  simp only [installedPackage, List.mem_cons, Prod.mk.injEq, reduceCtorEq, and_false, false_or, Entry.file.injEq,
    List.not_mem_nil, or_false] at hm
  rcases hm with ⟨-, rfl⟩ | ⟨-, rfl⟩
  · cases hd
    decide +kernel
  · cases hd
    decide +kernel

theorem installedPackage_either_way :
    query {} installedPackage [] ⟨"/oh_modules/lib/Index.ets"⟩ ⟨"START", none, true⟩ =
        query {} installedPackage [] ⟨"/oh_modules/lib/Index.ets"⟩ ⟨"START", none, false⟩ ∧
      (around {} installedPackage [] ⟨"/Page.ets"⟩).imported { imports := [⟨.named "START" "S", "lib"⟩] } (.name "S") =
        (around {} installedPackage [] ⟨"/Page.ets"⟩).imported
          { imports := [⟨.named "START" "S", "./oh_modules/lib/Index"⟩] } (.name "S") := by
  obtain ⟨hq, hi⟩ := entry_file_as_plain_file {} installedPackage installedPackage_namesApart []
  refine ⟨hq ⟨"/oh_modules/lib/Index.ets"⟩ ⟨"START", none, true⟩, ?_⟩
  apply hi ⟨"/Page.ets"⟩ (.name "S") (.named "START" "S") _ _ "lib" "./oh_modules/lib/Index"
    ⟨⟨"/oh_modules/lib/Index.ets"⟩, true⟩ ⟨⟨"/./oh_modules/lib/Index.ets"⟩, false⟩
  · decide
  · decide
  · exact ok_of_toOption (by decide +kernel)
  · exact ok_of_toOption (by decide +kernel)
  · decide +kernel

end ArkRoutes
