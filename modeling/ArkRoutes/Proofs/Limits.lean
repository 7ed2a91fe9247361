import ArkRoutes.Proofs.Modules
import ArkRoutes.Proofs.References
import Mathlib.Data.List.Pairwise

namespace ArkRoutes

open Resolution

namespace Surroundings

/-- The same view of the other modules, with a limit that is no smaller and without the loss of an answer. -/
structure Within (w w' : Surroundings) : Prop where
  limit : w.settings.depthLimit ≤ w'.settings.depthLimit
  path : w.path = w'.path
  locate : w.locate = w'.locate
  answers : ∀ path q v, w.ask path q = .ok v → w'.ask path q = .ok v

variable {w w' : Surroundings} {v : Literal}

theorem Within.imported (h : Within w w') {b : Bindings} {r : Reference} (hv : w.imported b r = .ok v) :
    w'.imported b r = .ok v := by
  rw [Surroundings.imported] at hv ⊢
  cases hb : b.import? r.subject with
  | none => simp [hb] at hv
  | some binding =>
      simp only [hb] at hv ⊢
      obtain ⟨q, hq, hv⟩ := ok_of_bind hv
      obtain ⟨l, hl, hv⟩ := ok_of_bind hv
      rw [h.locate] at hl
      rw [hq, hl]
      exact h.answers _ _ _ hv

theorem Within.answer? (h : Within w w') {x : String} {q : Bool → Query} (hv : w.answer? x q = some v) :
    w'.answer? x q = some v := by
  rw [← toOption_locate_bind] at hv ⊢
  obtain ⟨l, hl, hv⟩ := ok_of_bind (ok_of_toOption hv)
  rw [← h.locate, hl]
  exact congrArg Except.toOption (h.answers _ _ _ hv)

end Surroundings

open Surroundings (Within)

variable {w w' : Surroundings} {v : Literal}

namespace Scope

theorem evaluate_within (h : Within w w') {s : Scope} {steps : Nat} {e : Expr}
    (hv : s.evaluate w steps e = .ok v) : s.evaluate w' steps e = .ok v := by
  induction steps generalizing e with
  | zero => cases hv
  | succ steps ih =>
      cases hr : e.reference? with
      | none =>
          rw [evaluate_plain hr] at hv ⊢
          exact hv
      | some r =>
          rw [Expr.eq_expr_of_reference? hr] at hv ⊢
          cases hi : s.bindings.import? r.subject with
          | some b =>
              rw [evaluate_imported (by simp [hi])] at hv ⊢
              exact h.imported hv
          | none =>
              rw [evaluate_declared hi] at hv ⊢
              obtain ⟨i, hd, hv⟩ := ok_of_bind hv
              rw [← h.path, hd]
              exact ih hv

theorem value_within (h : Within w w') {s : Scope} {e : Expr} (hv : s.value w e = .ok v) : s.value w' e = .ok v :=
  evaluate_mono (Nat.succ_le_succ h.limit) (evaluate_within h hv)

end Scope

def Event.passedOnWhole : Event → List String
  | .reexportsAll source => [source]
  | _ => []

theorem mem_passedOnWhole {events : List Event} {x : String} :
    x ∈ events.flatMap Event.passedOnWhole ↔ .reexportsAll x ∈ events := by
  rw [List.mem_flatMap]
  constructor
  · rintro ⟨e, he, hx⟩
    cases e with
    | reexportsAll source =>
        obtain rfl := List.mem_singleton.mp hx
        exact he
    | _ => cases hx
  · intro he
    exact ⟨_, he, List.mem_singleton.mpr rfl⟩

/-- The events pass on no two modules as a whole, though maybe one of them several times. -/
def PassesOneWhole (events : List Event) : Prop := (events.flatMap Event.passedOnWhole).Pairwise (· = ·)

instance (events : List Event) : Decidable (PassesOneWhole events) := inferInstanceAs (Decidable (List.Pairwise _ _))

theorem PassesOneWhole.eq {events : List Event} (h : PassesOneWhole events) {x y : String}
    (hx : .reexportsAll x ∈ events) (hy : .reexportsAll y ∈ events) : x = y :=
  List.Pairwise.forall_of_forall (fun _ _ => rfl) h (mem_passedOnWhole.mpr hx) (mem_passedOnWhole.mpr hy)

/-- Of several equal elements the first decides for all. -/
theorem findSome?_of_forall_eq {α β : Type} {l : List α} (hl : ∀ a ∈ l, ∀ b ∈ l, a = b) {f g : α → Option β}
    (h : ∀ a b, f a = some b → g a = some b) {b : β} (hf : l.findSome? f = some b) : l.findSome? g = some b := by
  cases l with
  | nil => cases hf
  | cons a l =>
      obtain ⟨x, hx, hfx⟩ := List.exists_of_findSome?_eq_some hf
      obtain rfl : x = a := hl x hx a (by simp)
      rw [List.findSome?_cons, h x b hfx]

namespace Query

variable {q : Query} {events : List Event}

theorem follow_within (h : Within w w') (hp : PassesOneWhole events)
    (hv : q.follow w (Scope.after events).bindings none = .ok v) :
    q.follow w' (Scope.after events).bindings none = .ok v := by
  cases hr : (Scope.after events).bindings.redirect? q.owner with
  | some r =>
      have ha := congrArg Except.toOption hv
      rw [toOption_follow_redirect hr] at ha
      exact ok_of_toOption (by rw [toOption_follow_redirect hr, h.answer? ha])
  | none =>
      have ha := congrArg Except.toOption hv
      rw [toOption_follow_wholesale hr] at ha
      refine ok_of_toOption ?_
      rw [toOption_follow_wholesale hr]
      refine findSome?_of_forall_eq ?_ (fun x v hx => h.answer? hx) ha
      intro x hx y hy
      exact hp.eq (Scope.mem_wholesale_after.mp hx) (Scope.mem_wholesale_after.mp hy)

/-- A file that passes on one module as a whole at most keeps its answers. -/
theorem answerFrom_within (h : Within w w') (hp : PassesOneWhole events) (hv : q.answerFrom w events = .ok v) :
    q.answerFrom w' events = .ok v := by
  obtain hb | ⟨before, event, rest, rfl, hb, ⟨e, hd⟩ | ⟨names, source, l, rfl, hl⟩⟩ :=
    q.silent_or_settled w.locate events
  · rw [answerFrom_silent hb] at hv
    rw [answerFrom_silent (h.locate ▸ hb)]
    exact follow_within h hp hv
  · rw [answerFrom_declared rest hb hd] at hv
    rw [answerFrom_declared rest (h.locate ▸ hb) hd]
    -- an initializer without a value settles the question too, but with an error
    cases hi : (Scope.after (event.inView before)).value w e with
    | error cause => simp [hi] at hv
    | ok i =>
        rw [hi] at hv
        rw [Scope.value_within h hi]
        exact hv
  · obtain ⟨n, -, hr⟩ := Scope.redirect?_after_reexports before source hl.exports
    rw [answerFrom_handedOn rest hb hl, follow_target hr] at hv
    rw [answerFrom_handedOn rest (h.locate ▸ hb) (h.locate ▸ hl), follow_target hr]
    exact h.answers _ _ _ hv

end Query

variable {s : Settings} {t : FileTree} {d d' : Nat}

theorem within_surroundings (hd : d ≤ d') (path : Path) {ask ask' : Path → Query → Except ResolveError Literal}
    (h : ∀ path q v, ask path q = .ok v → ask' path q = .ok v) :
    Within (surroundings { s with depthLimit := d } t path ask)
      (surroundings { s with depthLimit := d' } t path ask') where
  limit := hd
  path := rfl
  locate := by simp only [surroundings, Module.locate_settings s t s.decorator]
  answers := h

theorem resolve_within (ht : ∀ path events, t.events path = .ok events → PassesOneWhole events)
    (hd : d ≤ d') {depth depth' : Nat} (hdepth : depth ≤ depth') {chain : List Path} {path : Path} {q : Query}
    (hv : resolve { s with depthLimit := d } t depth chain path q = .ok v) :
    resolve { s with depthLimit := d' } t depth' chain path q = .ok v := by
  induction depth generalizing depth' chain path q v with
  | zero =>
      rw [resolve] at hv
      split at hv <;> cases hv
  | succ depth ih =>
      obtain ⟨depth', rfl⟩ : ∃ n, depth' = n + 1 := ⟨depth' - 1, by omega⟩
      rw [resolve] at hv ⊢
      split at hv
      next => cases hv
      next hc =>
        rw [if_neg hc]
        cases he : t.events (t.key path) with
        | error cause => simp [he] at hv
        | ok events =>
            simp only [he] at hv ⊢
            refine Query.answerFrom_within (within_surroundings hd _ ?_) (ht _ _ he) hv
            intro path' q' v' ha
            exact ih (by omega) ha

/-- Where no file passes on two modules as a whole, what is answered under a limit is answered under
every larger one. -/
theorem query_of_le_limit (s : Settings) (t : FileTree)
    (ht : ∀ path events, t.events path = .ok events → PassesOneWhole events) (hd : d ≤ d')
    (chain : List Path) (path : Path) (q : Query) (v : Literal)
    (hv : query { s with depthLimit := d } t chain path q = .ok v) :
    query { s with depthLimit := d' } t chain path q = .ok v := by
  refine resolve_within ht hd ?_ hv
  simp only [room]
  omega

def tieredPackage : FileTree where
  home := []
  entries :=
    [(["Index.ets"], .file (.text "export * from './routes'")),
      (["routes.ets"], .file (.text ("import \x7bMAIN\x7d from './names'\n" ++
        "const Names = \x7bMAIN\x7d\nexport const HOME = Names.MAIN"))),
      (["names.ets"], .file (.text "export const MAIN = 'home/Main'"))]

theorem tieredPackage_passesOneWhole (path : Path) (events : List Event)
    (h : tieredPackage.events path = .ok events) : PassesOneWhole events := by
  obtain ⟨content, text, hr, hd, rfl⟩ := FileTree.text_of_events h
  obtain ⟨place, hm⟩ := FileTree.mem_entries_of_read hr
  simp only [tieredPackage, List.mem_cons, Prod.mk.injEq, Entry.file.injEq, List.not_mem_nil, or_false] at hm
  rcases hm with ⟨-, rfl⟩ | ⟨-, rfl⟩ | ⟨-, rfl⟩
  all_goals
    cases hd
    decide +kernel

theorem tieredPackage_query :
    query { depthLimit := 2 } tieredPackage [] ⟨"/Index.ets"⟩ ⟨"HOME", none, false⟩ = .ok (.text "home/Main") ∧
      query { depthLimit := 9 } tieredPackage [] ⟨"/Index.ets"⟩ ⟨"HOME", none, false⟩ = .ok (.text "home/Main") := by
  have h : query { depthLimit := 2 } tieredPackage [] ⟨"/Index.ets"⟩ ⟨"HOME", none, false⟩ =
      .ok (.text "home/Main") := ok_of_toOption (by decide +kernel)
  refine ⟨h, ?_⟩
  exact query_of_le_limit {} tieredPackage tieredPackage_passesOneWhole (by decide) [] ⟨"/Index.ets"⟩
    ⟨"HOME", none, false⟩ (.text "home/Main") h

def forkedPackage : FileTree where
  home := []
  entries :=
    [(["Index.ets"], .file (.text "export * from './far'\nexport * from './near'")),
      (["far.ets"], .file (.text "export * from './farther'")),
      (["farther.ets"], .file (.text "export const HOME = 'farther'")),
      (["near.ets"], .file (.text "export const HOME = 'near'"))]

example : (query { depthLimit := 2 } forkedPackage [⟨"/Page.ets"⟩] ⟨"/Index.ets"⟩ ⟨"HOME", none, false⟩).toOption =
      some (.text "near") ∧
    (query { depthLimit := 3 } forkedPackage [⟨"/Page.ets"⟩] ⟨"/Index.ets"⟩ ⟨"HOME", none, false⟩).toOption =
      some (.text "farther") := by decide +kernel

end ArkRoutes
