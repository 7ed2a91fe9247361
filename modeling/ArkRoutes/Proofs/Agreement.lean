import ArkRoutes.Proofs.Names

namespace ArkRoutes

/-- No name is introduced twice, and what is declared mentions earlier names only, or the type that it
belongs to. -/
structure Orderly (events : List Event) : Prop where
  distinct : (introducedBy events).Nodup
  backwards : ∀ i, ∀ h : i < events.length, ∀ e ∈ events[i].initializers,
    ∀ x ∈ e.mentions, x ∈ introducedBy (events[i].inView (events.take i))

instance (events : List Event) : Decidable (Orderly events) :=
  decidable_of_iff (_ ∧ _) ⟨fun h => ⟨h.1, h.2⟩, fun h => ⟨h.distinct, h.backwards⟩⟩

theorem Event.inView_append (event : Event) (before rest : List Event) :
    ∃ later, before ++ event :: rest = event.inView before ++ later := by
  cases event with
  | opens name fields => exact ⟨rest, by simp [inView]⟩
  | _ => exact ⟨_, rfl⟩

namespace Orderly

variable {before seen rest : List Event} {event : Event} {i : Expr}

theorem not_introduced_again (h : Orderly (seen ++ rest)) {x : String} (hx : x ∈ introducedBy seen) :
    x ∉ introducedBy rest := by
  have hd := h.distinct
  rw [introducedBy_append, List.nodup_append] at hd
  exact fun hr => hd.2.2 x hx x hr rfl

theorem mentions_inView (h : Orderly (before ++ event :: rest)) (hi : i ∈ event.initializers) :
    i.mentions ⊆ introducedBy (event.inView before) := by
  have hb := h.backwards before.length (by simp)
  simp only [List.getElem_append_right (Nat.le_refl _), Nat.sub_self, List.getElem_cons_zero, List.take_left] at hb
  exact hb i hi

theorem mentions_subset (h : Orderly (seen ++ rest)) (he : event ∈ seen) (hi : i ∈ event.initializers) :
    i.mentions ⊆ introducedBy seen := by
  obtain ⟨before, after, rfl⟩ := List.append_of_mem he
  obtain ⟨later, hl⟩ := event.inView_append before after
  rw [List.append_assoc, List.cons_append] at h
  refine List.Subset.trans (h.mentions_inView hi) ?_
  rw [hl, introducedBy_append]
  exact List.subset_append_left _ _

theorem closed (h : Orderly (seen ++ rest)) (path : Path) : (Scope.after seen).Closed path (introducedBy seen) := by
  intro r e _ hd
  obtain ⟨event, he, hd⟩ := Scope.declares_of_initializer hd
  obtain ⟨i, hi, hm⟩ := Event.mentions_of_declares hd
  exact List.Subset.trans hm (h.mentions_subset he hi)

theorem evaluate_append (h : Orderly (seen ++ rest)) (w : Surroundings) {e : Expr}
    (he : e.mentions ⊆ introducedBy seen) (steps : Nat) :
    (Scope.after seen).evaluate w steps e = (Scope.after (seen ++ rest)).evaluate w steps e := by
  refine Scope.evaluate_congr (h.closed w.path) ?_ he
  intro x hx
  exact Scope.agreeAt_append seen (h.not_introduced_again hx)

theorem silent_before (h : Orderly (before ++ event :: rest)) {q : Query} (hq : q.indexed = false)
    (hd : q.Declares event i) (locate : String → Except ResolveError Located) :
    ∀ earlier ∈ before, q.Silent locate earlier := by
  intro earlier he
  constructor
  · intro e hd'
    have hx : q.owner ∈ introducedBy before :=
      mem_introducedBy_of_declared (List.mem_filterMap.mpr ⟨earlier, he, Query.declared?_of_declares hd'⟩)
    apply h.not_introduced_again hx
    exact mem_introducedBy_of_declared (List.mem_filterMap.mpr ⟨event, by simp, Query.declared?_of_declares hd⟩)
  · intro names source l _ hl
    have hi := hl.indexed
    simp [hq] at hi

end Orderly

/-- Whoever asks an orderly file for something it declares is told the value that it has in the file
itself. -/
theorem search_of_value {events : List Event} (h : Orderly events) (w : Surroundings) (r : Reference) (v : Literal)
    (hi : (Scope.after events).bindings.import? r.subject = none)
    (hv : (Scope.after events).value w r.expr = .ok v) :
    (r.question.search w {} events).2 = some (.value v) := by
  rw [Scope.value, Scope.evaluate_declared hi] at hv
  obtain ⟨e, he, hv⟩ := ok_of_bind hv
  obtain ⟨event, hm, hd⟩ := Scope.declares_of_initializer he
  obtain ⟨i, hin, hsub⟩ := Event.mentions_of_declares hd
  obtain ⟨before, rest, rfl⟩ := List.append_of_mem hm
  have hs : ∀ earlier ∈ before, r.question.Silent w.locate earlier := h.silent_before (by simp) hd w.locate
  have hx : e.mentions ⊆ introducedBy (event.inView before) := List.Subset.trans hsub (h.mentions_inView hin)
  -- the file has followed one reference more than the question has
  have hq : (Scope.after (event.inView before)).value w e = .ok v := by
    obtain ⟨later, hl⟩ := event.inView_append before rest
    rw [hl] at h hv
    rw [Scope.value, h.evaluate_append w hx]
    exact Scope.evaluate_mono (Nat.le_succ _) hv
  rw [Query.search_settled rest hs (Query.answer?_declares hd), hq]
  rfl

open Resolution

def startModule : FileTree := ⟨[], [(["home.ets"], .file (.text "export const MAIN = 'home/Main'"))]⟩

def besideHome : Surroundings := around {} startModule [⟨"/Page.ets"⟩] ⟨"/Page.ets"⟩

def routeNames : List Event :=
  [.imports [.named "MAIN" "MAIN"] "./home", .constant "START" (.name "MAIN"),
    .opens "Routes" [("HOME", .name "START"), ("FIRST", .member "Routes" "HOME")], .closes]

theorem routeNames_search_of_value :
    Orderly routeNames ∧
      (Scope.after routeNames).value besideHome (.member "Routes" "FIRST") = .ok (.text "home/Main") ∧
      (Query.search ⟨"Routes", some "FIRST", false⟩ besideHome {} routeNames).2 =
        some (.value (.text "home/Main")) := by
  have ho : Orderly routeNames := by decide +kernel
  have hv : (Scope.after routeNames).value besideHome (.member "Routes" "FIRST") = .ok (.text "home/Main") :=
    ok_of_toOption (by decide +kernel)
  exact ⟨ho, hv, search_of_value ho besideHome (.member "Routes" "FIRST") _ (by decide +kernel) hv⟩

def importedName : List Event := [.imports [.named "MAIN" "MAIN"] "./home"]

/-- The page knows the value of what it imports, but declares nothing of that name. -/
theorem imported_value_unknown_outside :
    Orderly importedName ∧ (Scope.after importedName).value besideHome (.name "MAIN") = .ok (.text "home/Main") ∧
      (Query.search ⟨"MAIN", none, false⟩ besideHome {} importedName).2 = none ∧
      ¬ ∀ (s : Settings) (t : FileTree) (chain : List Path) (path : Path) (events : List Event) (r : Reference)
        (v : Literal), Orderly events → (Scope.after events).value (around s t chain path) r.expr = .ok v →
          (r.question.search (around s t chain path) {} events).2 = some (.value v) := by
  have ho : Orderly importedName := by decide +kernel
  have hv : (Scope.after importedName).value besideHome (.name "MAIN") = .ok (.text "home/Main") :=
    ok_of_toOption (by decide +kernel)
  have hs : (Query.search ⟨"MAIN", none, false⟩ besideHome {} importedName).2 = none := by decide +kernel
  refine ⟨ho, hv, hs, fun h => ?_⟩
  have hn := h {} startModule [⟨"/Page.ets"⟩] ⟨"/Page.ets"⟩ importedName (.name "MAIN") _ ho hv
  cases hs.symm.trans hn

end ArkRoutes
