import ArkRoutes.Proofs.Modules
import ArkRoutes.Proofs.Names
import Mathlib.Data.List.Find

namespace ArkRoutes

def renamed (x y z : String) : String := if z = x then y else z

theorem renamed_eq_iff {x y z z' : String} (hz : z ≠ y) (hz' : z' ≠ y) :
    renamed x y z = renamed x y z' ↔ z = z' := by
  simp only [renamed]
  split_ifs <;> simp_all [eq_comm]

namespace Expr

mutual

def rename (f : String → String) : Expr → Expr
  | .literal v => .literal v
  | .name x => .name (f x)
  | .member o m => .member (f o) m
  | .object properties => .object (renameAll f properties)
  | .other kind => .other kind

def renameAll (f : String → String) : List (String × Expr) → List (String × Expr)
  | [] => []
  | (key, e) :: properties => (key, rename f e) :: renameAll f properties

end

theorem renameAll_eq_map (f : String → String) (properties : List (String × Expr)) :
    renameAll f properties = properties.map fun p => (p.1, p.2.rename f) := by
  induction properties with
  | nil => rfl
  | cons p properties ih => rw [List.map_cons, ← ih, renameAll]

end Expr

/-- A default import has the local name also as the name in its module, so it keeps it. -/
def ImportedName.rename (f : String → String) : ImportedName → ImportedName
  | .default l => .default l
  | .everything l => .everything (f l)
  | .named imported l => .named imported (f l)

def Event.rename (f : String → String) : Event → Event
  | .imports names source => .imports (names.map (·.rename f)) source
  | .constant name value => .constant name (value.rename f)
  | .opens name fields => .opens name (Expr.renameAll f fields)
  | .decorator callee args => .decorator callee (args.map (·.map (·.rename f)))
  | e => e

def Reference.rename (f : String → String) : Reference → Reference
  | .name x => .name (f x)
  | .member o m => .member (f o) m

def ImportBinding.rename (f : String → String) (b : ImportBinding) : ImportBinding :=
  { b with name := b.name.rename f }

def Scope.rename (f : String → String) (s : Scope) : Scope where
  bindings := { s.bindings with imports := s.bindings.imports.map (·.rename f) }
  constants := s.constants.map fun p => (p.1, p.2.rename f)
  types := s.types.map fun p => (p.1, Expr.renameAll f p.2)

def Collector.rename (f : String → String) (c : Collector) : Collector := { c with scope := c.scope.rename f }

def Event.expressions : Event → List Expr
  | .decorator _ args => args.getD []
  | e => e.initializers

theorem Event.mem_expressions {event : Event} {e : Expr} (h : e ∈ event.initializers) : e ∈ event.expressions := by
  cases event with
  | decorator callee args => cases h
  | _ => exact h

/-- `y` is new to the file, and `x` is declared nowhere and the local name of no default import. -/
structure Renamable (x y : String) (events : List Event) : Prop where
  imports : ∀ b ∈ events.flatMap Event.imported, b.name ≠ .default x
  undeclared : x ∉ events.filterMap Event.declared?
  fresh : y ∉ introducedBy events
  unmentioned : ∀ event ∈ events, ∀ e ∈ event.expressions, y ∉ e.mentions

instance (x y : String) (events : List Event) : Decidable (Renamable x y events) :=
  decidable_of_iff (_ ∧ _ ∧ _ ∧ _)
    ⟨fun h => ⟨h.1, h.2.1, h.2.2.1, h.2.2.2⟩, fun h => ⟨h.imports, h.undeclared, h.fresh, h.unmentioned⟩⟩

theorem Renamable.mono {x y : String} {events fewer : List Event} (h : Renamable x y events) (hf : fewer ⊆ events) :
    Renamable x y fewer where
  imports b hb := by
    obtain ⟨e, he, hb⟩ := List.mem_flatMap.mp hb
    exact h.imports b (List.mem_flatMap.mpr ⟨e, hf he, hb⟩)
  undeclared hx := by
    obtain ⟨e, he, hx⟩ := List.mem_filterMap.mp hx
    exact h.undeclared (List.mem_filterMap.mpr ⟨e, hf he, hx⟩)
  fresh hy := by
    obtain ⟨e, he, hy⟩ := List.mem_flatMap.mp hy
    exact h.fresh (List.mem_flatMap.mpr ⟨e, hf he, hy⟩)
  unmentioned e he := h.unmentioned e (hf he)

namespace Scope

variable {f : String → String}

theorem rename_note (s : Scope) (e : Event) : (s.note e).rename f = (s.rename f).note (e.rename f) := by
  cases e with
  | imports names source => simp [note, rename, Event.rename, Bindings.addImports, ImportBinding.rename]
  | reexportsAll source =>
      by_cases h : source ∈ s.bindings.wholesale <;> simp [note, rename, Event.rename, Bindings.addWholesale, h]
  | _ => rfl

end Scope

section

variable {β γ : Type} {x y z : String}

theorem lookup_map_value (l : List (String × β)) (g : β → γ) (key : String) :
    (l.map fun p => (p.1, g p.2)).lookup key = (l.lookup key).map g := by
  induction l with
  | nil => rfl
  | cons p l ih =>
      rw [List.map_cons, List.lookup_cons, List.lookup_cons, ih]
      split <;> rfl

theorem Renamable.lookup_declared {seen : List Event} (h : Renamable x y seen) {f : Event → Option (String × β)}
    (hf : ∀ {e p}, f e = some p → e.declared? = some p.1) (z : String) :
    (seen.filterMap f).reverse.lookup (renamed x y z) = (seen.filterMap f).reverse.lookup z := by
  have hy : y ∉ seen.filterMap Event.declared? := fun hy => h.fresh (mem_introducedBy_of_declared hy)
  rw [renamed]
  split_ifs with hz
  · rw [hz, lookup_eq_none_of_not_declared hf h.undeclared, lookup_eq_none_of_not_declared hf hy]
  · rfl

theorem property?_rename (f : String → String) (properties : List (String × Expr)) (key : String) :
    Expr.property? (Expr.renameAll f properties) key = (Expr.property? properties key).map (·.rename f) := by
  rw [Expr.property?, Expr.renameAll_eq_map, ← List.map_reverse, lookup_map_value]
  rfl

end

theorem Reference.expr_rename (f : String → String) (r : Reference) :
    (r.rename f).expr = r.expr.rename f := by
  cases r <;> rfl

theorem Reference.subject_rename (f : String → String) (r : Reference) :
    (r.rename f).subject = f r.subject := by
  cases r <;> rfl

theorem Expr.reference?_rename (f : String → String) (e : Expr) :
    (e.rename f).reference? = e.reference?.map (·.rename f) := by
  cases e <;> rfl

theorem Expr.literal?_rename (f : String → String) (e : Expr) : (e.rename f).literal? = e.literal? := by
  cases e <;> rfl

/-- The question to the module does not depend on the local name. -/
theorem ImportedName.toOption_query_rename (f : String → String) (n : ImportedName) (r : Reference) :
    ((n.rename f).query (r.rename f)).toOption = (n.query r).toOption := by
  cases n <;> cases r <;> rfl

namespace Scope

variable {x y : String} {seen : List Event} {w : Surroundings} {r : Reference}

theorem import?_rename (h : Renamable x y seen) {z : String} (hz : z ≠ y) :
    ((after seen).rename (renamed x y)).bindings.import? (renamed x y z) =
      ((after seen).bindings.import? z).map (·.rename (renamed x y)) := by
  simp only [Bindings.import?, rename, List.find?_map]
  congr 1
  apply List.find?_congr
  intro b hb
  have hm : b ∈ seen.flatMap Event.imported := by simpa [after, imports_foldl] using hb
  have hx := h.imports b hm
  have hy : b.name.localName ≠ y := by
    rintro rfl
    exact h.fresh (mem_introducedBy_of_imported hm)
  have hl : (b.name.rename (renamed x y)).localName = renamed x y b.name.localName := by
    cases hn : b.name with
    | default l =>
        have hne : l ≠ x := fun he => hx (by rw [hn, he])
        simp [ImportedName.rename, ImportedName.localName, renamed, hne]
    | _ => rfl
  rw [Function.comp_apply, ImportBinding.rename, hl, Bool.eq_iff_iff, beq_iff_eq, beq_iff_eq]
  exact renamed_eq_iff hy hz

theorem initializer_rename (h : Renamable x y seen) (path : Path) (r : Reference) :
    (((after seen).rename (renamed x y)).initializer path (r.rename (renamed x y))).toOption =
      ((after seen).initializer path r).toOption.map (·.rename (renamed x y)) := by
  have hconst (z : String) : ((after seen).rename (renamed x y)).constants.lookup (renamed x y z) =
      ((after seen).constants.lookup z).map (·.rename (renamed x y)) := by
    rw [rename, lookup_map_value, after, constants_foldl, List.append_nil,
      h.lookup_declared Event.declared?_of_constant?]
  have htype (z : String) : ((after seen).rename (renamed x y)).types.lookup (renamed x y z) =
      ((after seen).types.lookup z).map (Expr.renameAll (renamed x y)) := by
    rw [rename, lookup_map_value, after, types_foldl, List.append_nil, h.lookup_declared Event.declared?_of_type?]
  cases r with
  | name z =>
      simp only [initializer, Reference.rename, constant, hconst]
      cases (after seen).constants.lookup z <;> rfl
  | member o m =>
      simp only [initializer, Reference.rename, member, hconst, htype]
      cases (after seen).types.lookup o with
      | some fields =>
          simp only [Option.map_some, Expr.renameAll_eq_map, lookup_map_value]
          cases fields.lookup m <;> rfl
      | none =>
          cases (after seen).constants.lookup o with
          | none => rfl
          | some e =>
              cases e with
              | object properties =>
                  simp only [Option.map_some, Option.map_none, Expr.rename, property?_rename]
                  cases Expr.property? properties m <;> rfl
              | _ => rfl

theorem toOption_evaluate_rename (h : Renamable x y seen) (w : Surroundings) (steps : Nat) {e : Expr}
    (he : y ∉ e.mentions) : (((after seen).rename (renamed x y)).evaluate w steps (e.rename (renamed x y))).toOption =
      ((after seen).evaluate w steps e).toOption := by
  induction steps generalizing e with
  | zero => rfl
  | succ steps ih =>
      cases hr : e.reference? with
      | none =>
          have hr' : (e.rename (renamed x y)).reference? = none := by rw [Expr.reference?_rename, hr]; rfl
          rw [evaluate_plain hr, evaluate_plain hr', Expr.literal?_rename]
          cases e.literal? <;> rfl
      | some r =>
          obtain rfl := Expr.eq_expr_of_reference? hr
          have hy : r.subject ≠ y := by
            rintro rfl
            exact he (by simp)
          have hi' := import?_rename h hy
          rw [← Reference.subject_rename (renamed x y) r] at hi'
          rw [← Reference.expr_rename]
          cases hi : (after seen).bindings.import? r.subject with
          | some b =>
              rw [hi, Option.map_some] at hi'
              have hs : ((after seen).bindings.import? r.subject).isSome := by rw [hi]; rfl
              rw [evaluate_imported hs, evaluate_imported (by rw [hi']; rfl), Surroundings.toOption_imported,
                Surroundings.toOption_imported, hi, hi', Option.bind_some, Option.bind_some]
              simp only [ImportBinding.rename, ImportedName.toOption_query_rename]
          | none =>
              rw [hi, Option.map_none] at hi'
              rw [evaluate_declared hi, evaluate_declared hi']
              refine (toOption_bind _ _).trans (Eq.trans ?_ (toOption_bind _ _).symm)
              rw [initializer_rename h]
              cases hd : (after seen).initializer w.path r with
              | error cause => rfl
              | ok i =>
                  refine ih fun hm => ?_
                  obtain ⟨event, hev, hdecl⟩ := declares_of_initializer hd
                  obtain ⟨i', hi', hsub⟩ := Event.mentions_of_declares hdecl
                  exact h.unmentioned event hev i' (Event.mem_expressions hi') (hsub hm)

theorem toOption_value_rename (h : Renamable x y seen) (w : Surroundings) {e : Expr} (he : y ∉ e.mentions) :
    (((after seen).rename (renamed x y)).value w (e.rename (renamed x y))).toOption =
      ((after seen).value w e).toOption :=
  toOption_evaluate_rename h w _ he

end Scope

theorem Draft.apply_rename {keys : Decorator} {f : String → String}
    {value value' : Expr → Except ResolveError Literal} (d : Draft) {properties : List (String × Expr)}
    (h : ∀ p ∈ properties, (value' (p.2.rename f)).toOption = (value p.2).toOption) :
    d.apply keys value' (Expr.renameAll f properties) = d.apply keys value properties := by
  have hc : d.apply keys (fun e => value' (e.rename f)) properties = d.apply keys value properties :=
    d.apply_congr h
  rw [← hc, Expr.renameAll_eq_map]
  simp only [apply, List.foldl_map]

namespace Collector

variable {x y : String} {w : Surroundings} {seen : List Event}

theorem routeArguments?_rename (f : String → String) (keys : Decorator) (callee : String)
    (args : Option (List Expr)) : routeArguments? keys callee (args.map (·.map (·.rename f))) =
      (routeArguments? keys callee args).map (Expr.renameAll f) := by
  cases args with
  | none => rfl
  | some args =>
      cases args with
      | nil => rfl
      | cons e args =>
          cases e with
          | object properties =>
              simp only [routeArguments?, Option.map_some, List.map_cons, Expr.rename]
              split <;> rfl
          | _ => rfl

theorem mem_of_routeArguments? {keys : Decorator} {callee : String} {args : Option (List Expr)}
    {properties : List (String × Expr)} (h : routeArguments? keys callee args = some properties) :
    .object properties ∈ (Event.decorator callee args).expressions := by
  simp only [routeArguments?] at h
  split at h
  next =>
    split at h
    next =>
      cases h
      simp [Event.expressions]
    next => cases h
  next => cases h

theorem rename_onDecorator (h : Renamable x y seen) {c : Collector} (hc : c.scope = Scope.after seen)
    {properties : List (String × Expr)} (hp : ∀ p ∈ properties, y ∉ p.2.mentions) :
    (c.onDecorator w properties).rename (renamed x y) =
      (c.rename (renamed x y)).onDecorator w (Expr.renameAll (renamed x y) properties) := by
  have ha (d : Draft) : d.apply w.settings.decorator ((c.rename (renamed x y)).scope.value w)
      (Expr.renameAll (renamed x y) properties) = d.apply w.settings.decorator (c.scope.value w) properties := by
    rw [rename, hc]
    exact d.apply_rename fun p hm => Scope.toOption_value_rename h w (hp p hm)
  simp only [onDecorator, ha]
  cases hs : c.stage with
  | declaring draft =>
      simp only [rename, hs]
      split <;> rfl
  | _ => simp only [rename, hs]

theorem rename_onWord (f : String → String) (c : Collector) (word : String) :
    (c.onWord w word).rename f = (c.rename f).onWord w word := by
  simp only [onWord]
  cases hs : c.stage with
  | awaiting d keywordSeen =>
      simp only [rename, hs]
      split_ifs <;> simp [publish, hs]
  | _ => simp only [rename, hs]

theorem rename_onClose (f : String → String) (c : Collector) : c.onClose.rename f = (c.rename f).onClose := by
  simp only [onClose]
  cases hs : c.stage <;> simp only [rename, hs]

theorem rename_step {event : Event} (h : Renamable x y (seen ++ [event])) {c : Collector}
    (hc : c.scope = Scope.after seen) :
    (step w c event).rename (renamed x y) = step w (c.rename (renamed x y)) (event.rename (renamed x y)) := by
  have hn : (c.scope.note event).rename (renamed x y) =
      (c.rename (renamed x y)).scope.note (event.rename (renamed x y)) := Scope.rename_note _ _
  cases event with
  | decorator callee args =>
      simp only [step, Event.rename, routeArguments?_rename]
      cases hr : routeArguments? w.settings.decorator callee args with
      | none => rfl
      | some properties =>
          refine rename_onDecorator (h.mono (List.subset_append_left _ _)) hc ?_
          intro p hp hy
          have he := h.unmentioned (.decorator callee args) (by simp) _ (mem_of_routeArguments? hr)
          exact he (Expr.mentions_subset hp hy)
  | word text => exact rename_onWord _ _ text
  | closes => exact rename_onClose _ _
  | _ =>
      simp only [step, rename, hn]
      rfl

theorem rename_foldl {events : List Event} (seen : List Event) (h : Renamable x y (seen ++ events)) {c : Collector}
    (hc : c.scope = Scope.after seen) :
    (events.foldl (step w) c).rename (renamed x y) =
      (events.map (Event.rename (renamed x y))).foldl (step w) (c.rename (renamed x y)) := by
  induction events generalizing seen c with
  | nil => rfl
  | cons e events ih =>
      rw [List.append_cons] at h
      rw [List.foldl_cons, List.map_cons, List.foldl_cons, ← rename_step (h.mono (List.subset_append_left _ _)) hc]
      refine ih (seen ++ [e]) h ?_
      rw [scope_step, hc, Scope.after_concat]

/-- What a file calls its imports makes no difference to its routes. -/
theorem routes_rename {x y : String} {events : List Event} (h : Renamable x y events) (w : Surroundings) :
    (run w (events.map (Event.rename (renamed x y)))).routes = (run w events).routes := by
  have hr := congrArg Collector.routes (rename_foldl (w := w) (c := {}) [] h rfl)
  exact hr.symm

def aliasedPage : List Event :=
  [.imports [.named "HOME" "H"] "./names", .imports [.everything "Flags"] "./flags", .constant "START" (.name "H"),
    .decorator "AppRouter" (some [.object [("name", .name "START"), ("login", .member "Flags" "LOGIN")]]),
    .word "struct", .word "Page"]

def aliasedModules : FileTree :=
  ⟨[], [(["names.ets"], .file (.text "export const HOME = 'home/Main'")),
    (["flags.ets"], .file (.text "export const LOGIN = true"))]⟩

open Resolution in
theorem aliasedPage_routes_rename :
    (run (around {} aliasedModules [⟨"/Page.ets"⟩] ⟨"/Page.ets"⟩) aliasedPage).routes =
        [⟨"home/Main", "Page", ⟨"/Page.ets"⟩, true, false, "routerParam"⟩] ∧
      (run (around {} aliasedModules [⟨"/Page.ets"⟩] ⟨"/Page.ets"⟩)
        (aliasedPage.map (Event.rename (renamed "H" "HOME")))).routes =
        (run (around {} aliasedModules [⟨"/Page.ets"⟩] ⟨"/Page.ets"⟩) aliasedPage).routes := by
  have h : Renamable "H" "HOME" aliasedPage := by decide +kernel
  exact ⟨by decide +kernel, routes_rename h _⟩

end Collector

end ArkRoutes
