import ArkRoutes.Scope
import Mathlib.Tactic.Tauto

namespace ArkRoutes

variable {α β : Type}

def IsLast (p : α → Prop) (l : List α) (x : α) : Prop :=
  ∃ before after, l = before ++ x :: after ∧ p x ∧ ∀ y ∈ after, ¬ p y

theorem IsLast.mem {p : α → Prop} {l : List α} {x : α} (h : IsLast p l x) : x ∈ l := by
  obtain ⟨before, after, rfl, -, -⟩ := h
  simp

theorem IsLast.holds {p : α → Prop} {l : List α} {x : α} (h : IsLast p l x) : p x := by
  obtain ⟨before, after, -, hx, -⟩ := h
  exact hx

theorem find?_reverse_eq_some_iff {p : α → Bool} {l : List α} {x : α} :
    l.reverse.find? p = some x ↔ IsLast (fun y => p y = true) l x := by
  rw [List.find?_eq_some_iff_append]
  constructor
  · rintro ⟨hx, before, after, hl, hb⟩
    refine ⟨after.reverse, before.reverse, ?_, hx, by simpa using hb⟩
    rw [← l.reverse_reverse, hl]
    simp
  · rintro ⟨before, after, rfl, hx, ha⟩
    exact ⟨hx, after.reverse, before.reverse, by simp, by simpa using ha⟩

theorem lookup_reverse_eq_some_iff {l : List (String × β)} {key : String} {x : β} :
    l.reverse.lookup key = some x ↔ IsLast (fun p => p.1 = key) l (key, x) := by
  rw [List.lookup_eq_some_iff]
  constructor
  · rintro ⟨before, after, hl, hb⟩
    refine ⟨after.reverse, before.reverse, ?_, rfl, ?_⟩
    · rw [← l.reverse_reverse, hl]
      simp
    · intro p hp he
      simpa [he] using hb p (by simpa using hp)
  · rintro ⟨before, after, rfl, -, ha⟩
    refine ⟨after.reverse, before.reverse, by simp, ?_⟩
    intro p hp
    have hne := ha p (by simpa using hp)
    simpa using Ne.symm hne

theorem Expr.property?_eq_some_iff {properties : List (String × Expr)} {key : String} {e : Expr} :
    Expr.property? properties key = some e ↔ IsLast (fun p => p.1 = key) properties (key, e) :=
  lookup_reverse_eq_some_iff

namespace Event

def imported : Event → List ImportBinding
  | .imports names source => names.map (⟨·, source⟩)
  | _ => []

def redirects : Event → List Redirect
  | .reexports names source => names.map fun n => ⟨n.exported, n.original, source⟩
  | _ => []

def constant? : Event → Option (String × Expr)
  | .constant name value => some (name, value)
  | _ => none

def type? : Event → Option (String × List (String × Expr))
  | .opens name fields => some (name, fields)
  | _ => none

end Event

namespace Scope

def after (seen : List Event) : Scope := seen.foldl note {}

@[simp] theorem after_concat (seen : List Event) (e : Event) :
    after (seen ++ [e]) = (after seen).note e := by
  simp [after]

/-- Decorators, words and the ends of types leave no entry. -/
theorem after_append_of_note_eq (seen : List Event) {events : List Event} (h : ∀ e ∈ events, ∀ s : Scope, s.note e = s) :
    after (seen ++ events) = after seen := by
  rw [after, List.foldl_append, ← after]
  induction events with
  | nil => rfl
  | cons e events ih =>
      rw [List.foldl_cons, h e (by simp), ih (fun e he => h e (by simp [he]))]

theorem imports_foldl (s : Scope) (events : List Event) :
    (events.foldl note s).bindings.imports =
      (events.flatMap Event.imported).reverse ++ s.bindings.imports := by
  induction events generalizing s with
  | nil => rfl
  | cons e events ih =>
      rw [List.foldl_cons, ih, List.flatMap_cons, List.reverse_append, List.append_assoc]
      cases e with
      | imports names source => rfl
      | reexportsAll source =>
          simp only [note, Bindings.addWholesale]
          split <;> rfl
      | _ => rfl

theorem redirects_foldl (s : Scope) (events : List Event) :
    (events.foldl note s).bindings.redirects =
      (events.flatMap Event.redirects).reverse ++ s.bindings.redirects := by
  induction events generalizing s with
  | nil => rfl
  | cons e events ih =>
      rw [List.foldl_cons, ih, List.flatMap_cons, List.reverse_append, List.append_assoc]
      cases e with
      | reexports names source => rfl
      | reexportsAll source =>
          simp only [note, Bindings.addWholesale]
          split <;> rfl
      | _ => rfl

theorem constants_foldl (s : Scope) (events : List Event) :
    (events.foldl note s).constants = (events.filterMap Event.constant?).reverse ++ s.constants := by
  induction events generalizing s with
  | nil => rfl
  | cons e events ih =>
      rw [List.foldl_cons, ih]
      cases e <;> simp [note, Event.constant?, List.filterMap_cons]

theorem types_foldl (s : Scope) (events : List Event) :
    (events.foldl note s).types = (events.filterMap Event.type?).reverse ++ s.types := by
  induction events generalizing s with
  | nil => rfl
  | cons e events ih =>
      rw [List.foldl_cons, ih]
      cases e <;> simp [note, Event.type?, List.filterMap_cons]

theorem mem_wholesale_foldl (s : Scope) (events : List Event) (source : String) :
    source ∈ (events.foldl note s).bindings.wholesale ↔
      .reexportsAll source ∈ events ∨ source ∈ s.bindings.wholesale := by
  induction events generalizing s with
  | nil => simp
  | cons e events ih =>
      rw [List.foldl_cons, ih, List.mem_cons, or_assoc]
      cases e with
      | reexportsAll other =>
          simp only [note, Bindings.addWholesale, Event.reexportsAll.injEq]
          split
          next hc =>
            have hm : other ∈ s.bindings.wholesale := by simpa using hc
            constructor
            · tauto
            · rintro (rfl | h) <;> tauto
          next =>
            rw [List.mem_append, List.mem_singleton]
            tauto
      | _ => simp [note, Bindings.addImports, Bindings.addRedirects]

variable {seen : List Event}

theorem import?_after {x : String} {b : ImportBinding} :
    (after seen).bindings.import? x = some b ↔
      IsLast (fun b => b.name.localName = x) (seen.flatMap Event.imported) b := by
  simp only [Bindings.import?, after, imports_foldl, List.append_nil, find?_reverse_eq_some_iff, beq_iff_eq]

theorem import?_after_eq_none {x : String} :
    (after seen).bindings.import? x = none ↔
      ∀ b ∈ seen.flatMap Event.imported, b.name.localName ≠ x := by
  simp [Bindings.import?, after, imports_foldl]

theorem redirect?_after {x : String} {r : Redirect} :
    (after seen).bindings.redirect? x = some r ↔
      IsLast (fun r => r.exported = x) (seen.flatMap Event.redirects) r := by
  simp only [Bindings.redirect?, after, redirects_foldl, List.append_nil, find?_reverse_eq_some_iff, beq_iff_eq]

theorem redirect?_after_eq_none {x : String} :
    (after seen).bindings.redirect? x = none ↔
      ∀ r ∈ seen.flatMap Event.redirects, r.exported ≠ x := by
  simp [Bindings.redirect?, after, redirects_foldl]

theorem redirect?_after_append (seen : List Event) {rest : List Event} {x : String}
    (h : ∀ r ∈ rest.flatMap Event.redirects, r.exported ≠ x) :
    (after (seen ++ rest)).bindings.redirect? x = (after seen).bindings.redirect? x := by
  have hn : (rest.flatMap Event.redirects).reverse.find? (fun r => r.exported == x) = none := by
    rw [List.find?_eq_none]
    intro r hr
    simpa using h r (by simpa using hr)
  rw [after, List.foldl_append, ← after, Bindings.redirect?, redirects_foldl, List.find?_append, hn]
  rfl

/-- The last event that passes a name on decides alone. -/
theorem redirect?_after_reexports (seen : List Event) {names : List ReExport} (source : String) {x : String}
    (h : ∃ n ∈ names, n.exported = x) : ∃ n, IsLast (fun n => n.exported = x) names n ∧
      (after (seen ++ [.reexports names source])).bindings.redirect? x =
        some ⟨n.exported, n.original, source⟩ := by
  cases hf : names.reverse.find? (fun n => n.exported == x) with
  | none =>
      obtain ⟨n, hn, hx⟩ := h
      have hne := List.find?_eq_none.mp hf n (by simpa using hn)
      simp [hx] at hne
  | some n =>
      refine ⟨n, by simpa using find?_reverse_eq_some_iff.mp hf, ?_⟩
      rw [after_concat, note, Bindings.redirect?, Bindings.addRedirects, ← List.map_reverse, List.find?_append,
        List.find?_map]
      simp only [Function.comp_def, hf, Option.map_some, Option.some_or]

theorem constants_lookup_after {x : String} {e : Expr} :
    (after seen).constants.lookup x = some e ↔
      IsLast (fun p => p.1 = x) (seen.filterMap Event.constant?) (x, e) := by
  simp only [after, constants_foldl, List.append_nil, lookup_reverse_eq_some_iff]

theorem types_lookup_after {x : String} {fields : List (String × Expr)} :
    (after seen).types.lookup x = some fields ↔
      IsLast (fun p => p.1 = x) (seen.filterMap Event.type?) (x, fields) := by
  simp only [after, types_foldl, List.append_nil, lookup_reverse_eq_some_iff]

theorem types_lookup_after_eq_none {x : String} :
    (after seen).types.lookup x = none ↔ ∀ p ∈ seen.filterMap Event.type?, p.1 ≠ x := by
  rw [List.lookup_eq_none_iff, after, types_foldl, List.append_nil]
  simp only [List.mem_reverse, bne_iff_ne, ne_comm]

/-- A constant stands for the last initializer that it has been given. -/
theorem constant_after_eq_ok_iff {x : String} {e : Expr} :
    (after seen).constant x = .ok e ↔ IsLast (fun p => p.1 = x) (seen.filterMap Event.constant?) (x, e) := by
  rw [← constants_lookup_after, constant]
  cases (after seen).constants.lookup x <;> simp

/-- A member is the field of a type, or the property of an object if there is no such type. -/
theorem member_after_eq_ok_iff {path : Path} {o m : String} {e : Expr} :
    (after seen).member path o m = .ok e ↔
      (∃ fields, IsLast (fun p => p.1 = o) (seen.filterMap Event.type?) (o, fields) ∧ fields.lookup m = some e) ∨
      (∀ p ∈ seen.filterMap Event.type?, p.1 ≠ o) ∧
        ∃ properties, IsLast (fun p => p.1 = o) (seen.filterMap Event.constant?) (o, .object properties) ∧
          IsLast (fun p => p.1 = m) properties (m, e) := by
  simp only [← types_lookup_after, ← types_lookup_after_eq_none, ← constants_lookup_after]
  simp only [← Expr.property?_eq_some_iff, member]
  cases (after seen).types.lookup o with
  | some fields => cases hf : fields.lookup m <;> simp [hf]
  | none =>
      cases (after seen).constants.lookup o with
      | none => simp
      | some c =>
          cases c with
          | object properties => cases hp : Expr.property? properties m <;> simp [hp]
          | _ => simp

theorem mem_wholesale_after {source : String} :
    source ∈ (after seen).bindings.wholesale ↔ .reexportsAll source ∈ seen := by
  simp [after, mem_wholesale_foldl]

end Scope

end ArkRoutes
