import ArkRoutes.Proofs.Aliases

namespace ArkRoutes

def IsFirst {α : Type} (p : α → Prop) (l : List α) (x : α) : Prop :=
  ∃ before after, l = before ++ x :: after ∧ p x ∧ ∀ y ∈ before, ¬ p y

theorem lookup_eq_some_iff_isFirst {β : Type} {l : List (String × β)} {key : String} {x : β} :
    l.lookup key = some x ↔ IsFirst (fun p => p.1 = key) l (key, x) := by
  rw [List.lookup_eq_some_iff]
  constructor
  · rintro ⟨before, after, rfl, hb⟩
    refine ⟨before, after, rfl, rfl, fun p hp he => ?_⟩
    simpa [he] using hb p hp
  · rintro ⟨before, after, rfl, -, hb⟩
    refine ⟨before, after, rfl, fun p hp => ?_⟩
    simpa using Ne.symm (hb p hp)

/-- `StandsFor seen e i`: behind the events `seen` of a file, the reference `e` is to a declaration of that
file with the initializer `i`. Objects give way to types. -/
inductive StandsFor (seen : List Event) : Expr → Expr → Prop
  | constant {x i} (hi : ∀ b ∈ seen.flatMap Event.imported, b.name.localName ≠ x)
      (hc : IsLast (fun p => p.1 = x) (seen.filterMap Event.constant?) (x, i)) : StandsFor seen (.name x) i
  | field {o m fields i} (hi : ∀ b ∈ seen.flatMap Event.imported, b.name.localName ≠ o)
      (ht : IsLast (fun p => p.1 = o) (seen.filterMap Event.type?) (o, fields))
      (hf : IsFirst (fun p => p.1 = m) fields (m, i)) : StandsFor seen (.member o m) i
  | property {o m properties i} (hi : ∀ b ∈ seen.flatMap Event.imported, b.name.localName ≠ o)
      (ht : ∀ p ∈ seen.filterMap Event.type?, p.1 ≠ o)
      (hc : IsLast (fun p => p.1 = o) (seen.filterMap Event.constant?) (o, .object properties))
      (hp : IsLast (fun p => p.1 = m) properties (m, i)) : StandsFor seen (.member o m) i

/-- `Leads seen k e o`: after exactly `k` references, one behind the other, `e` has led to `o`. -/
inductive Leads (seen : List Event) : Nat → Expr → Expr → Prop
  | here {e} : Leads seen 0 e e
  | onward {k e i o} (h : StandsFor seen e i) (hk : Leads seen k i o) : Leads seen (k + 1) e o

namespace Scope

variable {seen : List Event} {path : Path} {e i o : Expr}

/-- The trail takes the next step exactly where there is a declaration to refer to. -/
theorem next?_after_eq_some_iff : (after seen).next? path e = some i ↔ StandsFor seen e i := by
  rw [next?_eq_some_iff]
  constructor
  · rintro ⟨r, rfl, hi, hd⟩
    have hi := import?_after_eq_none.mp hi
    cases r with
    | name x => exact .constant hi (constant_after_eq_ok_iff.mp hd)
    | member x m =>
        obtain ⟨fields, ht, hf⟩ | ⟨ht, properties, hc, hp⟩ := member_after_eq_ok_iff.mp hd
        · exact .field hi ht (lookup_eq_some_iff_isFirst.mp hf)
        · exact .property hi ht hc hp
  · intro h
    cases h with
    | constant hi hc =>
        exact ⟨.name _, rfl, import?_after_eq_none.mpr hi, constant_after_eq_ok_iff.mpr hc⟩
    | field hi ht hf =>
        refine ⟨.member _ _, rfl, import?_after_eq_none.mpr hi, ?_⟩
        exact member_after_eq_ok_iff.mpr (.inl ⟨_, ht, lookup_eq_some_iff_isFirst.mpr hf⟩)
    | property hi ht hc hp =>
        refine ⟨.member _ _, rfl, import?_after_eq_none.mpr hi, ?_⟩
        exact member_after_eq_ok_iff.mpr (.inr ⟨ht, _, hc, hp⟩)

theorem trail_after_eq_some_iff {k : Nat} : (after seen).trail path k e = some o ↔ Leads seen k e o := by
  induction k generalizing e with
  | zero =>
      rw [trail, Option.some.injEq]
      constructor
      · rintro rfl
        exact .here
      · intro h
        cases h
        rfl
  | succ k ih =>
      rw [trail, Option.bind_eq_some_iff]
      constructor
      · rintro ⟨i, hn, hk⟩
        exact .onward (next?_after_eq_some_iff.mp hn) (ih.mp hk)
      · intro h
        cases h with
        | onward h hk => exact ⟨_, next?_after_eq_some_iff.mpr h, ih.mpr hk⟩

variable {s : Scope} {w : Surroundings}

theorem evaluate_trail {k : Nat} (h : s.trail w.path k e = some o) (steps : Nat) :
    s.evaluate w (steps + k) e = s.evaluate w steps o := by
  induction k generalizing e with
  | zero =>
      cases h
      rfl
  | succ k ih =>
      obtain ⟨i, hn, hk⟩ := Option.bind_eq_some_iff.mp h
      rw [← Nat.add_assoc, evaluate_next hn, ih hk]

/-- References are followed up to the end of the trail, unless the steps are used up before. -/
theorem followed_of_trail {k : Nat} (h : s.trail path k e = some o) (ho : s.next? path o = none) (steps : Nat) :
    s.followed path steps e = min k steps := by
  induction k generalizing e steps with
  | zero =>
      cases h
      cases steps with
      | zero => rfl
      | succ steps => simp [followed, ho]
  | succ k ih =>
      obtain ⟨i, hn, hk⟩ := Option.bind_eq_some_iff.mp h
      cases steps with
      | zero => rfl
      | succ steps => rw [followed, hn, Option.elim_some, ih hk, Nat.add_min_add_right]

theorem next?_literal (v : Literal) : s.next? path (.literal v) = none := rfl

/-- Where the trail ends with a literal, the limit alone decides between its value and the error. -/
theorem value_of_trail {k : Nat} {v : Literal} (h : s.trail w.path k e = some (.literal v)) :
    s.value w e = if k ≤ w.settings.depthLimit then .ok v else .error (.depthExceeded w.settings.depthLimit) := by
  split_ifs with hk
  · have hs : w.settings.depthLimit + 1 = w.settings.depthLimit - k + 1 + k := by omega
    rw [value, hs, evaluate_trail h, evaluate]
  · exact evaluate_of_trail (isSome_trail_of_le (n := k) (by omega) (by simp [h]))

/-- With references counted in a machine word the value is the same, and each of them makes one call up to
the one that is refused, as long as there are fewer references than words. -/
theorem counted_of_trail {k : Nat} {v : Literal} (h : s.trail w.path k e = some (.literal v))
    (hw : w.settings.depthLimit < UInt64.size) (hk : k < UInt64.size) :
    s.counted w 0 e = some (s.value w e, min k (w.settings.depthLimit + 1)) := by
  have hend : ¬ (w.settings.depthLimit + 1 = UInt64.size ∧ (s.trail w.path (w.settings.depthLimit + 1) e).isSome) := by
    rintro ⟨hsize, ht⟩
    obtain ⟨n, hn⟩ := Nat.exists_eq_add_of_lt hk
    rw [hsize, hn, Nat.add_assoc, trail_add, h, Option.bind_some, trail, next?_literal] at ht
    cases ht
  rw [counted_zero hw, if_neg hend, followed_of_trail h (next?_literal v)]

/-- An alias that leads to a literal after `k` references, whatever they are to, has the value of the literal
if `k` is within the limit and is refused with the limit otherwise. The count of references has room for
that in a machine word, and there is one call for each reference that is followed. -/
theorem value_of_leads (w : Surroundings) {seen : List Event} {k : Nat} {e : Expr} {v : Literal}
    (h : Leads seen k e (.literal v)) :
    (after seen).value w e =
        (if k ≤ w.settings.depthLimit then .ok v else .error (.depthExceeded w.settings.depthLimit)) ∧
      (w.settings.depthLimit < UInt64.size → k < UInt64.size →
        (after seen).counted w 0 e = some ((after seen).value w e, min k (w.settings.depthLimit + 1))) := by
  have ht : (after seen).trail w.path k e = some (.literal v) := trail_after_eq_some_iff.mpr h
  exact ⟨value_of_trail ht, counted_of_trail ht⟩

def mixedAliases : List Event :=
  [.constant "LAST" (.literal (.text "earlier")), .constant "START" (.member "Routes" "HOME"),
    .constant "Routes" (.object [("HOME", .literal (.text "hidden"))]),
    .opens "Routes" [("HOME", .member "Names" "MAIN"), ("HOME", .literal (.text "second"))], .closes,
    .constant "Names" (.object [("MAIN", .literal (.text "first")), ("MAIN", .name "LAST")]),
    .constant "LAST" (.literal (.text "home/Main"))]

theorem mixedAliases_leads : Leads mixedAliases 4 (.name "START") (.literal (.text "home/Main")) := by
  have ht : (after mixedAliases).trail ⟨"/Page.ets"⟩ 4 (.name "START") = some (.literal (.text "home/Main")) := rfl
  exact trail_after_eq_some_iff.mp ht

open Resolution in
theorem mixedAliases_value :
    Leads mixedAliases 4 (.name "START") (.literal (.text "home/Main")) ∧
      (after mixedAliases).value (around { depthLimit := 4 } ⟨[], []⟩ [] ⟨"/Page.ets"⟩) (.name "START") =
        .ok (.text "home/Main") ∧
      (after mixedAliases).counted (around { depthLimit := 4 } ⟨[], []⟩ [] ⟨"/Page.ets"⟩) 0 (.name "START") =
        some (.ok (.text "home/Main"), 4) ∧
      (after mixedAliases).value (around { depthLimit := 3 } ⟨[], []⟩ [] ⟨"/Page.ets"⟩) (.name "START") =
        .error (.depthExceeded 3) := by
  obtain ⟨hv, hc⟩ := value_of_leads (around { depthLimit := 4 } ⟨[], []⟩ [] ⟨"/Page.ets"⟩) mixedAliases_leads
  have hv : (after mixedAliases).value (around { depthLimit := 4 } ⟨[], []⟩ [] ⟨"/Page.ets"⟩) (.name "START") =
    .ok (.text "home/Main") := hv
  refine ⟨mixedAliases_leads, hv, ?_, ?_⟩
  · rw [← hv]
    exact hc (by decide) (by decide)
  · exact (value_of_leads (around { depthLimit := 3 } ⟨[], []⟩ [] ⟨"/Page.ets"⟩) mixedAliases_leads).1

end Scope

end ArkRoutes
