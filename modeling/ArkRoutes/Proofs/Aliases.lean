import ArkRoutes.Proofs.References
import ArkRoutes.Settings.Load
import Mathlib.Tactic.SplitIfs

namespace ArkRoutes

theorem toNat_add_one {n : UInt64} (h : n.toNat + 1 < UInt64.size) : (n + 1).toNat = n.toNat + 1 := by
  rw [UInt64.toNat_add]
  exact Nat.mod_eq_of_lt h

namespace Scope

variable (s : Scope) (path : Path)

def next? (e : Expr) : Option Expr :=
  e.reference?.bind fun r =>
    if (s.bindings.import? r.subject).isSome then none else (s.initializer path r).toOption

def trail : Nat → Expr → Option Expr
  | 0, e => some e
  | n + 1, e => (s.next? path e).bind (trail n)

def Cyclic (e : Expr) : Prop := ∃ i j, i < j ∧ s.trail path i e = s.trail path j e ∧ (s.trail path i e).isSome

def followed : Nat → Expr → Nat
  | 0, _ => 0
  | n + 1, e => (s.next? path e).elim 0 fun i => followed n i + 1

/-- The evaluation with its count of references in a machine word, and with the number of calls that it
makes of itself. There is no result if the count overflows. -/
def counted (w : Surroundings) (hops : UInt64) (e : Expr) : Option (Except ResolveError Literal × Nat) :=
  if w.settings.depthLimit < hops.toNat then some (.error (.depthExceeded w.settings.depthLimit), 0)
  else match e.reference? with
    | none => some (e.literal?.elim (.error (.notLiteral e.describe)) .ok, 0)
    | some r =>
      if (s.bindings.import? r.subject).isSome then some (w.imported s.bindings r, 0)
      else match s.initializer w.path r with
        | .error cause => some (.error cause, 0)
        | .ok i =>
          if _h : hops.toNat + 1 < UInt64.size then (counted w (hops + 1) i).map fun (answer, n) => (answer, n + 1)
          else none
termination_by UInt64.size - hops.toNat
decreasing_by
  have hs := toNat_add_one _h
  omega

variable {s path} {w : Surroundings} {e i : Expr} {hops : UInt64}

theorem next?_eq_some_iff : s.next? path e = some i ↔
    ∃ r, e = r.expr ∧ s.bindings.import? r.subject = none ∧ s.initializer path r = .ok i := by
  constructor
  · intro h
    obtain ⟨r, hr, hn⟩ := Option.bind_eq_some_iff.mp h
    split at hn
    next => cases hn
    next hi => exact ⟨r, Expr.eq_expr_of_reference? hr, by simpa using hi, ok_of_toOption hn⟩
  · rintro ⟨r, rfl, hi, hd⟩
    simp [next?, hi, hd, Except.toOption]

theorem evaluate_next (h : s.next? w.path e = some i) (steps : Nat) :
    s.evaluate w (steps + 1) e = s.evaluate w steps i := by
  obtain ⟨r, rfl, hi, hd⟩ := next?_eq_some_iff.mp h
  rw [evaluate_declared hi, hd]
  rfl

theorem counted_exceeded (hl : w.settings.depthLimit < hops.toNat) :
    s.counted w hops e = some (.error (.depthExceeded w.settings.depthLimit), 0) := by
  rw [counted, if_pos hl]

theorem counted_next (hl : hops.toNat ≤ w.settings.depthLimit) (h : s.next? w.path e = some i) :
    s.counted w hops e =
      if hops.toNat + 1 < UInt64.size then (s.counted w (hops + 1) i).map fun (answer, n) => (answer, n + 1)
      else none := by
  obtain ⟨r, rfl, hi, hd⟩ := next?_eq_some_iff.mp h
  rw [counted, if_neg (by omega)]
  simp [hi, hd]

theorem counted_end (hl : hops.toNat ≤ w.settings.depthLimit) (h : s.next? w.path e = none) (steps : Nat) :
    s.counted w hops e = some (s.evaluate w (steps + 1) e, 0) := by
  rw [counted, if_neg (by omega)]
  cases hr : e.reference? with
  | none => rw [evaluate_plain hr]
  | some r =>
      obtain rfl := Expr.eq_expr_of_reference? hr
      cases hi : s.bindings.import? r.subject with
      | some b => simp [evaluate_imported, hi]
      | none =>
          cases hd : s.initializer w.path r with
          | error cause => simp [evaluate_declared, hi, hd, Except.bind]
          | ok i => cases h.symm.trans (next?_eq_some_iff.mpr ⟨r, rfl, hi, hd⟩)

theorem trail_add (m n : Nat) (e : Expr) : s.trail path (m + n) e = (s.trail path m e).bind (s.trail path n) := by
  induction m generalizing e with
  | zero => rw [Nat.zero_add, trail, Option.bind_some]
  | succ m ih =>
      rw [Nat.add_right_comm, trail, trail]
      cases s.next? path e with
      | none => rfl
      | some i => exact ih i

theorem isSome_trail_of_le {m n : Nat} (h : m ≤ n) (hn : (s.trail path n e).isSome) : (s.trail path m e).isSome := by
  obtain ⟨k, rfl⟩ := Nat.exists_eq_add_of_le h
  rw [trail_add] at hn
  exact Option.isSome_of_isSome_bind hn

theorem Cyclic.isSome_trail (h : s.Cyclic path e) (n : Nat) : (s.trail path n e).isSome := by
  obtain ⟨i, j, hij, heq, hi⟩ := h
  obtain ⟨o, ho⟩ := Option.isSome_iff_exists.mp hi
  have hround : s.trail path (j - i) o = some o := by
    have hj : s.trail path (i + (j - i)) e = s.trail path i e := by
      rw [Nat.add_sub_cancel' (Nat.le_of_lt hij)]
      exact heq.symm
    rw [trail_add, ho, Option.bind_some] at hj
    exact hj
  have hrounds (k : Nat) : s.trail path ((j - i) * k) o = some o := by
    induction k with
    | zero => rfl
    | succ k ih => rw [Nat.mul_succ, trail_add, ih, Option.bind_some, hround]
  refine isSome_trail_of_le (n := i + (j - i) * n) ?_ ?_
  · have hp : 1 * n ≤ (j - i) * n := Nat.mul_le_mul_right n (by omega)
    omega
  · rw [trail_add, ho, Option.bind_some, hrounds]
    rfl

theorem followed_le (steps : Nat) (e : Expr) : s.followed path steps e ≤ steps := by
  induction steps generalizing e with
  | zero => exact Nat.le_refl _
  | succ steps ih =>
      rw [followed]
      cases s.next? path e with
      | none => exact Nat.zero_le _
      | some i => exact Nat.succ_le_succ (ih i)

/-- As long as the trail goes on, an evaluation ends for lack of steps. -/
theorem evaluate_of_trail {steps : Nat} (h : (s.trail w.path steps e).isSome) :
    s.evaluate w steps e = .error (.depthExceeded w.settings.depthLimit) := by
  induction steps generalizing e with
  | zero => rfl
  | succ steps ih =>
      rw [trail] at h
      obtain ⟨i, hn⟩ := Option.isSome_iff_exists.mp (Option.isSome_of_isSome_bind h)
      rw [hn, Option.bind_some] at h
      rw [evaluate_next hn, ih h]

/-- What is counted is what is evaluated, except where all the steps to the largest word are taken. -/
theorem counted_eq (hw : w.settings.depthLimit < UInt64.size) {steps : Nat}
    (hs : hops.toNat + steps = w.settings.depthLimit + 1) :
    s.counted w hops e =
      if w.settings.depthLimit + 1 = UInt64.size ∧ (s.trail w.path steps e).isSome then none
      else some (s.evaluate w steps e, s.followed w.path steps e) := by
  induction steps generalizing hops e with
  | zero =>
      have hlt : hops.toNat < UInt64.size := hops.toNat_lt_size
      rw [counted_exceeded (by omega), if_neg (by omega)]
      rfl
  | succ steps ih =>
      rw [trail, followed]
      cases hn : s.next? w.path e with
      | none =>
          rw [counted_end (by omega) hn steps]
          simp
      | some i =>
          rw [counted_next (by omega) hn, evaluate_next hn, Option.bind_some]
          split_ifs with hfit hend hend
          · rw [ih (by rw [toNat_add_one hfit]; omega), if_pos hend]
            rfl
          · rw [ih (by rw [toNat_add_one hfit]; omega), if_neg hend]
            rfl
          · rfl
          · have hlt : hops.toNat < UInt64.size := hops.toNat_lt_size
            obtain rfl : steps = 0 := by omega
            exact (hend ⟨by omega, rfl⟩).elim

theorem counted_zero (hw : w.settings.depthLimit < UInt64.size) :
    s.counted w 0 e =
      if w.settings.depthLimit + 1 = UInt64.size ∧ (s.trail w.path (w.settings.depthLimit + 1) e).isSome then none
      else some (s.value w e, s.followed w.path (w.settings.depthLimit + 1) e) :=
  counted_eq hw (by simp)

/-- With any limit below the largest word an evaluation ends with its value, without an overflow and after
no more calls than the limit and one. In a circle that value is the error for the limit. -/
theorem evaluation_ends (s : Scope) (w : Surroundings) (hw : w.settings.depthLimit + 1 < UInt64.size) (e : Expr) :
    (∃ n, s.counted w 0 e = some (s.value w e, n) ∧ n ≤ w.settings.depthLimit + 1) ∧
      (s.Cyclic w.path e → s.value w e = .error (.depthExceeded w.settings.depthLimit)) := by
  constructor
  · refine ⟨s.followed w.path (w.settings.depthLimit + 1) e, ?_, followed_le _ e⟩
    rw [counted_zero (by omega), if_neg (by omega)]
  · exact fun h => evaluate_of_trail (h.isSome_trail _)

/-- The count overflows exactly along a trail that has as many references as there are words. -/
theorem counted_eq_none_iff (hw : w.settings.depthLimit < UInt64.size) :
    s.counted w 0 e = none ↔ w.settings.depthLimit + 1 = UInt64.size ∧ (s.trail w.path UInt64.size e).isSome := by
  rw [counted_zero hw]
  constructor
  · intro h
    split_ifs at h with hend
    exact ⟨hend.1, hend.1 ▸ hend.2⟩
  · rintro ⟨hsize, ht⟩
    rw [if_pos ⟨hsize, hsize ▸ ht⟩]

def circle : List Event :=
  [.constant "START" (.member "Routes" "HOME"), .opens "Routes" [("HOME", .member "Names" "MAIN")], .closes,
    .constant "Names" (.object [("MAIN", .name "START")])]

theorem circle_cyclic (path : Path) : (after circle).Cyclic path (.name "START") := by
  refine ⟨0, 3, by decide, ?_, rfl⟩
  simp [trail, next?, Expr.reference?, Reference.subject, initializer, constant, member, after, circle, note,
    Bindings.import?, List.lookup_cons, Expr.property?, Except.toOption]

open Resolution in
theorem circle_evaluation_ends :
    (∃ n, (after circle).counted (around {} ⟨[], []⟩ [⟨"/Page.ets"⟩] ⟨"/Page.ets"⟩) 0 (.name "START") =
        some (.error (.depthExceeded 8), n) ∧ n ≤ 9) ∧
      (after circle).value (around {} ⟨[], []⟩ [⟨"/Page.ets"⟩] ⟨"/Page.ets"⟩) (.name "START") =
        .error (.depthExceeded 8) := by
  obtain ⟨⟨n, hn, hle⟩, hv⟩ := evaluation_ends (after circle)
    (around {} ⟨[], []⟩ [⟨"/Page.ets"⟩] ⟨"/Page.ets"⟩) (by decide) (.name "START")
  have hv := hv (circle_cyclic _)
  exact ⟨⟨n, hv ▸ hn, hle⟩, hv⟩

def unlimited : FileTree := ⟨[], [(["settings.json5"], .file (.text "\x7bmaxResolveDepth: Infinity\x7d"))]⟩

open Resolution in
/-- Settings may have the largest word for a limit, and with it the count overflows in a circle. -/
theorem circle_overflows :
    (Settings.load unlimited ⟨"/settings.json5"⟩).toOption = some { depthLimit := UInt64.size - 1 } ∧
      (after circle).Cyclic ⟨"/Page.ets"⟩ (.name "START") ∧
      (after circle).counted (around { depthLimit := UInt64.size - 1 } unlimited [⟨"/Page.ets"⟩] ⟨"/Page.ets"⟩) 0
        (.name "START") = none := by
  refine ⟨by decide +kernel, circle_cyclic _, ?_⟩
  have hw : (around { depthLimit := UInt64.size - 1 } unlimited [⟨"/Page.ets"⟩] ⟨"/Page.ets"⟩).settings.depthLimit + 1 =
      UInt64.size := rfl
  rw [counted_eq_none_iff (by omega)]
  exact ⟨hw, (circle_cyclic _).isSome_trail _⟩

end Scope

end ArkRoutes
