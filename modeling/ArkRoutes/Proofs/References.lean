import ArkRoutes.Proofs.Files
import ArkRoutes.Proofs.Search

namespace ArkRoutes

namespace Reference

def expr : Reference → Expr
  | name x => .name x
  | member o m => .member o m

def question : Reference → Query
  | name x => { owner := x }
  | member o m => { owner := o, attribute? := some m }

@[simp] theorem indexed_question (r : Reference) : r.question.indexed = false := by cases r <;> rfl

end Reference

namespace Expr

def reference? : Expr → Option Reference
  | name x => some (.name x)
  | member o m => some (.member o m)
  | _ => none

@[simp] theorem reference?_expr (r : Reference) : r.expr.reference? = some r := by cases r <;> rfl

theorem eq_expr_of_reference? {e : Expr} {r : Reference} (h : e.reference? = some r) : e = r.expr := by
  cases e <;> cases h <;> rfl

end Expr

namespace Scope

def initializer (s : Scope) (path : Path) : Reference → Except ResolveError Expr
  | .name x => s.constant x
  | .member o m => s.member path o m

variable {s : Scope} {w : Surroundings} {r : Reference} {e : Expr}

theorem evaluate_imported (h : (s.bindings.import? r.subject).isSome) (steps : Nat) :
    s.evaluate w (steps + 1) r.expr = w.imported s.bindings r := by
  cases r with
  | name x => exact if_pos h
  | member o m => exact if_pos h

theorem evaluate_declared (h : s.bindings.import? r.subject = none) (steps : Nat) :
    s.evaluate w (steps + 1) r.expr = (s.initializer w.path r).bind (s.evaluate w steps) := by
  have hn : ¬ (s.bindings.import? r.subject).isSome := by simp [h]
  cases r with
  | name x => exact if_neg hn
  | member o m => exact if_neg hn

theorem evaluate_plain (h : e.reference? = none) (steps : Nat) :
    s.evaluate w (steps + 1) e = e.literal?.elim (.error (.notLiteral e.describe)) .ok := by
  cases e with
  | name x => cases h
  | member o m => cases h
  | _ => rfl

/-- A limit can only hide a value. -/
theorem evaluate_mono {steps steps' : Nat} (hs : steps ≤ steps') {v : Literal} (h : s.evaluate w steps e = .ok v) :
    s.evaluate w steps' e = .ok v := by
  induction steps generalizing steps' e with
  | zero => cases h
  | succ steps ih =>
      obtain ⟨steps', rfl⟩ : ∃ n, steps' = n + 1 := ⟨steps' - 1, by omega⟩
      cases hr : e.reference? with
      | none =>
          rw [evaluate_plain hr] at h ⊢
          exact h
      | some r =>
          rw [Expr.eq_expr_of_reference? hr] at h ⊢
          cases hi : s.bindings.import? r.subject with
          | some b =>
              rw [evaluate_imported (by simp [hi])] at h ⊢
              exact h
          | none =>
              rw [evaluate_declared hi] at h ⊢
              obtain ⟨i, hd, hv⟩ := ok_of_bind h
              rw [hd]
              exact ih (by omega) hv

/-- What a file puts in place of a reference is what one of its events declares. -/
theorem declares_of_initializer {seen : List Event} {path : Path}
    (h : (after seen).initializer path r = .ok e) : ∃ event ∈ seen, r.question.Declares event e := by
  cases r with
  | name x =>
      obtain ⟨event, he, hx⟩ := List.mem_filterMap.mp (constant_after_eq_ok_iff.mp h).mem
      cases event <;> cases hx
      exact ⟨_, he, .constant rfl⟩
  | member o m =>
      obtain ⟨fields, ht, hf⟩ | ⟨-, properties, hc, hp⟩ := member_after_eq_ok_iff.mp h
      · obtain ⟨event, he, hx⟩ := List.mem_filterMap.mp ht.mem
        cases event <;> cases hx
        exact ⟨_, he, .field rfl hf⟩
      · obtain ⟨event, he, hx⟩ := List.mem_filterMap.mp hc.mem
        cases event <;> cases hx
        exact ⟨_, he, .property rfl hp⟩

end Scope

end ArkRoutes
