import ArkRoutes.Proofs.Vocabulary.Parsers

namespace ArkRoutes.Source

namespace Node

/-- What may be exported: no node in which the parser recovered, and no export. -/
def IsOrdinary : Node → Prop
  | recovered _ | exported _ _ => False
  | _ => True

mutual

def IsOrderly : Node → Prop
  | exported _ declaration => declaration.IsOrdinary
  | recovered parts => AllOrderly parts
  | _ => True

def AllOrderly : List Node → Prop
  | [] => True
  | n :: rest => n.IsOrderly ∧ AllOrderly rest

end

theorem allOrderly_iff {nodes : List Node} : AllOrderly nodes ↔ ∀ n ∈ nodes, n.IsOrderly := by
  induction nodes with
  | nil => simp [AllOrderly]
  | cons n nodes ih => simp [AllOrderly, ih]

theorem IsOrdinary.isOrderly {n : Node} (h : n.IsOrdinary) : n.IsOrderly := by
  cases n <;> trivial

end Node

namespace Parser

variable {α β : Type} {r : β → Prop}

abbrev Reads (p : Parser α) (q : α → Prop) : Prop := Yields (fun _ => True) p q

abbrev ReadsOrdinary (p : Parser Node) : Prop := Reads p Node.IsOrdinary

theorem reads_any (p : Parser α) : Reads p fun _ => True := fun _ _ _ _ _ _ => ⟨trivial, fun _ _ _ => trivial⟩

/-- What was read before does not matter. -/
theorem reads_after {p : Parser α} {f : α → Parser β} (h : ∀ a, Reads (f a) r) : Reads (p >>= f) r :=
  yields_bind (reads_any p) fun a _ => h a

theorem ordinary_name : ReadsOrdinary name := reads_after fun _ => yields_pure trivial

theorem ordinary_privateName : ReadsOrdinary privateName := reads_after fun _ => yields_pure trivial

theorem ordinary_form (kind : String) (parts : Parser (List Node)) : ReadsOrdinary (form kind parts) :=
  reads_after fun _ => yields_pure trivial

end Parser

namespace Grammar

open Parser

variable {sub : Sub}

/-! ### Expressions -/

theorem ordinary_template (inner : Parser Node) : ReadsOrdinary (template inner) := by
  refine reads_after fun t => ?_
  split
  · exact yields_pure trivial
  · exact reads_after fun _ => reads_after fun _ => yields_pure trivial
  · exact yields_failure

theorem ordinary_classExpression : ReadsOrdinary (classExpression sub) := reads_after fun _ => yields_pure trivial

theorem ordinary_functionExpression : ReadsOrdinary (functionExpression sub) :=
  reads_after fun _ => reads_after fun _ => reads_after fun _ => reads_after fun _ => reads_after fun _ =>
    yields_pure trivial

theorem ordinary_wordExpression : ReadsOrdinary wordExpression := by
  refine reads_after fun t => ?_
  split
  all_goals first | exact yields_pure trivial | exact yields_failure

theorem ordinary_metaProperty : ReadsOrdinary metaProperty :=
  reads_after fun _ => reads_after fun _ => reads_after fun _ => yields_pure trivial

theorem ordinary_importCallee : ReadsOrdinary importCallee :=
  reads_after fun _ => reads_after fun _ => yields_ite (yields_pure trivial) yields_failure

theorem ordinary_objectLiteral : ReadsOrdinary (objectLiteral sub) := reads_after fun _ => yields_pure trivial

theorem ordinary_primary : ReadsOrdinary (primary sub) := by
  refine reads_after fun tokens => ?_
  split
  next => exact yields_failure
  next t _ =>
    split
    · exact reads_after fun _ => yields_pure trivial
    · exact reads_after fun _ => yields_pure trivial
    · exact reads_after fun _ => yields_pure trivial
    · exact ordinary_privateName
    · exact ordinary_template _
    · exact yields_orElse (reads_after fun _ => yields_pure trivial) <|
        yields_orElse (ordinary_form _ _) ordinary_objectLiteral
    · exact yields_orElse ordinary_wordExpression <| yields_orElse ordinary_metaProperty <|
        yields_orElse ordinary_importCallee <| yields_orElse ordinary_functionExpression <|
        yields_orElse ordinary_classExpression ordinary_name

theorem ordinary_memberSuffix (object : Node) : ReadsOrdinary (memberSuffix object) :=
  reads_after fun _ => reads_after fun _ => yields_pure trivial

theorem ordinary_subscriptSuffix (object : Node) : ReadsOrdinary (subscriptSuffix sub object) :=
  reads_after fun _ => reads_after fun _ => yields_pure trivial

theorem ordinary_callSuffix (callee : Node) : ReadsOrdinary (callSuffix sub callee) :=
  reads_after fun _ => reads_after fun _ => yields_orElse (reads_after fun _ => yields_pure trivial)
    (reads_after fun _ => yields_pure trivial)

theorem ordinary_assertedSuffix (operand : Node) : ReadsOrdinary (assertedSuffix operand) :=
  reads_after fun _ => reads_after fun _ => yields_pure trivial

theorem ordinary_suffixed {suffix : Node → Parser Node} (h : ∀ e, ReadsOrdinary (suffix e)) (n : Nat) {e : Node}
    (he : e.IsOrdinary) : ReadsOrdinary (suffixed suffix n e) := by
  induction n generalizing e with
  | zero => exact yields_pure he
  | succ n ih => exact yields_orElse (yields_bind (h e) fun _ he => ih he) (yields_pure he)

theorem ordinary_operandSuffixes {e : Node} (he : e.IsOrdinary) : ReadsOrdinary (operandSuffixes sub e) :=
  reads_after fun n => ordinary_suffixed (fun e => yields_orElse (ordinary_memberSuffix e) <|
    yields_orElse (ordinary_subscriptSuffix e) <| yields_orElse (ordinary_callSuffix e) (ordinary_assertedSuffix e))
    n he

theorem ordinary_newExpression : ReadsOrdinary (newExpression sub) :=
  reads_after fun _ => reads_after fun _ => reads_after fun _ => reads_after fun _ => reads_after fun _ =>
    reads_after fun _ => reads_after fun _ => yields_pure trivial

theorem ordinary_unary : ReadsOrdinary (unary sub) := by
  refine yields_orElse (reads_after fun _ => reads_after fun _ => yields_pure trivial) <|
    yields_orElse (ordinary_form _ _) <| yields_bind (yields_orElse ordinary_metaProperty <|
    yields_orElse ordinary_newExpression ordinary_primary) fun _ he =>
    yields_bind (ordinary_operandSuffixes he) fun _ he => yields_orElse ?_ (yields_pure he)
  exact reads_after fun _ => reads_after fun _ => yields_pure trivial

def ReadsExpressions (sub : Sub) : Prop :=
  ReadsOrdinary (sub .expression) ∧ ReadsOrdinary (sub .assignment) ∧ ReadsOrdinary (sub .unary)

variable (hs : ReadsExpressions sub)
include hs

theorem ordinary_assignment : ReadsOrdinary (assignment sub) := by
  refine yields_orElse (ordinary_form _ _) <| yields_orElse (ordinary_form _ _) <|
    yields_bind hs.2.2 fun _ he => reads_after fun n =>
    yields_bind (ordinary_suffixed (fun e => yields_orElse ?_ ?_) n he) fun _ he =>
    yields_orElse ?_ <| yields_orElse ?_ (yields_pure he)
  · exact reads_after fun _ => reads_after fun _ => yields_pure trivial
  · exact reads_after fun _ => reads_after fun _ => reads_after fun _ => yields_pure trivial
  · exact reads_after fun _ => reads_after fun _ => reads_after fun _ => reads_after fun _ => yields_pure trivial
  · exact reads_after fun _ => reads_after fun _ => yields_pure trivial

theorem ordinary_expression : ReadsOrdinary (expression sub) := by
  refine yields_bind hs.2.1 fun e he => reads_after fun more => ?_
  split
  · exact yields_pure he
  · exact yields_pure trivial

omit hs

theorem readsExpressions_parse (depth : Nat) : ReadsExpressions (parse depth) := by
  induction depth with
  | zero => exact ⟨yields_failure, yields_failure, yields_failure⟩
  | succ depth ih => exact ⟨ordinary_expression ih, ordinary_assignment ih, ordinary_unary⟩

/-! ### Declarations -/

theorem ordinary_classDeclaration (decorators : List Node) : ReadsOrdinary (classDeclaration sub decorators) := by
  refine reads_after fun c => ?_
  split
  · exact yields_pure trivial
  · exact yields_pure trivial

theorem ordinary_enumDeclaration : ReadsOrdinary (enumDeclaration sub) :=
  reads_after fun _ => reads_after fun _ => reads_after fun _ => reads_after fun _ => yields_pure trivial

theorem ordinary_variableList : ReadsOrdinary (variableList sub) :=
  reads_after fun _ => reads_after fun _ => reads_after fun _ => yields_pure trivial

theorem ordinary_declaration : ReadsOrdinary (declaration sub) :=
  yields_orElse ordinary_enumDeclaration <| yields_orElse ordinary_variableList <|
    yields_orElse (ordinary_form _ _) <| yields_orElse (ordinary_classDeclaration []) <|
    yields_orElse (ordinary_form _ _) <| yields_orElse (ordinary_form _ _) (ordinary_form _ _)

theorem ordinary_importStatement : ReadsOrdinary (importStatement sub) := by
  have hrequire : ReadsOrdinary importRequire :=
    reads_after fun _ => reads_after fun _ => reads_after fun _ => reads_after fun _ => yields_pure trivial
  refine reads_after fun _ => yields_orElse ?_ <| yields_orElse ?_ <| yields_orElse hrequire <|
    yields_orElse (reads_after fun _ => hrequire) (ordinary_form _ _)
  · exact reads_after fun _ => reads_after fun _ => yields_pure trivial
  · exact reads_after fun _ => reads_after fun _ => reads_after fun _ => yields_pure trivial

theorem ordinary_exportOnly : ReadsOrdinary (exportOnly sub) := by
  refine reads_after fun _ => yields_orElse ?_ <| yields_orElse ?_ <| yields_orElse ?_ (ordinary_form _ _)
  · refine reads_after fun _ => reads_after fun _ => reads_after fun isNamed => reads_after fun _ =>
      reads_after fun _ => reads_after fun _ => yields_pure ?_
    cases isNamed <;> trivial
  · exact reads_after fun _ => reads_after fun _ => reads_after fun _ => reads_after fun _ => reads_after fun _ =>
      yields_pure trivial
  · exact reads_after fun _ => ordinary_form _ _

theorem ordinary_exportedDecorated : ReadsOrdinary (exportedDecorated sub) :=
  reads_after fun own => yields_ite yields_failure (ordinary_classDeclaration own)

theorem ordinary_exportDefault : ReadsOrdinary (exportDefault sub) :=
  reads_after fun _ => yields_orElse ordinary_exportedDecorated <| yields_orElse (ordinary_classDeclaration []) <|
    yields_orElse (ordinary_form _ _) <| yields_orElse (ordinary_form _ _) (ordinary_form _ _)

/-! ### Statements -/

theorem orderly_exportedDeclaration (outer : List Node) :
    Reads (exportedDeclaration sub outer) Node.IsOrderly :=
  reads_after fun _ => yields_bind (yields_orElse ordinary_exportDefault <| yields_orElse ordinary_exportedDecorated <|
    yields_orElse (ordinary_form _ _) ordinary_declaration) fun _ hd => yields_pure hd

theorem ordinary_decorator : ReadsOrdinary (decorator sub) := by
  refine reads_after fun _ => yields_orElse (reads_after fun _ => yields_orElse ?_ (yields_pure trivial)) ?_
  · exact reads_after fun _ => reads_after fun _ => yields_pure trivial
  · exact reads_after fun _ => yields_pure trivial

theorem orderly_decorated : Reads (decorated sub) Node.IsOrderly := by
  refine yields_bind (yields_many ordinary_decorator) fun own ho => yields_ite yields_failure <|
    yields_orElse ((ordinary_classDeclaration own).imp fun _ => Node.IsOrdinary.isOrderly) <|
    yields_orElse (orderly_exportedDeclaration own) ?_
  have hr : (Node.recovered own).IsOrderly := Node.allOrderly_iff.mpr fun d hd => (ho d hd).isOrderly
  exact reads_after fun _ => yields_ite (yields_pure hr) (reads_after fun _ => yields_pure hr)

theorem orderly_terminated {p : Parser Node} (h : Reads p Node.IsOrderly) : Reads (terminated p) Node.IsOrderly :=
  yields_bind h fun _ hn => reads_after fun _ => yields_pure hn

theorem orderly_exportStatement : Reads (exportStatement sub) Node.IsOrderly :=
  yields_orElse (ordinary_exportOnly.imp fun _ => Node.IsOrdinary.isOrderly) (orderly_exportedDeclaration [])

theorem orderly_statement (hs : ReadsExpressions sub) : Reads (statement sub) Node.IsOrderly := by
  have of {p : Parser Node} (h : ReadsOrdinary p) : Reads p Node.IsOrderly := h.imp fun _ => Node.IsOrdinary.isOrderly
  have hform (kind : String) (parts : Parser (List Node)) : Reads (form kind parts) Node.IsOrderly :=
    of (ordinary_form kind parts)
  exact yields_orElse (hform _ _) <|
    yields_orElse (reads_after fun _ => yields_pure trivial) <|
    yields_orElse orderly_decorated <|
    yields_orElse (orderly_terminated (of ordinary_importStatement)) <|
    yields_orElse (orderly_terminated orderly_exportStatement) <|
    yields_orElse (reads_after fun _ => yields_pure trivial) <|
    yields_orElse (orderly_terminated (of ordinary_declaration)) <|
    yields_orElse (orderly_terminated (hform _ _)) <|
    yields_orElse (hform _ _) <| yields_orElse (hform _ _) <|
    yields_orElse (orderly_terminated (hform _ _)) <| yields_orElse (hform _ _) <|
    yields_orElse (hform _ _) <| yields_orElse (hform _ _) <|
    yields_orElse (orderly_terminated (hform _ _)) <| yields_orElse (orderly_terminated (hform _ _)) <|
    yields_orElse (hform _ _) (orderly_terminated (of hs.1))

theorem orderly_parse (depth : Nat) : Reads (parse depth .statement) Node.IsOrderly := by
  cases depth with
  | zero => exact yields_failure
  | succ depth => exact orderly_statement (readsExpressions_parse depth)

theorem orderly_statementsUntil {closing : Parser Unit} (h : Reads (sub .statement) Node.IsOrderly) :
    Reads (statementsUntil closing sub) fun nodes => ∀ n ∈ nodes, n.IsOrderly := by
  refine yields_bind (yields_many ?_) fun nodes hn => reads_after fun _ => yields_pure hn
  exact reads_after fun _ => yields_ite yields_failure (yields_orElse h (reads_after fun _ => yields_pure trivial))

end Grammar

theorem orderly_statements (text : String) : Node.AllOrderly (statements text) := by
  rw [statements, Grammar.statements]
  split
  next nodes rest h =>
    have hn := Grammar.orderly_statementsUntil (Grammar.orderly_parse _) _ _ _ _ (fun _ _ _ => trivial) h
    exact Node.allOrderly_iff.mpr hn.1
  next => trivial

end ArkRoutes.Source
