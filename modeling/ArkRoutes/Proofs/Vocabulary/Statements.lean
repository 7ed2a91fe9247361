import ArkRoutes.Proofs.Vocabulary.Types

namespace ArkRoutes.Source

namespace Grammar

open Parser

variable {P : String → Prop} {sub : Sub} (hs : ∀ g, YieldsNode P (sub g))

include hs

/-! ### Expressions -/

theorem yields_arrowBody : YieldsNode P (arrowBody sub) := yields_orElse (yields_block hs) (hs _)

theorem yields_arrowFunction : YieldsNode P (arrowFunction sub) := by
  have hplain : YieldsNodes P (do
      let n ← name
      mark "=>"
      return [n, ← arrowBody sub]) :=
    yields_bind yields_name fun _ hn => yields_bind (passes_mark _) fun _ _ =>
      yields_bind (yields_arrowBody hs) fun _ hb => yields_pure (by simp [hn, hb])
  have hfull : YieldsNodes P (do
      if ← parametersAhead then
        let generics ← option (typeParameters sub)
        let ps ← parameters sub
        let result ← typing sub
        mark "=>"
        return [generics, ps, result, ← arrowBody sub]
      else failure) :=
    yields_bind passes_parametersAhead fun _ _ => yields_ite
      (yields_bind (yields_option (yields_typeParameters hs)) fun _ hg =>
        yields_bind (yields_parameters hs) fun _ hp =>
        yields_bind (yields_typing hs) fun _ ht => yields_bind (passes_mark _) fun _ _ =>
        yields_bind (yields_arrowBody hs) fun _ hb => yields_pure (by simp [hg, hp, ht, hb]))
      yields_failure
  exact yields_form <| yields_orElse hplain <| yields_orElse hfull <|
    yields_bind (passes_word _) fun _ _ => yields_orElse hplain hfull

theorem yields_functionExpression : YieldsNode P (functionExpression sub) :=
  yields_bind (passes_skipWord _) fun _ _ => yields_bind (passes_word _) fun _ _ =>
    yields_bind (q := fun _ => True) (yields_orElse (yields_bind (passes_mark _) fun _ _ => yields_pure trivial)
      (yields_pure trivial)) fun _ _ =>
    yields_bind (yields_option yields_name) fun _ hn => yields_bind (yields_functionTail hs) fun _ ht =>
    yields_pure ⟨hn, Node.allFit_iff.mpr ht⟩

theorem yields_objectEntry : YieldsNode P (objectEntry sub) :=
  yields_orElse (yields_bind (passes_mark _) fun _ _ => yields_bind (hs _) fun _ h =>
      yields_pure (by simpa using h)) <|
    yields_orElse (yields_bind (yields_key hs) fun _ hk => yields_bind (passes_mark _) fun _ _ =>
      yields_bind (hs _) fun _ hv => yields_pure ⟨hk, trivial, hv⟩) <|
    yields_orElse (yields_bind (yields_many (passes_keyModifier _)) fun _ _ =>
      yields_bind (passes_skipMark _) fun _ _ => yields_bind (yields_key hs) fun _ hk => yields_method hs hk) <|
    yields_orElse (yields_bind yields_name fun _ hn => yields_bind (yields_initializer hs) fun _ hv =>
      yields_pure (by simp [hn, hv])) <|
    yields_text (fun _ => isName_word) fun _ h => h

theorem yields_objectLiteral : YieldsNode P (objectLiteral sub) :=
  yields_bind (yields_between (yields_separated (yields_objectEntry hs))) fun _ hn =>
    yields_pure (Node.allFit_iff.mpr hn)

theorem yields_arrayLiteral : YieldsNode P (arrayLiteral sub) :=
  yields_form <| yields_between <| yields_many <| yields_orElse (yields_argument hs)
    (yields_bind (passes_mark _) fun _ _ => yields_pure trivial)

omit hs in
theorem yields_wordExpression : YieldsNode P wordExpression := by
  refine yields_bind (passes_satisfying _) fun t _ => ?_
  split
  all_goals first | exact yields_pure trivial | exact yields_failure

omit hs in
theorem yields_metaProperty : YieldsNode P metaProperty :=
  yields_bind (yields_orElse (passes_word _) (passes_word _)) fun _ _ => yields_bind (passes_mark _) fun _ _ =>
    yields_bind (yields_orElse (passes_word _) (passes_word _)) fun _ _ => yields_pure trivial

omit hs in
theorem yields_importCallee : YieldsNode P importCallee :=
  yields_bind (passes_word _) fun _ _ => yields_bind (passes_isNext _) fun _ _ =>
    yields_ite (yields_pure trivial) yields_failure

theorem yields_primary : YieldsNode P (primary sub) := by
  refine yields_bind yields_get fun tokens _ => ?_
  split
  next => exact yields_failure
  next t _ =>
    split
    · exact yields_bind yields_next fun _ _ => yields_pure trivial
    · exact yields_bind yields_next fun _ _ => yields_pure trivial
    · exact yields_bind yields_next fun _ _ => yields_pure trivial
    · exact yields_privateName
    · exact yields_template (hs _)
    · exact yields_orElse (yields_bind (yields_between (hs _)) fun _ h => yields_pure ⟨h, trivial⟩) <|
        yields_orElse (yields_arrayLiteral hs) (yields_objectLiteral hs)
    · exact yields_orElse yields_wordExpression <| yields_orElse yields_metaProperty <|
        yields_orElse yields_importCallee <| yields_orElse (yields_functionExpression hs) <|
        yields_orElse (yields_classExpression hs) yields_name

omit hs in
theorem yields_memberSuffix {object : Node} (ho : object.Fits P) : YieldsNode P (memberSuffix object) :=
  yields_bind (yields_orElse (passes_mark _) (passes_mark _)) fun _ _ =>
    yields_bind (yields_orElse yields_propertyName yields_privateName) fun _ hp => yields_pure ⟨ho, hp⟩

theorem yields_subscriptSuffix {object : Node} (ho : object.Fits P) : YieldsNode P (subscriptSuffix sub object) :=
  yields_bind (passes_skipMark _) fun _ _ => yields_bind (yields_between (hs _)) fun _ hi =>
    yields_pure (by simp [ho, hi])

theorem yields_callSuffix {callee : Node} (hc : callee.Fits P) : YieldsNode P (callSuffix sub callee) :=
  yields_bind (passes_skipMark _) fun _ _ => yields_bind (yields_option (yields_typeArguments hs)) fun _ hg =>
    yields_orElse
      (yields_bind (yields_arguments hs) fun _ ha => yields_pure ⟨hc, hg, Node.allFit_iff.mpr ha⟩)
      (yields_bind (yields_template (hs _)) fun _ ht => yields_pure (by simp [hc, hg, ht]))

omit hs in
theorem yields_assertedSuffix {operand : Node} (ho : operand.Fits P) : YieldsNode P (assertedSuffix operand) :=
  yields_bind passes_sameLine fun _ _ => yields_bind (passes_mark _) fun _ _ => yields_pure ⟨ho, trivial⟩

omit hs in
theorem yields_suffixed {suffix : Node → Parser Node} (h : ∀ e, e.Fits P → YieldsNode P (suffix e)) (n : Nat)
    {e : Node} (he : e.Fits P) : YieldsNode P (suffixed suffix n e) := by
  induction n generalizing e with
  | zero => exact yields_pure he
  | succ n ih => exact yields_orElse (yields_bind (h e he) fun _ => ih) (yields_pure he)

theorem yields_operandSuffixes {e : Node} (he : e.Fits P) : YieldsNode P (operandSuffixes sub e) :=
  yields_bind yields_read fun n _ => yields_suffixed (fun _ he => yields_orElse (yields_memberSuffix he) <|
    yields_orElse (yields_subscriptSuffix hs he) <| yields_orElse (yields_callSuffix hs he)
    (yields_assertedSuffix he)) n he

theorem yields_newExpression : YieldsNode P (newExpression sub) :=
  yields_bind (passes_word _) fun _ _ => yields_bind (passes_isNext _) fun _ _ =>
    yields_bind (yields_ite (hs _) (yields_primary hs)) fun _ hi => yields_bind yields_read fun n _ =>
    yields_bind (yields_suffixed (fun _ he => yields_orElse (yields_memberSuffix he)
      (yields_subscriptSuffix hs he)) n hi) fun _ hc =>
    yields_bind (yields_option (yields_typeArguments hs)) fun _ hg =>
    yields_bind (yields_orElse (yields_arguments hs) (yields_pure (by simp))) fun _ ha =>
    yields_pure ⟨hc, hg, Node.allFit_iff.mpr ha⟩

omit hs in
theorem yields_updateSuffix {e : Node} (he : e.Fits P) : YieldsNode P (updateSuffix e) :=
  yields_bind passes_sameLine fun _ _ => yields_bind (yields_orElse (passes_mark _) (passes_mark _)) fun _ _ =>
    yields_pure (by simpa using he)

omit hs in
theorem passes_unaryOperator : Passes P unaryOperator := by
  refine yields_bind yields_next fun t _ => ?_
  split
  · exact yields_ite (yields_pure trivial) (yields_ite (yields_pure trivial) yields_failure)
  · exact yields_ite (yields_pure trivial) (yields_ite (yields_pure trivial) yields_failure)
  · exact yields_failure

theorem yields_typeAssertion : YieldsNode P (typeAssertion sub) :=
  yields_form <| yields_bind (yields_typeArguments hs) fun _ ht => yields_bind (hs _) fun _ he =>
    yields_pure (by simp [ht, he])

theorem yields_unary : YieldsNode P (unary sub) :=
  yields_orElse (yields_bind passes_unaryOperator fun _ _ => yields_bind (hs _) fun _ h =>
      yields_pure (by simpa using h)) <|
    yields_orElse (yields_typeAssertion hs) <|
    yields_bind (yields_orElse yields_metaProperty <| yields_orElse (yields_newExpression hs) (yields_primary hs))
      fun _ he =>
    yields_bind (yields_operandSuffixes hs he) fun _ he => yields_orElse (yields_updateSuffix he) (yields_pure he)

omit hs in
theorem passes_touching (text : String) : Passes P (touching text) :=
  yields_bind (passes_satisfying _) fun _ _ => yields_pure trivial

omit hs in
theorem passes_angleOperator : Passes P angleOperator := by
  have ht : Passes P (touching ">" <|> pure ()) := yields_orElse (passes_touching _) (yields_pure trivial)
  exact yields_bind (passes_mark _) fun _ _ => yields_orElse (passes_touching _) <| yields_bind ht fun _ _ =>
    yields_bind ht fun _ _ => yields_bind (passes_isNext _) fun _ _ => yields_ite yields_failure (yields_pure trivial)

omit hs in
theorem passes_binaryOperator : Passes P binaryOperator :=
  yields_orElse passes_angleOperator (yields_bind (passes_satisfying _) fun _ _ => yields_pure trivial)

theorem yields_binarySuffix {left : Node} (hl : left.Fits P) : YieldsNode P (binarySuffix sub left) :=
  yields_bind passes_binaryOperator fun _ _ => yields_bind (hs _) fun _ hr => yields_pure (by simp [hl, hr])

theorem yields_typedSuffix {e : Node} (he : e.Fits P) : YieldsNode P (typedSuffix sub e) :=
  yields_bind passes_sameLine fun _ _ => yields_bind (yields_orElse (passes_word _) (passes_word _)) fun _ _ =>
    yields_bind (yields_orElse (yields_bind (passes_word _) fun _ _ => yields_pure trivial) (hs _)) fun _ ht =>
    yields_pure ⟨he, ht⟩

theorem yields_ternarySuffix {condition : Node} (hc : condition.Fits P) :
    YieldsNode P (ternarySuffix sub condition) :=
  yields_bind (passes_mark _) fun _ _ => yields_bind (hs _) fun _ hy => yields_bind (passes_mark _) fun _ _ =>
    yields_bind (hs _) fun _ hn => yields_pure (by simp [hc, hy, hn])

omit hs in
theorem passes_assignmentOperator : Passes P assignmentOperator :=
  yields_orElse (yields_bind (passes_mark _) fun _ _ => yields_pure trivial) <| yields_bind (q := fun _ => True)
    (yields_orElse
      (yields_bind (passes_mark _) fun _ _ => yields_bind (passes_touching _) fun _ _ =>
        yields_bind (yields_orElse (passes_touching _) (yields_pure trivial)) fun _ _ => passes_touching _)
      (yields_bind (passes_satisfying _) fun _ _ => yields_pure trivial))
    fun _ _ => yields_pure trivial

theorem yields_assignmentSuffix {target : Node} (ht : target.Fits P) : YieldsNode P (assignmentSuffix sub target) :=
  yields_bind passes_assignmentOperator fun _ _ => yields_bind (hs _) fun _ hv => yields_pure (by simp [ht, hv])

theorem yields_yieldExpression : YieldsNode P (yieldExpression sub) :=
  yields_form <| yields_bind (passes_word _) fun _ _ => yields_bind (passes_skipMark _) fun _ _ =>
    yields_bind (yields_option (yields_bind passes_sameLine fun _ _ => hs _)) fun _ h =>
    yields_pure (by simpa using h)

theorem yields_assignment : YieldsNode P (assignment sub) :=
  yields_orElse (yields_arrowFunction hs) <| yields_orElse (yields_yieldExpression hs) <|
    yields_bind (hs _) fun _ he => yields_bind yields_read fun n _ =>
    yields_bind (yields_suffixed (fun _ he => yields_orElse (yields_binarySuffix hs he)
      (yields_typedSuffix hs he)) n he) fun _ he =>
    yields_orElse (yields_ternarySuffix hs he) <| yields_orElse (yields_assignmentSuffix hs he) (yields_pure he)

theorem yields_expression : YieldsNode P (expression sub) := by
  refine yields_bind (hs _) fun e he => yields_bind (yields_many (yields_bind (passes_mark _) fun _ _ => hs _))
    fun more hm => ?_
  split
  · exact yields_pure he
  · exact yields_pure ⟨he, Node.allFit_iff.mpr hm⟩

/-! ### Declarations -/

theorem yields_declarator : YieldsNode P (declarator sub) :=
  yields_bind (hs _) fun _ hn => yields_bind (passes_skipMark _) fun _ _ => yields_bind (yields_typing hs) fun _ ht =>
    yields_bind (yields_orElse (yields_initializer hs) (yields_pure trivial)) fun _ hv => yields_pure ⟨hn, ht, hv⟩

theorem yields_variableList : YieldsNode P (variableList sub) :=
  yields_bind (yields_orElse (passes_word _) <| yields_orElse (passes_word _) (passes_word _)) fun _ _ =>
    yields_bind (yields_declarator hs) fun _ hd =>
    yields_bind (yields_many (yields_bind (passes_mark _) fun _ _ => yields_declarator hs)) fun _ hm =>
    yields_pure ⟨hd, Node.allFit_iff.mpr hm⟩

theorem yields_enumMember : YieldsNode P (enumMember sub) := by
  refine yields_bind (yields_key hs) fun k hk => yields_orElse
    (yields_bind (yields_initializer hs) fun _ hv => yields_pure ⟨hk, trivial, hv⟩) ?_
  split
  · exact yields_pure ⟨hk, trivial, trivial⟩
  · exact yields_pure ⟨hk, trivial, trivial⟩
  · exact yields_pure hk

theorem yields_enumDeclaration : YieldsNode P (enumDeclaration sub) :=
  yields_bind (passes_skipWord _) fun _ _ => yields_bind (passes_word _) fun _ _ =>
    yields_bind (yields_satisfying _) fun _ ht =>
    yields_bind (yields_between (yields_separated (yields_enumMember hs))) fun _ _ =>
    yields_pure (ht.1 (isName_word ht.2))

theorem yields_functionDeclaration : YieldsNode P (functionDeclaration sub) :=
  yields_form <| yields_bind (passes_skipWord _) fun _ _ => yields_bind (passes_word _) fun _ _ =>
    yields_bind (passes_skipMark _) fun _ _ => yields_bind yields_name fun _ hn =>
    yields_bind (yields_functionTail hs) fun _ ht => yields_pure (List.forall_mem_cons.mpr ⟨hn, ht⟩)

theorem yields_interfaceDeclaration : YieldsNode P (interfaceDeclaration sub) :=
  yields_form <| yields_bind (passes_word _) fun _ _ => yields_bind yields_name fun _ hn =>
    yields_bind (yields_option (yields_typeParameters hs)) fun _ hg =>
    yields_bind (yields_listBehind hs _) fun _ hb => yields_bind (yields_objectType hs) fun _ ht => yields_pure (List.forall_mem_cons.mpr
      ⟨hn, List.forall_mem_cons.mpr ⟨hg, List.forall_mem_append.mpr ⟨hb, by simpa using ht⟩⟩⟩)

theorem yields_typeAlias : YieldsNode P (typeAlias sub) :=
  yields_form <| yields_bind (passes_word _) fun _ _ => yields_bind yields_name fun _ hn =>
    yields_bind (yields_option (yields_typeParameters hs)) fun _ hg => yields_bind (passes_mark _) fun _ _ =>
    yields_bind (hs _) fun _ ht => yields_pure (by simp [hn, hg, ht])

theorem yields_namespaceDeclaration : YieldsNode P (namespaceDeclaration sub) := by
  refine yields_form <| yields_bind (yields_orElse (passes_word _) (passes_word _)) fun _ _ =>
    yields_bind (yields_orElse yields_name yields_stringNode) fun n hn => yields_bind yields_dots fun _ hm =>
    yields_bind (yields_orElse (yields_block hs) ?_) fun _ hb =>
    yields_pure (List.forall_mem_cons.mpr ⟨hn, List.forall_mem_append.mpr ⟨hm, by simpa using hb⟩⟩)
  split
  · exact yields_pure trivial
  · exact yields_failure

theorem yields_globalScope : YieldsNode P (globalScope sub) := yields_bind (passes_word _) fun _ _ => yields_block hs

theorem yields_declaration : YieldsNode P (declaration sub) :=
  yields_orElse (yields_enumDeclaration hs) <| yields_orElse (yields_variableList hs) <|
    yields_orElse (yields_functionDeclaration hs) <| yields_orElse (yields_classDeclaration hs (by simp)) <|
    yields_orElse (yields_interfaceDeclaration hs) <| yields_orElse (yields_typeAlias hs)
    (yields_namespaceDeclaration hs)

theorem yields_ambientDeclaration : YieldsNode P (ambientDeclaration sub) :=
  yields_form <| yields_bind (passes_word _) fun _ _ =>
    yields_bind (yields_orElse (yields_declaration hs) (yields_globalScope hs)) fun _ h =>
    yields_pure (by simpa using h)

omit hs in
theorem passes_moduleName : Passes P moduleName :=
  yields_orElse (yields_bind (passes_satisfying _) fun _ _ => yields_pure trivial) passes_stringText

omit hs in
theorem passes_renamed : Passes P renamed :=
  yields_bind passes_moduleName fun _ _ => yields_orElse
    (yields_bind (passes_word _) fun _ _ => yields_bind passes_moduleName fun _ _ => yields_pure trivial)
    (yields_pure trivial)

omit hs in
theorem passes_specifiers : Passes P specifiers := by
  refine (yields_between (yields_separated (q := fun _ => True) ?_)).passes
  exact yields_orElse
    (yields_bind (yields_orElse (passes_word _) (passes_word _)) fun _ _ => yields_bind passes_renamed fun _ _ =>
      yields_bind (passes_isNext _) fun _ _ => yields_ite (yields_pure trivial) yields_failure)
    passes_renamed

omit hs in
theorem passes_namedImports : Passes P namedImports := yields_bind passes_specifiers fun _ _ => yields_pure trivial

omit hs in
theorem passes_namespaceImport : Passes P namespaceImport :=
  yields_bind (passes_mark _) fun _ _ => yields_bind (passes_word _) fun _ _ =>
    yields_bind (passes_satisfying _) fun _ _ => yields_pure trivial

omit hs in
theorem passes_importClause : Passes P importClause :=
  yields_orElse passes_namespaceImport <| yields_orElse passes_namedImports <|
    yields_bind (passes_satisfying _) fun _ _ => yields_bind (q := fun _ => True)
      (yields_orElse (yields_bind (passes_mark _) fun _ _ => yields_orElse passes_namespaceImport passes_namedImports)
        (yields_pure trivial))
      fun _ _ => yields_pure trivial

theorem passes_attributes : Passes P (attributes sub) :=
  yields_orElse
    (yields_bind (yields_orElse (passes_word _) (passes_word _)) fun _ _ =>
      yields_bind (yields_objectLiteral hs) fun _ _ => yields_pure trivial)
    (yields_pure trivial)

theorem yields_importFrom : YieldsNode P (importFrom sub) := by
  have hc : Passes P (do let names ← importClause; word "from"; return names) :=
    yields_bind passes_importClause fun _ _ => yields_bind (passes_word _) fun _ _ => yields_pure trivial
  exact yields_bind (yields_orElse hc (yields_bind (yields_orElse (passes_word _) (passes_word _)) fun _ _ => hc))
    fun _ _ => yields_bind passes_stringText fun _ _ => yields_bind (passes_attributes hs) fun _ _ =>
    yields_pure trivial

theorem yields_importOnly : YieldsNode P (importOnly sub) :=
  yields_bind passes_stringText fun _ _ => yields_bind (passes_attributes hs) fun _ _ => yields_pure trivial

omit hs in
theorem yields_importRequire : YieldsNode P importRequire :=
  yields_bind yields_name fun _ _ => yields_bind (passes_mark _) fun _ _ => yields_bind (passes_word _) fun _ _ =>
    yields_bind (yields_between passes_stringText) fun _ _ => yields_pure trivial

omit hs in
theorem yields_importAlias : YieldsNode P importAlias :=
  yields_form <| yields_bind (passes_skipWord _) fun _ _ => yields_bind yields_name fun _ hn =>
    yields_bind (passes_mark _) fun _ _ => yields_bind yields_name fun _ hm => yields_bind yields_dots fun _ hd =>
    yields_pure (List.forall_mem_cons.mpr ⟨hn, List.forall_mem_cons.mpr ⟨hm, hd⟩⟩)

theorem yields_importStatement : YieldsNode P (importStatement sub) :=
  yields_bind (passes_word _) fun _ _ => yields_orElse (yields_importOnly hs) <|
    yields_orElse (yields_importFrom hs) <| yields_orElse yields_importRequire <|
    yields_orElse (yields_bind (passes_word _) fun _ _ => yields_importRequire) yields_importAlias

theorem yields_exportStar : YieldsNode P (exportStar sub) := by
  refine yields_bind (passes_skipWord _) fun _ _ => yields_bind (passes_mark _) fun _ _ =>
    yields_bind (q := fun _ => True) ?_ fun isNamed _ => yields_bind (passes_word _) fun _ _ =>
    yields_bind passes_stringText fun _ _ => yields_bind (passes_attributes hs) fun _ _ => yields_pure ?_
  · exact yields_orElse (yields_bind (passes_word _) fun _ _ => yields_bind passes_moduleName fun _ _ =>
      yields_pure trivial) (yields_pure trivial)
  · split <;> trivial

theorem yields_exportFrom : YieldsNode P (exportFrom sub) :=
  yields_bind (passes_skipWord _) fun _ _ => yields_bind passes_specifiers fun _ _ =>
    yields_bind (passes_word _) fun _ _ => yields_bind passes_stringText fun _ _ =>
    yields_bind (passes_attributes hs) fun _ _ => yields_pure trivial

omit hs in
theorem yields_exportList : YieldsNode P exportList := by
  have hw : YieldsNode P (propertyName <|> stringNode) := yields_orElse yields_propertyName yields_stringNode
  have hplain : YieldsNode P (do
      let n ← propertyName <|> stringNode
      form "export_specifier" ((do word "as"; return [n, ← propertyName <|> stringNode]) <|> return [n])) :=
    yields_bind hw fun _ hn => yields_form <| yields_orElse
      (yields_bind (passes_word _) fun _ _ => yields_bind hw fun _ hm => yields_pure (by simp [hn, hm]))
      (yields_pure (by simpa using hn))
  refine yields_bind (passes_skipWord _) fun _ _ => yields_form <| yields_between <| yields_separated <|
    yields_orElse ?_ hplain
  exact yields_bind (yields_orElse (passes_word _) (passes_word _)) fun _ _ => yields_bind hplain fun _ hn =>
    yields_bind (passes_isNext _) fun _ _ => yields_ite (yields_pure hn) yields_failure

theorem yields_exportedDecorated : YieldsNode P (exportedDecorated sub) :=
  yields_bind (yields_many (yields_decorator hs)) fun _ hd =>
    yields_ite yields_failure (yields_classDeclaration hs hd)

theorem yields_exportDefault : YieldsNode P (exportDefault sub) :=
  yields_bind (passes_word _) fun _ _ => yields_orElse (yields_exportedDecorated hs) <|
    yields_orElse (yields_classDeclaration hs (by simp)) <| yields_orElse (yields_functionDeclaration hs) <|
    yields_orElse (yields_interfaceDeclaration hs) <| yields_form <| yields_bind (hs _) fun _ h =>
    yields_pure (by simpa using h)

theorem yields_exportOther : YieldsNode P (exportOther sub) :=
  yields_form <| yields_orElse
    (yields_bind (passes_mark _) fun _ _ => yields_bind (hs _) fun _ h => yields_pure (by simpa using h)) <|
    yields_orElse
    (yields_bind (passes_word _) fun _ _ => yields_bind (passes_word _) fun _ _ => yields_bind yields_name fun _ h =>
      yields_pure (by simpa using h))
    (yields_bind (passes_word _) fun _ _ => yields_bind yields_importAlias fun _ h => yields_pure (by simpa using h))

theorem yields_exportedDeclaration (outer : List Node) : YieldsNode P (exportedDeclaration sub outer) :=
  yields_bind (passes_word _) fun _ _ => yields_bind
    (yields_orElse (yields_exportDefault hs) <| yields_orElse (yields_exportedDecorated hs) <|
      yields_orElse (yields_ambientDeclaration hs) (yields_declaration hs)) fun _ h => yields_pure h

theorem yields_exportOnly : YieldsNode P (exportOnly sub) :=
  yields_bind (passes_word _) fun _ _ => yields_orElse (yields_exportStar hs) <|
    yields_orElse (yields_exportFrom hs) <| yields_orElse yields_exportList (yields_exportOther hs)

theorem yields_exportStatement : YieldsNode P (exportStatement sub) :=
  yields_orElse (yields_exportOnly hs) (yields_exportedDeclaration hs [])

/-! ### Statements -/

omit hs in
theorem yields_terminated {p : Parser Node} (h : YieldsNode P p) : YieldsNode P (terminated p) :=
  yields_bind h fun _ hn => yields_bind (passes_skipMark _) fun _ _ => yields_pure hn

theorem yields_condition : YieldsNode P (condition sub) := yields_between (hs _)

theorem yields_ifStatement : YieldsNode P (ifStatement sub) :=
  yields_form <| yields_bind (passes_word _) fun _ _ => yields_bind (yields_condition hs) fun _ hc =>
    yields_bind (hs _) fun _ hy =>
    yields_bind (yields_option (yields_bind (passes_word _) fun _ _ => hs _)) fun _ hn =>
    yields_pure (by simp [hc, hy, hn])

theorem yields_whileStatement : YieldsNode P (whileStatement sub) :=
  yields_form <| yields_bind (yields_orElse (passes_word _) (passes_word _)) fun _ _ =>
    yields_bind (yields_condition hs) fun _ hc => yields_bind (hs _) fun _ hb => yields_pure (by simp [hc, hb])

theorem yields_doStatement : YieldsNode P (doStatement sub) :=
  yields_form <| yields_bind (passes_word _) fun _ _ => yields_bind (hs _) fun _ hb =>
    yields_bind (passes_word _) fun _ _ => yields_bind (yields_condition hs) fun _ hc =>
    yields_pure (by simp [hb, hc])

theorem yields_forEachHeader : YieldsNodes P (forEachHeader sub) :=
  yields_bind (yields_orElse (passes_word _) <| yields_orElse (passes_word _) <| yields_orElse (passes_word _)
      (yields_pure trivial)) fun _ _ =>
    yields_bind (hs _) fun _ ht => yields_bind (yields_option (yields_initializer hs)) fun _ hv =>
    yields_bind (yields_orElse (passes_word _) (passes_word _)) fun _ _ => yields_bind (hs _) fun _ he =>
    yields_pure (by simp [ht, hv, he])

theorem yields_forHeader : YieldsNodes P (forHeader sub) :=
  yields_bind (yields_option (yields_orElse (yields_variableList hs) (hs _))) fun _ hf => yields_orElse
    (yields_bind (yields_orElse (passes_word _) (passes_word _)) fun _ _ => yields_bind (hs _) fun _ he =>
      yields_pure (by simp [hf, he]))
    (yields_bind (passes_mark _) fun _ _ => yields_bind (yields_option (hs _)) fun _ hc =>
      yields_bind (passes_mark _) fun _ _ => yields_bind (yields_option (hs _)) fun _ hn =>
      yields_pure (by simp [hf, hc, hn]))

theorem yields_forStatement : YieldsNode P (forStatement sub) :=
  yields_form <| yields_bind (passes_word _) fun _ _ => yields_bind (passes_skipWord _) fun _ _ =>
    yields_bind (yields_orElse (yields_between (yields_forEachHeader hs)) (yields_between (yields_forHeader hs)))
      fun _ hh =>
    yields_bind (hs _) fun _ hb => yields_pure (List.forall_mem_append.mpr ⟨hh, by simpa using hb⟩)

theorem yields_catchClause : YieldsNode P (catchClause sub) := by
  refine yields_form <| yields_bind (passes_word _) fun _ _ =>
    yields_bind (yields_orElse (yields_between ?_) (yields_pure (by simp))) fun _ hc =>
    yields_bind (yields_block hs) fun _ hb => yields_pure (List.forall_mem_append.mpr ⟨hc, by simpa using hb⟩)
  exact yields_bind (hs _) fun _ hp => yields_bind (yields_typing hs) fun _ ht => yields_pure (by simp [hp, ht])

theorem yields_tryStatement : YieldsNode P (tryStatement sub) :=
  yields_form <| yields_bind (passes_word _) fun _ _ => yields_bind (yields_block hs) fun _ hb =>
    yields_bind (yields_option (yields_catchClause hs)) fun _ hc =>
    yields_bind (yields_option (yields_bind (passes_word _) fun _ _ => yields_block hs)) fun _ hf =>
    yields_pure (by simp [hb, hc, hf])

theorem yields_switchCase : YieldsNode P (switchCase sub) := by
  have hc : Passes P (word "case" <|> word "default" <|> mark "\x7d") :=
    yields_orElse (passes_word _) (yields_orElse (passes_word _) (passes_mark _))
  refine yields_form <| yields_bind (q := Node.Fits P) ?_ fun _ hv => yields_bind (passes_mark _) fun _ _ =>
    yields_bind (yields_many (yields_statementOr hs hc)) fun _ hn => yields_pure (List.forall_mem_cons.mpr ⟨hv, hn⟩)
  exact yields_orElse (yields_bind (passes_word _) fun _ _ => yields_pure trivial)
    (yields_bind (passes_word _) fun _ _ => hs _)

theorem yields_switchStatement : YieldsNode P (switchStatement sub) :=
  yields_form <| yields_bind (passes_word _) fun _ _ => yields_bind (yields_condition hs) fun _ hc =>
    yields_bind (yields_between (yields_many (yields_switchCase hs))) fun _ hn =>
    yields_pure (List.forall_mem_cons.mpr ⟨hc, hn⟩)

theorem yields_leavingStatement : YieldsNode P (leavingStatement sub) :=
  yields_form <| yields_bind (yields_orElse (passes_word _) (passes_word _)) fun _ _ =>
    yields_bind (yields_option (yields_bind passes_sameLine fun _ _ => hs _)) fun _ h =>
    yields_pure (by simpa using h)

omit hs in
theorem yields_jumpStatement : YieldsNode P jumpStatement :=
  yields_form <|
    yields_bind (yields_orElse (passes_word _) <| yields_orElse (passes_word _) (passes_word _)) fun _ _ =>
    yields_bind (yields_option (yields_bind passes_sameLine fun _ _ => yields_name)) fun _ h =>
    yields_pure (by simpa using h)

theorem yields_labeledStatement : YieldsNode P (labeledStatement sub) :=
  yields_form <| yields_bind yields_name fun _ hn => yields_bind (passes_mark _) fun _ _ =>
    yields_bind (yields_option (hs _)) fun _ h => yields_pure (by simp [hn, h])

theorem yields_decorated : YieldsNode P (decorated sub) :=
  yields_bind (yields_many (yields_decorator hs)) fun _ hd => yields_ite yields_failure <|
    yields_orElse (yields_classDeclaration hs hd) <| yields_orElse (yields_exportedDeclaration hs _) <|
    yields_bind (passes_succeeds (yields_exportOnly hs)) fun _ _ =>
    yields_ite (yields_pure (Node.allFit_iff.mpr hd)) <| yields_bind (passes_skipWord _) fun _ _ =>
    yields_pure (Node.allFit_iff.mpr hd)

/-- `export` is the one name that a rule writes down by itself. -/
theorem yields_statement (hx : P "export") : YieldsNode P (statement sub) := by
  have hword : YieldsNode P exportWord := yields_bind (passes_word _) fun _ _ => yields_pure hx
  exact yields_orElse (yields_block hs) <|
    yields_orElse (yields_bind (passes_mark _) fun _ _ => yields_pure trivial) <|
    yields_orElse (yields_decorated hs) <| yields_orElse (yields_terminated (yields_importStatement hs)) <|
    yields_orElse (yields_terminated (yields_exportStatement hs)) <| yields_orElse hword <|
    yields_orElse (yields_terminated (yields_declaration hs)) <|
    yields_orElse (yields_terminated (yields_ambientDeclaration hs)) <|
    yields_orElse (yields_ifStatement hs) <| yields_orElse (yields_whileStatement hs) <|
    yields_orElse (yields_terminated (yields_doStatement hs)) <| yields_orElse (yields_forStatement hs) <|
    yields_orElse (yields_tryStatement hs) <| yields_orElse (yields_switchStatement hs) <|
    yields_orElse (yields_terminated (yields_leavingStatement hs)) <|
    yields_orElse (yields_terminated yields_jumpStatement) <| yields_orElse (yields_labeledStatement hs)
    (yields_terminated (hs _))

omit hs

/-! ### Texts -/

theorem yields_rule (hx : P "export") (hs : ∀ g, YieldsNode P (sub g)) (goal : Goal) :
    YieldsNode P (rule sub goal) := by
  cases goal with
  | statement => exact yields_statement hs hx
  | expression => exact yields_expression hs
  | assignment => exact yields_assignment hs
  | unary => exact yields_unary hs
  | type => exact yields_type hs
  | pattern => exact yields_pattern hs

theorem yields_parse (hx : P "export") (depth : Nat) (goal : Goal) : YieldsNode P (parse depth goal) := by
  induction depth generalizing goal with
  | zero => exact yields_failure
  | succ depth ih => exact yields_rule hx ih goal

end Grammar

/-- What holds of all words of a text, and of the word that an export may leave, holds of all words and
type names in its events. -/
theorem fits_of_tokens {P : String → Prop} {text : String} (hx : P "export") (ht : ∀ t ∈ Token.scan text, t.Fits P) :
    ∀ e ∈ events text, e.Fits P := by
  refine Node.fits_eventsAll true _ (Node.allFit_iff.mpr ?_)
  rw [statements, Grammar.statements]
  split
  next nodes rest h =>
    exact (Grammar.yields_statementsUntil (Grammar.yields_parse hx _) Parser.yields_failure _ _ _ _ ht h).1
  next => simp

end ArkRoutes.Source
