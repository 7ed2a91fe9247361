import ArkRoutes.Proofs.Vocabulary.Parsers

namespace ArkRoutes.Source.Grammar

open Parser

variable {P : String → Prop} {sub : Sub} (hs : ∀ g, YieldsNode P (sub g))

/-! ### Shared constructs -/

theorem yields_substitutions {inner : Parser Node} (h : YieldsNode P inner) (n : Nat) :
    YieldsNodes P (substitutions inner n) := by
  induction n with
  | zero => exact yields_failure
  | succ n ih =>
      refine yields_bind h fun part hp => yields_bind yields_next fun t _ => ?_
      split
      · exact yields_pure (by simpa using hp)
      · exact yields_bind ih fun ns hn => yields_pure (List.forall_mem_cons.mpr ⟨hp, hn⟩)
      · exact yields_failure

theorem yields_template {inner : Parser Node} (h : YieldsNode P inner) :
    YieldsNode P (template inner) := by
  refine yields_bind yields_next fun t _ => ?_
  split
  · exact yields_pure trivial
  · exact yields_bind yields_read fun n _ => yields_bind (yields_substitutions h n) fun ns hn =>
      yields_pure (by simpa using hn)
  · exact yields_failure

theorem passes_dotted : Passes P dotted :=
  yields_bind yields_name fun _ _ => yields_bind (yields_many (yields_bind (passes_mark _) fun _ _ =>
    yields_orElse yields_propertyName yields_privateName)) fun _ _ => yields_pure trivial

theorem passes_parameterModifier : Passes P parameterModifier :=
  yields_bind (passes_satisfying _) fun _ _ => yields_bind (passes_isNext _) fun _ _ =>
    yields_ite (yields_pure trivial) yields_failure

theorem passes_parametersAhead : Passes P parametersAhead := by
  refine yields_bind yields_get fun tokens _ => ?_
  split
  · exact yields_ite (yields_pure trivial) (yields_ite (yields_pure trivial) (yields_pure trivial))
  · exact yields_pure trivial

include hs

theorem yields_typeArguments : YieldsNode P (typeArguments sub) :=
  yields_form (yields_between (yields_separated (hs _)))

theorem yields_typing : YieldsNode P (typing sub) :=
  yields_option (yields_bind (passes_mark _) fun _ _ => hs _)

theorem yields_initializer : YieldsNode P (initializer sub) := yields_bind (passes_mark _) fun _ _ => hs _

theorem yields_argument : YieldsNode P (argument sub) :=
  yields_orElse (yields_bind (passes_mark _) fun _ _ => yields_bind (hs _) fun _ h => yields_pure (by simpa using h))
    (hs _)

theorem yields_arguments : YieldsNodes P (arguments sub) :=
  yields_between (yields_separated (yields_argument hs))

theorem yields_computed : YieldsNode P (computed sub) :=
  yields_bind (yields_spelled (yields_between (hs _))) fun ⟨_, _⟩ h => yields_pure h

theorem yields_key : YieldsNode P (key sub) :=
  yields_orElse yields_propertyName <| yields_orElse yields_stringNode <| yields_orElse yields_privateName <|
    yields_orElse (yields_bind (passes_satisfying _) fun _ _ => yields_pure trivial) (yields_computed hs)

theorem yields_decorator : YieldsNode P (decorator sub) :=
  yields_bind (passes_mark _) fun _ _ => yields_orElse
    (yields_bind (yields_spelled passes_dotted) fun ⟨_, _⟩ _ => yields_orElse
      (yields_bind (yields_option (yields_typeArguments hs)) fun _ _ =>
        yields_bind (yields_arguments hs) fun _ _ => yields_pure trivial)
      (yields_pure trivial))
    (yields_bind (yields_spelled (yields_between (hs _))) fun ⟨_, _⟩ _ => yields_pure trivial)

theorem yields_patternPart : YieldsNode P (patternPart sub) :=
  yields_bind (passes_skipMark _) fun _ _ => yields_form <| yields_bind (hs _) fun _ h =>
    yields_bind (yields_option (yields_initializer hs)) fun _ h' => yields_pure (by simp [h, h'])

theorem yields_patternEntry : YieldsNode P (patternEntry sub) :=
  yields_orElse
    (yields_form <| yields_bind (yields_key hs) fun _ h => yields_bind (passes_mark _) fun _ _ =>
      yields_bind (yields_patternPart hs) fun _ h' => yields_pure (by simp [h, h']))
    (yields_patternPart hs)

theorem yields_pattern : YieldsNode P (pattern sub) :=
  yields_orElse yields_name <| yields_orElse
    (yields_form <| yields_between <| yields_many <| yields_orElse (yields_patternPart hs)
      (yields_bind (passes_mark _) fun _ _ => yields_pure trivial))
    (yields_form <| yields_between <| yields_separated (yields_patternEntry hs))

theorem yields_parameter : YieldsNode P (parameter sub) := by
  refine yields_form <| yields_bind (yields_many (yields_decorator hs)) fun ds hd =>
    yields_bind (yields_many passes_parameterModifier) fun _ _ => yields_bind (passes_skipMark _) fun _ _ =>
    yields_bind (q := Node.Fits P) ?_ fun target ht => yields_bind (passes_skipMark _) fun _ _ =>
    yields_bind (yields_typing hs) fun t htyping => yields_bind (yields_option (yields_initializer hs)) fun v hv =>
    yields_pure (List.forall_mem_append.mpr ⟨hd, by simp [ht, htyping, hv]⟩)
  exact yields_orElse (yields_bind (passes_word _) fun _ _ => yields_pure trivial) (hs _)

theorem yields_parameters : YieldsNode P (parameters sub) :=
  yields_form (yields_between (yields_separated (yields_parameter hs)))

theorem yields_typeParameter : YieldsNode P (typeParameter sub) := by
  refine yields_form <| yields_bind (passes_skipWord _) fun _ _ =>
    yields_bind (yields_many (q := fun _ => True) ?_) fun _ _ => yields_bind yields_name fun _ hn =>
    yields_bind (yields_option (yields_bind (passes_word _) fun _ _ => hs _)) fun _ hb =>
    yields_bind (yields_option (yields_bind (passes_mark _) fun _ _ => hs _)) fun _ hd =>
    yields_pure (by simp [hn, hb, hd])
  exact yields_bind (passes_satisfying _) fun _ _ => yields_bind (passes_isNext _) fun _ _ =>
    yields_ite (yields_pure trivial) yields_failure

theorem yields_typeParameters : YieldsNode P (typeParameters sub) :=
  yields_form (yields_between (yields_separated (yields_typeParameter hs)))

/-- What fits no rule leaves nothing. -/
theorem yields_statementOr {closing : Parser Unit} (hc : Passes P closing) :
    Yields P (do
      if ← (do closing; return true) <|> pure false then failure
      else sub .statement <|> do let _ ← next; return .recovered []) (Node.Fits P) :=
  yields_bind (q := fun _ => True)
    (yields_orElse (yields_bind hc fun _ _ => yields_pure trivial) (yields_pure trivial)) fun _ _ =>
    yields_ite yields_failure <| yields_orElse (hs _) (yields_bind yields_next fun _ _ => yields_pure trivial)

theorem yields_statementsUntil {closing : Parser Unit} (hc : Passes P closing) :
    YieldsNodes P (statementsUntil closing sub) :=
  yields_bind (yields_many (yields_statementOr hs hc)) fun _ hn =>
    yields_bind (yields_orElse hc (yields_pure trivial)) fun _ _ => yields_pure hn

theorem yields_block : YieldsNode P (block sub) :=
  yields_form <| yields_bind (passes_mark _) fun _ _ => yields_statementsUntil hs (passes_mark _)

theorem yields_functionTail : YieldsNodes P (functionTail sub) :=
  yields_bind (yields_option (yields_typeParameters hs)) fun _ hg => yields_bind (yields_parameters hs) fun _ hp =>
    yields_bind (yields_typing hs) fun _ ht => yields_bind (yields_option (yields_block hs)) fun _ hb =>
    yields_pure (by simp [hg, hp, ht, hb])

/-! ### Types -/

omit hs in
theorem yields_silentType : YieldsNode P silentType :=
  yields_bind (passes_satisfying _) fun _ _ => yields_pure trivial

theorem yields_literalType : YieldsNode P (literalType sub) :=
  yields_orElse yields_stringNode <| yields_orElse
    (yields_bind (passes_skipMark _) fun _ _ => yields_bind (passes_satisfying _) fun _ _ => yields_pure trivial)
    (yields_template (hs _))

omit hs in
theorem yields_dots : YieldsNodes P (many (do mark "."; propertyName)) :=
  yields_many (yields_bind (passes_mark _) fun _ _ => yields_propertyName)

theorem yields_namedType : YieldsNode P (namedType sub) :=
  yields_form <| yields_bind yields_name fun _ hn => yields_bind yields_dots fun _ hm =>
    yields_bind (yields_option (yields_typeArguments hs)) fun _ ha =>
    yields_pure (List.forall_mem_cons.mpr ⟨hn, List.forall_mem_append.mpr ⟨hm, by simpa using ha⟩⟩)

theorem yields_importedType : YieldsNode P (importedType sub) :=
  yields_form <| yields_bind (passes_word _) fun _ _ => yields_bind (yields_between (hs _)) fun _ _ =>
    yields_bind yields_dots fun _ hm => yields_bind (yields_option (yields_typeArguments hs)) fun _ ha =>
    yields_pure (List.forall_mem_append.mpr ⟨hm, by simpa using ha⟩)

theorem yields_typeQuery : YieldsNode P (typeQuery sub) :=
  yields_bind (passes_word _) fun _ _ => yields_orElse (yields_importedType hs) <|
    yields_orElse (yields_namedType hs) <| yields_bind (passes_word _) fun _ _ => yields_form yields_dots

theorem yields_tupleMember : YieldsNode P (tupleMember sub) :=
  yields_bind (passes_skipMark _) fun _ _ => yields_orElse
    (yields_form <| yields_bind yields_name fun _ hn => yields_bind (passes_skipMark _) fun _ _ =>
      yields_bind (passes_mark _) fun _ _ => yields_bind (hs _) fun _ ht => yields_pure (by simp [hn, ht]))
    (yields_bind (hs _) fun _ ht => yields_bind (passes_skipMark _) fun _ _ => yields_pure ht)

omit hs in
theorem passes_signModifier {p : Parser Unit} (h : Passes P p) : Passes P (signModifier p) :=
  yields_bind (passes_skipMark _) fun _ _ => yields_bind (passes_skipMark _) fun _ _ => h

theorem yields_mappedMember : YieldsNode P (mappedMember sub) := by
  refine yields_form <|
    yields_bind (yields_orElse (passes_signModifier (passes_word _)) (yields_pure trivial)) fun _ _ =>
    yields_bind (yields_between (q := fun x => x.1.Fits P ∧ x.2.1.Fits P ∧ x.2.2.Fits P) ?_) fun ⟨_, _, _⟩ h =>
    yields_bind (yields_orElse (passes_signModifier (passes_mark _)) (yields_pure trivial)) fun _ _ =>
    yields_bind (yields_typing hs) fun _ ht => yields_pure (by simp [h, ht])
  exact yields_bind yields_name fun _ hn => yields_bind (passes_word _) fun _ _ => yields_bind (hs _) fun _ hd =>
    yields_bind (yields_option (yields_bind (passes_word _) fun _ _ => hs _)) fun _ hr => yields_pure ⟨hn, hd, hr⟩

theorem yields_indexMember : YieldsNode P (indexMember sub) := by
  refine yields_form <| yields_bind (passes_skipWord _) fun _ _ =>
    yields_bind (yields_between (q := fun x => x.1.Fits P ∧ x.2.Fits P) ?_) fun ⟨_, _⟩ h =>
    yields_bind (yields_typing hs) fun _ ht => yields_pure (by simp [h, ht])
  exact yields_bind yields_name fun _ hn => yields_bind (passes_mark _) fun _ _ => yields_bind (hs _) fun _ ht =>
    yields_pure ⟨hn, ht⟩

theorem yields_signature : YieldsNodes P (signature sub) :=
  yields_bind (yields_option (yields_typeParameters hs)) fun _ hg => yields_bind (yields_parameters hs) fun _ hp =>
    yields_bind (yields_typing hs) fun _ ht => yields_pure (by simp [hg, hp, ht])

omit hs in
theorem passes_keyModifier (words : List String) : Passes P (keyModifier words) :=
  yields_bind (passes_satisfying _) fun _ _ => yields_bind (passes_isNext _) fun _ _ =>
    yields_ite (yields_pure trivial) yields_failure

theorem yields_propertyMember : YieldsNode P (propertyMember sub) :=
  yields_form <| yields_bind (yields_many (passes_keyModifier _)) fun _ _ => yields_bind (yields_key hs) fun _ hk =>
    yields_bind (passes_skipMark _) fun _ _ => yields_orElse
      (yields_bind (yields_signature hs) fun _ hn => yields_pure (List.forall_mem_cons.mpr ⟨hk, hn⟩))
      (yields_bind (yields_typing hs) fun _ ht => yields_pure (by simp [hk, ht]))

theorem yields_objectMember : YieldsNode P (objectMember sub) :=
  yields_orElse (yields_bind (yields_orElse (passes_mark _) (passes_mark _)) fun _ _ => yields_pure trivial) <|
    yields_orElse (yields_mappedMember hs) <| yields_orElse (yields_indexMember hs) <|
    yields_orElse (yields_form (yields_signature hs)) <|
    yields_orElse (yields_form (yields_bind (passes_word _) fun _ _ => yields_signature hs))
    (yields_propertyMember hs)

theorem yields_objectType : YieldsNode P (objectType sub) :=
  yields_form (yields_between (yields_many (yields_objectMember hs)))

theorem yields_primaryType : YieldsNode P (primaryType sub) :=
  yields_orElse yields_silentType <| yields_orElse (yields_literalType hs) <| yields_orElse (yields_typeQuery hs) <|
    yields_orElse (yields_importedType hs) <| yields_orElse (yields_between (hs _)) <|
    yields_orElse (yields_form (yields_between (yields_separated (yields_tupleMember hs)))) <|
    yields_orElse (yields_objectType hs) (yields_namedType hs)

theorem yields_bracketSuffix : YieldsNode P (bracketSuffix sub) :=
  yields_bind passes_sameLine fun _ _ => yields_between (yields_option (hs _))

theorem yields_postfixType : YieldsNode P (postfixType sub) :=
  yields_form <| yields_bind (yields_primaryType hs) fun _ ht =>
    yields_bind (yields_many (yields_bracketSuffix hs)) fun _ hn => yields_pure (List.forall_mem_cons.mpr ⟨ht, hn⟩)

omit hs in
theorem passes_typeOperator : Passes P typeOperator :=
  yields_bind (passes_satisfying _) fun _ _ => yields_pure trivial

theorem yields_operandType : YieldsNode P (operandType sub) :=
  yields_orElse (yields_bind (yields_many passes_typeOperator) fun _ _ => yields_postfixType hs)
    (yields_postfixType hs)

theorem yields_unionType : YieldsNode P (unionType sub) := by
  have hj : Passes P (mark "|" <|> mark "&") := yields_orElse (passes_mark _) (passes_mark _)
  exact yields_form <| yields_bind (yields_orElse hj (yields_pure trivial)) fun _ _ =>
    yields_bind (yields_operandType hs) fun _ ht =>
    yields_bind (yields_many (yields_bind hj fun _ _ => yields_operandType hs)) fun _ hn =>
    yields_pure (List.forall_mem_cons.mpr ⟨ht, hn⟩)

theorem yields_typePredicate : YieldsNode P (typePredicate sub) := by
  have hn : YieldsNode P (name <|> do word "this"; return .nothing) :=
    yields_orElse yields_name (yields_bind (passes_word _) fun _ _ => yields_pure trivial)
  exact yields_form <| yields_orElse
    (yields_bind (passes_word _) fun _ _ => yields_bind hn fun _ hn =>
      yields_bind (yields_option (yields_bind (passes_word _) fun _ _ => hs _)) fun _ ht =>
      yields_pure (by simp [hn, ht]))
    (yields_bind hn fun _ hn => yields_bind passes_sameLine fun _ _ => yields_bind (passes_word _) fun _ _ =>
      yields_bind (hs _) fun _ ht => yields_pure (by simp [hn, ht]))

theorem yields_functionType : YieldsNode P (functionType sub) :=
  yields_form <| yields_bind (yields_orElse (yields_bind (passes_skipWord _) fun _ _ => passes_word _)
      (yields_pure trivial)) fun _ _ => yields_bind passes_parametersAhead fun _ _ => yields_ite
    (yields_bind (yields_option (yields_typeParameters hs)) fun _ hg => yields_bind (yields_parameters hs) fun _ hp =>
      yields_bind (passes_mark _) fun _ _ => yields_bind (hs _) fun _ ht => yields_pure (by simp [hg, hp, ht]))
    yields_failure

theorem yields_type : YieldsNode P (type sub) :=
  yields_orElse (yields_functionType hs) <| yields_orElse (yields_typePredicate hs) <|
    yields_bind (yields_unionType hs) fun _ ht => yields_orElse
      (yields_form <| yields_bind (passes_word _) fun _ _ => yields_bind (hs _) fun _ hb =>
        yields_bind (passes_mark _) fun _ _ => yields_bind (hs _) fun _ hy => yields_bind (passes_mark _) fun _ _ =>
        yields_bind (hs _) fun _ hn => yields_pure (by simp [ht, hb, hy, hn]))
      (yields_pure ht)

/-! ### Classes -/

omit hs in
theorem passes_modifiers : Passes P modifiers :=
  yields_bind (yields_many (q := fun _ => True) (yields_bind (yields_bind yields_get fun _ _ => yields_pure trivial)
    fun _ (_ : True) => yields_bind (passes_keyModifier _) fun _ _ => yields_pure trivial)) fun _ _ =>
    yields_bind (passes_skipMark _) fun _ _ => yields_pure trivial

theorem yields_method {k : Node} (hk : k.Fits P) : YieldsNode P (method sub k) :=
  yields_form <| yields_bind (yields_functionTail hs) fun _ hn => yields_pure (List.forall_mem_cons.mpr ⟨hk, hn⟩)

theorem yields_fieldOrMethod : YieldsNode P (fieldOrMethod sub) := by
  refine yields_bind passes_modifiers fun isStatic _ => yields_bind (yields_key hs) fun k hk =>
    yields_bind (passes_skipMark _) fun _ _ => yields_bind (passes_skipMark _) fun _ _ =>
    yields_orElse (yields_method hs hk) <| yields_bind (yields_typing hs) fun t ht =>
    yields_bind (yields_orElse (yields_initializer hs) (yields_pure trivial)) fun v hv => yields_pure ?_
  split
  · exact ⟨hk, ht, hv⟩
  · simp [hk, ht, hv]

theorem yields_staticBlock : YieldsNode P (staticBlock sub) := yields_bind (passes_word _) fun _ _ => yields_block hs

theorem yields_classMember : YieldsNode P (classMember sub) :=
  yields_orElse (yields_bind (passes_mark _) fun _ _ => yields_pure trivial) <|
    yields_orElse (yields_decorator hs) <| yields_orElse (yields_staticBlock hs) <|
    yields_orElse (yields_indexMember hs) <| yields_orElse (yields_fieldOrMethod hs) (yields_block hs)

theorem yields_classBody : YieldsNodes P (classBody sub) := by
  refine yields_bind (passes_mark _) fun _ _ => yields_bind (yields_many (q := Node.Fits P) ?_) fun _ hn =>
    yields_bind (passes_skipMark _) fun _ _ => yields_pure hn
  exact yields_bind (passes_isNext _) fun _ _ => yields_ite yields_failure <|
    yields_orElse (yields_classMember hs) (yields_bind yields_next fun _ _ => yields_pure trivial)

theorem yields_listBehind (text : String) : YieldsNodes P ((do word text; separated (sub .type)) <|> pure []) :=
  yields_orElse (yields_bind (passes_word _) fun _ _ => yields_separated (hs _)) (yields_pure (by simp))

theorem yields_heritage : YieldsNodes P (heritage sub) := by
  refine yields_bind (yields_option ?_) fun _ hb => yields_bind (yields_listBehind hs _) fun _ hn =>
    yields_pure (List.forall_mem_cons.mpr ⟨hb, hn⟩)
  exact yields_bind (passes_word _) fun _ _ => yields_bind (hs _) fun _ he =>
    yields_bind (yields_option (yields_typeArguments hs)) fun _ ha => yields_pure (by simp [he, ha])

omit hs in
theorem yields_className : Yields P className P := by
  refine yields_bind (yields_satisfying _) fun t ht => ?_
  split
  · exact yields_failure
  · exact yields_pure (ht.1 (isName_word ht.2))

theorem yields_classParts : Yields P (classParts sub) fun c =>
    (∀ n ∈ c.name?, P n) ∧ (∀ n ∈ c.header, n.Fits P) ∧ ∀ n ∈ c.members, n.Fits P := by
  refine yields_bind (passes_skipWord _) fun _ _ => yields_bind (passes_word _) fun _ _ =>
    yields_bind (q := fun name? => ∀ n ∈ name?, P n) ?_ fun _ hn =>
    yields_bind (yields_option (yields_typeParameters hs)) fun _ hg => yields_bind (yields_heritage hs) fun _ hb =>
    yields_bind (yields_classBody hs) fun _ hm => yields_pure ⟨hn, List.forall_mem_cons.mpr ⟨hg, hb⟩, hm⟩
  exact yields_orElse (yields_bind yields_className fun _ hn => yields_pure (by simpa using hn))
    (yields_pure (by simp))

omit hs in
theorem fits_asForm {c : ClassParts} {decorators : List Node} (hd : ∀ n ∈ decorators, n.Fits P)
    (hn : ∀ n ∈ c.name?, P n) (hh : ∀ n ∈ c.header, n.Fits P) (hm : ∀ n ∈ c.members, n.Fits P) :
    (c.asForm decorators).Fits P := by
  have hnames : ∀ n ∈ c.name?.toList.map Node.name, n.Fits P := by
    simpa using hn
  exact Node.allFit_iff.mpr (List.forall_mem_append.mpr ⟨List.forall_mem_append.mpr
    ⟨List.forall_mem_append.mpr ⟨hd, hnames⟩, hh⟩, hm⟩)

theorem yields_classDeclaration {decorators : List Node} (hd : ∀ n ∈ decorators, n.Fits P) :
    YieldsNode P (classDeclaration sub decorators) := by
  refine yields_bind (yields_classParts hs) fun c ⟨hn, hh, hm⟩ => ?_
  split
  next n hc => exact yields_pure (hn n hc)
  next => exact yields_pure (fits_asForm hd hn hh hm)

theorem yields_classExpression : YieldsNode P (classExpression sub) :=
  yields_bind (yields_classParts hs) fun _ ⟨hn, hh, hm⟩ => yields_pure (fits_asForm (by simp) hn hh hm)

end ArkRoutes.Source.Grammar
