import Mathlib.Data.List.Induction
import Mathlib.Data.List.TakeWhile
import ArkRoutes.Proofs.Arguments
import ArkRoutes.Proofs.BuilderText
import ArkRoutes.Proofs.ImportClosure
import ArkRoutes.Proofs.Vocabulary.Statements

namespace ArkRoutes

namespace Source.Token

def isSpelling (c : Char) : Bool :=
  isWordPart c || isHexDigit c || ['u', '\\', '\x7b', '\x7d', '#'].contains c

theorem isSpelling_of_codePointLength? {cs : List Char} {n : Nat} (h : codePointLength? cs = some n) :
    ∀ c ∈ cs.take n, isSpelling c = true := by
  have hhex {l : List Char} : ∀ c ∈ l.takeWhile isHexDigit, isSpelling c = true := fun c hc => by
    simp [isSpelling, List.mem_takeWhile_imp hc]
  unfold codePointLength? at h
  split at h
  next rest =>
    dsimp only at h
    split at h
    next tail hd =>
      split at h
      · cases h
      · cases h
        have hdigits := List.prefix_iff_eq_take.mp (List.takeWhile_prefix isHexDigit (l := rest))
        have htake : rest.take ((rest.takeWhile isHexDigit).length + 1) = rest.takeWhile isHexDigit ++ ['\x7d'] := by
          rw [List.take_add, ← hdigits, hd]
          rfl
        rw [List.take_succ_cons, List.take_succ_cons, htake]
        exact List.forall_mem_cons.mpr ⟨by decide, List.forall_mem_cons.mpr ⟨by decide,
          List.forall_mem_append.mpr ⟨hhex, List.forall_mem_singleton.mpr (by decide)⟩⟩⟩
    next => cases h
  next rest _ =>
    split at h
    next hlen =>
      cases h
      have hall : (rest.take 4).takeWhile isHexDigit = rest.take 4 :=
        (List.takeWhile_prefix _).eq_of_length_le (by simp only [List.length_take]; omega)
      rw [List.take_succ_cons, ← hall]
      exact List.forall_mem_cons.mpr ⟨by decide, hhex⟩
    next => cases h
  next => cases h

theorem isSpelling_of_wordLength {owed : Nat} {cs : List Char} (h : ∀ c ∈ cs.take owed, isSpelling c = true) :
    ∀ c ∈ cs.take (wordLength owed cs), isSpelling c = true := by
  fun_induction wordLength owed cs with
  | case1 => simp
  | case2 c rest owed ih =>
      rw [List.take_succ_cons] at h ⊢
      obtain ⟨hc, hr⟩ := List.forall_mem_cons.mp h
      exact List.forall_mem_cons.mpr ⟨hc, ih hr⟩
  | case3 c rest hc ih =>
      rw [List.take_succ_cons]
      exact List.forall_mem_cons.mpr ⟨by simp [isSpelling, hc], ih (by simp)⟩
  | case4 rest n hn _ ih =>
      rw [List.take_succ_cons]
      exact List.forall_mem_cons.mpr ⟨by simp [isSpelling], ih (isSpelling_of_codePointLength? hn)⟩
  | case5 => simp
  | case6 => simp

def IsSpelled (s : String) : Prop := s ≠ "\x7d" ∧ ∀ c ∈ s.toList, isSpelling c = true

theorem IsSpelled.not_mem {s : String} (h : IsSpelled s) {c : Char} (hc : isSpelling c = false) : c ∉ s.toList := by
  intro hm
  rw [h.2 c hm] at hc
  cases hc

theorem IsSpelled.isWord {s : String} (h : IsSpelled s) : Text.IsWord s := by
  refine ⟨h.1, fun c hc => h.not_mem ?_⟩
  simp only [List.mem_cons, List.not_mem_nil, or_false] at hc
  rcases hc with rfl | rfl | rfl | rfl | rfl <;> decide

theorem isSpelled_ofList {cs : List Char} (h : ∀ c ∈ cs, isSpelling c = true) (hn : cs ≠ ['\x7d']) :
    IsSpelled (String.ofList cs) := by
  refine ⟨fun he => hn ?_, fun c hm => h c (by simpa using hm)⟩
  simpa using congrArg String.toList he

theorem take_ne_of_beginsWord {cs : List Char} (h : beginsWord cs = true) (n : Nat) : cs.take n ≠ ['\x7d'] := by
  intro he
  match cs, n with
  | [], n => simp [beginsWord] at h
  | c :: rest, 0 => cases he
  | c :: rest, n + 1 =>
      obtain ⟨rfl, -⟩ := List.cons.inj he
      revert h
      simp [beginsWord]
      decide

theorem shape_quoted {q? : Option Quoted} {shape : Quoted → Shape} {n : Nat} {mark : Nat}
    (h : ∀ q, shape q ≠ .word ∧ shape q ≠ .privateWord) :
    ((q?.bind fun q => some (shape q, q.length + n)).getD (.mark, mark)).1 ≠ .word ∧
      ((q?.bind fun q => some (shape q, q.length + n)).getD (.mark, mark)).1 ≠ .privateWord := by
  cases q? with
  | none => simp
  | some q => simpa using h q

theorem shapeOf_cases (s : Scanner) (cs : List Char) :
    (beginsWord cs = true ∧ s.shapeOf cs = (.word, wordLength 0 cs)) ∨
    (∃ rest, cs = '#' :: rest ∧ beginsWord rest = true ∧ s.shapeOf cs = (.privateWord, wordLength 0 rest + 1)) ∨
    ((s.shapeOf cs).1 ≠ .word ∧ (s.shapeOf cs).1 ≠ .privateWord) := by
  unfold Scanner.shapeOf
  dsimp only
  split
  next h => exact .inl ⟨h, rfl⟩
  next =>
    refine .inr ?_
    split
    next => exact .inr (by simp)
    next =>
      split
      next => exact .inr (shape_quoted (by simp))
      next => exact .inr (shape_quoted (by simp))
      next => exact .inr (shape_quoted (by simp))
      next =>
        split
        next => exact .inr (shape_quoted (by simp))
        next => exact .inr (by simp)
      next rest _ _ =>
        split
        next h => exact .inl ⟨rest, rfl, h, rfl⟩
        next => exact .inr (by simp)
      next =>
        split
        next => split <;> exact .inr (by simp)
        next => exact .inr (by simp)
      next => exact .inr (by simp)

theorem fits_of_shapeOf (s : Scanner) (cs : List Char) (lead : String) :
    (⟨(s.shapeOf cs).1, String.ofList (cs.take (s.shapeOf cs).2), lead⟩ : Token).Fits IsSpelled := by
  rcases shapeOf_cases s cs with ⟨hb, hs⟩ | ⟨rest, rfl, hb, hs⟩ | ⟨hw, hp⟩
  · rw [hs]
    intro _
    exact isSpelled_ofList (isSpelling_of_wordLength (by simp)) (take_ne_of_beginsWord hb _)
  · rw [hs]
    intro _
    refine isSpelled_ofList ?_ (by simp)
    rw [List.take_succ_cons]
    exact List.forall_mem_cons.mpr ⟨by decide, isSpelling_of_wordLength (by simp)⟩
  · rintro (h | h)
    · exact (hw h).elim
    · exact (hp h).elim

theorem fits_run (fuel : Nat) (s : Scanner) (cs : List Char) : ∀ t ∈ s.run fuel cs, t.Fits IsSpelled := by
  induction fuel generalizing s cs with
  | zero => simp [Scanner.run]
  | succ fuel ih =>
      rw [Scanner.run]
      dsimp only
      split
      · simp
      · exact List.forall_mem_cons.mpr ⟨fits_of_shapeOf _ _ _, ih _ _⟩

theorem fits_scan (text : String) : ∀ t ∈ scan text, t.Fits IsSpelled := fits_run _ _ _

end Source.Token

/-- The words of a text, and the names of its types, are spelled as words. -/
theorem Source.isSpelled_events (text : String) : ∀ e ∈ Source.events text, e.Fits Token.IsSpelled :=
  Source.fits_of_tokens ⟨by decide, List.all_eq_true.mp (by decide)⟩ (Source.Token.fits_scan text)

namespace Collector

variable {P : String → Prop} {w : Surroundings} {c : Collector}

def Names (P : String → Prop) (c : Collector) : Prop :=
  (∀ r ∈ c.routes, P r.component) ∧ ∀ draft, c.stage = .declaring draft → ∀ n ∈ draft.component?, P n

theorem names_publish (h : c.Names P) {draft : Draft} (hd : ∀ n ∈ draft.component?, P n) (file : Path) :
    (c.publish file draft).Names P := by
  refine ⟨List.forall_mem_append.mpr ⟨h.1, fun r hr => ?_⟩, by simp [publish]⟩
  have hr : draft.route? file = some r := Option.mem_toList.mp hr
  cases hc : draft.component? with
  | none => simp [Draft.route?, hc] at hr
  | some n =>
      rw [Draft.component_of_route? hr hc]
      exact hd n hc

theorem names_onDecorator (h : c.Names P) (properties : List (String × Expr)) :
    (c.onDecorator w properties).Names P := by
  rw [onDecorator]
  split
  next draft hs =>
    have hd : ∀ n ∈ (draft.apply w.settings.decorator (c.scope.value w) properties).component?, P n := by
      rw [Draft.component?_apply]
      exact h.2 draft hs
    dsimp only
    split
    · exact names_publish h hd _
    · refine ⟨h.1, ?_⟩
      rintro _ ⟨⟩
      exact hd
  next =>
    refine ⟨h.1, fun draft hs => ?_⟩
    dsimp only at hs
    split at hs <;> cases hs

theorem names_onWord (h : c.Names P) {word : String} (hw : P word) : (c.onWord w word).Names P := by
  rw [onWord]
  split
  next draft keywordSeen _ =>
    split
    · exact ⟨h.1, fun _ hs => by cases hs⟩
    · split
      · exact names_publish h (by simpa using hw) _
      · exact h
  next => exact h

theorem names_step (h : c.Names P) {e : Event} (he : e.Fits P) : (step w c e).Names P := by
  have hnote : { c with scope := c.scope.note e }.Names P := h
  cases e with
  | opens name fields =>
      refine ⟨h.1, ?_⟩
      rintro _ ⟨⟩ n ⟨⟩
      exact he
  | closes =>
      simp only [step, onClose]
      split
      · exact ⟨h.1, fun _ hs => by cases hs⟩
      · exact hnote
  | decorator callee args =>
      simp only [step]
      split
      · exact names_onDecorator hnote _
      · exact hnote
  | word text => exact names_onWord hnote he
  | _ => exact hnote

theorem names_run {events : List Event} (h : ∀ e ∈ events, e.Fits P) : (run w events).Names P := by
  induction events using List.reverseRecOn with
  | nil => exact ⟨by simp [run], fun _ hs => by cases hs⟩
  | append_singleton events e ih =>
      obtain ⟨hev, he⟩ := List.forall_mem_append.mp h
      rw [run, List.foldl_append]
      exact names_step (ih hev) (he e (by simp))

end Collector

/-- Whatever a file says, the components of its routes are spelled as words. -/
theorem FileTree.isSpelled_scan (t : FileTree) (s : Settings) (entry : Path) :
    ∀ r ∈ (t.scan s entry).toOption.getD [], Source.Token.IsSpelled r.component := by
  rw [toOption_scan]
  cases he : t.events entry with
  | error cause => simp [Except.toOption]
  | ok events =>
      obtain ⟨_, text, -, -, rfl⟩ := text_of_events he
      exact (Collector.names_run (Source.isSpelled_events text)).1

theorem FileTree.isWord_scan (t : FileTree) (s : Settings) (entry : Path) :
    ∀ r ∈ (t.scan s entry).toOption.getD [], Text.IsWord r.component :=
  fun r hr => (t.isSpelled_scan s entry r hr).isWord

end ArkRoutes
