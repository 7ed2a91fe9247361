import ArkRoutes.Proofs.BuilderText
import ArkRoutes.Source.Token.Scan

namespace ArkRoutes

namespace Generation.Builder

open Source

def replaced (c : Char) (text s : List Char) : List Char := s.flatMap fun d => if d = c then text else [d]

/-- Escaping doubles the backslashes first and then puts one ahead of each quote. -/
theorem escaped_eq_replaced (s : List Char) :
    escaped s = replaced '\'' ['\\', '\''] (replaced '\\' ['\\', '\\'] s) := by
  induction s with
  | nil => rfl
  | cons c s ih =>
      have hc : replaced '\'' ['\\', '\''] (replaced '\\' ['\\', '\\'] (c :: s)) =
          replaced '\'' ['\\', '\''] (if c = '\\' then ['\\', '\\'] else [c]) ++ escaped s := by
        rw [ih]
        simp [replaced]
      rw [hc, escaped]
      by_cases hb : c = '\\'
      · simp [hb, replaced]
      by_cases hq : c = '\''
      · simp [hq, replaced]
      · simp [hb, hq, replaced]

theorem escapeLength?_mark {c : Char} (h : c = '\\' ∨ c = '\'') (rest : List Char) :
    Token.escapeLength? (c :: rest) = some 1 := by
  rcases h with rfl | rfl <;> cases rest <;> simp [Token.escapeLength?, Token.isOctalDigit]

theorem cutQuoted_escaped {s : List Char} (hn : '\n' ∉ s) (hr : '\r' ∉ s) (rest : List Char) :
    Token.cutQuoted '\'' 0 (escaped s ++ '\'' :: rest) = some ⟨escapedPieces s, .quote, (escaped s).length + 1⟩ := by
  induction s with
  | nil => simp [escaped, Token.cutQuoted, Token.endingAt?, escapedPieces]
  | cons c s ih =>
      rw [List.mem_cons, not_or] at hn hr
      have ih := ih hn.2 hr.2
      rw [escaped, escapedPieces]
      split
      next h =>
        simp only [Bool.or_eq_true, decide_eq_true_eq] at h
        simp [Token.cutQuoted, Token.endingAt?, escapeLength?_mark h, ih]
      next h =>
        simp only [Bool.or_eq_true, decide_eq_true_eq, not_or] at h
        simp [Token.cutQuoted, Token.endingAt?, h.1, h.2, Ne.symm hn.1, Ne.symm hr.1, ih]

theorem toList_quoted (s : String) : (quoted s).toList = '\'' :: (escaped s.toList ++ ['\'']) := by
  simp [quoted]

theorem run_nil (fuel : Nat) (scanner : Token.Scanner) : scanner.run fuel [] = [] := by
  cases fuel with
  | zero => rfl
  | succ fuel =>
      have hg : Token.cutGap .blank [] = ([], []) := rfl
      rw [Token.Scanner.run, hg]
      rfl

theorem run_of_shapeOf {scanner : Token.Scanner} {cs : List Char} {shape : Shape} (fuel : Nat) (hn : cs ≠ [])
    (hg : Token.cutGap .blank cs = ([], cs)) (hs : scanner.shapeOf cs = (shape, cs.length)) :
    scanner.run (fuel + 1) cs = [⟨shape, String.ofList cs, ""⟩] := by
  have he : cs.isEmpty = false := by simpa using hn
  rw [Token.Scanner.run, hg]
  dsimp only
  rw [he, hs]
  dsimp only
  rw [List.take_length, List.drop_length, run_nil]
  rfl

theorem shapeOf_quoted {s : String} (hn : '\n' ∉ s.toList) (hr : '\r' ∉ s.toList) (scanner : Token.Scanner) :
    scanner.shapeOf (quoted s).toList = (.string (escapedPieces s.toList), (quoted s).toList.length) := by
  have hw : ∀ cs, Token.beginsWord ('\'' :: cs) = false := fun cs => by
    rw [Token.beginsWord, show Token.isWordStart '\'' = false by decide]
    rfl
  have hd : ∀ cs, Token.beginsNumber ('\'' :: cs) = false := fun cs => by simp [Token.beginsNumber]
  have hc := cutQuoted_escaped hn hr []
  rw [toList_quoted, Token.Scanner.shapeOf, hw, hd]
  dsimp only
  rw [hc]
  simp

/-- Scanned as a source text, a literal is one token that stands for its name. -/
theorem scan_quoted {s : String} (hn : '\n' ∉ s.toList) (hr : '\r' ∉ s.toList) :
    Token.scan (quoted s) = [⟨.string (escapedPieces s.toList), quoted s, ""⟩] := by
  have hl : Token.withoutFirstLine (quoted s).toList = (quoted s).toList := by
    rw [toList_quoted]
    simp [Token.withoutFirstLine]
  have hg : Token.cutGap .blank (quoted s).toList = ([], (quoted s).toList) := by
    rw [toList_quoted]
    rfl
  have hs := run_of_shapeOf (quoted s).toList.length (by simp [toList_quoted]) hg (shapeOf_quoted hn hr {})
  rw [Token.scan, hl, hs, String.ofList_toList]

/-! ### Registrations -/

theorem exists_registerLine_eq (e : Entry) : ∃ tail, registerLine e =
    "  AppRouterRegistry.register('" ++ (String.ofList (escaped e.name.toList) ++ "'" ++ tail) := by
  have hq : "  AppRouterRegistry.register('" = "  AppRouterRegistry.register(" ++ "'" := by decide
  refine ⟨", wrapBuilder(" ++ e.buildFunction ++ "), " ++ (if e.login then "true" else "false") ++ ");", ?_⟩
  unfold registerLine quoted
  rw [hq]
  simp only [String.append_assoc]

theorem name_of_registerLine {a b : Entry} (h : registerLine a = registerLine b) : a.name = b.name := by
  obtain ⟨s, hs⟩ := exists_registerLine_eq a
  obtain ⟨t, ht⟩ := exists_registerLine_eq b
  rw [hs, ht, String.append_right_inj] at h
  have hl := congrArg literal? h
  rw [literal?_escaped, literal?_escaped] at hl
  injection hl with hl
  injection hl

theorem quoted_injective : Function.Injective quoted := by
  intro a b h
  have hl := congrArg String.toList h
  rw [toList_quoted, toList_quoted, List.cons.injEq] at hl
  have hp := untilQuote?_escaped a.toList []
  rw [hl.2, untilQuote?_escaped] at hp
  have he : escapedPieces b.toList = escapedPieces a.toList := by
    injection hp with hp
    injection hp
  rw [← textOf_escapedPieces a, ← he, textOf_escapedPieces]

/-- A literal ends at the quote behind it and stands for the name that it was made of, whatever this holds;
without line breaks it is scanned as one token. So routes of different names have different literals. -/
theorem literal_of_name (name : String) : ∃ pieces,
    (∀ rest, untilQuote? (escaped name.toList ++ '\'' :: rest) = some (pieces, rest)) ∧
      Piece.textOf pieces = name ∧
      ('\n' ∉ name.toList → '\r' ∉ name.toList → Token.scan (quoted name) = [⟨.string pieces, quoted name, ""⟩]) ∧
      (∀ other, other ≠ name → quoted other ≠ quoted name) ∧
      ∀ a b : Entry, a.name = name → b.name ≠ name → registerLine a ≠ registerLine b := by
  refine ⟨escapedPieces name.toList, untilQuote?_escaped _, textOf_escapedPieces name, scan_quoted,
    fun other hne h => hne (quoted_injective h), fun a b ha hb h => hb ?_⟩
  rw [← name_of_registerLine h, ha]

def thornyName : String := "it\\'s/home\\"

theorem literal_of_thornyName : quoted thornyName = "'it\\\\\\'s/home\\\\'" ∧
    ∃ pieces, untilQuote? "it\\\\\\'s/home\\\\'".toList = some (pieces, []) ∧ Piece.textOf pieces = thornyName ∧
      Token.scan (quoted thornyName) = [⟨.string pieces, quoted thornyName, ""⟩] ∧
      quoted "it's/home" ≠ quoted thornyName := by
  obtain ⟨pieces, hp, ht, hs, hne, -⟩ := literal_of_name thornyName
  exact ⟨by decide, pieces, hp [], ht, hs (by decide) (by decide), hne _ (by decide)⟩

end Generation.Builder

end ArkRoutes
