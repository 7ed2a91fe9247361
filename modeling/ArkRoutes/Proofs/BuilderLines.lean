import ArkRoutes.Proofs.Artifacts
import ArkRoutes.Proofs.ComponentImports
import ArkRoutes.Proofs.LiteralMeaning
import Mathlib.Algebra.GroupWithZero.Nat

namespace ArkRoutes

namespace Text

def breaks (s : String) : Nat := s.toList.count '\n'

theorem breaks_append (s u : String) : breaks (s ++ u) = breaks s + breaks u := by simp [breaks]

theorem breaks_eq_zero {s : String} (h : '\n' ∉ s.toList) : breaks s = 0 := List.count_eq_zero_of_not_mem h

theorem breaks_join (ls : List String) :
    breaks (String.join (ls.map (· ++ "\n"))) = ls.length + (ls.map breaks).sum := by
  induction ls with
  | nil => rfl
  | cons l ls ih =>
      have hn : breaks "\n" = 1 := rfl
      rw [List.map_cons, String.join_cons, breaks_append, breaks_append, hn, ih, List.map_cons, List.sum_cons,
        List.length_cons]
      omega

end Text

namespace Generation

namespace Builder

open Text

variable {e : Entry} {entries : List Entry} {names : List String}

/-! ### Line breaks -/

theorem count_escaped (s : List Char) : (escaped s).count '\n' = s.count '\n' := by
  induction s with
  | nil => rfl
  | cons c s ih =>
      rw [escaped]
      split
      · rw [List.count_cons_of_ne (by decide), List.count_cons, List.count_cons, ih]
      · rw [List.count_cons, List.count_cons, ih]

theorem breaks_quoted (s : String) : breaks (quoted s) = breaks s := by
  have hq : breaks "'" = 0 := rfl
  rw [quoted, breaks_append, breaks_append, hq, breaks, String.toList_ofList, count_escaped]
  simp [breaks]

theorem breaks_importLine (hn : ∀ n ∈ names, '\n' ∉ n.toList) (path : String) :
    breaks (importLine names path) = breaks path := by
  have hm : '\n' ∉ (String.intercalate ", " names).toList := not_mem_intercalate (by decide) hn
  have hi := breaks_eq_zero hm
  have ha : breaks "import \x7b " = 0 := rfl
  have hb : breaks " \x7d from '" = 0 := rfl
  have hc : breaks "';" = 0 := rfl
  rw [importLine, breaks_append, breaks_append, breaks_append, breaks_append, hi, ha, hb, hc]
  omega

theorem breaks_registerLine (h : '\n' ∉ e.buildFunction.toList) : breaks (registerLine e) = breaks e.name := by
  have ha : breaks "  AppRouterRegistry.register(" = 0 := rfl
  have hb : breaks ", wrapBuilder(" = 0 := rfl
  have hc : breaks "), " = 0 := rfl
  have hl : breaks (if e.login then "true" else "false") = 0 := by cases e.login <;> rfl
  have hd : breaks ");" = 0 := rfl
  have hb' := breaks_eq_zero h
  unfold registerLine
  rw [breaks_append, breaks_append, breaks_append, breaks_append, breaks_append, breaks_append, ha, hb, hc, hl, hd,
    breaks_quoted, hb']
  omega

structure IsSpelled (e : Entry) : Prop where
  component : Source.Token.IsSpelled e.component
  buildFunction : Text.IsWord e.buildFunction
  usable : e.isUsable = true

theorem breaks_functionLines (h : IsSpelled e) : ∀ l ∈ functionLines e, breaks l = 0 := fun l hl =>
  -- neither the name nor the path is in these lines
  have hn : IsLegible { e with name := "", importPath := "" } :=
    ⟨List.not_mem_nil, List.not_mem_nil, h.component.isWord, h.buildFunction, h.usable⟩
  breaks_eq_zero (not_mem_functionLines hn l hl)

theorem sum_map_eq_zero {α : Type} {f : α → Nat} {xs : List α} (h : ∀ x ∈ xs, f x = 0) : (xs.map f).sum = 0 := by
  rw [List.map_congr_left h]
  simp

theorem mem_components {i : Import} {c : String} (hi : i ∈ imports entries) (hc : c ∈ i.components) :
    ∃ e ∈ entries, e.component = c :=
  List.mem_map.mp (mem_importedFrom_imports.mp (List.mem_flatMap.mpr ⟨i, hi, hc⟩))

def importPaths (entries : List Entry) : List String := (entries.map Entry.importPath).eraseDups

theorem path_imports (entries : List Entry) : (imports entries).map Import.path = importPaths entries := by
  rw [imports_eq, List.map_map]
  exact List.map_id _

theorem length_lines (moduleName libName : String) (entries : List Entry) :
    (lines moduleName libName entries).length = (importPaths entries).length + 6 * entries.length + 5 := by
  have hf : (entries.flatMap functionLines).length = 5 * entries.length := by
    simp [List.length_flatMap, functionLines, Nat.mul_comm]
  simp only [lines, List.length_append, List.length_map, hf, ← path_imports, List.length_cons, List.length_nil]
  omega

theorem sum_breaks_lines (h : ∀ e ∈ entries, IsSpelled e) (moduleName libName : String) :
    ((lines moduleName libName entries).map breaks).sum =
      breaks moduleName + breaks libName + ((importPaths entries).map breaks).sum +
        (entries.map fun e => breaks e.name).sum := by
  have hh : breaks ("// Generated by auto-router-gen for module \x60" ++ moduleName ++ "\x60. Do not edit.") =
      breaks moduleName := by
    have ha : breaks "// Generated by auto-router-gen for module \x60" = 0 := rfl
    have hb : breaks "\x60. Do not edit." = 0 := rfl
    rw [breaks_append, breaks_append, ha, hb]
    omega
  have hi : ((imports entries).map fun i => breaks (importLine i.components i.path)).sum =
      ((importPaths entries).map breaks).sum := by
    rw [← path_imports, List.map_map]
    refine congrArg List.sum (List.map_congr_left fun i hi => breaks_importLine (fun c hc => ?_) i.path)
    obtain ⟨e, he, rfl⟩ := mem_components hi hc
    exact (h e he).component.not_mem (by decide)
  have hf : ((entries.flatMap functionLines).map breaks).sum = 0 := by
    refine sum_map_eq_zero fun l hl => ?_
    obtain ⟨e, he, hl⟩ := List.mem_flatMap.mp hl
    exact breaks_functionLines (h e he) l hl
  have hr : (entries.map fun e => breaks (registerLine e)) = entries.map fun e => breaks e.name :=
    List.map_congr_left fun e he => breaks_registerLine ((h e he).buildFunction.not_mem (by simp))
  have ha : breaks "" = 0 := rfl
  have hb : breaks "export function registerRoutes(): void \x7b" = 0 := rfl
  have hc : breaks "\x7d" = 0 := rfl
  simp only [lines, List.map_append, List.sum_append, List.map_cons, List.map_nil, List.sum_cons, List.sum_nil,
    List.map_map, Function.comp_def, hh, hi, hf, hr, ha, hb, hc,
    breaks_importLine (show ∀ n ∈ ["AppRouterRegistry"], '\n' ∉ n.toList by decide)]
  omega

/-! ### Specifiers -/

def behindQuote (line : String) : List Char := (line.toList.dropWhile (· ≠ '\'')).tail

/-- The literal that begins at the first quote of a line has this value and ends at the last quote. -/
def Specifies (line value : String) : Prop :=
  ∃ behind, Literal.read? '\'' 0 (behindQuote line) = some (Literal.units value.toList, behind) ∧ '\'' ∉ behind

def IsPlain (s : String) : Prop := ∀ c ∈ ['\'', '\\', '\n', '\r'], c ∉ s.toList

theorem behindQuote_importLine (hn : ∀ n ∈ names, '\'' ∉ n.toList) (path : String) :
    behindQuote (importLine names path) = path.toList ++ ['\'', ';'] := by
  have hm : '\'' ∉ (String.intercalate ", " names).toList := not_mem_intercalate (by decide) hn
  have hl : (importLine names path).toList =
      ("import \x7b ".toList ++ (String.intercalate ", " names).toList ++ " \x7d from ".toList) ++
        '\'' :: (path.toList ++ ['\'', ';']) := by
    simp [importLine, -String.toList_intercalate]
  have hp : ∀ c ∈ "import \x7b ".toList ++ (String.intercalate ", " names).toList ++ " \x7d from ".toList,
      decide (c ≠ '\'') = true := by
    intro c hc
    rw [List.mem_append, List.mem_append] at hc
    refine decide_eq_true ?_
    rintro rfl
    rcases hc with (hc | hc) | hc
    · exact absurd hc (by decide)
    · exact hm hc
    · exact absurd hc (by decide)
  rw [behindQuote, hl, dropWhile_append_of_head? hp (by simp), List.tail_cons]

theorem eq_of_lastQuote {path body behind : List Char} (h : path ++ ['\'', ';'] = body ++ '\'' :: behind)
    (hb : '\'' ∉ behind) : body = path := by
  rcases List.append_eq_append_iff.mp h with ⟨more, rfl, hm⟩ | ⟨more, rfl, hm⟩
  · match more with
    | [] => simp
    | [_] => simp at hm
    | _ :: _ :: _ => simp at hm
  · cases more with
    | nil => simp
    | cons c more =>
        injection hm with _ hm
        exact absurd (hm ▸ by simp) hb

section Specifiers

open Literal

theorem read?_backslash (path behind : List Char) (hb : '\'' ∉ behind) :
    read? '\'' 0 ('\\' :: path ++ ['\'', ';']) ≠ some (units ('\\' :: path), behind) := by
  intro h
  obtain ⟨body, hbody, hl⟩ := length_lt_of_backslash (by decide) h
  rw [eq_of_lastQuote hbody hb] at hl
  exact lt_irrefl _ hl

theorem read?_specifier (path : List Char) :
    (∃ behind, read? '\'' 0 (path ++ ['\'', ';']) = some (units path, behind) ∧ '\'' ∉ behind) ↔
      ∀ c ∈ ['\'', '\\', '\n', '\r'], c ∉ path := by
  induction path with
  | nil => exact iff_of_true ⟨[';'], rfl, by decide⟩ (by simp)
  | cons c path ih =>
      by_cases hc : c ∈ ['\'', '\\', '\n', '\r']
      · refine iff_of_false ?_ fun h => h c hc List.mem_cons_self
        rintro ⟨behind, hr, hb⟩
        simp only [List.mem_cons, List.not_mem_nil, or_false] at hc
        rcases hc with rfl | rfl | rfl | rfl
        · have hu := List.ne_nil_of_length_pos (length_codeUnits_pos '\''.toNat)
          simp [read?, units_cons] at hr
          exact hu hr.1.1
        · exact read?_backslash path behind hb hr
        · simp [read?, plain?] at hr
        · simp [read?, plain?] at hr
      · simp only [List.mem_cons, List.not_mem_nil, or_false, not_or] at hc
        have hstep (behind : List Char) : read? '\'' 0 (c :: path ++ ['\'', ';']) = some (units (c :: path), behind) ↔
            read? '\'' 0 (path ++ ['\'', ';']) = some (units path, behind) := by
          rw [List.cons_append, read?, if_neg hc.1, if_neg hc.2.1]
          cases hr : read? '\'' 0 (path ++ ['\'', ';']) <;> simp [plain?, hc, units_cons, Prod.ext_iff]
        simp only [hstep, ih, List.mem_cons, List.not_mem_nil, or_false, forall_eq_or_imp, forall_eq, not_or]
        simp [Ne.symm hc.1, Ne.symm hc.2.1, Ne.symm hc.2.2.1, Ne.symm hc.2.2.2]

end Specifiers

theorem specifies_importLine (hn : ∀ n ∈ names, '\'' ∉ n.toList) (path : String) :
    Specifies (importLine names path) path ↔ IsPlain path := by
  rw [Specifies, behindQuote_importLine hn]
  exact read?_specifier path.toList

end Builder

variable {t : FileTree} {o : Options} {s : Settings}

theorem isSpelled_survey : ∀ e ∈ (survey t o s).entries, Builder.IsSpelled e := by
  intro e he
  obtain ⟨r, file, hr, rfl⟩ := route_of_survey he
  have hc := t.isSpelled_scan s _ r hr
  exact ⟨hc, Text.isWord_append_builder hc.isWord, usable_survey t o s _ he⟩

theorem entries_of_run {base : Settings} {summary : Summary} {t' : FileTree} (h : Accepted o base)
    (hr : (generate o base).run.run t = (.ok summary, t')) :
    (survey t o (o.settings base)).entries = summary.entries := by
  rw [run_generate_of_accepted h] at hr
  obtain ⟨updated, -, rfl⟩ := runs_writeAll_iff.mp hr
  rfl

section Survey

open Builder

/-- A builder has the lines of its layout and one more for each line break in a module's, library's or
route's name or in a path. Its import lines name the library and the paths of the routes, and an import is
one of what it names if and only if this needs no escapes. -/
theorem builder_lines {entries : List Entry} (he : (survey t o s).entries = entries) :
    render o.moduleName o.libName entries =
        .ok (String.join ((lines o.moduleName o.libName entries).map (· ++ "\n"))) ∧
      Text.breaks (Builder.text o.moduleName o.libName entries) =
        (importPaths entries).length + 6 * entries.length + 5 +
          (Text.breaks o.moduleName + Text.breaks o.libName + ((importPaths entries).map Text.breaks).sum +
            (entries.map fun e => Text.breaks e.name).sum) ∧
      importLines (lines o.moduleName o.libName entries) =
        importLine ["AppRouterRegistry"] o.libName :: (imports entries).map (fun i => importLine i.components i.path) ∧
      (imports entries).map Import.path = importPaths entries ∧
      (Specifies (importLine ["AppRouterRegistry"] o.libName) o.libName ↔ IsPlain o.libName) ∧
      ∀ i ∈ imports entries, Specifies (importLine i.components i.path) i.path ↔ IsPlain i.path := by
  have hspelled : ∀ e ∈ entries, IsSpelled e := he ▸ isSpelled_survey
  refine ⟨he ▸ render_survey t o s _ _, ?_, importLines_lines _ _ _, path_imports _,
    specifies_importLine (by decide) _, fun i hi => specifies_importLine (fun c hc => ?_) _⟩
  · rw [Builder.text, Text.breaks_join, length_lines, sum_breaks_lines hspelled]
  · obtain ⟨e, hm, rfl⟩ := mem_components hi hc
    exact (hspelled e hm).component.not_mem (by decide)

theorem shop_builder_lines :
    Text.breaks (Builder.text "shop" "autorouter" shopRoutes) = 19 ∧
      Specifies (importLine ["AppRouterRegistry"] "autorouter") "autorouter" ∧
      Specifies (importLine ["Pay"] "../Pay") "../Pay" := by
  have ha : Accepted shopModule {} := ⟨by decide, by decide, by decide⟩
  obtain ⟨t, hrun⟩ := exists_run_shop
  have he : (survey shop shopModule (shopModule.settings {})).entries = shopRoutes := entries_of_run ha hrun
  obtain ⟨-, hb, -, -, hlib, hpaths⟩ := builder_lines he
  refine ⟨hb.trans (by decide +kernel), hlib.mpr ?_, (hpaths ⟨"../Pay", ["Pay"]⟩ (by decide +kernel)).mpr ?_⟩
  · simp [IsPlain, shopModule]
  · simp [IsPlain]

def crookedModule : Options := { homeModule with scanFiles := ["it's"] }

def crookedPage : FileTree where
  home := []
  entries := [(["it's.ets"], .file (.text "@AppRouter(\x7bname: 'sweet\\nhome'\x7d) class Home \x7b\x7d"))]

def crookedRoute : Generation.Entry := ⟨"sweet\nhome", "Home", "../it's", "HomeBuilder", false, "routerParam", false⟩

/-- There is a line more than the layout has, and the import ends at the quote in the file's name. -/
theorem crookedPage_builder_lines :
    (survey crookedPage crookedModule (crookedModule.settings {})).entries = [crookedRoute] ∧
      importPaths [crookedRoute] = ["../it's"] ∧
      Text.breaks (Builder.text "m" "autorouter" [crookedRoute]) =
        (importPaths [crookedRoute]).length + 6 * [crookedRoute].length + 5 + 1 ∧
      importLine ["Home"] "../it's" ∈ Text.lines (Builder.text "m" "autorouter" [crookedRoute]) ∧
      Literal.read? '\'' 0 (behindQuote (importLine ["Home"] "../it's")) =
        some (Literal.units "../it".toList, "s';".toList) := by
  rw [Builder.text, Text.breaks_join, Text.lines_joined]
  decide +kernel

end Survey

end Generation

end ArkRoutes
