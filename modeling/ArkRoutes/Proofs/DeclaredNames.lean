import Mathlib.Data.List.Nodup
import ArkRoutes.Proofs.Artifacts

namespace ArkRoutes

namespace Generation.Builder

/-! ### The reader -/

def withoutCommas (word : String) : String := String.ofList (word.toList.filter (· != ','))

def imported (line : String) : List String :=
  match Text.splitAt ' ' line with
  | first :: second :: rest =>
    if first = "import" ∧ second = "\x7b" then (rest.takeWhile (· != "\x7d")).map withoutCommas else []
  | _ => []

def exported (line : String) : List String :=
  (((Text.afterLead? "export function " line).bind (Text.cut? '(')).map Prod.fst).toList

def declared (lines : List String) : List String := lines.flatMap imported ++ lines.flatMap exported

variable {e : Entry} {entries : List Entry}

theorem exported_of_head? {line : String} (h : line.toList.head? ≠ some 'e') : exported line = [] := by
  have hl : Text.afterLead? "export function " line = none := by
    refine Option.eq_none_iff_forall_ne_some.mpr fun rest hr => h ?_
    rw [← Text.append_of_afterLead? hr, String.toList_append]
    rfl
  rw [exported, hl]
  rfl

theorem exported_eq {name : String} (h : '(' ∉ name.toList) (rest : String) :
    exported ("export function " ++ name ++ "(" ++ rest) = [name] := by
  rw [String.append_assoc, String.append_assoc, exported, Text.afterLead?_append, Option.bind_some,
    ← String.append_assoc, Text.cut?_append h rfl]
  rfl

theorem imported_of_head? {line : String} (h : line.toList.head? ≠ some 'i') : imported line = [] := by
  have hl : line.toList = [' '].intercalate ((Text.splitAt ' ' line).map String.toList) := by
    have hj : String.intercalate " " (Text.splitAt ' ' line) = line := Text.intercalate_splitAt rfl line
    exact (congrArg String.toList hj).symm.trans String.toList_intercalate
  rw [imported]
  split
  next first second rest hs =>
    rw [if_neg]
    rintro ⟨rfl, -⟩
    refine h ?_
    rw [hl, hs]
    simp [List.intercalate_cons_cons]
  next => rfl

theorem withoutCommas_of_isWord {name : String} (h : Text.IsWord name) : withoutCommas name = name := by
  have hf : name.toList.filter (· != ',') = name.toList :=
    List.filter_eq_self.mpr fun c hc => by simpa using fun he => h.not_mem (by simp) (he ▸ hc)
  rw [withoutCommas, hf, String.ofList_toList]

theorem withoutCommas_comma {name : String} (h : Text.IsWord name) : withoutCommas (name ++ ",") = name := by
  have hf : (name ++ ",").toList.filter (· != ',') = name.toList.filter (· != ',') := by simp
  rw [withoutCommas, hf]
  exact withoutCommas_of_isWord h

/-- The words of a list with commas are its names, each but the last with a comma. -/
theorem splitAt_intercalate {names : List String} (hn : names ≠ []) (h : ∀ n ∈ names, Text.IsWord n) (rest : String) :
    ∃ words, Text.splitAt ' ' (String.intercalate ", " names ++ " " ++ rest) = words ++ Text.splitAt ' ' rest ∧
      words.map withoutCommas = names ∧ ∀ w ∈ words, w ≠ "\x7d" := by
  induction names with
  | nil => exact (hn rfl).elim
  | cons n names ih =>
      have hw := h n (by simp)
      by_cases he : names = []
      · subst he
        refine ⟨[n], ?_, ?_, ?_⟩
        · rw [String.intercalate_singleton, Text.splitAt_append_of_not_mem (hw.not_mem (by simp)) rfl]
          rfl
        · simp [withoutCommas_of_isWord hw]
        · simp [hw.1]
      · obtain ⟨words, hs, hm, hb⟩ := ih he fun m hm => h m (List.mem_cons_of_mem n hm)
        have hi : String.intercalate ", " (n :: names) ++ " " ++ rest =
            (n ++ ",") ++ " " ++ (String.intercalate ", " names ++ " " ++ rest) := by
          have hc : ", " = "," ++ " " := by decide
          rw [String.intercalate_cons_of_ne_nil he, hc]
          simp only [String.append_assoc]
        refine ⟨(n ++ ",") :: words, ?_, ?_, ?_⟩
        · rw [hi, Text.splitAt_append_of_not_mem (by simp [hw.not_mem]) rfl, hs]
          rfl
        · rw [List.map_cons, withoutCommas_comma hw, hm]
        · have hc : n ++ "," ≠ "\x7d" := fun hc => by simpa using congrArg (·.toList.getLast?) hc
          simpa [hc] using hb

theorem imported_importLine {names : List String} (hn : names ≠ []) (h : ∀ n ∈ names, Text.IsWord n) (path : String) :
    imported (importLine names path) = names := by
  obtain ⟨words, hs, hm, hb⟩ := splitAt_intercalate hn h ("\x7d" ++ " " ++ ("from '" ++ path ++ "';"))
  have hl : importLine names path = "import" ++ " " ++ ("\x7b" ++ " " ++
      (String.intercalate ", " names ++ " " ++ ("\x7d" ++ " " ++ ("from '" ++ path ++ "';")))) := by
    have ho : "import \x7b " = "import" ++ " " ++ ("\x7b" ++ " ") := by decide
    have hc : " \x7d from '" = " " ++ ("\x7d" ++ " " ++ "from '") := by decide
    rw [importLine, ho, hc]
    simp only [String.append_assoc]
  rw [hl, imported, Text.splitAt_append_of_not_mem (by decide) rfl, Text.splitAt_append_of_not_mem (by decide) rfl, hs,
    Text.splitAt_append_of_not_mem (by decide) rfl]
  have ht : (words ++ "\x7d" :: Text.splitAt ' ' ("from '" ++ path ++ "';")).takeWhile (· != "\x7d") = words := by
    rw [List.takeWhile_append_of_pos (by simpa using hb)]
    simp
  dsimp only
  rw [if_pos ⟨rfl, rfl⟩, ht, hm]

/-! ### What a builder declares -/

theorem components_addImport {path component : String} {is : List Import} (h : ∀ i ∈ is, i.components ≠ []) :
    ∀ i ∈ addImport path component is, i.components ≠ [] := by
  induction is with
  | nil => simp [addImport]
  | cons i is ih =>
      obtain ⟨hi, his⟩ := List.forall_mem_cons.mp h
      rw [addImport]
      split
      · split
        · exact h
        · exact List.forall_mem_cons.mpr ⟨by simp, his⟩
      · exact List.forall_mem_cons.mpr ⟨hi, ih his⟩

theorem components_imports : ∀ i ∈ imports entries, i.components ≠ [] := by
  induction entries using List.reverseRecOn with
  | nil => simp [imports]
  | append_singleton entries e ih =>
      rw [imports_concat]
      exact components_addImport ih

theorem flatMap_imported_of_head? {ls : List String} (h : ∀ l ∈ ls, l.toList.head? ≠ some 'i') :
    ls.flatMap imported = [] :=
  List.flatMap_eq_nil_iff.mpr fun l hl => imported_of_head? (h l hl)

theorem flatMap_exported_of_head? {ls : List String} (h : ∀ l ∈ ls, l.toList.head? ≠ some 'e') :
    ls.flatMap exported = [] :=
  List.flatMap_eq_nil_iff.mpr fun l hl => exported_of_head? (h l hl)

theorem imported_imports (h : ∀ e ∈ entries, IsLegible e) :
    ((imports entries).map fun i => importLine i.components i.path).flatMap imported = importedFrom (imports entries) := by
  rw [List.flatMap_map, importedFrom]
  refine List.flatMap_congr fun i hi => imported_importLine (components_imports i hi) (fun c hc => ?_) _
  have hc : c ∈ importedFrom (imports entries) := List.mem_flatMap.mpr ⟨i, hi, hc⟩
  obtain ⟨e, he, rfl⟩ := List.mem_map.mp (mem_importedFrom_imports.mp hc)
  exact (h e he).component

theorem imported_functionLines (e : Entry) : (functionLines e).flatMap imported = [] :=
  flatMap_imported_of_head? (by simp [functionLines, head?_signatureLine, head?_callLine])

theorem imported_lines (h : ∀ e ∈ entries, IsLegible e) (moduleName libName : String) :
    (lines moduleName libName entries).flatMap imported = "AppRouterRegistry" :: importedFrom (imports entries) := by
  have hh : imported ("// Generated by auto-router-gen for module \x60" ++ moduleName ++ "\x60. Do not edit.") = [] :=
    imported_of_head? (by simp)
  have hb : imported (importLine ["AppRouterRegistry"] libName) = ["AppRouterRegistry"] :=
    imported_importLine (by simp) (by simp [Text.IsWord]) _
  have hr : (entries.map registerLine).flatMap imported = [] :=
    flatMap_imported_of_head? (List.forall_mem_map.mpr fun e _ => by simp [head?_registerLine])
  have ht : ["", "export function registerRoutes(): void \x7b"].flatMap imported = [] :=
    flatMap_imported_of_head? (by simp)
  have hc : ["\x7d"].flatMap imported = [] := flatMap_imported_of_head? (by simp)
  unfold lines
  simp only [List.flatMap_append, imported_imports h, List.flatMap_assoc, imported_functionLines, hr, ht, hc]
  simp [hh, hb]

theorem exported_functionLines (h : IsLegible e) : (functionLines e).flatMap exported = [e.buildFunction] := by
  have hs : exported (signatureLine e) = [e.buildFunction] := by
    unfold signatureLine
    rw [String.append_assoc]
    exact exported_eq (h.buildFunction.not_mem (by simp)) _
  have hc : exported (callLine e) = [] := exported_of_head? (by simp [head?_callLine])
  have h₀ : exported "" = [] := exported_of_head? (by simp)
  have h₁ : exported "@Builder" = [] := exported_of_head? (by simp)
  have h₂ : exported "\x7d" = [] := exported_of_head? (by simp)
  simp [functionLines, hs, hc, h₀, h₁, h₂]

theorem exported_lines (h : ∀ e ∈ entries, IsLegible e) (moduleName libName : String) :
    (lines moduleName libName entries).flatMap exported = entries.map Entry.buildFunction ++ ["registerRoutes"] := by
  have hh : ["// Generated by auto-router-gen for module \x60" ++ moduleName ++ "\x60. Do not edit.",
      importLine ["AppRouterRegistry"] libName].flatMap exported = [] :=
    flatMap_exported_of_head? (by simp [head?_importLine])
  have hi : ((imports entries).map fun i => importLine i.components i.path).flatMap exported = [] :=
    flatMap_exported_of_head? (List.forall_mem_map.mpr fun i _ => by simp [head?_importLine])
  have hf : (entries.flatMap functionLines).flatMap exported = entries.map Entry.buildFunction := by
    rw [List.flatMap_assoc, List.map_eq_flatMap]
    exact List.flatMap_congr fun e he => exported_functionLines (h e he)
  have hs : exported "export function registerRoutes(): void \x7b" = ["registerRoutes"] := by
    have hl : "export function registerRoutes(): void \x7b" =
        "export function " ++ "registerRoutes" ++ "(" ++ "): void \x7b" := by decide
    rw [hl]
    exact exported_eq (by decide) _
  have hr : (entries.map registerLine).flatMap exported = [] :=
    flatMap_exported_of_head? (List.forall_mem_map.mpr fun e _ => by simp [head?_registerLine])
  have h₀ : exported "" = [] := exported_of_head? (by simp)
  have hc : ["\x7d"].flatMap exported = [] := flatMap_exported_of_head? (by simp)
  unfold lines
  simp only [List.flatMap_append, hh, hi, hf, hr, hc]
  simp [h₀, hs]

theorem perm_addImport {path component : String} {is : List Import} (h : component ∉ importedFrom is) :
    (importedFrom (addImport path component is)).Perm (component :: importedFrom is) := by
  induction is with
  | nil => simp [addImport, importedFrom]
  | cons i is ih =>
      simp only [importedFrom, List.flatMap_cons, List.mem_append, not_or] at h ih ⊢
      rw [addImport]
      split
      · rw [if_neg (by simpa using h.1)]
        simp only [List.flatMap_cons, List.append_assoc, List.singleton_append]
        exact List.perm_middle
      · rw [List.flatMap_cons]
        exact ((ih h.2).append_left _).trans List.perm_middle

theorem perm_imports (h : (entries.map Entry.component).Nodup) :
    (importedFrom (imports entries)).Perm (entries.map Entry.component) := by
  induction entries using List.reverseRecOn with
  | nil => exact .refl _
  | append_singleton entries e ih =>
      rw [List.map_append, List.map_singleton] at h ⊢
      obtain ⟨hn, -, hd⟩ := List.nodup_append.mp h
      have hc : e.component ∉ importedFrom (imports entries) := fun hm =>
        hd _ (mem_importedFrom_imports.mp hm) _ (List.mem_singleton.mpr rfl) rfl
      rw [imports_concat]
      exact ((perm_addImport hc).trans ((ih hn).cons _)).trans (List.perm_append_singleton _ _).symm

theorem append_builder_ne {s : String} (h : s.toList.getLast? ≠ some 'r') (c : String) : c ++ "Builder" ≠ s := by
  rintro rfl
  exact h (by simp)

theorem append_builder_injective : Function.Injective fun c : String => c ++ "Builder" := by
  intro a b h
  simpa using h

/-- Once the components all differ, only a component can be called like something else. -/
theorem nodup_names_iff {cs : List String} (h : cs.Nodup) :
    (("AppRouterRegistry" :: cs) ++ (cs.map (· ++ "Builder") ++ ["registerRoutes"])).Nodup ↔
      "AppRouterRegistry" ∉ cs ∧ "registerRoutes" ∉ cs ∧ ∀ c ∈ cs, c ++ "Builder" ∉ cs := by
  have ha := append_builder_ne (s := "AppRouterRegistry") (by decide)
  have hr := append_builder_ne (s := "registerRoutes") (by decide)
  have hm : (cs.map (· ++ "Builder")).Nodup := List.Nodup.map append_builder_injective h
  simp only [List.cons_append, List.nodup_cons, List.nodup_append, List.mem_append, List.mem_map, List.mem_singleton]
  -- A build function ends in another letter than the two fixed names do; what is left is about the components.
  grind

theorem nodup_declared_iff (hb : ∀ e ∈ entries, e.buildFunction = e.component ++ "Builder")
    (h : ∀ e ∈ entries, IsLegible e) (moduleName libName : String) :
    (declared (lines moduleName libName entries)).Nodup ↔
      (entries.map Entry.component).Nodup ∧ "AppRouterRegistry" ∉ entries.map Entry.component ∧
        "registerRoutes" ∉ entries.map Entry.component ∧
        ∀ c ∈ entries.map Entry.component, c ++ "Builder" ∉ entries.map Entry.component := by
  have hf : entries.map Entry.buildFunction = (entries.map Entry.component).map (· ++ "Builder") := by
    rw [List.map_map]
    exact List.map_congr_left hb
  rw [declared, imported_lines h, exported_lines h, hf]
  by_cases hn : (entries.map Entry.component).Nodup
  · have hp := ((perm_imports hn).cons "AppRouterRegistry").append_right
      ((entries.map Entry.component).map (· ++ "Builder") ++ ["registerRoutes"])
    rw [hp.nodup_iff, nodup_names_iff hn]
    simp only [hn, true_and]
  · refine iff_of_false (fun hd => hn ?_) fun hd => hn hd.1
    have hd := (List.nodup_append.mp hd).2.1
    exact List.Nodup.of_map _ (List.nodup_append.mp hd).1

end Generation.Builder

open Generation Disk in
/-- The names in the builder of a generation are pairwise distinct exactly if its components are, and no
component is called like something else in the builder. -/
theorem declared_names_distinct_iff (o : Options) (base : Settings) (t t' : FileTree) (summary : Summary)
    (h : (generate o base).run.run t = (.ok summary, t')) (hscan : o.scanFiles ≠ [])
    (hm : '\n' ∉ o.moduleName.toList) (hl : '\n' ∉ o.libName.toList)
    (hs : ∀ e ∈ summary.entries, Builder.StaysInLine e) :
    let components := summary.entries.map Entry.component
    ∃ builder, WroteBuilder o summary.entries t t' builder ∧
      ((Builder.declared (Text.lines builder)).Nodup ↔
        components.Nodup ∧ "AppRouterRegistry" ∉ components ∧ "registerRoutes" ∉ components ∧
          ∀ c ∈ components, c ++ "Builder" ∉ components) := by
  intro components
  obtain ⟨-, ⟨he, -⟩ | ⟨-, -, hall⟩⟩ := runs_generate_iff.mp h
  · exact (hscan (List.isEmpty_iff.mp he)).elim
  · obtain ⟨updated, hfiles, rfl⟩ := runs_writeAll_iff.mp hall
    have hr := render_survey t o (o.settings base) o.moduleName o.libName
    refine ⟨_, wroteBuilder_of_runs hr hfiles, ?_⟩
    have hlegible := fun e he => isLegible_survey e he (hs e he)
    rw [Builder.lines_text hm hl hlegible]
    exact Builder.nodup_declared_iff (buildFunction_survey t o (o.settings base)) hlegible _ _

/-! ### Two modules -/

section Modules

open Generation FileTree

theorem shop_declares_distinct_names : ∃ t builder,
    (generate shopModule {}).run.run shop = (.ok shopSummary, t) ∧ shopModule.scanFiles ≠ [] ∧
      WroteBuilder shopModule shopRoutes shop t builder ∧ (Builder.declared (Text.lines builder)).Nodup := by
  obtain ⟨t, hrun⟩ := exists_run_shop
  obtain ⟨builder, hbuilder, hn⟩ := declared_names_distinct_iff shopModule {} shop t shopSummary hrun
    (by decide) (by decide) (by decide) staysInLine_shop
  exact ⟨t, builder, hrun, by decide, hbuilder, hn.mpr (by decide)⟩

def twinModule : Options := { homeModule with scanFiles := ["a/Home", "b/Home"] }

def twins : FileTree where
  home := []
  entries :=
    [(["a"], .directory), (["a", "Home.ets"], .file (.text "@AppRouter(\x7bname: 'a'\x7d) class Home \x7b\x7d")),
      (["b"], .directory), (["b", "Home.ets"], .file (.text "@AppRouter(\x7bname: 'b'\x7d) class Home \x7b\x7d"))]

def twinRoutes : List Generation.Entry :=
  [{ homeRoute with name := "a", importPath := "../a/Home" }, { homeRoute with name := "b", importPath := "../b/Home" }]

def twinsAfter : FileTree := ⟨[], twins.entries ++ homeFiles twinRoutes⟩

/-- The builder imports a component twice and has two functions of one name. -/
theorem twins_declared_twice :
    (generate twinModule {}).run.run twins =
      (.ok { homeSummary true with scannedFiles := 2, entries := twinRoutes }, twinsAfter) ∧
    ∃ builder, twinsAfter.readText twinModule.builderPath = .ok builder ∧
      Builder.declared (Text.lines builder) =
        ["AppRouterRegistry", "Home", "Home", "HomeBuilder", "HomeBuilder", "registerRoutes"] ∧
      ¬ (Builder.declared (Text.lines builder)).Nodup := by
  have hl : twinsAfter.locate twinModule.builderPath = .ok ["gen", "B.ets"] := ok_of_toOption (by decide)
  have hs : ∀ e ∈ twinRoutes, Builder.IsLegible e := by
    rintro e (_ | ⟨_, _ | ⟨_, ⟨⟩⟩⟩) <;>
      exact ⟨by decide, by decide, by simp [Text.IsWord, homeRoute], by simp [Text.IsWord, homeRoute], by decide⟩
  have hd : Builder.declared (Text.lines (Builder.text "m" "autorouter" twinRoutes)) =
      ["AppRouterRegistry", "Home", "Home", "HomeBuilder", "HomeBuilder", "registerRoutes"] := by
    rw [Builder.lines_text (by decide) (by decide) hs, Builder.declared, Builder.imported_lines hs,
      Builder.exported_lines hs]
    decide
  refine ⟨run_eq_of_entries (by decide +kernel), _, readText_of_locate hl rfl rfl, hd, ?_⟩
  rw [hd]
  decide

end Modules

end ArkRoutes
