import ArkRoutes.Proofs.BuilderText
import Mathlib.Data.List.Pairwise

namespace ArkRoutes

/-- What `xs` holds, each element once, by where it first stands in `xs`. -/
structure FirstSeen {α : Type} [BEq α] (xs ys : List α) : Prop where
  mem_iff : ∀ x, x ∈ ys ↔ x ∈ xs
  ascending : ys.Pairwise fun x y => xs.idxOf x < xs.idxOf y

section FirstSeen

variable {α : Type} [BEq α] [LawfulBEq α]

theorem eraseDups_concat (xs : List α) (x : α) :
    (xs ++ [x]).eraseDups = if xs.contains x then xs.eraseDups else xs.eraseDups ++ [x] := by
  rw [List.eraseDups_append, List.removeAll]
  by_cases h : x ∈ xs <;> simp [h, List.eraseDups_cons]

theorem firstSeen_eraseDups (xs : List α) : FirstSeen xs xs.eraseDups := by
  refine ⟨fun x => List.mem_eraseDups, ?_⟩
  induction xs using List.reverseRecOn with
  | nil => exact List.Pairwise.nil
  | append_singleton xs x ih =>
      have hold : xs.eraseDups.Pairwise fun a b => (xs ++ [x]).idxOf a < (xs ++ [x]).idxOf b := by
        refine ih.imp_of_mem fun {a b} ha hb h => ?_
        rwa [List.idxOf_append_of_mem (List.mem_eraseDups.mp ha), List.idxOf_append_of_mem (List.mem_eraseDups.mp hb)]
      rw [eraseDups_concat]
      split
      next h => exact hold
      next h =>
        have hx : x ∉ xs := by simpa using h
        refine List.pairwise_append.mpr ⟨hold, List.pairwise_singleton _ _, fun a ha b hb => ?_⟩
        obtain rfl := List.mem_singleton.mp hb
        have ha := List.mem_eraseDups.mp ha
        rw [List.idxOf_append_of_mem ha, List.idxOf_append_of_notMem hx]
        exact Nat.lt_add_right _ (List.idxOf_lt_length_of_mem ha)

end FirstSeen

namespace Generation.Builder

variable {entries : List Entry}

def componentsAt (path : String) (entries : List Entry) : List String :=
  (entries.filter (·.importPath = path)).map Entry.component

theorem componentsAt_concat (path : String) (entries : List Entry) (e : Entry) :
    componentsAt path (entries ++ [e]) =
      if e.importPath = path then componentsAt path entries ++ [e.component] else componentsAt path entries := by
  by_cases h : e.importPath = path <;> simp [componentsAt, List.filter_append, h]

/-- One more component for a path that has some already, or none and is not among the paths. -/
theorem addImport_map {path component : String} {paths : List String} {f g : String → List String}
    (hn : paths.Nodup) (hf : path ∉ paths → f path = []) (hg : ∀ p, p ≠ path → g p = f p)
    (hp : g path = if (f path).contains component then f path else f path ++ [component]) :
    addImport path component (paths.map fun p => ⟨p, f p⟩) =
      (if paths.contains path then paths else paths ++ [path]).map fun p => ⟨p, g p⟩ := by
  induction paths with
  | nil => simp [addImport, hp, hf]
  | cons p paths ih =>
      rw [List.nodup_cons] at hn
      rw [List.map_cons, addImport]
      by_cases h : p = path
      · subst h
        have hrest : (paths.map fun q => (⟨q, f q⟩ : Import)) = paths.map fun q => ⟨q, g q⟩ :=
          List.map_congr_left fun q hq => by rw [hg q fun he => hn.1 (he ▸ hq)]
        rw [if_pos rfl, hrest]
        simp only [List.contains_cons, BEq.rfl, Bool.true_or, if_true, List.map_cons, hp]
        split <;> rfl
      · have hc : (p :: paths).contains path = paths.contains path := by simp [Ne.symm h]
        rw [if_neg h, ih hn.2 fun hm => hf (by simp [Ne.symm h, hm]), hc, ← hg p h]
        split <;> rfl

theorem nodup_eraseDups {α : Type} [BEq α] [LawfulBEq α] (xs : List α) : xs.eraseDups.Nodup :=
  (firstSeen_eraseDups xs).ascending.imp fun h he => by simp [he] at h

theorem imports_eq (entries : List Entry) :
    imports entries =
      (entries.map Entry.importPath).eraseDups.map fun path => ⟨path, (componentsAt path entries).eraseDups⟩ := by
  induction entries using List.reverseRecOn with
  | nil => rfl
  | append_singleton entries e ih =>
      rw [imports_concat, ih, addImport_map (nodup_eraseDups _)
        (g := fun path => (componentsAt path (entries ++ [e])).eraseDups)]
      · rw [List.map_append, List.map_singleton, eraseDups_concat]
        simp
      · intro h
        rw [List.mem_eraseDups] at h
        have hc : componentsAt e.importPath entries = [] := by
          rw [componentsAt, List.map_eq_nil_iff, List.filter_eq_nil_iff]
          exact fun f hf he => h (List.mem_map.mpr ⟨f, hf, of_decide_eq_true he⟩)
        rw [hc]
        rfl
      · intro p hp
        rw [componentsAt_concat, if_neg (Ne.symm hp)]
      · rw [componentsAt_concat, if_pos rfl, eraseDups_concat]
        simp

theorem mem_componentsAt {e : Entry} (h : e ∈ entries) : e.component ∈ componentsAt e.importPath entries :=
  List.mem_map.mpr ⟨e, List.mem_filter.mpr ⟨h, decide_eq_true rfl⟩, rfl⟩

/-! ### The import statements of a builder -/

def importLines (ls : List String) : List String := ls.filter (Text.beginsWith "import ")

theorem importLines_of_head? {ls : List String} (h : ∀ l ∈ ls, l.toList.head? ≠ some 'i') : importLines ls = [] := by
  refine List.filter_eq_nil_iff.mpr fun l hl hb => h l hl ?_
  obtain ⟨rest, hr⟩ := Option.isSome_iff_exists.mp hb
  rw [Text.dropStart?_eq_some_iff.mp hr]
  rfl

theorem importLines_append (ls ms : List String) : importLines (ls ++ ms) = importLines ls ++ importLines ms :=
  List.filter_append ..

theorem importLines_map {α : Type} (names : α → List String) (path : α → String) (xs : List α) :
    importLines (xs.map fun x => importLine (names x) (path x)) = xs.map fun x => importLine (names x) (path x) := by
  refine List.filter_eq_self.mpr (List.forall_mem_map.mpr fun x _ => ?_)
  have hs : "import \x7b " = "import " ++ "\x7b " := by decide
  rw [importLine, hs]
  simp only [String.append_assoc, Text.beginsWith_append]

theorem importLines_lines (moduleName libName : String) (entries : List Entry) :
    importLines (lines moduleName libName entries) =
      importLine ["AppRouterRegistry"] libName :: (imports entries).map fun i => importLine i.components i.path := by
  have hh : importLines ["// Generated by auto-router-gen for module \x60" ++ moduleName ++ "\x60. Do not edit."] = [] :=
    importLines_of_head? (by simp)
  have hb : importLines [importLine ["AppRouterRegistry"] libName] = [importLine ["AppRouterRegistry"] libName] :=
    importLines_map (fun _ => ["AppRouterRegistry"]) id [libName]
  have hi := importLines_map Import.components Import.path (imports entries)
  have hfunction (e : Entry) : ∀ l ∈ functionLines e, l.toList.head? ≠ some 'i' := by
    simp [functionLines, head?_signatureLine, head?_callLine]
  have hf : importLines (entries.flatMap functionLines) = [] := by
    refine importLines_of_head? fun l hl => ?_
    obtain ⟨e, -, hl⟩ := List.mem_flatMap.mp hl
    exact hfunction e l hl
  have hr : importLines (["", "export function registerRoutes(): void \x7b"] ++ entries.map registerLine ++ ["\x7d"]) =
      [] := by
    refine importLines_of_head? ?_
    simp only [List.forall_mem_append, List.forall_mem_map, head?_registerLine]
    simp
  simp only [importLines_append] at hr
  unfold lines
  rw [← List.singleton_append]
  simp only [importLines_append, hh, hb, hi, hf, List.append_assoc] at hr ⊢
  rw [hr]
  simp

/-- Every path is imported from once and every component once from the path of its route, both in the order
in which the routes mention them. -/
theorem componentImports_of_render {moduleName libName : String} {entries : List Entry} {text : String}
    (h : render moduleName libName entries = .ok text) :
    text = String.join ((lines moduleName libName entries).map (· ++ "\n")) ∧
      importLines (lines moduleName libName entries) =
        importLine ["AppRouterRegistry"] libName :: (imports entries).map (fun i => importLine i.components i.path) ∧
      FirstSeen (entries.map Entry.importPath) ((imports entries).map Import.path) ∧
      (∀ i ∈ imports entries, FirstSeen (componentsAt i.path entries) i.components) ∧
      ∀ e ∈ entries,
        (∃ argument, functionLines e =
          ["", "@Builder", signatureLine e, "  " ++ e.component ++ "(" ++ argument ++ ")", "\x7d"]) ∧
        ∃ i ∈ imports entries, i.path = e.importPath ∧ e.component ∈ i.components := by
  have hpaths : (imports entries).map Import.path = (entries.map Entry.importPath).eraseDups := by
    rw [imports_eq, List.map_map]
    exact List.map_id _
  refine ⟨?_, importLines_lines moduleName libName entries, hpaths ▸ firstSeen_eraseDups _, fun i hi => ?_,
    fun e he => ⟨⟨_, rfl⟩, ⟨e.importPath, (componentsAt e.importPath entries).eraseDups⟩, ?_, rfl, ?_⟩⟩
  · rw [render] at h
    split at h
    · cases h
    · cases h
      rfl
  · rw [imports_eq] at hi
    obtain ⟨path, -, rfl⟩ := List.mem_map.mp hi
    exact firstSeen_eraseDups _
  · rw [imports_eq]
    exact List.mem_map.mpr ⟨_, List.mem_eraseDups.mpr (List.mem_map_of_mem he), rfl⟩
  · exact List.mem_eraseDups.mpr (mem_componentsAt he)

def crossing : List Entry :=
  [⟨"a", "A", "../p", "ABuilder", false, "", false⟩, ⟨"b", "B", "../q", "BBuilder", false, "", true⟩,
    ⟨"a2", "A", "../p", "ABuilder", false, "", true⟩, ⟨"c", "C", "../p", "CBuilder", true, "id", false⟩,
    ⟨"a3", "A", "../q", "ABuilder", false, "", false⟩, ⟨"b2", "B", "../q", "BBuilder", true, "id", false⟩]

theorem crossing_componentImports :
    ∃ text, render "m" "autorouter" crossing = .ok text ∧
      imports crossing = [⟨"../p", ["A", "C"]⟩, ⟨"../q", ["B", "A"]⟩] ∧
      importLines (lines "m" "autorouter" crossing) =
        ["import \x7b AppRouterRegistry \x7d from 'autorouter';", "import \x7b A, C \x7d from '../p';",
          "import \x7b B, A \x7d from '../q';"] ∧
      FirstSeen (crossing.map Entry.importPath) ["../p", "../q"] ∧
      FirstSeen (componentsAt "../q" crossing) ["B", "A"] := by
  have hu : crossing.find? (!·.isUsable) = none := by decide
  have hr : render "m" "autorouter" crossing = .ok (text "m" "autorouter" crossing) := by rw [render, hu]
  have hi : imports crossing = [⟨"../p", ["A", "C"]⟩, ⟨"../q", ["B", "A"]⟩] := by decide
  obtain ⟨-, hl, hp, hc, -⟩ := componentImports_of_render hr
  rw [hi] at hl hp hc
  exact ⟨_, hr, hi, hl.trans (by decide), hp, hc ⟨"../q", ["B", "A"]⟩ (by simp)⟩

end Generation.Builder

end ArkRoutes
