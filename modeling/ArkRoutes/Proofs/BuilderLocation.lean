import ArkRoutes.Proofs.ImportPaths

namespace ArkRoutes

theorem Text.withoutTrailingSlashes_append (s : String) :
    ∃ slashes : List Char, s = Text.withoutTrailingSlashes s ++ String.ofList slashes ∧ ∀ c ∈ slashes, c = '/' := by
  obtain ⟨slashes, hs, hc⟩ := eq_append_of_dropWhile_reverse (· == '/') s.toList
  refine ⟨slashes, ?_, by simpa using hc⟩
  rw [← String.toList_inj, String.toList_append, Text.withoutTrailingSlashes]
  simpa using hs

namespace Path

variable {d p q : Path} {x y z : String}

structure SameLocation (p q : Path) : Prop where
  normalForm : p.normalForm = q.normalForm
  way : p.way = q.way

def steps (x : String) : List Component := (segments ⟨x⟩).filterMap Component.ofInner?

theorem steps_slash (x y : String) : steps (x ++ "/" ++ y) = steps x ++ steps y := by
  have hs : (⟨(x ++ "/" ++ y : String)⟩ : Path) = ⟨(x : Bytes) ++ slash :: (y : Bytes)⟩ := by
    simp only [Text.Utf8.encode_append, List.append_assoc]
    rfl
  rw [steps, hs, segments_slash, List.filterMap_append]
  rfl

theorem steps_append_slashes (x : String) {slashes : List Char} (h : ∀ c ∈ slashes, c = '/') :
    steps (x ++ String.ofList slashes) = steps x := by
  induction slashes generalizing x with
  | nil => simp
  | cons c slashes ih =>
      obtain rfl : c = '/' := h c (by simp)
      have hx : x ++ String.ofList ('/' :: slashes) = x ++ "/" ++ "" ++ String.ofList slashes := by
        rw [← String.toList_inj]
        simp
      rw [hx, ih _ fun c hc => h c (by simp [hc]), steps_slash]
      exact List.append_nil _

theorem steps_withoutTrailingSlashes (x : String) : steps (Text.withoutTrailingSlashes x) = steps x := by
  obtain ⟨slashes, hx, hs⟩ := Text.withoutTrailingSlashes_append x
  conv_rhs => rw [hx]
  exact (steps_append_slashes _ hs).symm

theorem foldl_components_below {α : Type} {f : α → Component → α} (hf : ∀ a, f a .here = a)
    (hx : Path.isAbsolute ⟨x⟩ = false) (a : α) :
    (d.child x).components.foldl f a = (steps x).foldl f (d.components.foldl f a) := by
  rw [foldl_components_child hf hx, foldl_components hf hx]
  rfl

theorem sameLocation_child (hx : Path.isAbsolute ⟨x⟩ = false) (hy : Path.isAbsolute ⟨y⟩ = false)
    (hz : Path.isAbsolute ⟨z⟩ = false) (h : steps x = steps y ++ steps z) :
    SameLocation (d.child x) ((d.child y).child z) := by
  have hfold {α : Type} {f : α → Component → α} (hf : ∀ a, f a .here = a) (a : α) :
      (d.child x).components.foldl f a = ((d.child y).child z).components.foldl f a := by
    rw [foldl_components_below hf hx, foldl_components_below hf hz, foldl_components_below hf hy, h, List.foldl_append]
  constructor
  · rw [normalForm, hfold (fun _ => rfl), normalForm]
  · exact hfold (f := Way.step) (fun _ => rfl) {}

/-- No relative path has the normal form of an absolute one. -/
theorem isAbsolute_of_normalForm (h : p.normalForm = q.normalForm) : p.isAbsolute = q.isAbsolute := by
  have hr (w : Way) (rest : List Component) : w.folded ≠ .root :: rest := by
    obtain ⟨ups, names⟩ := w
    rcases Nat.mod_two_eq_zero_or_one ups with hu | hu <;> cases names <;> simp [Way.folded, hu]
  rw [normalForm_eq, normalForm_eq] at h
  cases hp : p.isAbsolute <;> cases hq : q.isAbsolute
  · rfl
  · exact (hr p.way _ (by simpa [hp, hq] using h)).elim
  · exact (hr q.way _ (by simpa [hp, hq] using h.symm)).elim
  · rfl

theorem components_slash (hx : Path.isAbsolute ⟨x⟩ = true) : Path.components ⟨("/" ++ x : String)⟩ = Path.components ⟨x⟩ := by
  obtain ⟨first, rest, hs⟩ := List.exists_cons_of_ne_nil (segments_ne_nil ⟨x⟩)
  obtain rfl : first = [] := by simpa [hs] using (isAbsolute_iff.mp hx).2
  have hs' : Path.segments ⟨("/" ++ x : String)⟩ = [] :: [] :: rest := by
    have h := segments_slash [] x
    rw [hs] at h
    exact h
  rw [components_of_segments hs, components_of_segments hs', isAbsolute_append_text (by decide), hx]
  rfl

end Path

namespace Generation

open ArkRoutes.Path

def Index.specifier? (line : String) : Option String :=
  (Text.afterLead? "export * from '" line).bind (Text.beforeTail? "';")

namespace Options

variable (o : Options)

/-- Where the route map says that the builder is. -/
def pagePath : Path := o.modulePath.child o.pageSourceFile

/-- Where the index file says that the builder is; the specifier has lost the ending of a source file. -/
def exportedPath? : Option Path :=
  (Index.specifier? o.indexLine).map fun x =>
    o.modulePath.child (if Text.endsWith ".ets" o.builderFile then x ++ ".ets" else x)

def exportedText : String := "./" ++ Text.withoutTrailingSlashes o.builderDir ++ "/" ++ o.builderFile

theorem specifier?_indexLine : Index.specifier? o.indexLine = some ("./" ++
    Text.withoutTrailingSlashes o.builderDir ++ "/" ++ (Text.beforeTail? ".ets" o.builderFile).getD o.builderFile) := by
  have hl : "export * from './" = "export * from '" ++ "./" := by decide
  unfold indexLine
  simp only [hl, String.append_assoc]
  rw [Index.specifier?, Text.afterLead?_append, Option.bind_some]
  simp only [← String.append_assoc]
  exact Text.beforeTail?_append _ _

theorem exportedPath?_eq : o.exportedPath? = some (o.modulePath.child o.exportedText) := by
  rw [exportedPath?, specifier?_indexLine, Option.map_some, exportedText]
  cases hb : Text.beforeTail? ".ets" o.builderFile with
  | none =>
      have he : Text.endsWith ".ets" o.builderFile = false := by
        simpa [Text.beforeTail?, Text.endsWith] using hb
      simp [he]
  | some stem =>
      have hf := Text.append_of_beforeTail? hb
      have he : Text.endsWith ".ets" o.builderFile = true := by rw [← hf, Text.endsWith_append]
      rw [if_pos he, Option.getD_some, String.append_assoc, hf]

theorem steps_pageSourceFile : steps o.pageSourceFile = steps o.builderDir ++ steps o.builderFile := by
  rw [pageSourceFile, steps_slash, steps_withoutTrailingSlashes]

theorem steps_exportedText : steps o.exportedText = steps o.builderDir ++ steps o.builderFile := by
  have hd : "./" = "." ++ "/" := by decide
  have ht : o.exportedText = "." ++ "/" ++ o.pageSourceFile := by
    simp only [exportedText, pageSourceFile, hd, String.append_assoc]
  rw [ht, steps_slash, steps_pageSourceFile]
  rfl

theorem isAbsolute_exportedText : Path.isAbsolute ⟨o.exportedText⟩ = false := by
  rw [exportedText, String.append_assoc, String.append_assoc, isAbsolute_append_text (by decide)]
  decide

variable {o}

theorem isAbsolute_pageSourceFile (hd : Path.isAbsolute ⟨o.builderDir⟩ = false) :
    Path.isAbsolute ⟨o.pageSourceFile⟩ = true ↔ o.builderDir = "" := by
  obtain ⟨slashes, hs, hc⟩ := Text.withoutTrailingSlashes_append o.builderDir
  rw [pageSourceFile, String.append_assoc]
  by_cases ht : Text.withoutTrailingSlashes o.builderDir = ""
  · rw [ht, String.empty_append] at hs ⊢
    rw [isAbsolute_append_text (by decide)]
    cases slashes with
    | nil => exact iff_of_true (by decide) hs
    | cons c slashes =>
        obtain rfl : c = '/' := hc c (by simp)
        have hlead : String.ofList ('/' :: slashes) = "/" ++ String.ofList slashes := by
          rw [← String.toList_inj]
          simp
        rw [hs, hlead, isAbsolute_append_text (by decide)] at hd
        cases hd
  · rw [hs, isAbsolute_append_text ht] at hd
    have hne : o.builderDir ≠ "" := by
      rw [hs]
      simp [ht]
    rw [isAbsolute_append_text ht, hd]
    simp [hne]

theorem sameLocation_pagePath (hd : Path.isAbsolute ⟨o.builderDir⟩ = false) (hn : o.builderDir ≠ "")
    (hf : Path.isAbsolute ⟨o.builderFile⟩ = false) : o.pagePath.SameLocation o.builderPath := by
  refine sameLocation_child ?_ hd hf o.steps_pageSourceFile
  rw [Bool.eq_false_iff, Ne, isAbsolute_pageSourceFile hd]
  exact hn

theorem sameLocation_exported (hd : Path.isAbsolute ⟨o.builderDir⟩ = false)
    (hf : Path.isAbsolute ⟨o.builderFile⟩ = false) :
    (o.modulePath.child o.exportedText).SameLocation o.builderPath :=
  sameLocation_child o.isAbsolute_exportedText hd hf o.steps_exportedText

theorem isAbsolute_builderPath (hm : o.modulePath.isAbsolute = false) (hd : Path.isAbsolute ⟨o.builderDir⟩ = false) :
    o.builderPath.isAbsolute = Path.isAbsolute ⟨o.builderFile⟩ := by
  cases hf : Path.isAbsolute ⟨o.builderFile⟩ with
  | true => rw [builderPath, child_of_isAbsolute hf, hf]
  | false => rw [builderPath, isAbsolute_below hf, builderDirectory, isAbsolute_below hd, hm]

/-- Without a directory, the place inside the module is an absolute path. -/
theorem normalForm_pagePath_iff (hm : o.modulePath.isAbsolute = false) (hd : Path.isAbsolute ⟨o.builderDir⟩ = false) :
    o.pagePath.normalForm = o.builderPath.normalForm ↔
      (o.builderDir = "" ↔ Path.isAbsolute ⟨o.builderFile⟩ = true) := by
  by_cases hn : o.builderDir = ""
  · have hp : o.pagePath = ⟨("/" ++ o.builderFile : String)⟩ := by
      have ht : o.pageSourceFile = "/" ++ o.builderFile := by
        rw [pageSourceFile, hn]
        rfl
      rw [pagePath, child_of_isAbsolute ((isAbsolute_pageSourceFile hd).mpr hn), ht]
    rw [iff_true_left hn]
    constructor
    · intro h
      rw [← isAbsolute_builderPath hm hd, ← isAbsolute_of_normalForm h, hp, isAbsolute_append_text (by decide)]
      decide
    · intro hf
      rw [hp, builderPath, child_of_isAbsolute hf, normalForm, components_slash hf, normalForm]
  · have hp : Path.isAbsolute ⟨o.pageSourceFile⟩ = false := by
      rw [Bool.eq_false_iff, Ne, isAbsolute_pageSourceFile hd]
      exact hn
    rw [iff_false_left hn, Bool.not_eq_true]
    refine ⟨fun h => ?_, fun hf => (sameLocation_pagePath hd hn hf).normalForm⟩
    rw [← isAbsolute_builderPath hm hd, ← isAbsolute_of_normalForm h, pagePath, isAbsolute_below hp, hm]

theorem normalForm_exported_iff (hm : o.modulePath.isAbsolute = false) (hd : Path.isAbsolute ⟨o.builderDir⟩ = false) :
    (o.modulePath.child o.exportedText).normalForm = o.builderPath.normalForm ↔
      Path.isAbsolute ⟨o.builderFile⟩ = false := by
  refine ⟨fun h => ?_, fun hf => (sameLocation_exported hd hf).normalForm⟩
  rw [← isAbsolute_builderPath hm hd, ← isAbsolute_of_normalForm h, isAbsolute_below o.isAbsolute_exportedText, hm]

end Options

/-- With a relative directory, the specifier in the index file leads to the builder if its file is named by a
relative path, and so does the place in the route map if there is a directory at all. In a module with a
relative path nothing else will do, but for the place of a file with an absolute path and no directory. -/
theorem builder_location (o : Options) (hd : Path.isAbsolute ⟨o.builderDir⟩ = false) :
    ∃ exported, o.exportedPath? = some exported ∧
      (Path.isAbsolute ⟨o.builderFile⟩ = false → exported.SameLocation o.builderPath) ∧
      (Path.isAbsolute ⟨o.builderFile⟩ = false → o.builderDir ≠ "" → o.pagePath.SameLocation o.builderPath) ∧
      (o.modulePath.isAbsolute = false →
        (exported.normalForm = o.builderPath.normalForm ↔ Path.isAbsolute ⟨o.builderFile⟩ = false) ∧
        (o.pagePath.normalForm = o.builderPath.normalForm ↔
          (o.builderDir = "" ↔ Path.isAbsolute ⟨o.builderFile⟩ = true))) :=
  ⟨_, o.exportedPath?_eq, Options.sameLocation_exported hd, fun hf hn => Options.sameLocation_pagePath hd hn hf,
    fun hm => ⟨Options.normalForm_exported_iff hm hd, Options.normalForm_pagePath_iff hm hd⟩⟩

def slashedModule : Options :=
  { moduleName := "m", modulePath := ⟨"../feature"⟩, builderDir := "src//gen//", builderFile := "B.ets" }

theorem slashedModule_builder_location :
    slashedModule.fault? = none ∧ Path.isAbsolute ⟨slashedModule.builderDir⟩ = false ∧
      slashedModule.builderPath = ⟨"../feature/src//gen//B.ets"⟩ ∧
      slashedModule.exportedPath? = some ⟨"../feature/./src//gen/B.ets"⟩ ∧
      SameLocation ⟨"../feature/./src//gen/B.ets"⟩ slashedModule.builderPath ∧
      slashedModule.pagePath = ⟨"../feature/src//gen/B.ets"⟩ ∧
      slashedModule.pagePath.SameLocation slashedModule.builderPath := by
  have hd : Path.isAbsolute ⟨slashedModule.builderDir⟩ = false := by decide
  have hf : Path.isAbsolute ⟨slashedModule.builderFile⟩ = false := by decide
  have hx : slashedModule.exportedPath? = some ⟨"../feature/./src//gen/B.ets"⟩ := by decide +kernel
  obtain ⟨exported, he, hexported, hpage, -⟩ := builder_location slashedModule hd
  obtain rfl := Option.some.inj (he.symm.trans hx)
  exact ⟨by decide, hd, by decide, hx, hexported hf, by decide, hpage hf (by decide)⟩

def bareModule : Options := { moduleName := "m", builderDir := "", builderFile := "B.ets" }

def awayModule : Options := { moduleName := "m", builderDir := "gen", builderFile := "/B.ets" }

/-- Without a directory the place in the route map begins with a slash, and a builder with an absolute path
is written where neither file says. -/
theorem builder_location_differs :
    (bareModule.fault? = none ∧ Path.isAbsolute ⟨bareModule.builderDir⟩ = false ∧
      bareModule.pagePath = ⟨"/B.ets"⟩ ∧ bareModule.builderPath = ⟨"./B.ets"⟩ ∧
      bareModule.pagePath.normalForm ≠ bareModule.builderPath.normalForm) ∧
    awayModule.fault? = none ∧ Path.isAbsolute ⟨awayModule.builderDir⟩ = false ∧
      awayModule.pagePath = ⟨"./gen//B.ets"⟩ ∧ awayModule.exportedPath? = some ⟨"././gen//B.ets"⟩ ∧
      awayModule.builderPath = ⟨"/B.ets"⟩ ∧
      awayModule.pagePath.normalForm ≠ awayModule.builderPath.normalForm ∧
      Path.normalForm ⟨"././gen//B.ets"⟩ ≠ awayModule.builderPath.normalForm := by
  refine ⟨⟨by decide, by decide, by decide, by decide, by decide⟩, by decide, by decide, by decide, ?_, by decide,
    by decide, by decide⟩
  decide +kernel

end Generation

end ArkRoutes
