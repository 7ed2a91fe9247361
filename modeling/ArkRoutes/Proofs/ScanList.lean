import ArkRoutes.CommandLine
import ArkRoutes.Proofs.Separation

namespace ArkRoutes

namespace Generation.Options

variable {files : List String} {file text : String}

/-! ### Entries of a text -/

def IsEntry (text file : String) : Prop :=
  ∃ fields, Text.Separated ',' text fields ∧ ∃ field ∈ fields, Text.Trims field file ∧ Text.isBlankText file = false

theorem isBlankText_iff_of_trims {field : String} (h : Text.Trims field file) :
    Text.isBlankText file = true ↔ file = "" := by
  rw [Text.isBlankText, List.all_eq_true, ← String.toList_inj]
  constructor
  · intro hb
    cases hf : file.toList with
    | nil => rfl
    | cons c cs =>
        have hc := h.head c (by simp [hf])
        rw [hb c (by simp [hf])] at hc
        cases hc
  · intro he
    simp [he]

theorem mem_listed_iff : file ∈ listed text ↔ IsEntry text file := by
  rw [listed, List.mem_filter, List.mem_map]
  constructor
  · rintro ⟨⟨field, hf, ht⟩, hne⟩
    have ht := Text.trim_eq_iff.mp ht
    refine ⟨_, Text.splitAt_eq_iff.mp rfl, field, hf, ht, ?_⟩
    rw [Bool.eq_false_iff, Ne, isBlankText_iff_of_trims ht]
    simpa using hne
  · rintro ⟨fields, hs, field, hf, ht, hb⟩
    rw [Bool.eq_false_iff, Ne, isBlankText_iff_of_trims ht] at hb
    rw [Text.splitAt_eq_iff.mpr hs]
    exact ⟨⟨field, hf, Text.trim_eq_iff.mpr ht⟩, by simpa using hb⟩

theorem listed_append (r₁ r₂ : String) : listed (r₁ ++ "," ++ r₂) = listed r₁ ++ listed r₂ := by
  rw [listed, Text.splitAt_append rfl, List.map_append, List.filter_append, listed, listed]

theorem listed_intercalate (texts : List String) : listed (String.intercalate "," texts) = texts.flatMap listed := by
  induction texts with
  | nil => decide
  | cons r texts ih =>
      cases texts with
      | nil => simp
      | cons r' texts =>
          rw [String.intercalate_cons_cons, listed_append, ih, ← List.flatMap_cons]

/-! ### Adding to the list -/

/-- A run over some files puts those that the list does not have behind it, and each of them once. -/
theorem exists_foldl_addScanFile (files given : List String) :
    ∃ added, given.foldl addScanFile files = files ++ added ∧ added.Nodup ∧
      ∀ file, file ∈ added ↔ file ∈ given ∧ file ∉ files := by
  induction given generalizing files with
  | nil => exact ⟨[], by simp⟩
  | cons first given ih =>
      rw [List.foldl_cons, addScanFile]
      by_cases hf : first ∈ files
      · obtain ⟨added, ha, hd, hm⟩ := ih files
        refine ⟨added, by simp [hf, ha], hd, fun file => ?_⟩
        rw [hm, List.mem_cons, or_and_right, or_iff_right]
        rintro ⟨rfl, hn⟩
        exact hn hf
      · obtain ⟨added, ha, hd, hm⟩ := ih (files ++ [first])
        refine ⟨first :: added, by simp [hf, ha], ?_, fun file => ?_⟩
        · simp [hm, hd]
        · rw [List.mem_cons, hm, List.mem_cons, List.mem_append, List.mem_singleton]
          by_cases he : file = first
          · simp [he, hf]
          · simp [he]

theorem foldl_addScanFile_of_subset {given : List String} (h : given ⊆ files) : given.foldl addScanFile files = files := by
  obtain ⟨added, ha, -, hm⟩ := exists_foldl_addScanFile files given
  have hn : added = [] := by
    refine List.eq_nil_iff_forall_not_mem.mpr fun file hf => ?_
    obtain ⟨hg, hn⟩ := (hm file).mp hf
    exact hn (h hg)
  rw [ha, hn, List.append_nil]

theorem mem_foldl_addScanFile {given : List String} :
    file ∈ given.foldl addScanFile files ↔ file ∈ files ∨ file ∈ given := by
  obtain ⟨added, ha, -, hm⟩ := exists_foldl_addScanFile files given
  rw [ha, List.mem_append, hm]
  by_cases hf : file ∈ files <;> simp [hf]

theorem withScanFiles_append (o : Options) (r₁ r₂ : String) :
    (o.withScanFiles r₁).withScanFiles r₂ = o.withScanFiles (r₁ ++ "," ++ r₂) := by
  rw [withScanFiles, withScanFiles, withScanFiles, listed_append, List.foldl_append]

theorem withScanFiles_again (o : Options) (r : String) : (o.withScanFiles r).withScanFiles r = o.withScanFiles r := by
  have hs : listed r ⊆ (o.withScanFiles r).scanFiles := fun file hf => mem_foldl_addScanFile.mpr (.inr hf)
  rw [withScanFiles, foldl_addScanFile_of_subset hs]

/-- One text after the other adds what both add with a comma between them, and a text adds nothing twice. The
list then holds what it held and the entries of the text; those that are new stand behind the old ones, each
of them once, and nothing else in the options is changed. -/
theorem withScanFiles_as_union (o : Options) (r₁ r₂ r : String) :
    (o.withScanFiles r₁).withScanFiles r₂ = o.withScanFiles (r₁ ++ "," ++ r₂) ∧
      (o.withScanFiles r).withScanFiles r = o.withScanFiles r ∧
      (∀ file, file ∈ (o.withScanFiles r).scanFiles ↔ file ∈ o.scanFiles ∨ IsEntry r file) ∧
      ∃ added, o.withScanFiles r = { o with scanFiles := o.scanFiles ++ added } ∧ added.Nodup ∧
        ∀ file, file ∈ added ↔ IsEntry r file ∧ file ∉ o.scanFiles := by
  refine ⟨withScanFiles_append o r₁ r₂, withScanFiles_again o r, fun file => ?_, ?_⟩
  · rw [withScanFiles, mem_foldl_addScanFile, mem_listed_iff]
  · obtain ⟨added, ha, hd, hm⟩ := exists_foldl_addScanFile o.scanFiles (listed r)
    refine ⟨added, by rw [withScanFiles, ha], hd, fun file => ?_⟩
    rw [hm, mem_listed_iff]

example : ({ scanFiles := ["pages/A"] } : Options).withScanFiles " pages/A ,pages/B, \t,,pages/C ,pages/B" =
    { scanFiles := ["pages/A", "pages/B", "pages/C"] } := by decide

end Generation.Options

namespace CommandLine

open Generation Generation.Options

/-- The files of the switches and of the environment are added in this order, however they are grouped. -/
theorem scanFiles_options (a : Arguments) (env : EnvFile.Variables) (o : Options) :
    (options a env o).scanFiles =
      ((a.values .scanFile ++ (env.lookup scanFilesVariable).toList).flatMap listed).foldl addScanFile o.scanFiles := by
  rw [options]
  cases env.lookup scanFilesVariable with
  | none => simp [withScanFiles, listed_intercalate]
  | some text => simp [withScanFiles, listed_intercalate]

end CommandLine

end ArkRoutes
