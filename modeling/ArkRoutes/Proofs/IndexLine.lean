import ArkRoutes.Proofs.Writing

namespace ArkRoutes

namespace Text

def linesEnding (ends : Char → Bool) (s : String) : List String := (s.toList.splitOnP ends).map String.ofList

variable {ends : Char → Bool}

/-- A text without a line break that is written behind one is a line of its own. -/
theorem mem_linesEnding_append (he : ends '\n' = true) {line : String} (hl : ∀ c ∈ line.toList, ends c = false)
    (old : String) : line ∈ linesEnding ends (old ++ "\n" ++ line) := by
  have ht : (old ++ "\n" ++ line).toList = old.toList ++ '\n' :: line.toList := by simp
  rw [linesEnding, ht, List.splitOnP_append_cons _ _ he, List.splitOnP_eq_singleton hl]
  simp

end Text

namespace Generation.Index

open Disk FileTree

variable {t t' : FileTree} {path : Path} {line : String} {updated : Bool}

def extended (old line : String) : String := if Text.contains old line then old else old ++ "\n" ++ line

theorem prefix_extended (old line : String) : old.toList <+: (extended old line).toList := by
  rw [extended]
  split
  · exact List.prefix_rfl
  · rw [String.append_assoc, String.toList_append]
    exact List.prefix_append _ _

theorem contains_extended (old line : String) : Text.contains (extended old line) line = true := by
  rw [extended]
  split
  next h => exact h
  next => exact Text.contains_append _ _

/-- The file can be read afterwards, and the first run has added the line unless its text was there. -/
theorem readText_of_runs_ensure (hn : line ≠ "") (h : (ensure path line).Runs t updated t') :
    ∃ old, content t path = .ok old ∧ updated = !Text.contains old line ∧
      t'.readText path = .ok (extended old line) := by
  obtain ⟨old, ho, ⟨hc, rfl, rfl⟩ | ⟨hc, rfl, hw⟩⟩ := runs_ensure_iff.mp h
  · refine ⟨old, ho, by rw [hc]; rfl, ?_⟩
    rw [extended, if_pos hc]
    exact readText_of_contains hn ho hc
  · obtain ⟨place, hplace, rfl⟩ := writeText_eq_ok hw
    have hf : (t.insert place (.file (.text (old ++ "\n" ++ line)))).find? place =
      some (.file (.text (old ++ "\n" ++ line))) := find?_insert_self hplace.ne_nil
    refine ⟨old, ho, by rw [hc]; rfl, ?_⟩
    rw [extended, if_neg (by simp [hc])]
    exact readText_of_locate ((hplace.of_grows (hplace.grows _) hf).locate (by simp [hf])) hf rfl

theorem runs_ensure_of_contains {text : String} (h : t.readText path = .ok text)
    (hc : Text.contains text line = true) : (ensure path line).Runs t false t :=
  runs_ensure_iff.mpr ⟨text, content_of_readText h, .inl ⟨hc, rfl, rfl⟩⟩

theorem mem_linesEnding_extended {ends : Char → Bool} (he : ends '\n' = true)
    (hl : ∀ c ∈ line.toList, ends c = false) (old : String) :
    line ∈ Text.linesEnding ends (extended old line) ↔
      (Text.contains old line = true → line ∈ Text.linesEnding ends old) := by
  rw [extended]
  split
  next h => simp [h]
  next h => simp [h, Text.mem_linesEnding_append he hl old]

/-- Whatever else ends a line besides the line break: a run that succeeds leaves the old content at the
beginning, and a second one changes nothing. The line is a line of the file then, unless the old content
has its text, but not as a line. -/
theorem line_ensured (ends : Char → Bool) (he : ends '\n' = true) (d : Path) (hn : line ≠ "")
    (hl : ∀ c ∈ line.toList, ends c = false)
    (h : (ensure (d.child "Index.ets") line).run.run t = (.ok updated, t')) :
    ∃ old new, content t (d.child "Index.ets") = .ok old ∧ t'.readText (d.child "Index.ets") = .ok new ∧
      old.toList <+: new.toList ∧
      (line ∈ Text.linesEnding ends new ↔ (Text.contains old line = true → line ∈ Text.linesEnding ends old)) ∧
      (ensure (d.child "Index.ets") line).run.run t' = (.ok false, t') := by
  obtain ⟨old, ho, -, hr⟩ := readText_of_runs_ensure hn h
  exact ⟨old, extended old line, ho, hr, prefix_extended old line, mem_linesEnding_extended he hl old,
    runs_ensure_of_contains hr (contains_extended old line)⟩

/-! ### Two index files -/

def builderLine : String := "export * from './gen/RouterBuilder';"

theorem builderLine_unbroken : ∀ c ∈ builderLine.toList, (c == '\n') = false := by
  simp [builderLine]

def openIndex : FileTree := ⟨[], [(["Index.ets"], .file (.text "export \x7b Foo \x7d from './src/Foo';"))]⟩

def openIndexAfter : FileTree :=
  ⟨[], [(["Index.ets"], .file (.text "export \x7b Foo \x7d from './src/Foo';\nexport * from './gen/RouterBuilder';"))]⟩

theorem line_ensured_in_openIndex :
    (ensure (Path.child ⟨"."⟩ "Index.ets") builderLine).run.run openIndex = (.ok true, openIndexAfter) ∧
      (ensure (Path.child ⟨"."⟩ "Index.ets") builderLine).run.run openIndexAfter = (.ok false, openIndexAfter) ∧
      ∃ new, openIndexAfter.readText (Path.child ⟨"."⟩ "Index.ets") = .ok new ∧
        builderLine ∈ Text.linesEnding (· == '\n') new := by
  have hrun : (ensure (Path.child ⟨"."⟩ "Index.ets") builderLine).run.run openIndex = (.ok true, openIndexAfter) :=
    run_eq_of_entries (by decide +kernel)
  obtain ⟨old, new, ho, hnew, -, hline, hagain⟩ :=
    line_ensured (· == '\n') (by decide) ⟨"."⟩ (by decide) builderLine_unbroken hrun
  refine ⟨hrun, hagain, new, hnew, hline.mpr fun hc => ?_⟩
  have hold : (content openIndex (Path.child ⟨"."⟩ "Index.ets")).toOption.map (Text.contains · builderLine) = some false := by
    decide +kernel
  rw [ho] at hold
  simp [Except.toOption, hc] at hold

def commentedIndex : FileTree := ⟨[], [(["Index.ets"], .file (.text "// export * from './gen/RouterBuilder';"))]⟩

/-- The line is not added, and it is none of the lines. -/
theorem comment_hides_line :
    builderLine ≠ "" ∧ (∀ c ∈ builderLine.toList, (c == '\n') = false) ∧
      (ensure (Path.child ⟨"."⟩ "Index.ets") builderLine).run.run commentedIndex = (.ok false, commentedIndex) ∧
      ∃ text, commentedIndex.readText (Path.child ⟨"."⟩ "Index.ets") = .ok text ∧
        builderLine ∉ Text.linesEnding (· == '\n') text := by
  exact ⟨by decide, builderLine_unbroken, run_eq_of_entries (by decide +kernel), _, ok_of_toOption rfl, by decide +kernel⟩

end Generation.Index

end ArkRoutes
