import ArkRoutes.Generation.Generate
import ArkRoutes.Proofs.Growth
import Mathlib.Data.List.Basic

namespace ArkRoutes

namespace Text

theorem occursIn_append (part before : List Char) : occursIn part (before ++ part) = true := by
  induction before with
  | nil =>
      cases part with
      | nil => rfl
      | cons c part =>
          have hd : dropStart? (c :: part) (c :: part) = some [] := dropStart?_eq_some_iff.mpr (by simp)
          simp [occursIn, hd]
  | cons c before ih => simp [occursIn, ih]

theorem contains_append (old line : String) : contains (old ++ line) line = true := by
  rw [contains, String.toList_append]
  exact occursIn_append _ _

end Text

namespace FileTree

variable {t u : FileTree} {p d : Path} {place : Place} {name text : String} {content : Content}

theorem segments_child_name (hn : name ≠ "") (hs : Path.segments ⟨name⟩ = [(name : Bytes)]) :
    ∃ before, (d.child name).segments = before ++ [(name : Bytes)] := by
  have ha : Path.isAbsolute ⟨name⟩ = false := by
    rw [Bool.eq_false_iff, Ne, Path.isAbsolute_iff, hs]
    simp [hn]
  by_cases hd : d.text = []
  · exact ⟨[], by rw [Path.child_of_text_eq_nil hd, hs]; rfl⟩
  · obtain ⟨l, -, -, hc⟩ := Path.segments_child ha hd
    exact ⟨l, by rw [hc, hs]⟩

theorem endsWithSlash_child_name (hn : name ≠ "") (hs : Path.segments ⟨name⟩ = [(name : Bytes)]) :
    (d.child name).endsWithSlash = false := by
  rw [Bool.eq_false_iff]
  intro he
  obtain ⟨e, -, hslash⟩ := Path.segments_of_endsWithSlash he
  obtain ⟨before, hc⟩ := segments_child_name (d := d) hn hs
  have hlast := congrArg List.getLast? (hc.symm.trans hslash)
  simp [hn] at hlast

theorem Writable.eq_concat (h : t.Writable (d.child name) place) (hn : name ≠ "")
    (hs : Path.segments ⟨name⟩ = [(name : Bytes)]) : ∃ here, place = here ++ [(name : Bytes)] := by
  obtain ⟨here, last, hnames, -, rfl⟩ := h.names
  obtain ⟨before, blanks, hw, hb, -⟩ := hnames.walk
  obtain ⟨before', hc⟩ := segments_child_name (d := d) hn hs
  have hlast := congrArg List.getLast? (hw.symm.trans hc)
  rcases List.eq_nil_or_concat blanks with rfl | ⟨blanks, x, rfl⟩
  · have hl : last = name := by simpa using hlast
    exact ⟨here, by rw [hl]⟩
  · have hx : x = name := by
      rw [List.concat_eq_append, ← List.cons_append, ← List.append_assoc, List.getLast?_concat,
        List.getLast?_concat] at hlast
      exact Option.some.inj hlast
    have he : (name : Bytes) = [] := hx.symm.trans (hb x (by simp))
    exact (hn (Text.Utf8.encode_eq_nil_iff.mp he)).elim

theorem writable_of_locate (hn : name ≠ "") (hdot : isDotted name = false)
    (hs : Path.segments ⟨name⟩ = [(name : Bytes)]) (hl : t.locate (d.child name) = .ok place) (hf : t.find? place = some (.file content)) :
    t.Writable (d.child name) place := by
  have hne := text_ne_of_locate hl
  obtain ⟨before, hc⟩ := segments_child_name (d := d) hn hs
  rw [locate_of_text_ne hne, hc, follow_append] at hl
  obtain ⟨here, hw, hrest⟩ := ok_of_bind hl
  rw [follow_cons] at hrest
  obtain ⟨next, hstep, hnext⟩ := ok_of_bind hrest
  cases hnext
  refine ⟨⟨here, name, ⟨hne, by simpa using hn, (step_cases hstep).1, before, [], hc, by simp, hw⟩, hdot, ?_⟩,
    endsWithSlash_child_name hn hs, by simp [hf]⟩
  obtain ⟨-, ⟨hi, -⟩ | ⟨hu, -⟩ | ⟨-, -, -, rfl⟩⟩ := step_cases hstep
  · have hd : (name : Bytes) = "." := by simpa [Path.isIdle, hn] using hi
    simp [hd, isDotted] at hdot
  · simp [hu, isDotted] at hdot
  · rfl

theorem readText_of_locate (hl : t.locate p = .ok place) (hf : t.find? place = some (.file content))
    (hd : content.decode = .ok text) : t.readText p = .ok text := by
  simp [readText, read, entry, hl, hf, hd, bind, Except.bind]

theorem file_of_readText (h : t.readText p = .ok text) : ∃ place content, t.locate p = .ok place ∧
    t.find? place = some (.file content) ∧ content.decode = .ok text := by
  obtain ⟨content, hr, h⟩ := ok_of_bind h
  obtain ⟨place, hl, hf⟩ := entry_eq_ok (entry_of_read hr)
  refine ⟨place, content, hl, hf, ?_⟩
  cases hd : content.decode with
  | error fault => simp [hd] at h
  | ok text' => simpa [hd] using h

end FileTree

namespace Generation

open Disk FileTree

variable {t t' u : FileTree}

/-! ### The three files -/

def prepare (directory? : Option Path) : Disk Error Unit :=
  match directory? with
  | some directory => Disk.about directory (Disk.makeDirectories directory)
  | none => pure ()

def deposit (directory? : Option Path) (path : Path) (text : String) : Disk Error Unit := do
  prepare directory?
  Disk.about path (Disk.writeText path text)

theorem writeBuilder_eq (o : Options) {entries : List Entry} {text : String}
    (h : Builder.render o.moduleName o.libName entries = .ok text) :
    writeBuilder o entries = deposit o.builderPath.parent? o.builderPath text := by
  have hl : (liftM (Except.ok text : Except Error String) : Disk Error String) = pure text := rfl
  rw [writeBuilder, h, hl, pure_bind, deposit]
  cases o.builderPath.parent? <;> rfl

theorem writeRouteMap_eq (o : Options) (entries : List Entry) :
    writeRouteMap o entries = deposit (some o.routeMapDirectory) o.routeMapPath
      (RouteMap.text (entries.map (RouteMap.Item.ofEntry o.moduleName o.pageSourceFile))) := rfl

/-- A file that was deposited at a place, so that it can be deposited there again. -/
structure Deposited (t : FileTree) (directory? : Option Path) (path : Path) (place : Place) : Prop where
  directory : ∀ d ∈ directory?, d.text = [] ∨ t.isDirectory d = true
  writable : t.Writable path place
  file : ∃ content, t.find? place = some (.file content)

theorem Deposited.of_grows {directory? : Option Path} {path : Path} {place : Place}
    (h : Deposited t directory? path place) (hg : t.Grows u) : Deposited u directory? path place := by
  obtain ⟨content, hf⟩ := h.file
  obtain ⟨content', hf'⟩ := hg.file place content hf
  refine ⟨fun d hd => ?_, h.writable.of_grows hg hf', content', hf'⟩
  rcases h.directory d hd with he | hdir
  · exact .inl he
  · exact .inr (hg.isDirectory hdir)

theorem runs_deposit {directory? : Option Path} {path : Path} {text : String} {x : Unit}
    (h : (deposit directory? path text).Runs t x t') : ∃ place, Deposited t' directory? path place ∧ t.Grows t' ∧
      t'.find? place = some (.file (.text text)) ∧
        ∀ other e, other ≠ place → t.find? other = some e → t'.find? other = some e := by
  rw [deposit] at h
  obtain ⟨_, u, hmake, hwrite⟩ := runs_bind.mp h
  have hu : t.Extends u ∧ ∀ d ∈ directory?, d.text = [] ∨ u.isDirectory d = true := by
    cases directory? with
    | none =>
        obtain ⟨-, rfl⟩ := runs_pure.mp hmake
        exact ⟨.refl _, by simp⟩
    | some d => simpa using extends_makeDirectories (runs_about.mp hmake)
  obtain ⟨place, hw, rfl⟩ := writeText_eq_ok (runs_writeText.mp (runs_about.mp hwrite))
  have hg := hw.grows text
  have hf : (u.insert place (.file (.text text))).find? place = some (.file (.text text)) :=
    find?_insert_self hw.ne_nil
  refine ⟨place, ⟨fun d hd => ?_, hw.of_grows hg hf, _, hf⟩, hu.1.grows.trans hg, hf, ?_⟩
  · rcases hu.2 d hd with he | hdir
    · exact .inl he
    · exact .inr (hg.isDirectory hdir)
  · intro other e ho he
    rw [find?_insert_of_ne hw.ne_nil ho]
    exact hu.1.kept other e he

theorem runs_ensure_iff {path : Path} {line : String} {updated : Bool} :
    (Index.ensure path line).Runs t updated t' ↔ ∃ old, Index.content t path = .ok old ∧
      ((Text.contains old line = true ∧ updated = false ∧ t' = t) ∨
        (Text.contains old line = false ∧ updated = true ∧ t.writeText path (old ++ "\n" ++ line) = .ok t')) := by
  rw [Index.ensure]
  constructor
  · intro h
    obtain ⟨v, w, hget, hrest⟩ := runs_bind.mp h
    obtain ⟨rfl, rfl⟩ := runs_get.mp hget
    dsimp only at hrest
    split at hrest
    next old hold =>
      rw [pure_bind] at hrest
      refine ⟨old, hold, ?_⟩
      split at hrest
      next hc =>
        obtain ⟨rfl, rfl⟩ := runs_pure.mp hrest
        exact .inl ⟨hc, rfl, rfl⟩
      next hc =>
        obtain ⟨_, u, hwrite, hpure⟩ := runs_bind.mp hrest
        obtain ⟨rfl, rfl⟩ := runs_pure.mp hpure
        exact .inr ⟨by simpa using hc, rfl, runs_writeText.mp (runs_about.mp hwrite)⟩
    next =>
      obtain ⟨_, _, hthrow, -⟩ := runs_bind.mp hrest
      exact (runs_throw hthrow).elim
  · rintro ⟨old, hold, h⟩
    refine runs_bind.mpr ⟨t, t, runs_get.mpr ⟨rfl, rfl⟩, ?_⟩
    dsimp only
    rw [hold]
    dsimp only
    rw [pure_bind]
    obtain ⟨hc, rfl, rfl⟩ | ⟨hc, rfl, hw⟩ := h
    · rw [if_pos hc]
      exact runs_pure.mpr ⟨rfl, rfl⟩
    · rw [if_neg (by simp [hc])]
      exact runs_bind.mpr ⟨(), t', runs_about.mpr (runs_writeText.mpr hw), runs_pure.mpr ⟨rfl, rfl⟩⟩

theorem content_of_readText {path : Path} {text : String} (h : t.readText path = .ok text) :
    Index.content t path = .ok text := by
  simp [Index.content, h]

theorem readText_of_contains {path : Path} {old line : String} (hn : line ≠ "")
    (ho : Index.content t path = .ok old) (hc : Text.contains old line = true) : t.readText path = .ok old := by
  rw [Index.content] at ho
  split at ho
  next =>
    cases ho
    have he : line = "" := by simpa [Text.contains, Text.occursIn] using hc
    exact (hn he).elim
  next => exact ho

/-- The index file has its line in the end, and no other file has changed. -/
theorem runs_ensure {d : Path} {line : String} {updated : Bool} (hn : line ≠ "")
    (h : (Index.ensure (d.child "Index.ets") line).Runs t updated t') : ∃ place content text, t.Grows t' ∧
      t'.Writable (d.child "Index.ets") place ∧ t'.find? place = some (.file content) ∧ content.decode = .ok text ∧
        Text.contains text line = true ∧ ∀ other, other ≠ place → t'.find? other = t.find? other := by
  obtain ⟨old, ho, ⟨hc, -, rfl⟩ | ⟨-, -, hwrite⟩⟩ := runs_ensure_iff.mp h
  · obtain ⟨place, content, hl, hf, hd⟩ := file_of_readText (readText_of_contains hn ho hc)
    have hw := writable_of_locate (by decide) (by decide) (by decide) hl hf
    exact ⟨place, content, old, .refl _, hw, hf, hd, hc, fun _ _ => rfl⟩
  · obtain ⟨place, hw, rfl⟩ := writeText_eq_ok hwrite
    have hg := hw.grows (old ++ "\n" ++ line)
    have hf : (t.insert place (.file (.text (old ++ "\n" ++ line)))).find? place =
      some (.file (.text (old ++ "\n" ++ line))) := find?_insert_self hw.ne_nil
    exact ⟨place, _, _, hg, hw.of_grows hg hf, hf, rfl, Text.contains_append _ _,
      fun other ho => find?_insert_of_ne hw.ne_nil ho⟩

/-- A run is settled by its answer and by what the tree is made of. -/
theorem run_eq_of_entries {α : Type} {d : Disk Error α} {a : α}
    (h : (fun x : Except Error α × FileTree => (x.1.toOption, x.2.home, x.2.entries)) (d.run.run t) =
      (some a, t'.home, t'.entries)) : d.run.run t = (.ok a, t') := by
  obtain ⟨ho, hh, he⟩ := by simpa only [Prod.mk.injEq] using h
  exact Prod.ext (ok_of_toOption ho) (by cases t'; cases hx : (d.run.run t).2; simp_all)

/-! ### The survey -/

theorem toOption_entriesOf (t : FileTree) (o : Options) (s : Settings) (file : String) :
    (entriesOf t o s file).toOption = (t.scan s (o.sourcePath file)).toOption.map fun routes =>
      (routes.map (Entry.ofRoute o.builderDirectory)).filter Entry.isUsable := by
  rw [entriesOf]
  cases t.scan s (o.sourcePath file) <;> rfl

theorem usable_survey (t : FileTree) (o : Options) (s : Settings) :
    ∀ e ∈ (survey t o s).entries, e.isUsable = true := by
  intro e he
  obtain ⟨⟨path, found⟩, hf, he⟩ := List.mem_flatMap.mp he
  obtain ⟨file, -, hfile⟩ := List.mem_map.mp hf
  cases hfile
  have ho := toOption_entriesOf t o s file
  cases hr : entriesOf t o s file with
  | error cause => simp [hr] at he
  | ok entries =>
      rw [hr] at he ho
      obtain ⟨routes, -, rfl⟩ := Option.map_eq_some_iff.mp ho.symm
      exact (List.mem_filter.mp he).2

theorem render_survey (t : FileTree) (o : Options) (s : Settings) (moduleName libName : String) :
    Builder.render moduleName libName (survey t o s).entries =
      .ok (Builder.text moduleName libName (survey t o s).entries) := by
  have hn : (survey t o s).entries.find? (!·.isUsable) = none := by
    rw [List.find?_eq_none]
    intro e he
    simp [usable_survey t o s e he]
  rw [Builder.render, hn]

/-! ### A whole generation -/

def writeFiles (o : Options) (entries : List Entry) : Disk Error Bool := do
  writeBuilder o entries
  writeRouteMap o entries
  if o.mainTarget then pure false else Index.ensure o.indexPath o.indexLine

variable {o : Options}

theorem writeAll_eq (o : Options) (s : Settings) :
    writeAll o s = get >>= fun t => writeFiles o (survey t o s).entries >>= fun updated =>
      pure { survey t o s with
        builderFile? := some o.builderPath
        routeMapFile? := some o.routeMapPath
        indexUpdated := updated } := by
  simp only [writeAll, writeFiles, bind_assoc]
  cases o.mainTarget <;> simp

theorem runs_writeAll_iff {s : Settings} {summary : Summary} : (writeAll o s).Runs t summary t' ↔
    ∃ updated, (writeFiles o (survey t o s).entries).Runs t updated t' ∧ summary = { survey t o s with
      builderFile? := some o.builderPath
      routeMapFile? := some o.routeMapPath
      indexUpdated := updated } := by
  rw [writeAll_eq]
  constructor
  · intro h
    obtain ⟨v, w, hget, hrest⟩ := runs_bind.mp h
    obtain ⟨rfl, rfl⟩ := runs_get.mp hget
    obtain ⟨updated, u, hfiles, hpure⟩ := runs_bind.mp hrest
    obtain ⟨rfl, rfl⟩ := runs_pure.mp hpure
    exact ⟨updated, hfiles, rfl⟩
  · rintro ⟨updated, hfiles, rfl⟩
    exact runs_bind.mpr ⟨t, t, runs_get.mpr ⟨rfl, rfl⟩, runs_bind.mpr ⟨updated, t', hfiles, runs_pure.mpr ⟨rfl, rfl⟩⟩⟩

theorem runs_generate_iff {base : Settings} {summary : Summary} : (generate o base).Runs t summary t' ↔
    o.fault? = none ∧ ((o.scanFiles.isEmpty = true ∧ summary = {} ∧ t' = t) ∨
      (o.scanFiles.isEmpty = false ∧ (o.settings base).fault? = none ∧
        (writeAll o (o.settings base)).Runs t summary t')) := by
  rw [generate]
  cases hf : o.fault? with
  | some fault => simp [runs_throw]
  | none =>
      cases he : o.scanFiles.isEmpty with
      | true => simp [runs_pure]
      | false =>
          cases hs : (o.settings base).fault? with
          | some fault => simp [runs_throw, hs]
          | none => simp [hs]

end Generation

def homeModule : Generation.Options :=
  { moduleName := "m", builderDir := "gen", builderFile := "B.ets", routeMapDir := "gen", scanFiles := ["Home"] }

end ArkRoutes
