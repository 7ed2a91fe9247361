import ArkRoutes.Proofs.BuilderText
import ArkRoutes.Proofs.Spelling
import Mathlib.Data.List.Find

namespace ArkRoutes

namespace Path

inductive Climbs : Path → List Path → Prop
  | top {p : Path} (h : p.parent? = none) : Climbs p [p]
  | up {p q : Path} {above : List Path} (h : p.parent? = some q) (hq : Climbs q above) : Climbs p (p :: above)

inductive Nearest (P : Path → Prop) : Path → Path → Prop
  | here {p : Path} (h : P p) : Nearest P p p
  | above {p q d : Path} (h : ¬ P p) (hp : p.parent? = some q) (hq : Nearest P q d) : Nearest P p d

theorem text_of_segments_eq_append {p : Path} {l r : List Bytes} (hl : l ≠ []) (hr : r ≠ [])
    (h : p.segments = l ++ r) : p.text = [slash].intercalate l ++ slash :: [slash].intercalate r := by
  have hs : ∀ x ∈ l ++ r, slash ∉ x := fun x hx => slash_not_mem (p := p) (h ▸ hx)
  have hb : segments ⟨[slash].intercalate l ++ slash :: [slash].intercalate r⟩ = p.segments := by
    rw [segments_slash, segments_intercalate hl fun x hx => hs x (by simp [hx]),
      segments_intercalate hr fun x hx => hs x (by simp [hx]), h]
  rw [text_eq_intercalate, ← hb, ← text_eq_intercalate]

theorem length_lt_of_parent? {p q : Path} (h : p.parent? = some q) : q.text.length < p.text.length := by
  rcases parent?_cases p with
    ⟨idle, -, ⟨-, hn⟩ | ⟨first, hf, hs, hq⟩⟩ | ⟨first, before, gap, last, idle, hs, -, -, hl, hq⟩
  · rw [hn] at h
    cases h
  · have hne : p.text ≠ [] := by
      intro he
      rw [segments_eq_singleton_iff.mpr he, List.cons.injEq] at hs
      exact hf hs.1.symm
    cases hq.symm.trans h
    exact List.length_pos_iff.mpr hne
  · obtain rfl : ofSegments (first :: before) = q := Option.some.inj (hq.symm.trans h)
    have ht : p.text = [slash].intercalate (first :: before) ++ slash :: [slash].intercalate (gap ++ last :: idle) :=
      text_of_segments_eq_append (by simp) (by simp) (by simpa using hs)
    have hr : [slash].intercalate (gap ++ last :: idle) ≠ [] := by
      intro he
      have hs' : segments ⟨[slash].intercalate (gap ++ last :: idle)⟩ = gap ++ last :: idle :=
        segments_intercalate (by simp) fun x hx => slash_not_mem (p := p) (by simp_all)
      rw [he, segments_eq_singleton_iff.mpr rfl] at hs'
      have hm : last ∈ [([] : Bytes)] := hs' ▸ by simp
      simp [List.mem_singleton.mp hm, isIdle] at hl
    by_cases hb : first = [] ∧ before = []
    · obtain ⟨rfl, rfl⟩ := hb
      have hpos := List.length_pos_iff.mpr hr
      have h1 : (ofSegments [[]]).text.length = 1 := rfl
      rw [ht, h1, List.length_append, List.length_cons]
      omega
    · have ho : ofSegments (first :: before) = ⟨[slash].intercalate (first :: before)⟩ := by
        rw [ofSegments]
        simpa using hb
      have hlt : ([slash].intercalate (first :: before)).length < p.text.length := by
        rw [ht, List.length_append, List.length_cons]
        omega
      rwa [ho]

theorem climbs_climb {p : Path} {n : Nat} (h : p.text.length ≤ n) : Climbs p (p.climb n) := by
  induction n generalizing p with
  | zero =>
      cases hp : p.parent? with
      | none => exact .top hp
      | some q =>
          have hlt := length_lt_of_parent? hp
          omega
  | succ n ih =>
      rw [climb]
      cases hp : p.parent? with
      | none => exact .top hp
      | some q =>
          have hlt := length_lt_of_parent? hp
          exact .up hp (ih (by omega))

/-- The way up ends at a path without a parent, however long the path is. -/
theorem climbs_ancestors (p : Path) : Climbs p p.ancestors := climbs_climb le_rfl

theorem Climbs.unique {p : Path} {l l' : List Path} (h : Climbs p l) (h' : Climbs p l') : l = l' := by
  induction h generalizing l' with
  | top hp =>
      cases h' with
      | top => rfl
      | up hq => cases hp.symm.trans hq
  | up hp _ ih =>
      cases h' with
      | top hq => cases hq.symm.trans hp
      | up hq hl =>
          cases hp.symm.trans hq
          rw [ih hl]

theorem Climbs.find?_eq_some_iff {P : Path → Bool} {p d : Path} {l : List Path} (h : Climbs p l) :
    l.find? P = some d ↔ Nearest (fun q => P q = true) p d := by
  induction h with
  | @top p hp =>
      constructor
      · intro hf
        obtain ⟨rfl, hd⟩ : p = d ∧ P p = true := by
          by_cases hd : P p = true <;> simp_all
        exact .here hd
      · intro hn
        cases hn with
        | here hd => simp [hd]
        | above _ hq => cases hp.symm.trans hq
  | @up p q above hp _ ih =>
      by_cases hd : P p = true
      · rw [List.find?_cons_of_pos hd, Option.some.injEq]
        constructor
        · rintro rfl
          exact .here hd
        · intro hn
          cases hn with
          | here => rfl
          | above hne => exact (hne hd).elim
      · rw [List.find?_cons_of_neg hd, ih]
        constructor
        · exact .above hd hp
        · intro hn
          cases hn with
          | here h => exact (hd h).elim
          | above _ hq hn =>
              cases hp.symm.trans hq
              exact hn

end Path

namespace Module

variable (s : Settings) (t : FileTree)

def packageDepth (specifier : String) : Nat := if Text.beginsWith "@" specifier then 2 else 1

inductive Splits (specifier : String) : String → String → Prop
  | whole (h : (Text.splitAt '/' specifier).length ≤ packageDepth specifier) : Splits specifier specifier ""
  | below {package subpath : String} (hs : specifier = package ++ "/" ++ subpath)
      (h : (Text.splitAt '/' package).length = packageDepth specifier) : Splits specifier package subpath

structure Candidate where
  path : Path
  ending? : Option String
  isEntry : Bool

namespace Candidate

def meant (c : Candidate) : Path :=
  match c.ending? with
  | none => c.path
  | some ending => ⟨c.path.text ++ ending⟩

/-- What is looked for instead: an ending is written behind the path as it is shown. -/
def tried (c : Candidate) : Path :=
  match c.ending? with
  | none => c.path
  | some ending => c.path.extended ending

def IsLegible (c : Candidate) : Prop := c.ending? = none ∨ IsText c.path.text

theorem tried_eq_meant_iff (c : Candidate) : c.tried = c.meant ↔ c.IsLegible := by
  rw [IsLegible, tried, meant]
  cases c.ending? with
  | none => simp
  | some ending => simpa using Path.extended_eq_iff

end Candidate

def fileCandidates (isEntry : Bool) (path : Path) : List Candidate :=
  ⟨path, none, isEntry⟩ :: s.extensions.map (⟨path, some ·, isEntry⟩)

def entryCandidates (isEntry : Bool) (directory : Path) : List Candidate :=
  s.entryNames.map (⟨directory.child ·, none, isEntry⟩)

def pathCandidates (path : Path) : List Candidate :=
  fileCandidates s false path ++ if t.isDirectory path then entryCandidates s false path else []

def manifestIn? (directory : Path) : Option Manifest :=
  (t.readText (directory.child s.manifestName)).toOption.bind Manifest.ofText?

def mainName? (directory : Path) : Option String :=
  ((manifestIn? s t directory).bind (·.main?)).filter fun main => !Text.isBlankText main

/-- The main file's places; it is not looked for inside a directory. -/
def mainCandidates (directory : Path) : List Candidate :=
  (mainName? s t directory).toList.flatMap fun main => fileCandidates s true (directory.child main)

def packageCandidates (directory : Path) (subpath : String) : List Candidate :=
  if subpath = "" then mainCandidates s t directory ++ entryCandidates s true directory
  else pathCandidates s t (directory.child subpath)

def Lists (m : Manifest) (package text : String) : Prop :=
  m.dependencies.lookup package = some (.string text) ∨
    m.dependencies.lookup package = none ∧ m.devDependencies.lookup package = some (.string text)

inductive Leads (base : Path) (package text : String) : Path → Prop
  | inside {rest : String} (h : text = s.localMark ++ rest) : Leads base package text (base.join ⟨Text.trim rest⟩)
  | installed (h : ∀ rest, text ≠ s.localMark ++ rest) :
      Leads base package text ((base.child (s.stores.headD "oh_modules")).child package)

def Listed (start : Path) (package : String) (directory : Path) : Prop :=
  ∃ base manifest text target,
    Path.Nearest (fun d => t.isFile (d.child s.manifestName) = true) start base ∧
    manifestIn? s t base = some manifest ∧ Lists manifest package text ∧ Leads s base package text target ∧
    t.isDirectory target = true ∧ t.canonical target = .ok directory

/-- The places where a specifier may lead that is written in a file of `start`, in order. -/
inductive Candidates (start : Path) (specifier : String) : List Candidate → Prop
  | path (h : IsPath specifier) : Candidates start specifier (pathCandidates s t (start.child specifier))
  | listed {package subpath : String} {directory : Path} (h : ¬ IsPath specifier)
      (hs : Splits specifier package subpath) (hd : Listed s t start package directory) :
      Candidates start specifier (packageCandidates s t directory subpath)
  | stored {package subpath : String} {above : List Path} (h : ¬ IsPath specifier)
      (hs : Splits specifier package subpath) (hd : ∀ directory, ¬ Listed s t start package directory)
      (ha : Path.Climbs start above) :
      Candidates start specifier ((above.flatMap fun d => s.stores.map fun store =>
        (d.child store).child package).flatMap fun d =>
          if t.isDirectory d then packageCandidates s t d subpath else [])

variable {s t}
variable {start : Path} {specifier package subpath : String} {path directory : Path} {isEntry : Bool}

def firstOf (t : FileTree) (l : List Candidate) : Option Located :=
  (l.find? fun c => t.isFile c.tried).map fun c => ⟨c.tried, c.isEntry⟩

theorem firstOf_append (l l' : List Candidate) : firstOf t (l ++ l') = (firstOf t l).or (firstOf t l') := by
  rw [firstOf, List.find?_append, Option.map_or]
  rfl

theorem firstOf_files :
    firstOf t (fileCandidates s isEntry path) = (exactFile? s t path).map (⟨·, isEntry⟩) := by
  have hl : path :: s.extensions.map path.extended = (fileCandidates s isEntry path).map Candidate.tried := by
    simp [fileCandidates, Candidate.tried]
  have he : ∀ c ∈ fileCandidates s isEntry path, c.isEntry = isEntry := by simp [fileCandidates]
  rw [exactFile?, hl, List.find?_map, firstOf, Option.map_map]
  refine Option.map_congr fun c hc => ?_
  rw [he c (List.mem_of_find?_eq_some hc)]
  rfl

theorem firstOf_entries :
    firstOf t (entryCandidates s isEntry directory) = (entryIn? s t directory).map (⟨·, isEntry⟩) := by
  rw [firstOf, entryCandidates, entryIn?, List.find?_map, List.find?_map, Option.map_map, Option.map_map]
  rfl

theorem firstOf_path : firstOf t (pathCandidates s t path) = (probe s t path).map (⟨·, false⟩) := by
  rw [probe, pathCandidates, firstOf_append, firstOf_files, Option.orElse_eq_orElse, Option.orElse_eq_or, Option.map_or]
  congr 1
  split
  · exact firstOf_entries
  · rfl

theorem load_eq_some_iff {m : Manifest} :
    Manifest.load t directory s.manifestName = .ok (some m) ↔ manifestIn? s t directory = some m := by
  delta Manifest.load manifestIn?
  dsimp only
  cases t.readText (directory.child s.manifestName) with
  | error cause => cases cause <;> simp [Except.toOption]
  | ok text => cases hm : Manifest.ofText? text <;> simp [hm, Except.toOption]

theorem join_load : (Manifest.load t directory s.manifestName).toOption.join = manifestIn? s t directory := by
  ext m
  rw [← load_eq_some_iff, Option.join_eq_some_iff]
  cases Manifest.load t directory s.manifestName <;> simp [Except.toOption]

theorem firstOf_main : firstOf t (mainCandidates s t directory) = (mainFile? s t directory).map (⟨·, true⟩) := by
  rw [mainFile?, join_load, mainCandidates, mainName?]
  cases manifestIn? s t directory with
  | none => rfl
  | some manifest =>
      cases hm : manifest.main? with
      | none => simp [hm, firstOf]
      | some main =>
          by_cases hb : Text.isBlankText main = true
          · simp [hm, hb, firstOf]
          · simp [hm, hb, Option.filter, firstOf_files]

theorem inPackage?_eq_firstOf : inPackage? s t directory subpath = firstOf t (packageCandidates s t directory subpath) := by
  rw [inPackage?, packageCandidates]
  split
  · rw [firstOf_append, firstOf_main, firstOf_entries, entryFile?, Option.orElse_eq_orElse, Option.orElse_eq_or,
      Option.map_or]
  · exact firstOf_path.symm

theorem inStores?_eq_firstOf {above : List Path} (h : Path.Climbs start above) :
    inStores? s t start package subpath = firstOf t ((above.flatMap fun d => s.stores.map fun store =>
      (d.child store).child package).flatMap fun d =>
        if t.isDirectory d then packageCandidates s t d subpath else []) := by
  rw [inStores?, (Path.climbs_ancestors start).unique h, firstOf, List.find?_flatMap, List.map_findSome?]
  congr 1
  funext d
  rw [Function.comp_apply]
  split
  · exact inPackage?_eq_firstOf
  · rfl

theorem packageDepth_pos (specifier : String) : packageDepth specifier ≠ 0 := by
  rw [packageDepth]
  split <;> decide

/-- A specifier splits in one way, the way it is split. -/
theorem splits_iff : Splits specifier package subpath ↔ splitSpecifier specifier = (package, subpath) := by
  have hsplit : splitSpecifier specifier =
      (String.intercalate "/" ((Text.splitAt '/' specifier).take (packageDepth specifier)),
        String.intercalate "/" ((Text.splitAt '/' specifier).drop (packageDepth specifier))) := rfl
  constructor
  · intro h
    cases h with
    | whole h =>
        rw [hsplit, List.take_of_length_le h, List.drop_of_length_le h, Text.intercalate_splitAt rfl]
        rfl
    | below hs h =>
        have ha : Text.splitAt '/' specifier = Text.splitAt '/' package ++ Text.splitAt '/' subpath := by
          rw [hs, Text.splitAt_append rfl]
        rw [hsplit, ha, List.take_left' h, List.drop_left' h, Text.intercalate_splitAt rfl, Text.intercalate_splitAt rfl]
  · intro h
    rw [hsplit, Prod.mk.injEq] at h
    obtain ⟨rfl, rfl⟩ := h
    by_cases hl : (Text.splitAt '/' specifier).length ≤ packageDepth specifier
    · rw [List.take_of_length_le hl, List.drop_of_length_le hl, Text.intercalate_splitAt rfl]
      exact .whole hl
    · have ht : ((Text.splitAt '/' specifier).take (packageDepth specifier)).length = packageDepth specifier := by
        rw [List.length_take]
        omega
      have hn : (Text.splitAt '/' specifier).take (packageDepth specifier) ≠ [] := by
        rw [ne_eq, ← List.length_eq_zero_iff, ht]
        exact packageDepth_pos specifier
      refine .below (Text.eq_of_splitAt_eq_append hn ?_ (List.take_append_drop _ _).symm) ?_
      · rw [ne_eq, ← List.length_eq_zero_iff, List.length_drop]
        omega
      · rw [Text.splitAt_intercalate rfl hn fun x hx => Text.not_mem_of_mem_splitAt (List.mem_of_mem_take hx), ht]

theorem manifestDirectory?_eq_some_iff : manifestDirectory? s t start = some directory ↔
    Path.Nearest (fun d => t.isFile (d.child s.manifestName) = true) start directory :=
  (Path.climbs_ancestors start).find?_eq_some_iff

theorem lists_iff {m : Manifest} {text : String} : Lists m package text ↔ m.dependency? package = some text := by
  have ht (v : Data.Value) : v.text? = some text ↔ v = .string text := by
    cases v <;> simp [Data.Value.text?]
  rw [Lists, Manifest.dependency?, Option.orElse_eq_orElse, Option.orElse_eq_or]
  cases m.dependencies.lookup package with
  | none => cases m.devDependencies.lookup package <;> simp [ht]
  | some v => simp [ht]

theorem leads_iff {base target : Path} {text : String} :
    Leads s base package text target ↔ dependencyDirectory s base package (.ofText s.localMark text) = target := by
  cases hl : Text.afterLead? s.localMark text with
  | none =>
      have hn : ∀ rest, text ≠ s.localMark ++ rest := by
        rintro rest rfl
        rw [Text.afterLead?_append] at hl
        cases hl
      rw [Dependency.ofText, hl, dependencyDirectory]
      constructor
      · intro h
        cases h with
        | inside h => exact (hn _ h).elim
        | installed => rfl
      · rintro rfl
        exact .installed hn
  | some rest =>
      have hr := Text.append_of_afterLead? hl
      rw [Dependency.ofText, hl, dependencyDirectory]
      constructor
      · intro h
        cases h with
        | @inside rest' h =>
            rw [h, Text.afterLead?_append, Option.some.injEq] at hl
            rw [hl]
        | installed h => exact (h rest hr.symm).elim
      · rintro rfl
        exact .inside hr.symm

theorem canonical_of_isDirectory (h : t.isDirectory path = true) :
    t.canonical path = .ok ((t.canonical path).toOption.getD path) := by
  rw [FileTree.isDirectory] at h
  cases he : t.entry path with
  | error cause => simp [he] at h
  | ok e =>
      obtain ⟨place, hl, -⟩ := FileTree.entry_eq_ok he
      rw [FileTree.canonical, hl]
      rfl

theorem packageDirectory_eq_ok_iff :
    packageDirectory s t start package = .ok directory ↔ Listed s t start package directory := by
  rw [Listed]
  constructor
  · intro h
    rw [packageDirectory] at h
    cases hb : manifestDirectory? s t start with
    | none => simp [hb] at h
    | some base =>
        simp only [hb] at h
        rcases hm : Manifest.load t base s.manifestName with cause | _ | manifest
        · simp [hm] at h
        · simp [hm] at h
        · simp only [hm] at h
          cases ht : manifest.dependency? package with
          | none => simp [ht] at h
          | some text =>
              simp only [ht] at h
              split_ifs at h with hd
              cases h
              exact ⟨base, manifest, text, _, manifestDirectory?_eq_some_iff.mp hb, load_eq_some_iff.mp hm,
                lists_iff.mpr ht, leads_iff.mpr rfl, hd, canonical_of_isDirectory hd⟩
  · rintro ⟨base, manifest, text, target, hb, hm, ht, hl, hd, hc⟩
    rw [packageDirectory, manifestDirectory?_eq_some_iff.mpr hb]
    simp only [load_eq_some_iff.mpr hm, lists_iff.mp ht, leads_iff.mp hl, hd, hc]
    rfl

theorem candidates_exist (s : Settings) (t : FileTree) (start : Path) (specifier : String) :
    ∃ l, Candidates s t start specifier l := by
  by_cases hp : IsPath specifier
  · exact ⟨_, .path hp⟩
  have hs : Splits specifier (splitSpecifier specifier).1 (splitSpecifier specifier).2 := splits_iff.mpr rfl
  by_cases hl : ∃ directory, Listed s t start (splitSpecifier specifier).1 directory
  · obtain ⟨directory, hd⟩ := hl
    exact ⟨_, .listed hp hs hd⟩
  · exact ⟨_, .stored hp hs (not_exists.mp hl) (Path.climbs_ancestors start)⟩

theorem isLegible_of_mem_path (hp : IsText path.text) : ∀ c ∈ pathCandidates s t path, c.IsLegible := by
  intro c hc
  simp only [pathCandidates, fileCandidates, entryCandidates, List.cons_append, List.mem_cons, List.mem_append,
    List.mem_map, List.mem_ite_nil_right] at hc
  rcases hc with rfl | ⟨ending, -, rfl⟩ | ⟨-, name, -, rfl⟩
  · exact .inl rfl
  · exact .inr hp
  · exact .inl rfl

theorem isLegible_of_mem_package (hd : IsText directory.text) :
    ∀ c ∈ packageCandidates s t directory subpath, c.IsLegible := by
  intro c hc
  rw [packageCandidates] at hc
  split at hc
  · rcases List.mem_append.mp hc with hc | hc
    · obtain ⟨main, -, hc⟩ := List.mem_flatMap.mp hc
      simp only [fileCandidates, List.mem_cons, List.mem_map] at hc
      rcases hc with rfl | ⟨ending, -, rfl⟩
      · exact .inl rfl
      · exact .inr (Path.isText_child hd main)
    · obtain ⟨name, -, rfl⟩ := List.mem_map.mp hc
      exact .inl rfl
  · exact isLegible_of_mem_path (Path.isText_child hd subpath) c hc

theorem isText_of_nearest {P : Path → Prop} {base : Path} (h : Path.Nearest P start base) (hs : IsText start.text) :
    IsText base.text := by
  induction h with
  | here => exact hs
  | above _ hp _ ih => exact ih (Path.isText_parent hs hp)

theorem isText_of_climbs {above : List Path} (h : Path.Climbs start above) (hs : IsText start.text) :
    ∀ d ∈ above, IsText d.text := by
  induction h with
  | top => simpa using hs
  | up hp _ ih => exact List.forall_mem_cons.mpr ⟨hs, ih (Path.isText_parent hs hp)⟩

theorem isText_of_leads {base target : Path} {text : String} (h : Leads s base package text target)
    (hb : IsText base.text) : IsText target.text := by
  cases h with
  | inside h => exact Path.isText_child hb _
  | installed h => exact Path.isText_child (Path.isText_child hb _) package

/-- Candidates for a file with a text for a path can all be written down. -/
theorem Candidates.isLegible {l : List Candidate} (h : Candidates s t start specifier l)
    (ht : ∀ name ∈ t.home, IsText name) (hs : IsText start.text) : ∀ c ∈ l, c.IsLegible := by
  cases h with
  | path => exact isLegible_of_mem_path (Path.isText_child hs specifier)
  | listed _ _ hd =>
      obtain ⟨base, manifest, text, target, hb, -, -, hl, -, hc⟩ := hd
      exact isLegible_of_mem_package (FileTree.isText_canonical ht (isText_of_leads hl (isText_of_nearest hb hs)) hc)
  | stored _ _ _ ha =>
      intro c hc
      obtain ⟨d, hd, hc⟩ := List.mem_flatMap.mp hc
      obtain ⟨above, habove, hd⟩ := List.mem_flatMap.mp hd
      obtain ⟨store, -, rfl⟩ := List.mem_map.mp hd
      rw [List.mem_ite_nil_right] at hc
      have htext := Path.isText_child (isText_of_climbs ha hs above habove) store
      exact isLegible_of_mem_package (Path.isText_child htext _) c hc.2

theorem candidate?_eq_firstOf {l : List Candidate} (h : Candidates s t start specifier l) :
    candidate? s t start specifier = firstOf t l := by
  cases h with
  | path h => rw [candidate?, if_pos (by simpa [IsPath] using h), firstOf_path]
  | listed h hs hd =>
      rw [candidate?, if_neg (by simpa [IsPath] using h), splits_iff.mp hs]
      simp only [packageDirectory_eq_ok_iff.mpr hd, inPackage?_eq_firstOf]
  | @stored package subpath above h hs hd ha =>
      rw [candidate?, if_neg (by simpa [IsPath] using h), splits_iff.mp hs, ← inStores?_eq_firstOf ha]
      cases hp : packageDirectory s t start package with
      | ok directory => exact (hd directory (packageDirectory_eq_ok_iff.mp hp)).elim
      | error cause => simp only [hp]

/-- A specifier leads to the first of its candidates that is a file, and nowhere if none is, as long as they
can be written down. Other candidates with an ending are not what is looked for. -/
theorem locate_eq_first_candidate (s : Settings) (t : FileTree) (start : Path) (specifier : String) :
    (∃ l, Candidates s t start specifier l) ∧ ∀ l, Candidates s t start specifier l →
      (locate s t start specifier = match l.find? fun c => t.isFile c.tried with
        | some c => .ok ⟨c.tried, c.isEntry⟩
        | none => .error (.moduleNotFound specifier start)) ∧
      (∀ c ∈ l, c.tried = c.meant ↔ c.IsLegible) ∧
      ((∀ name ∈ t.home, IsText name) → IsText start.text → ∀ c ∈ l, c.IsLegible) ∧
      ((∀ c ∈ l, c.IsLegible) →
        ((∃ found, locate s t start specifier = .ok found) ↔ ∃ c ∈ l, t.isFile c.meant = true) ∧
          locate s t start specifier = match l.find? fun c => t.isFile c.meant with
            | some c => .ok ⟨c.meant, c.isEntry⟩
            | none => .error (.moduleNotFound specifier start)) := by
  refine ⟨candidates_exist s t start specifier, fun l hl => ?_⟩
  have hfirst : locate s t start specifier = match l.find? fun c => t.isFile c.tried with
      | some c => .ok ⟨c.tried, c.isEntry⟩
      | none => .error (.moduleNotFound specifier start) := by
    rw [locate, candidate?_eq_firstOf hl, firstOf]
    cases l.find? fun c => t.isFile c.tried <;> rfl
  refine ⟨hfirst, fun c _ => c.tried_eq_meant_iff, hl.isLegible, fun htext => ?_⟩
  have hmeant : ∀ c ∈ l, c.tried = c.meant := fun c hc => c.tried_eq_meant_iff.mpr (htext c hc)
  have hfind : (l.find? fun c => t.isFile c.tried) = l.find? fun c => t.isFile c.meant :=
    List.find?_congr fun c hc => by rw [hmeant c hc]
  rw [hfirst, hfind, ← List.find?_isSome]
  cases hc : l.find? fun c => t.isFile c.meant with
  | none => simp
  | some c => simp [hmeant c (List.mem_of_find?_eq_some hc)]

/-- Nothing lists the package; its directory in the first store holds no entry file. -/
def storedPackage : FileTree where
  home := []
  entries :=
    [(["app"], .directory), (["app", "pages"], .directory), (["app", "oh_modules"], .directory),
      (["app", "oh_modules", "lib"], .directory), (["app", "node_modules"], .directory),
      (["app", "node_modules", "lib"], .directory),
      (["app", "node_modules", "lib", "index.ets"], .file (.text "export const HOME = 'home'"))]

theorem storedPackage_candidates : ∃ l, Candidates {} storedPackage ⟨"/app/pages"⟩ "lib" l ∧
    (l.map (·.meant)).take 2 = [⟨"/app/oh_modules/lib/Index.ets"⟩, ⟨"/app/oh_modules/lib/Index.ts"⟩] ∧
    (∀ c ∈ l, c.IsLegible) ∧
    locate {} storedPackage ⟨"/app/pages"⟩ "lib" = .ok ⟨⟨"/app/node_modules/lib/index.ets"⟩, true⟩ := by
  have hl : ∀ directory, ¬ Listed {} storedPackage ⟨"/app/pages"⟩ "lib" directory := by
    intro directory hd
    have hn : (packageDirectory {} storedPackage ⟨"/app/pages"⟩ "lib").toOption = none := by decide +kernel
    have hs := congrArg Except.toOption (packageDirectory_eq_ok_iff.mpr hd)
    cases hn.symm.trans hs
  have hc : Candidates {} storedPackage ⟨"/app/pages"⟩ "lib" _ :=
    .stored (by decide) (.whole (by decide)) hl
      (.up (q := ⟨"/app"⟩) (by decide) (.up (q := ⟨"/"⟩) (by decide) (.top (by decide))))
  obtain ⟨-, -, hlegible, hfirst⟩ := (locate_eq_first_candidate {} storedPackage ⟨"/app/pages"⟩ "lib").2 _ hc
  have hall := hlegible (by simp [storedPackage]) (isText_encode "/app/pages")
  exact ⟨_, hc, by decide +kernel, hall, (hfirst hall).2.trans (by decide +kernel)⟩

def strayDirectory : FileTree where
  home := []
  entries := [([[0x70, 0xFF]], .directory), ([[0x70, 0xFF], "a.ets"], .file (.text "export const HOME = 'home'"))]

/-- What is looked for below a directory without a text is not the candidate with an ending, which is there. Where
a path goes up again, the directory it comes from is taken for one above, with its manifest. -/
theorem candidates_missed :
    (∃ c ∈ pathCandidates {} strayDirectory (Path.child ⟨[0x2F, 0x70, 0xFF]⟩ "./a"),
      strayDirectory.isFile c.meant = true ∧
        locate {} strayDirectory ⟨[0x2F, 0x70, 0xFF]⟩ "./a" =
          .error (.moduleNotFound "./a" ⟨[0x2F, 0x70, 0xFF]⟩)) ∧
    (privatePackage.canonical ⟨"/feature/.."⟩).toOption = some ⟨"/"⟩ ∧
      locate {} privatePackage ⟨"/"⟩ "lib" = .error (.moduleNotFound "lib" ⟨"/"⟩) ∧
      locate {} privatePackage ⟨"/feature/.."⟩ "lib" = .ok ⟨⟨"/feature/lib/Index.ets"⟩, true⟩ := by
  refine ⟨⟨⟨Path.child ⟨[0x2F, 0x70, 0xFF]⟩ "./a", some ".ets", false⟩, ?_, by decide, by decide⟩, by decide, ?_, ?_⟩
  · exact List.mem_append_left _ (List.mem_cons_of_mem _ (List.mem_map_of_mem (by decide)))
  · decide +kernel
  · decide +kernel

end Module

end ArkRoutes
