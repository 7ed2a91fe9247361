import ArkRoutes.Proofs.EntryFile
import ArkRoutes.Proofs.Modules
import ArkRoutes.Proofs.Walks
import ArkRoutes.Scan
import Mathlib.Data.List.Forall2

namespace ArkRoutes

namespace FileTree

variable {t : FileTree} {a b p q : Path} {here place : Place}

def IsName (segment : Bytes) : Prop := segment ≠ [] ∧ Path.slash ∉ segment

instance (segment : Bytes) : Decidable (IsName segment) := inferInstanceAs (Decidable (_ ∧ _))

/-- A tree as a disk holds it: what is there has a name and stands in a directory. -/
def IsSound (t : FileTree) : Prop :=
  ∀ e ∈ t.entries, t.find? e.1.dropLast = some .directory ∧ ∀ name ∈ e.1, IsName name

instance (t : FileTree) : Decidable t.IsSound := inferInstanceAs (Decidable (∀ _ ∈ _, _))

theorem IsSound.of_find? (ht : t.IsSound) {e : Entry} (h : t.find? place = some e) :
    t.find? place.dropLast = some .directory ∧ ∀ name ∈ place, IsName name := by
  by_cases hp : place = []
  · subst hp
    simp [find?]
  · rw [find?, if_neg hp] at h
    obtain ⟨before, after, he, -⟩ := List.lookup_eq_some_iff.mp h
    exact ht (place, e) (by simp [he])

theorem segments_pathOf (h : ∀ name ∈ place, IsName name) :
    (pathOf place).segments = [] :: if place = [] then [[]] else place := by
  have hs := Path.segments_slash [] ([Path.slash].intercalate place)
  rw [List.nil_append] at hs
  rw [pathOf, hs]
  split
  next hn =>
    rw [hn]
    rfl
  next hn =>
    rw [Path.segments_intercalate hn fun name hm => (h name hm).2]
    rfl

theorem pathOf_inj {place' : Place} (h : ∀ name ∈ place, IsName name) (h' : ∀ name ∈ place', IsName name)
    (he : pathOf place = pathOf place') : place = place' := by
  have hs := congrArg Path.segments he
  rw [segments_pathOf h, segments_pathOf h', List.cons.injEq] at hs
  by_cases hn : place = [] <;> by_cases hn' : place' = []
  · rw [hn, hn']
  · have hx : place' = [[]] := by simpa [hn, hn', eq_comm] using hs.2
    have hmem : [] ∈ place' := by simp [hx]
    exact absurd rfl (h' _ hmem).1
  · have hx : place = [[]] := by simpa [hn, hn'] using hs.2
    have hmem : [] ∈ place := by simp [hx]
    exact absurd rfl (h _ hmem).1
  · simpa [hn, hn'] using hs

theorem IsSound.of_step (ht : t.IsSound) {segment : Bytes} {there : Place} (h : t.step here segment = .ok there) :
    (t.find? there).isSome = true := by
  obtain ⟨hd, ⟨-, rfl⟩ | ⟨-, rfl⟩ | ⟨-, -, hs, rfl⟩⟩ := step_cases h
  · simp [hd]
  · simp [(ht.of_find? hd).1]
  · exact hs

theorem IsSound.of_follow (ht : t.IsSound) {segments : List Bytes} {there : Place} (hn : segments ≠ [])
    (h : t.follow here segments = .ok there) : (t.find? there).isSome = true := by
  induction segments generalizing here with
  | nil => exact (hn rfl).elim
  | cons segment segments ih =>
      rw [follow_cons] at h
      obtain ⟨next, hs, hf⟩ := ok_of_bind h
      by_cases hr : segments = []
      · subst hr
        cases hf
        exact ht.of_step hs
      · exact ih hr hf

theorem IsSound.of_locate (ht : t.IsSound) (h : t.locate p = .ok place) : ∀ name ∈ place, IsName name := by
  rw [locate_of_text_ne (text_ne_of_locate h)] at h
  obtain ⟨e, he⟩ := Option.isSome_iff_exists.mp (ht.of_follow p.segments_ne_nil h)
  exact (ht.of_find? he).2

theorem isFile_congr (h : t.locate a = t.locate b) : t.isFile a = t.isFile b := by
  simp only [isFile, entry, h]

theorem isDirectory_congr (h : t.locate a = t.locate b) : t.isDirectory a = t.isDirectory b := by
  simp only [isDirectory, entry, h]

theorem readText_congr (h : t.locate a = t.locate b) : t.readText a = t.readText b := by
  simp only [readText, read, entry, h]

theorem events_congr (h : t.locate a = t.locate b) (hf : t.isFile a = true) : t.events a = t.events b := by
  obtain ⟨place, content, hl, hfile⟩ := locate_of_isFile hf
  have hr : t.read a = .ok content := by simp [read, entry, hl, hfile, bind, Except.bind]
  have hr' : t.read b = .ok content := by simp [read, entry, ← h, hl, hfile, bind, Except.bind]
  rw [events, events, hr, hr']

theorem canonical_getD (h : t.locate a = t.locate b) (hd : t.isDirectory b = true) :
    (t.canonical a).toOption.getD a = (t.canonical b).toOption.getD b := by
  rw [isDirectory, entry] at hd
  rw [canonical, canonical, h]
  cases hb : t.locate b with
  | error cause => simp [hb, bind, Except.bind] at hd
  | ok place => rfl

theorem key_congr (h : t.locate a = t.locate b) (hf : t.isFile a = true) : t.key a = t.key b := by
  obtain ⟨place, content, -, hc⟩ := place_of_isFile hf
  have hc' : t.canonical b = .ok (pathOf place) := by rw [← hc, canonical, canonical, h]
  rw [key, key, hc, hc']
  rfl

/-- The same paths below both, though maybe not the same directory. -/
structure SameBelow (t : FileTree) (a b : Path) : Prop where
  leftText : IsText a.text
  rightText : IsText b.text
  locate (x : String) : t.locate (a.child x) = t.locate (b.child x)

theorem SameBelow.child (h : t.SameBelow a b) (y : String) : t.SameBelow (a.child y) (b.child y) := by
  refine ⟨Path.isText_child h.leftText y, Path.isText_child h.rightText y, fun x => ?_⟩
  obtain ⟨z, -, hz⟩ := Path.child_child y x
  rw [hz a, hz b, h.locate z]

/-- Two directories at one place, if only by a path below them. -/
structure SameBase (t : FileTree) (a b : Path) (here : Place) : Prop where
  leftText : IsText a.text
  rightText : IsText b.text
  left : t.base a = .ok here
  right : t.base b = .ok here
  directory : t.find? here = some .directory

theorem SameBase.locate (h : t.SameBase a b here) {x : String} (hx : x ≠ "") :
    t.locate (a.child x) = t.locate (b.child x) := by
  cases ha : Path.isAbsolute ⟨x⟩ with
  | true => rw [Path.child_of_isAbsolute ha, Path.child_of_isAbsolute ha]
  | false =>
      rw [locate_child h.left h.directory ha (.inr hx), locate_child h.right h.directory ha (.inr hx)]

theorem sameBelow_of_locate (hat : IsText a.text) (hbt : IsText b.text) (ha : t.locate a = .ok here)
    (hb : t.locate b = .ok here) (hd : t.find? here = some .directory) : t.SameBelow a b := by
  refine ⟨hat, hbt, fun x => ?_⟩
  cases hx : Path.isAbsolute ⟨x⟩ with
  | true => rw [Path.child_of_isAbsolute hx, Path.child_of_isAbsolute hx]
  | false =>
      rw [locate_child (base_of_locate ha) hd hx (.inl (text_ne_of_locate ha)),
        locate_child (base_of_locate hb) hd hx (.inl (text_ne_of_locate hb))]

theorem find?_key {ι : Type} {l : List ι} {f g : ι → Path} (h : ∀ i ∈ l, t.locate (f i) = t.locate (g i)) :
    ((l.map f).find? t.isFile).map t.key = ((l.map g).find? t.isFile).map t.key := by
  induction l with
  | nil => rfl
  | cons i l ih =>
      have hi := isFile_congr (h i (by simp))
      rw [List.map_cons, List.map_cons, List.find?_cons, List.find?_cons, hi]
      cases hg : t.isFile (g i) with
      | true => exact congrArg some (key_congr (h i (by simp)) (hi.trans hg))
      | false => exact ih fun i hi => h i (by simp [hi])

end FileTree

namespace Module

variable {s : Settings} {t : FileTree} {a b start start' : Path}

def view (t : FileTree) (l : Located) : Path × Bool := (t.key l.path, l.isEntry)

theorem exactFile?_key (ha : IsText a.text) (hb : IsText b.text) {y : String} (hy : y ≠ "")
    (h : ∀ x, x ≠ "" → t.locate (a.child x) = t.locate (b.child x)) :
    (exactFile? s t (a.child y)).map t.key = (exactFile? s t (b.child y)).map t.key := by
  have hl {d : Path} (hd : IsText d.text) :
      d.child y :: s.extensions.map (d.child y).extended = ("" :: s.extensions).map fun x => d.child (y ++ x) := by
    simp [Path.extended_child hd hy]
  rw [exactFile?, exactFile?, hl ha, hl hb]
  refine FileTree.find?_key ?_
  intro x _
  exact h _ (by simp [hy])

theorem entryIn?_key (h : t.SameBelow a b) : (entryIn? s t a).map t.key = (entryIn? s t b).map t.key :=
  FileTree.find?_key fun x _ => h.locate x

theorem probe_key (ha : IsText a.text) (hb : IsText b.text) {y : String} (hy : y ≠ "")
    (h : ∀ x, x ≠ "" → t.locate (a.child x) = t.locate (b.child x)) :
    (probe s t (a.child y)).map t.key = (probe s t (b.child y)).map t.key := by
  have hc : t.SameBelow (a.child y) (b.child y) := by
    refine ⟨Path.isText_child ha y, Path.isText_child hb y, fun x => ?_⟩
    obtain ⟨z, hz, hc⟩ := Path.child_child y x
    rw [hc a, hc b, h z (hz hy)]
  simp only [probe, Option.orElse_apply, Option.orElse_eq_or, Option.map_or, exactFile?_key ha hb hy h,
    FileTree.isDirectory_congr (h y hy)]
  split
  next => rw [entryIn?_key hc]
  next => rfl

theorem toOption_load (h : t.SameBelow a b) (fileName : String) :
    (Manifest.load t a fileName).toOption = (Manifest.load t b fileName).toOption := by
  delta Manifest.load
  simp only [FileTree.readText_congr (h.locate fileName)]
  cases t.readText (b.child fileName) with
  | error cause => cases cause <;> rfl
  | ok text => cases hm : Manifest.ofText? text <;> simp [hm, Except.toOption]

theorem mainFile?_key (h : t.SameBelow a b) : (mainFile? s t a).map t.key = (mainFile? s t b).map t.key := by
  rw [mainFile?, mainFile?, toOption_load h]
  cases (Manifest.load t b s.manifestName).toOption.join with
  | none => simp
  | some manifest =>
      cases hm : manifest.main? with
      | none => simp [hm]
      | some main =>
          by_cases hb : Text.isBlankText main = true
          · simp [hm, hb]
          · have hne : main ≠ "" := by
              rintro rfl
              exact hb rfl
            simpa [hm, hb] using exactFile?_key h.leftText h.rightText hne fun x _ => h.locate x

theorem entryFile?_key (h : t.SameBelow a b) : (entryFile? s t a).map t.key = (entryFile? s t b).map t.key := by
  simp only [entryFile?, Option.orElse_apply, Option.orElse_eq_or, Option.map_or, mainFile?_key h, entryIn?_key h]

theorem map_view (o : Option Path) (isEntry : Bool) :
    (o.map (⟨·, isEntry⟩)).map (view t) = (o.map t.key).map (·, isEntry) := by
  cases o <;> rfl

theorem inPackage?_view (h : t.SameBelow a b) (subpath : String) :
    (inPackage? s t a subpath).map (view t) = (inPackage? s t b subpath).map (view t) := by
  simp only [inPackage?]
  split
  next => rw [map_view, map_view, entryFile?_key h]
  next hs => rw [map_view, map_view, probe_key h.leftText h.rightText hs fun x _ => h.locate x]

abbrev Abreast (t : FileTree) (start start' : Path) : Prop := List.Forall₂ t.SameBelow start.ancestors start'.ancestors

theorem find?_abreast {above above' : List Path} (h : List.Forall₂ t.SameBelow above above') (x : String) :
    (above.find? (fun d => t.isFile (d.child x)) = none ∧ above'.find? (fun d => t.isFile (d.child x)) = none) ∨
      ∃ a b, above.find? (fun d => t.isFile (d.child x)) = some a ∧
        above'.find? (fun d => t.isFile (d.child x)) = some b ∧ t.SameBelow a b := by
  induction h with
  | nil => exact .inl ⟨rfl, rfl⟩
  | @cons a b above above' hab _ ih =>
      rw [List.find?_cons, List.find?_cons, FileTree.isFile_congr (hab.locate x)]
      split
      next => exact .inr ⟨a, b, rfl, rfl, hab⟩
      next => exact ih

theorem locate_dependencyDirectory (h : t.SameBelow a b) (package text : String) :
    t.locate (dependencyDirectory s a package (.ofText s.localMark text)) =
      t.locate (dependencyDirectory s b package (.ofText s.localMark text)) := by
  rw [Dependency.ofText]
  split
  next path _ => exact h.locate (Text.trim path)
  next => exact (h.child _).locate package

theorem toOption_packageDirectory (h : Abreast t start start') (package : String) :
    (packageDirectory s t start package).toOption = (packageDirectory s t start' package).toOption := by
  simp only [packageDirectory, manifestDirectory?]
  obtain ⟨hm, hm'⟩ | ⟨a, b, hm, hm', hab⟩ := find?_abreast h s.manifestName
  · simp only [hm, hm']
    rfl
  · simp only [hm, hm']
    obtain ⟨manifest?, ha, hb⟩ | ⟨cause, cause', ha, hb⟩ := toOption_eq_cases (toOption_load hab s.manifestName)
    · simp only [ha, hb]
      cases manifest? with
      | none => rfl
      | some manifest =>
          cases hd : manifest.dependency? package with
          | none => simp only [hd, Except.toOption]
          | some text =>
              have ht := locate_dependencyDirectory (s := s) hab package text
              simp only [hd, FileTree.isDirectory_congr ht]
              split
              next hdir => rw [FileTree.canonical_getD ht hdir]
              next => rfl
    · simp only [ha, hb]
      rfl

theorem findSome?_stores_view (h : t.SameBelow a b) (package subpath : String) (stores : List String) :
    ((stores.map fun store => (a.child store).child package).findSome? fun directory =>
        if t.isDirectory directory then inPackage? s t directory subpath else none).map (view t) =
      ((stores.map fun store => (b.child store).child package).findSome? fun directory =>
        if t.isDirectory directory then inPackage? s t directory subpath else none).map (view t) := by
  rw [List.findSome?_map, List.findSome?_map, List.map_findSome?, List.map_findSome?]
  refine findSome?_congr ?_
  intro store _
  simp only [Function.comp_apply, FileTree.isDirectory_congr ((h.child store).locate package)]
  split
  next => exact inPackage?_view ((h.child store).child package) subpath
  next => rfl

theorem inStores?_view (h : Abreast t start start') (package subpath : String) :
    (inStores? s t start package subpath).map (view t) = (inStores? s t start' package subpath).map (view t) := by
  simp only [inStores?]
  rw [Abreast] at h
  generalize start.ancestors = above, start'.ancestors = above' at h
  induction h with
  | nil => rfl
  | cons hab _ ih =>
      rw [List.flatMap_cons, List.flatMap_cons, List.findSome?_append, List.findSome?_append, Option.map_or,
        Option.map_or, findSome?_stores_view hab, ih]

def IsPath (specifier : String) : Prop := isRelative specifier = true ∨ Path.isAbsolute ⟨specifier⟩ = true

instance (specifier : String) : Decidable (IsPath specifier) :=
  inferInstanceAs (Decidable (isRelative specifier = true ∨ Path.isAbsolute ⟨specifier⟩ = true))

theorem IsPath.ne_empty {specifier : String} (h : IsPath specifier) : specifier ≠ "" := by
  rintro rfl
  exact absurd h (by decide)

theorem candidate?_view_of_isPath {here : Place} (h : t.SameBase start start' here) {specifier : String}
    (hs : IsPath specifier) :
    (candidate? s t start specifier).map (view t) = (candidate? s t start' specifier).map (view t) := by
  have hc : (isRelative specifier || Path.isAbsolute ⟨specifier⟩) = true := by simpa [IsPath] using hs
  rw [candidate?, candidate?, if_pos hc, if_pos hc, map_view, map_view, probe_key h.leftText h.rightText hs.ne_empty fun x hx => h.locate hx]

theorem candidate?_view_of_abreast {here : Place} (h : t.SameBase start start' here) (ha : Abreast t start start')
    (specifier : String) :
    (candidate? s t start specifier).map (view t) = (candidate? s t start' specifier).map (view t) := by
  by_cases hs : IsPath specifier
  · exact candidate?_view_of_isPath h hs
  · have hc : ¬ (isRelative specifier || Path.isAbsolute ⟨specifier⟩) = true := by simpa [IsPath] using hs
    rw [candidate?, candidate?, if_neg hc, if_neg hc]
    obtain ⟨package, subpath⟩ := splitSpecifier specifier
    simp only
    obtain ⟨directory, hd, hd'⟩ | ⟨cause, cause', hd, hd'⟩ :=
      toOption_eq_cases (toOption_packageDirectory (s := s) ha package)
    · rw [hd, hd']
    · rw [hd, hd']
      exact inStores?_view ha package subpath

end Module

def Path.IsPlain (p : Path) : Prop := p.isAbsolute = true ∧ (".." : Bytes) ∉ p.segments

instance (p : Path) : Decidable p.IsPlain := inferInstanceAs (Decidable (_ ∧ _))

theorem Path.IsPlain.parent {p q : Path} (hp : p.IsPlain) (hq : p.parent? = some q) : q.IsPlain := by
  obtain ⟨idle, -, ⟨-, hn⟩ | ⟨first, hf, hs, -⟩⟩ | ⟨first, before, gap, last, idle, hs, -, -, -, hn⟩ := p.parent?_cases
  · simp [hn] at hq
  · have ha := (Path.isAbsolute_iff.mp hp.1).2
    simp [hs, hf] at ha
  · obtain rfl : Path.ofSegments (first :: before) = q := by simpa [hn] using hq
    have hs' : p.segments = first :: (before ++ (gap ++ last :: idle)) := by simpa using hs
    refine ⟨(Path.isAbsolute_ofSegments hs' (Path.isAbsolute_iff.mp hp.1).1).trans hp.1, ?_⟩
    intro hu
    rcases Path.segments_ofSegments hs' with h | ⟨-, -, h⟩
    · apply hp.2
      rw [h] at hu
      rw [hs', ← List.cons_append]
      exact List.mem_append_left _ hu
    · exact absurd (h ▸ hu) (by decide)

theorem Path.climb_of_parent?_eq_none {p : Path} (h : p.parent? = none) (n : Nat) : p.climb n = [p] := by
  cases n with
  | zero => rfl
  | succ n => simp [Path.climb, h]

namespace FileTree

variable {t : FileTree} {a b p : Path} {place : Place}

theorem base_of_isPlain (hp : p.IsPlain) : t.base p = t.locate p := by
  rw [base, if_neg (Path.isAbsolute_iff.mp hp.1).1]

theorem plain_parent (hp : p.IsPlain) (hl : t.locate p = .ok place) : (p.parent? = none ∧ place = []) ∨
    ∃ q, p.parent? = some q ∧ q.IsPlain ∧ t.locate q = .ok place.dropLast ∧
      t.find? place.dropLast = some .directory ∧ place ≠ [] := by
  obtain ⟨q, hq, hb, hd, hn⟩ | ⟨-, -, -, hu⟩ | ⟨-, hroot⟩ := locate_parent hl
  · have hqp := hp.parent hq
    rw [base_of_isPlain hqp] at hb
    exact .inr ⟨q, hq, hqp, hb, hd, hn⟩
  · exact (hp.2 hu).elim
  · exact .inl (hroot hp.1)

/-- Two plain spellings of a directory have the same directories above them. -/
theorem forall₂_climb (hat : IsText a.text) (hbt : IsText b.text) (ha : a.IsPlain) (hb : b.IsPlain)
    (hla : t.locate a = .ok place) (hlb : t.locate b = .ok place) (hd : t.find? place = some .directory) {n m : Nat} (hn : place.length ≤ n) (hm : place.length ≤ m) :
    List.Forall₂ t.SameBelow (a.climb n) (b.climb m) := by
  induction hk : place.length generalizing a b place n m with
  | zero =>
      obtain rfl := List.length_eq_zero_iff.mp hk
      have hroot {c : Path} (hc : c.IsPlain) (hl : t.locate c = .ok []) : c.parent? = none := by
        obtain ⟨h, -⟩ | ⟨-, -, -, -, -, hne⟩ := plain_parent hc hl
        · exact h
        · exact (hne rfl).elim
      rw [Path.climb_of_parent?_eq_none (hroot ha hla), Path.climb_of_parent?_eq_none (hroot hb hlb)]
      exact .cons (sameBelow_of_locate hat hbt hla hlb hd) .nil
  | succ k ih =>
      have hup {c : Path} (hc : c.IsPlain) (hl : t.locate c = .ok place) :
          ∃ q, c.parent? = some q ∧ q.IsPlain ∧ t.locate q = .ok place.dropLast := by
        obtain ⟨-, h⟩ | ⟨q, hq, hqp, hql, -, -⟩ := plain_parent hc hl
        · simp [h] at hk
        · exact ⟨q, hq, hqp, hql⟩
      obtain ⟨qa, hqa, hqap, hqal⟩ := hup ha hla
      obtain ⟨qb, hqb, hqbp, hqbl⟩ := hup hb hlb
      have hdir : t.find? place.dropLast = some .directory := by
        obtain ⟨-, h⟩ | ⟨-, -, -, -, hdir, -⟩ := plain_parent ha hla
        · simp [h] at hk
        · exact hdir
      obtain ⟨n, rfl⟩ : ∃ n', n = n' + 1 := ⟨n - 1, by omega⟩
      obtain ⟨m, rfl⟩ : ∃ m', m = m' + 1 := ⟨m - 1, by omega⟩
      have hlen : place.dropLast.length = k := by simp [hk]
      rw [Path.climb, Path.climb, hqa, hqb]
      exact .cons (sameBelow_of_locate hat hbt hla hlb hd)
        (ih (Path.isText_parent hat hqa) (Path.isText_parent hbt hqb) hqap hqbp hqal hqbl hdir (by omega) (by omega) hlen)

theorem length_le_of_isPlain (hp : p.IsPlain) (hl : t.locate p = .ok place) : place.length ≤ p.text.length := by
  obtain ⟨hne, hh⟩ := Path.isAbsolute_iff.mp hp.1
  rw [locate_of_text_ne hne, start, if_pos hp.1] at hl
  have hs : p.segments.length ≤ p.text.length + 1 := length_splitOn_le Path.slash p.text
  cases hseg : p.segments with
  | nil => simp [hseg] at hh
  | cons first rest =>
      obtain rfl : first = [] := by simpa [hseg] using hh
      rw [hseg, follow_cons, step_of_isIdle rfl (by decide)] at hl
      have hlen : place.length ≤ ([] : Place).length + rest.length := length_follow_le hl
      rw [hseg, List.length_cons] at hs
      rw [List.length_nil] at hlen
      omega

theorem abreast_of_isPlain (hat : IsText a.text) (hbt : IsText b.text) (ha : a.IsPlain) (hb : b.IsPlain)
    (hla : t.locate a = .ok place) (hlb : t.locate b = .ok place) (hd : t.find? place = some .directory) :
    Module.Abreast t a b :=
  forall₂_climb hat hbt ha hb hla hlb hd (length_le_of_isPlain ha hla) (length_le_of_isPlain hb hlb)

theorem base_directory (ht : t.IsSound) {content : Content} (hl : t.locate p = .ok place)
    (hf : t.find? place = some (.file content)) : p.parent? = some p.directory ∧
      t.base p.directory = .ok place.dropLast ∧ t.find? place.dropLast = some .directory := by
  obtain ⟨q, hq, hb, hd, -⟩ | ⟨here, hd, rfl, -⟩ | ⟨hd, -⟩ := locate_parent hl
  · have hpq : p.directory = q := by simp [Path.directory, hq]
    rw [hpq]
    exact ⟨hq, hb, hd⟩
  · simp [(ht.of_find? hd).1] at hf
  · simp [hd] at hf

theorem locate_eq_of_canonical (ht : t.IsSound) (hl : t.locate a = .ok place) (hc : t.canonical a = t.canonical b) :
    t.locate b = .ok place := by
  rw [canonical, canonical, hl] at hc
  cases hl' : t.locate b with
  | error cause => simp [hl', Except.map] at hc
  | ok place' =>
      have hp : pathOf place = pathOf place' := by simpa [hl', Except.map] using hc
      rw [pathOf_inj (ht.of_locate hl) (ht.of_locate hl') hp]

end FileTree

open Resolution in
theorem module?_around {s : Settings} {t : FileTree} {chain : List Path} {p p' : Path} {x : String}
    (h : (Module.candidate? s t p.directory x).map (Module.view t) =
      (Module.candidate? s t p'.directory x).map (Module.view t)) :
    (around s t chain p).module? x = (around s t chain p').module? x := by
  simp only [Surroundings.module?, around, surroundings, Module.locate]
  cases hc : Module.candidate? s t p.directory x with
  | none =>
      cases hc' : Module.candidate? s t p'.directory x with
      | none => rfl
      | some l' => simp [hc, hc'] at h
  | some l =>
      cases hc' : Module.candidate? s t p'.directory x with
      | none => simp [hc, hc'] at h
      | some l' =>
          obtain ⟨hk, he⟩ : t.key l.path = t.key l'.path ∧ l.isEntry = l'.isEntry := by
            simpa [hc, hc', Module.view] using h
          simp only [Except.toOption, Option.map_some, he, query, resolve_congr_key hk]

/-- A scan finds the same routes under both spellings of a file. -/
theorem scan_respelled (t : FileTree) (s : Settings) (p p' : Path) (htext : IsText p.directory.text)
    (htext' : IsText p'.directory.text) (ht : t.IsSound) (hf : t.isFile p = true) (hc : t.canonical p = t.canonical p')
    (h : (p.IsPlain ∧ p'.IsPlain) ∨ ∀ events, t.events p = .ok events → ∀ x ∈ specifiersOf events, Module.IsPath x) :
    t.scan s p' = (t.scan s p).map (List.map ({ · with file := p' })) := by
  obtain ⟨place, content, hl, hfile⟩ := FileTree.locate_of_isFile hf
  have hl' := FileTree.locate_eq_of_canonical ht hl hc
  obtain ⟨hq, hb, hd⟩ := FileTree.base_directory ht hl hfile
  obtain ⟨hq', hb', -⟩ := FileTree.base_directory ht hl' hfile
  have hbase : t.SameBase p.directory p'.directory place.dropLast := ⟨htext, htext', hb, hb', hd⟩
  have hkey : t.canonical p = .ok (FileTree.pathOf place) := by rw [FileTree.canonical, hl]; rfl
  rw [FileTree.scan, FileTree.scan, ← hc, hkey, ← FileTree.events_congr (hl.trans hl'.symm) hf]
  cases hev : t.events p with
  | error cause => rfl
  | ok events =>
      refine congrArg Except.ok ?_
      apply Collector.routes_run_alike
      refine Surroundings.Alike.of_modules rfl ?_
      intro x hx
      apply module?_around
      rcases h with ⟨hp, hp'⟩ | hpath
      · have hpd := hp.parent hq
        have hpd' := hp'.parent hq'
        rw [FileTree.base_of_isPlain hpd] at hb
        rw [FileTree.base_of_isPlain hpd'] at hb'
        exact Module.candidate?_view_of_abreast hbase (FileTree.abreast_of_isPlain htext htext' hpd hpd' hb hb' hd) x
      · exact Module.candidate?_view_of_isPath hbase (hpath events hev x hx)

def privatePackage : FileTree where
  home := []
  entries :=
    [(["Page.ets"], .file (.text "import \x7bHOME\x7d from 'lib'\n@AppRouter(\x7bname: HOME\x7d) class Home \x7b\x7d")),
      (["Link.ets"], .file (.text
        "import \x7bHOME\x7d from './feature/lib/Index'\n@AppRouter(\x7bname: HOME\x7d) class Home \x7b\x7d")),
      (["feature"], .directory),
      (["feature", "Page.ets"], .file (.text
        "import \x7bHOME\x7d from 'lib'\n@AppRouter(\x7bname: HOME\x7d) class Home \x7b\x7d")),
      (["feature", "oh-package.json5"], .file (.text "\x7bdependencies: \x7blib: 'file:./lib'\x7d\x7d")),
      (["feature", "lib"], .directory),
      (["feature", "lib", "Index.ets"], .file (.text "export const HOME = 'home/Main'"))]

theorem privatePackage_respelled :
    (privatePackage.scan {} ⟨"/feature/Page.ets"⟩).toOption = some
        [⟨"home/Main", "Home", ⟨"/feature/Page.ets"⟩, false, false, "routerParam"⟩] ∧
      privatePackage.scan {} ⟨"//feature/./Page.ets"⟩ =
        (privatePackage.scan {} ⟨"/feature/Page.ets"⟩).map
          (List.map ({ · with file := ⟨"//feature/./Page.ets"⟩ })) ∧
      privatePackage.scan {} ⟨"/feature/../Link.ets"⟩ =
        (privatePackage.scan {} ⟨"/Link.ets"⟩).map (List.map ({ · with file := ⟨"/feature/../Link.ets"⟩ })) := by
  have hcanonical {p p' : Path} (h : (privatePackage.canonical p).toOption = some p)
      (h' : (privatePackage.canonical p').toOption = some p) :
      privatePackage.canonical p = privatePackage.canonical p' :=
    (ok_of_toOption h).trans (ok_of_toOption h').symm
  refine ⟨by decide +kernel, ?_, ?_⟩
  · exact scan_respelled privatePackage {} ⟨"/feature/Page.ets"⟩ ⟨"//feature/./Page.ets"⟩
      (isText_encode "/feature") ⟨"//feature", by decide⟩ (by decide) (by decide) (hcanonical (by decide) (by decide)) (.inl (by decide))
  · refine scan_respelled privatePackage {} ⟨"/Link.ets"⟩ ⟨"/feature/../Link.ets"⟩
      (isText_encode "/") ⟨"/feature/..", by decide⟩ (by decide) (by decide) (hcanonical (by decide) (by decide)) (.inr ?_)
    intro events he
    have hs : (privatePackage.events ⟨"/Link.ets"⟩).toOption.map specifiersOf = some ["./feature/lib/Index"] := by
      decide +kernel
    rw [he] at hs
    have hs : specifiersOf events = ["./feature/lib/Index"] := by simpa [Except.toOption] using hs
    rw [hs]
    decide

/-- Going down and up again leads to the same file, but by way of another package manifest. -/
theorem privatePackage_seen_from_below : privatePackage.IsSound ∧ privatePackage.isFile ⟨"/Page.ets"⟩ = true ∧
    (privatePackage.canonical ⟨"/Page.ets"⟩).toOption = some ⟨"/Page.ets"⟩ ∧
    (privatePackage.canonical ⟨"/feature/../Page.ets"⟩).toOption = some ⟨"/Page.ets"⟩ ∧
    (privatePackage.scan {} ⟨"/Page.ets"⟩).toOption = some [] ∧
    (privatePackage.scan {} ⟨"/feature/../Page.ets"⟩).toOption = some
      [⟨"home/Main", "Home", ⟨"/feature/../Page.ets"⟩, false, false, "routerParam"⟩] := by
  refine ⟨?_, ?_, ?_, ?_, ?_, ?_⟩ <;> decide +kernel

end ArkRoutes
