import ArkRoutes.Generation.Options
import ArkRoutes.Proofs.BuilderText
import ArkRoutes.Proofs.Ways

namespace ArkRoutes

namespace Path

variable {d p target : Path}

/-! ### From one normal form to another -/

def unshared : List Component → List Component → List Component
  | t :: target, b :: base => if t = b then unshared target base else t :: target
  | target, _ => target

/-- What does not lie above the base is reached by going up to where the two part, and down from there. -/
theorem stepsBetween_of_not_prefix {target base : List Component} (hb : .up ∉ base) (h : ¬ target <+: base) :
    ∃ common below, target = common ++ unshared target base ∧ base = common ++ below ∧ unshared target base ≠ [] ∧
      stepsBetween target base = some (List.replicate below.length .up ++ unshared target base) := by
  induction target generalizing base with
  | nil => exact (h List.nil_prefix).elim
  | cons t target ih =>
      cases base with
      | nil => exact ⟨[], [], rfl, rfl, by simp [unshared], by simp [stepsBetween, unshared]⟩
      | cons b base =>
          rw [List.mem_cons, not_or] at hb
          by_cases ht : t = b
          · subst ht
            obtain ⟨common, below, hc, rfl, hr, hs⟩ := ih hb.2 (by simpa using h)
            simp only [unshared, stepsBetween, if_pos]
            exact ⟨t :: common, below, by rw [List.cons_append, ← hc], rfl, hr, hs⟩
          · simp only [unshared, stepsBetween, if_neg ht, if_neg (Ne.symm hb.1), List.map_const']
            exact ⟨[], b :: base, rfl, rfl, by simp, rfl⟩

theorem stepsBetween_append (target below : List Component) :
    stepsBetween target (target ++ below) = some (List.replicate below.length .up) := by
  induction target with
  | nil => cases below <;> simp [stepsBetween, List.map_const', List.replicate_succ]
  | cons t target ih => rw [List.cons_append, stepsBetween, if_pos rfl, ih]

theorem between_normalForm (h : target.isAbsolute = d.isAbsolute) :
    between target.normalForm d.normalForm = stepsBetween target.way.folded d.way.folded := by
  have hr (w : Way) : isRooted w.folded = false := by
    obtain ⟨ups, names⟩ := w
    rcases Nat.mod_two_eq_zero_or_one ups with hu | hu <;> cases names <;> simp [Way.folded, hu, isRooted]
  rw [normalForm_eq, normalForm_eq, h, between]
  cases d.isAbsolute with
  | true => rw [if_pos rfl]; exact if_pos rfl
  | false => exact if_pos (by simp [hr])

/-! ### The text of an import -/

def joined (cs : List Component) : String := String.intercalate "/" (cs.map Component.shown)

theorem encode_joined (cs : List Component) :
    (joined cs : Bytes) = [slash].intercalate ((cs.map Component.asShown).map Component.text) := by
  rw [joined, Text.Utf8.encode_intercalate, List.map_map, List.map_map]
  congr 1
  exact List.map_congr_left fun c _ => c.text_asShown.symm

/-- An ending that begins with a plain character is shown behind what is shown ahead of it. -/
theorem joined_concat_append (cs : List Component) (c : Component) :
    joined (cs ++ [.name (c.text ++ ".ets")]) = joined (cs ++ [c]) ++ ".ets" := by
  have hc : (Component.name (c.text ++ ".ets")).shown = c.shown ++ ".ets" :=
    Text.Utf8.decodeLossy_append c.text (x := 0x2E) (s := ".ets") rfl (by decide)
  rw [joined, joined, List.map_append, List.map_append, List.map_singleton, List.map_singleton, hc]
  rw [← String.toList_inj]
  simp [String.toList_intercalate, intercalate_concat_append]

def Spells (x : String) (cs : List Component) : Prop := x = joined cs ∨ x = "./" ++ joined cs

section Spells

variable {x : String} {cs : List Component}

theorem isInner_asShown (hi : ∀ c ∈ cs, c.IsInner) : ∀ c ∈ cs.map Component.asShown, c.IsInner :=
  List.forall_mem_map.mpr fun c hc => (hi c hc).asShown

theorem segments_joined (hn : cs ≠ []) (hi : ∀ c ∈ cs, c.IsInner) :
    segments ⟨joined cs⟩ = (cs.map Component.asShown).map Component.text := by
  rw [encode_joined]
  exact segments_intercalate (by simpa using hn) (List.forall_mem_map.mpr fun c hc => (isInner_asShown hi c hc).2)

theorem isAbsolute_joined (hn : cs ≠ []) (hi : ∀ c ∈ cs, c.IsInner) : Path.isAbsolute ⟨joined cs⟩ = false := by
  rw [Bool.eq_false_iff, Ne, isAbsolute_iff, segments_joined hn hi]
  obtain ⟨c, cs, rfl⟩ := List.exists_cons_of_ne_nil hn
  rintro ⟨-, hc⟩
  have hc : c.asShown.text = [] := by simpa using hc
  have hf := (hi c (by simp)).asShown.1
  rw [hc] at hf
  cases hf

/-- The text leads where the components lead that are read back from it. -/
theorem Spells.walk (h : Spells x cs) (hn : cs ≠ []) (hi : ∀ c ∈ cs, c.IsInner) (w : Way) :
    w.walk (Path.components ⟨x⟩) = w.walk (cs.map Component.asShown) := by
  have hj : w.walk (Path.components ⟨joined cs⟩) = w.walk (cs.map Component.asShown) := by
    have hf : ((cs.map Component.asShown).map Component.text).filterMap Component.ofInner? = cs.map Component.asShown := by
      rw [List.filterMap_map]
      calc (cs.map Component.asShown).filterMap (Component.ofInner? ∘ Component.text)
          = (cs.map Component.asShown).filterMap some := List.filterMap_congr fun c hc => (isInner_asShown hi c hc).1
        _ = cs.map Component.asShown := List.filterMap_some
    rw [Way.walk, foldl_components (fun _ => rfl) (isAbsolute_joined hn hi), segments_joined hn hi, hf, Way.walk]
  rcases h with rfl | rfl
  · exact hj
  · have hd : (⟨("./" ++ joined cs : String)⟩ : Path) = (⟨"."⟩ : Path).child (joined cs) := by
      rw [child_eq (isAbsolute_joined hn hi), Text.Utf8.encode_append]
      rfl
    rw [hd, Way.walk, foldl_components_child (fun _ => rfl) (isAbsolute_joined hn hi)]
    exact hj

end Spells

def importSteps (d target : Path) : List Component :=
  (between target.normalForm d.normalForm).getD target.normalForm

def importStem (d target : Path) : String :=
  (Text.beforeTail? ".ets" (joined (d.importSteps target))).getD (joined (d.importSteps target))

theorem importText_eq (d target : Path) : d.importText target =
    if Text.beginsWith ".." (d.importStem target) then d.importStem target else "./" ++ d.importStem target := rfl

theorem isAbsolute_importText (d target : Path) (y : String) :
    Path.isAbsolute ⟨(d.importText target ++ y : String)⟩ = false := by
  have hlead {lead : String} (hn : (lead : Bytes) ≠ []) (hl : Path.isAbsolute ⟨lead⟩ = false) (rest : String) :
      Path.isAbsolute ⟨(lead ++ rest ++ y : String)⟩ = false := by
    rw [Text.Utf8.encode_append, Text.Utf8.encode_append, List.append_assoc, isAbsolute_append hn, hl]
  rw [importText_eq]
  split
  next h =>
    obtain ⟨rest, hr⟩ := Text.exists_of_beginsWith h
    rw [hr]
    exact hlead (by decide) (by decide) rest
  next => exact hlead (by decide) (by decide) _

theorem isAbsolute_child_importText (d target : Path) (y : String) :
    (d.child (d.importText target ++ y)).isAbsolute = d.isAbsolute :=
  isAbsolute_below (isAbsolute_importText d target y)

theorem spells_importText_of_stem {cs : List Component} (h : joined cs = d.importStem target ++ ".ets") :
    Spells (d.importText target ++ ".ets") cs := by
  rw [Spells, h, importText_eq]
  split
  · exact .inl rfl
  · exact .inr (String.append_assoc ..)

/-- An import is written without the ending of its file. -/
theorem spells_importText {before : List Component} {stem : Bytes}
    (h : d.importSteps target = before ++ [.name (stem ++ ".ets")]) :
    Spells (d.importText target ++ ".ets") (d.importSteps target) := by
  have hj : joined (d.importSteps target) = joined (before ++ [.name stem]) ++ ".ets" := by
    rw [h]
    exact joined_concat_append before (.name stem)
  refine spells_importText_of_stem ?_
  rw [importStem, hj, Text.beforeTail?_append, Option.getD_some]

theorem importStem_of_up {k : Nat} (h : d.importSteps target = List.replicate k .up) :
    d.importStem target = joined (List.replicate k .up) := by
  have hn : Text.beforeTail? ".ets" (joined (List.replicate k .up)) = none := by
    refine Option.eq_none_iff_forall_ne_some.mpr fun s hs => ?_
    have hm : 's' ∈ (joined (List.replicate k .up)).toList := by
      rw [← Text.append_of_beforeTail? hs]
      simp
    refine Generation.Builder.not_mem_intercalate (by decide) (fun x hx => ?_) hm
    obtain ⟨c, hc, rfl⟩ := List.mem_map.mp hx
    rw [List.eq_of_mem_replicate hc]
    decide
  rw [importStem, h, hn, Option.getD_none]

/-- Where only steps up are left, the last of them runs together with the ending. -/
theorem spells_importText_up {k : Nat} (h : d.importSteps target = List.replicate k .up) :
    ∃ m n, m ≤ k ∧ (Component.name n).IsInner ∧
      Spells (d.importText target ++ ".ets") (List.replicate m .up ++ [.name n]) := by
  have hs := importStem_of_up h
  cases k with
  | zero => exact ⟨0, ".ets", le_rfl, ⟨rfl, by decide⟩, spells_importText_of_stem (by rw [hs]; rfl)⟩
  | succ k =>
      refine ⟨k, (".." : Bytes) ++ ".ets", Nat.le_succ k, ⟨rfl, by decide⟩, spells_importText_of_stem ?_⟩
      rw [hs, List.replicate_succ']
      exact joined_concat_append (List.replicate k .up) .up

/-! ### Where an import leads -/

def IsSource (p : Path) : Prop := ∃ before stem, p.way.names = before ++ [stem ++ (".ets" : Bytes)]

theorem segments_append {e : Bytes} (he : slash ∉ e) (a : Bytes) :
    ∃ before last, segments ⟨a ++ e⟩ = before ++ [last ++ e] := by
  obtain ⟨before, last, hs⟩ := (List.eq_nil_or_concat' (segments ⟨a⟩)).resolve_left (segments_ne_nil _)
  have hslash : ∀ x ∈ before ++ [last], slash ∉ x := fun x hx => slash_not_mem (hs ▸ hx)
  rw [List.forall_mem_append] at hslash
  have ha : a ++ e = [slash].intercalate (before ++ [last ++ e]) := by
    rw [intercalate_concat_append, ← hs]
    exact congrArg (· ++ e) (text_eq_intercalate ⟨a⟩)
  refine ⟨before, last, ?_⟩
  rw [ha]
  refine segments_intercalate (by simp) (List.forall_mem_append.mpr ⟨hslash.1, ?_⟩)
  simpa [he] using hslash.2

theorem isSource_of_suffix (h : (".ets" : Bytes) <:+ p.text) : p.IsSource := by
  obtain ⟨a, ha⟩ := h
  obtain ⟨before, stem, hs⟩ := segments_append (e := ".ets") (by decide) a
  have hs : p.segments = before ++ [stem ++ (".ets" : Bytes)] := by rw [← hs, ha]
  have hne : ∀ {x : Bytes}, x.getLast? ≠ some 0x73 → stem ++ (".ets" : Bytes) ≠ x := by
    rintro x hx rfl
    exact hx (by rw [List.getLast?_append]; rfl)
  have hi : Component.ofInner? (stem ++ (".ets" : Bytes)) = some (.name (stem ++ (".ets" : Bytes))) :=
    Component.ofInner?_eq_name_iff.mpr ⟨hne (by decide), hne (by decide), hne (by decide)⟩
  obtain ⟨init, hc⟩ : ∃ init, p.components = init ++ [.name (stem ++ (".ets" : Bytes))] := by
    cases before with
    | nil =>
        refine ⟨[], ?_⟩
        rw [components_of_segments hs, lead, if_neg (hne (by decide)), if_neg (hne (by decide)), hi]
        rfl
    | cons first before =>
        rw [List.cons_append] at hs
        have hf : [stem ++ (".ets" : Bytes)].filterMap Component.ofInner? = [.name (stem ++ (".ets" : Bytes))] := by simp [hi]
        rw [components_of_segments hs, List.filterMap_append, hf, ← List.append_assoc]
        exact ⟨_, rfl⟩
  rw [IsSource, way, hc, Way.walk_append]
  exact ⟨_, stem, rfl⟩

end Path

namespace Generation.Options

/-- What a generation scans are source files. -/
theorem isSource_sourcePath (o : Options) (file : String) : (o.sourcePath file).IsSource := by
  obtain ⟨stem, hf⟩ : ∃ stem, (if Text.endsWith ".ets" file then file else file ++ ".ets") = stem ++ ".ets" := by
    split
    next h => exact Text.exists_of_endsWith h
    next => exact ⟨file, rfl⟩
  refine Path.isSource_of_suffix ?_
  rw [sourcePath, hf]
  cases ha : Path.isAbsolute ⟨(stem ++ ".ets" : String)⟩ with
  | true =>
      rw [Path.child_of_isAbsolute ha, Text.Utf8.encode_append]
      exact List.suffix_append ..
  | false =>
      rw [Path.child_eq ha, Text.Utf8.encode_append, ← List.append_assoc]
      exact List.suffix_append ..

end Generation.Options

namespace Path

variable {d p target : Path}

theorem way_child_importText {cs : List Component} (hn : cs ≠ []) (hi : ∀ c ∈ cs, c.IsInner)
    (h : Spells (d.importText target ++ ".ets") cs) :
    (d.child (d.importText target ++ ".ets")).way = d.way.walk (cs.map Component.asShown) := by
  rw [way_child (isAbsolute_importText _ _ _), h.walk hn hi]

theorem importSteps_eq (h : target.isAbsolute = d.isAbsolute) :
    d.importSteps target = (stepsBetween target.way.folded d.way.folded).getD target.normalForm := by
  rw [importSteps, between_normalForm h]

theorem folded_of_ups_eq_zero {w : Way} (h : w.ups = 0) : w.folded = w.names.map .name := by
  rw [Way.folded, h]
  rfl

theorem isInner_of_mem_folded {c : Component} (h : c ∈ p.way.folded) : c.IsInner := by
  refine Component.isInner_climb (fun c hc => ?_) c h
  obtain ⟨n, hn, rfl⟩ := List.mem_map.mp hc
  exact isInner_of_mem_names hn

/-- The components of a file's normal form that it does not share with the directory's. An import has to write
them all. -/
def written (d target : Path) : List Component := unshared target.normalForm d.normalForm

theorem written_eq (h : target.isAbsolute = d.isAbsolute) : d.written target = unshared target.way.folded d.way.folded := by
  rw [written, normalForm_eq, normalForm_eq, h]
  cases d.isAbsolute with
  | true => exact if_pos rfl
  | false => rfl

/-- What is shown of names is as many names. -/
theorem exists_folded_asShown {w base : Way} {common below : List Component} (hb : base.ups = 0)
    (hc : base.folded = common ++ below) {rest : List Component} (hw : w.folded = common ++ rest) :
    ∃ names, common ++ rest.map Component.asShown = Way.folded ⟨w.ups, names⟩ := by
  have hm (names : List Bytes) : (names.map Component.name).map Component.asShown =
      (names.map fun n => Text.Utf8.encode (Text.Utf8.decodeLossy n)).map Component.name := by
    rw [List.map_map, List.map_map]
    rfl
  rcases Nat.mod_two_eq_zero_or_one w.ups with hu | hu
  · simp only [Way.folded, hu, List.replicate_zero, List.nil_append] at hw ⊢
    obtain ⟨shared, names, -, rfl, rfl⟩ := List.map_eq_append_iff.mp hw
    exact ⟨shared ++ names.map fun n => Text.Utf8.encode (Text.Utf8.decodeLossy n), by rw [hm, List.map_append]⟩
  · simp only [Way.folded, hu] at hw ⊢
    have hn : common = [] := by
      -- the one begins by going up, the other does not
      rw [folded_of_ups_eq_zero hb] at hc
      cases common with
      | nil => rfl
      | cons c common =>
          obtain rfl : c = .up := (List.cons.inj hw).1.symm
          have hm : Component.up ∈ base.names.map Component.name := hc ▸ List.mem_cons_self
          simp at hm
    subst hn
    rw [List.nil_append] at hw ⊢
    exact ⟨_, by rw [← hw, List.map_append, hm]; rfl⟩

/-- From a directory that does not lie above the start, the import of a file leads to the names of the file, as
long as those that it writes are texts. -/
theorem way_import (hd : d.way.ups = 0) (ha : target.isAbsolute = d.isAbsolute) (hs : target.IsSource)
    (hp : ¬ target.way.folded <+: d.way.folded) :
    ∃ names, (d.child (d.importText target ++ ".ets")).way = ⟨target.way.ups % 2, names⟩ ∧
      (names = target.way.names ↔ ∀ c ∈ d.written target, IsText c.text) := by
  obtain ⟨before, stem, hnames⟩ := hs
  have hup : Component.up ∉ d.way.folded := by simp [folded_of_ups_eq_zero hd]
  obtain ⟨common, below, ht, hb, hr, hsteps⟩ := stepsBetween_of_not_prefix hup hp
  rw [← written_eq ha] at ht hr hsteps
  replace hsteps : d.importSteps target = List.replicate below.length .up ++ d.written target := by
    rw [importSteps_eq ha, hsteps, Option.getD_some]
  obtain ⟨inner, hw⟩ : ∃ inner, d.written target = inner ++ [.name (stem ++ (".ets" : Bytes))] := by
    obtain ⟨inner, last, hl⟩ := (List.eq_nil_or_concat' (d.written target)).resolve_left hr
    rw [hl, Way.folded, hnames] at ht
    have hl' := congrArg List.getLast? ht
    exact ⟨inner, by rw [hl]; simpa [eq_comm] using hl'⟩
  have hinner : ∀ c ∈ d.importSteps target, c.IsInner := by
    rw [hsteps]
    refine Component.isInner_climb fun c hc => isInner_of_mem_folded (p := target) ?_
    rw [ht]
    exact List.mem_append_right _ hc
  have hspells := spells_importText (hsteps.trans (by rw [hw, ← List.append_assoc]))
  obtain ⟨names, hn⟩ := exists_folded_asShown hd hb ht
  refine ⟨names, ?_, ?_⟩
  · rw [way_child_importText (by simp [hsteps, hr]) hinner hspells, hsteps, List.map_append, List.map_replicate]
    rw [folded_of_ups_eq_zero hd] at hb
    obtain ⟨shared, gone, hg, rfl, rfl⟩ := List.map_eq_append_iff.mp hb
    have hw : d.way = ⟨0, shared ++ gone⟩ := by rw [← hd, ← hg]
    have hback : Way.walk ⟨0, shared ++ gone⟩ (List.replicate gone.length .up) = ⟨0, shared⟩ := by
      rw [Way.walk_replicate_up 0 (by simp)]
      simp
    rw [hw, Way.walk_append, Component.asShown_up, List.length_map, hback]
    calc Way.walk ⟨0, shared⟩ ((d.written target).map Component.asShown)
        = Way.walk {} (shared.map .name ++ (d.written target).map Component.asShown) := by
          rw [Way.walk_append {} (shared.map .name), Way.walk_names]
          rfl
      _ = ⟨target.way.ups % 2, names⟩ := by rw [hn, Way.walk_folded]
  · rw [← Component.map_asShown_eq_iff]
    constructor
    · rintro rfl
      exact List.append_cancel_left (hn.trans ht)
    · intro hs
      rw [hs, ← ht] at hn
      exact (List.map_injective_iff.mpr Component.name_injective (List.append_cancel_left hn)).symm

/-- From below a path no import goes up above the start. -/
theorem ups_import_of_prefix (hd : d.way.ups = 0) (ha : target.isAbsolute = d.isAbsolute)
    (hp : target.way.folded <+: d.way.folded) : (d.child (d.importText target ++ ".ets")).way.ups = 0 := by
  obtain ⟨below, hb⟩ := hp
  have hsteps : d.importSteps target = List.replicate below.length .up := by
    rw [importSteps_eq ha, ← hb, stepsBetween_append, Option.getD_some]
  obtain ⟨m, n, hm, hn, hs⟩ := spells_importText_up hsteps
  have hinner : ∀ c ∈ List.replicate m Component.up ++ [.name n], c.IsInner :=
    Component.isInner_climb (by simpa using hn)
  have hl : m ≤ d.way.names.length := by
    have hl := congrArg List.length hb
    rw [folded_of_ups_eq_zero hd, List.length_append, List.length_map] at hl
    omega
  have hw : d.way = ⟨0, d.way.names⟩ := by rw [← hd]
  rw [way_child_importText (by simp) hinner hs, hw, List.map_append, List.map_replicate, Component.asShown_up,
    Way.walk_append, Way.walk_replicate_up 0 hl]
  rfl

theorem folded_prefix_iff (hd : d.way.ups = 0) :
    target.way.folded <+: d.way.folded ↔ target.way.ups % 2 = 0 ∧ target.way.names <+: d.way.names := by
  rw [folded_of_ups_eq_zero hd, Way.folded]
  rcases Nat.mod_two_eq_zero_or_one target.way.ups with hu | hu
  · simp [hu, List.prefix_map_iff_of_injective Component.name_injective]
  · cases d.way.names <;> simp [hu]

structure IsImportable (d target : Path) : Prop where
  absolute : target.isAbsolute = true
  ups : target.way.ups = 0
  source : target.IsSource
  apart : ¬ target.way.names <+: d.way.names

/-- The names that the import of a file has to write are texts. -/
def IsLegible (d target : Path) : Prop := ∀ c ∈ d.written target, IsText c.text

theorem mem_of_mem_unshared {target base : List Component} {c : Component} (h : c ∈ unshared target base) : c ∈ target := by
  induction target generalizing base with
  | nil => cases base <;> exact h
  | cons t target ih =>
      cases base with
      | nil => exact h
      | cons b base =>
          rw [unshared] at h
          split at h
          · exact List.mem_cons_of_mem _ (ih h)
          · exact h

theorem isText_of_mem_components (hp : IsText p.text) {c : Component} (h : c ∈ p.components) : IsText c.text := by
  obtain ⟨first, rest, hs⟩ := List.exists_cons_of_ne_nil p.segments_ne_nil
  have htext : ∀ x ∈ first :: rest, IsText x := fun x hx => isText_of_mem_segments hp (hs ▸ hx)
  rw [components_of_segments hs, List.mem_append] at h
  rcases h with h | h
  · rcases lead_cases (Option.mem_toList.mp h) with ⟨rfl, -⟩ | rfl | h
    · exact isText_encode _
    · exact isText_encode _
    · rw [Component.text_of_ofInner? h]
      exact htext _ (by simp)
  · obtain ⟨segment, hm, hc⟩ := List.mem_filterMap.mp h
    rw [Component.text_of_ofInner? hc]
    exact htext _ (by simp [hm])

theorem isLegible_of_isText (d : Path) (h : IsText target.text) : d.IsLegible target := by
  intro c hc
  cases c with
  | name n =>
      have hn := mem_of_mem_unshared hc
      rw [normalForm_eq, List.mem_append] at hn
      have hf : Component.name n ∈ target.way.folded := by
        refine hn.resolve_left ?_
        split <;> simp
      have hm : n ∈ target.way.names := by simpa [Way.folded] using hf
      exact isText_of_mem_components h ((Way.mem_names_walk hm).resolve_left (by simp))
  | _ => exact isText_encode _

/-- The import of a file leads back to the file exactly if the names that it has to write are texts, and no two
such files have the same import. -/
theorem import_leads_back_iff {d target : Path} (hd : d.isAbsolute = true) (hu : d.way.ups = 0)
    (h : d.IsImportable target) :
    ((d.child (d.importText target ++ ".ets")).normalForm = target.normalForm ↔ d.IsLegible target) ∧
      (IsText target.text → d.IsLegible target) ∧ target.normalForm = .root :: target.way.names.map .name ∧
      ∀ other, d.IsImportable other → d.IsLegible other → d.IsLegible target →
        d.importText other = d.importText target → other.normalForm = target.normalForm := by
  have hback {p : Path} (h : d.IsImportable p) :
      (d.child (d.importText p ++ ".ets")).normalForm = p.normalForm ↔ d.IsLegible p := by
    obtain ⟨names, hw, hn⟩ := way_import hu (h.absolute.trans hd.symm) h.source fun hp =>
      h.apart ((folded_prefix_iff hu).mp hp).2
    rw [IsLegible, ← hn, normalForm_eq, normalForm_eq, isAbsolute_child_importText, hd, h.absolute, hw, h.ups,
      folded_of_ups_eq_zero rfl, folded_of_ups_eq_zero h.ups, List.append_cancel_left_eq,
      (List.map_injective_iff.mpr Component.name_injective).eq_iff]
  refine ⟨hback h, isLegible_of_isText d, ?_, fun other ho hl hl' he => ?_⟩
  · rw [normalForm_eq, h.absolute, folded_of_ups_eq_zero h.ups]
    rfl
  · rw [← (hback ho).mpr hl, he, (hback h).mpr hl']

def featureDirectory : Path := ⟨"/app/./feature/src//gen"⟩

def featurePage : Path := ⟨"/app/feature/src/pages/../Home.ets"⟩

def sharedPage : Path := ⟨"/app/feature/../shared/Home.ets"⟩

theorem feature_import_leads_back :
    featureDirectory.isAbsolute = true ∧ featureDirectory.way.ups = 0 ∧
      featureDirectory.IsImportable featurePage ∧ featureDirectory.IsImportable sharedPage ∧
      featureDirectory.IsLegible featurePage ∧ featureDirectory.IsLegible sharedPage ∧
      featureDirectory.importText featurePage = "../Home" ∧
      featureDirectory.importText sharedPage = "../../../shared/Home" ∧
      (featureDirectory.child (featureDirectory.importText featurePage ++ ".ets")).normalForm = featurePage.normalForm ∧
      (featureDirectory.importText sharedPage = featureDirectory.importText featurePage →
        sharedPage.normalForm = featurePage.normalForm) := by
  have hd : featureDirectory.isAbsolute = true := by decide
  have hu : featureDirectory.way.ups = 0 := by decide
  have hp : featureDirectory.IsImportable featurePage :=
    ⟨by decide, by decide, ⟨["app", "feature", "src"], "Home", by decide⟩, by decide⟩
  have hs : featureDirectory.IsImportable sharedPage :=
    ⟨by decide, by decide, ⟨["app", "shared"], "Home", by decide⟩, by decide⟩
  obtain ⟨hback, hlegible, -, hone⟩ := import_leads_back_iff hd hu hp
  have hl := hlegible (isText_encode _)
  have hl' := isLegible_of_isText featureDirectory (isText_encode _ : IsText sharedPage.text)
  exact ⟨hd, hu, hp, hs, hl, hl', by decide, by decide, hback.mpr hl, hone sharedPage hs hl' hl⟩

/-- A page whose name is a single byte of a longer character, ahead of the ending. -/
def strayPage (byte : UInt8) : Path := ⟨("/m/" : Bytes) ++ byte :: (".ets" : Bytes)⟩

/-- Two files whose names are no texts have the same import, and it leads to neither. -/
theorem stray_imports_collide :
    let d : Path := ⟨"/m"⟩
    d.isAbsolute = true ∧ d.way.ups = 0 ∧ d.IsImportable (strayPage 0xFF) ∧ d.IsImportable (strayPage 0xFE) ∧
      (strayPage 0xFF).normalForm ≠ (strayPage 0xFE).normalForm ∧
      d.importText (strayPage 0xFF) = "./\uFFFD" ∧ d.importText (strayPage 0xFE) = "./\uFFFD" ∧
      (d.child (d.importText (strayPage 0xFF) ++ ".ets")).normalForm ≠ (strayPage 0xFF).normalForm ∧
      (d.child (d.importText (strayPage 0xFE) ++ ".ets")).normalForm ≠ (strayPage 0xFE).normalForm := by
  intro d
  have hi (byte : UInt8) (hb : (strayPage byte).way = ⟨0, ["m", byte :: (".ets" : Bytes)]⟩) :
      d.IsImportable (strayPage byte) := by
    refine ⟨rfl, by rw [hb], ⟨["m"], [byte], by rw [hb]; rfl⟩, ?_⟩
    have hd : d.way.names = ["m"] := by decide
    rw [hb, hd]
    exact fun hp => absurd hp.length_le (by simp)
  refine ⟨by decide, by decide, hi _ (by decide), hi _ (by decide), by decide, by decide, by decide, by decide, by decide⟩

/-- Among relative paths the import of a file leads back to the file exactly if that lies at most one step
above where the paths start, and the names that the import has to write are texts. -/
theorem relative_import_leads_back_iff {d target : Path} (hd : d.isAbsolute = false) (ht : target.isAbsolute = false)
    (hu : d.way.ups = 0) (hs : target.IsSource) (hp : ¬ (target.way.ups = 0 ∧ target.way.names <+: d.way.names)) :
    (d.child (d.importText target ++ ".ets")).isAbsolute = false ∧
      ((d.child (d.importText target ++ ".ets")).way = target.way ↔ target.way.ups ≤ 1 ∧ d.IsLegible target) ∧
      (IsText target.text → d.IsLegible target) := by
  refine ⟨by rw [isAbsolute_child_importText, hd], ?_, isLegible_of_isText d⟩
  by_cases hf : target.way.folded <+: d.way.folded
  · have hn := (folded_prefix_iff hu).mp hf
    have hz := ups_import_of_prefix hu (ht.trans hd.symm) hf
    refine iff_of_false (fun he => hp ⟨he ▸ hz, hn.2⟩) fun hle => hp ⟨by omega, hn.2⟩
  · obtain ⟨names, hw, hn⟩ := way_import hu (ht.trans hd.symm) hs hf
    have hone : target.way.ups % 2 = target.way.ups ↔ target.way.ups ≤ 1 := by omega
    rw [hw, IsLegible, ← hn, ← hone]
    constructor
    · rintro he
      exact ⟨congrArg Way.ups he, congrArg Way.names he⟩
    · rintro ⟨hm, rfl⟩
      rw [hm]

def relativeModule : Generation.Options := {}

theorem relative_import_leads_back_one_up :
    let d := relativeModule.builderDirectory
    let shared := relativeModule.sourcePath "../shared/Home"
    d.isAbsolute = false ∧ shared.isAbsolute = false ∧ d.way.ups = 0 ∧ shared.way = ⟨1, ["shared", "Home.ets"]⟩ ∧
      d.IsLegible shared ∧ d.importText shared = "../../../../../shared/Home" ∧
      (d.child (d.importText shared ++ ".ets")).way = shared.way := by
  intro d shared
  have hd : d.isAbsolute = false := by decide
  have ht : shared.isAbsolute = false := by decide
  have hu : d.way.ups = 0 := by decide
  have hw : shared.way = ⟨1, ["shared", "Home.ets"]⟩ := by decide
  obtain ⟨-, hback, hlegible⟩ := relative_import_leads_back_iff hd ht hu (relativeModule.isSource_sourcePath _) (by simp [hw])
  have hl := hlegible (isText_child (isText_encode ".") _)
  exact ⟨hd, ht, hu, hw, hl, by decide, hback.mpr ⟨by simp [hw], hl⟩⟩

/-- Two steps up above the start are lost: the import leads to another file. -/
theorem import_loses_two_up :
    let d := relativeModule.builderDirectory
    let shared := relativeModule.sourcePath "../../shared/Home"
    d.isAbsolute = false ∧ shared.isAbsolute = false ∧ d.way.ups = 0 ∧ (".ets" : Bytes) <:+ shared.text ∧
      shared.IsSource ∧ ¬ (shared.way.ups = 0 ∧ shared.way.names <+: d.way.names) ∧
      shared.way = ⟨2, ["shared", "Home.ets"]⟩ ∧ d.importText shared = "../../../../shared/Home" ∧
      (d.child (d.importText shared ++ ".ets")).way = ⟨0, ["shared", "Home.ets"]⟩ ∧
      (d.child (d.importText shared ++ ".ets")).way ≠ shared.way := by
  intro d shared
  exact ⟨by decide, by decide, by decide, by decide, relativeModule.isSource_sourcePath _, by decide, by decide,
    by decide, by decide, by decide⟩

end Path

end ArkRoutes
