import ArkRoutes.Proofs.Files
import ArkRoutes.Proofs.Legibility

namespace ArkRoutes

namespace Path

variable {p d : Path}

theorem text_eq_intercalate (p : Path) : p.text = [slash].intercalate p.segments := (List.intercalate_splitOn slash).symm

theorem segments_ne_nil (p : Path) : p.segments ≠ [] := List.splitOn_ne_nil slash p.text

theorem slash_not_mem {segment : Bytes} (h : segment ∈ p.segments) : slash ∉ segment := not_mem_of_mem_splitOn h

theorem segments_slash (a b : Bytes) : segments ⟨a ++ slash :: b⟩ = segments ⟨a⟩ ++ segments ⟨b⟩ :=
  List.splitOn_append_cons_self a b

theorem segments_intercalate {segments : List Bytes} (hn : segments ≠ []) (h : ∀ x ∈ segments, slash ∉ x) :
    Path.segments ⟨[slash].intercalate segments⟩ = segments :=
  List.splitOn_intercalate slash h hn

theorem segments_eq_singleton_iff : p.segments = [[]] ↔ p.text = [] := by
  constructor
  · intro h
    rw [text_eq_intercalate, h]
    rfl
  · intro h
    rw [segments, h, List.splitOn_nil]

theorem isAbsolute_iff : p.isAbsolute = true ↔ p.text ≠ [] ∧ p.segments.head? = some [] := by
  obtain ⟨text⟩ := p
  cases text with
  | nil => simp [isAbsolute]
  | cons b rest =>
      rw [isAbsolute, segments, List.splitOn_cons_eq_if_modifyHead]
      by_cases hb : b = slash
      · simp [hb]
      · obtain ⟨first, others, hs⟩ := List.exists_cons_of_ne_nil (List.splitOn_ne_nil slash rest)
        simp [hb, hs]

def glue (d : Path) : Bytes := if d.text = [] || d.endsWithSlash then [] else [slash]

theorem isText_glue (d : Path) : IsText d.glue := by
  rw [glue]
  split
  · exact isText_encode ""
  · exact isText_encode "/"

section Child

variable {x y : String}

theorem child_eq (hx : Path.isAbsolute ⟨x⟩ = false) : d.child x = ⟨d.text ++ d.glue ++ x⟩ := by
  rw [child, join, if_neg (by simp [hx]), glue]
  split <;> simp

theorem child_of_isAbsolute (hx : Path.isAbsolute ⟨x⟩ = true) : d.child x = ⟨x⟩ := by
  simp [child, join, hx]

theorem child_of_text_eq_nil (hd : d.text = []) : d.child x = ⟨x⟩ := by
  simp [child, join, hd]

theorem isText_child (hd : IsText d.text) (x : String) : IsText (d.child x).text := by
  cases hx : Path.isAbsolute ⟨x⟩ with
  | true =>
      rw [child_of_isAbsolute hx]
      exact isText_encode x
  | false =>
      rw [child_eq hx]
      exact (hd.append d.isText_glue).append (isText_encode x)

theorem glue_append {b : Bytes} (hb : b ≠ []) (a : Bytes) : glue ⟨a ++ b⟩ = glue ⟨b⟩ := by
  simp [glue, endsWithSlash, hb, List.getLast?_append]

theorem glue_glued (d : Path) : glue ⟨d.text ++ d.glue⟩ = [] := by
  by_cases h : (d.text = [] || d.endsWithSlash) = true
  · rw [glue.eq_def d, if_pos h, List.append_nil, glue, if_pos h]
  · rw [glue.eq_def d, if_neg h, glue_append (by decide)]
    decide

theorem isAbsolute_append {b : Bytes} (hb : b ≠ []) (a : Bytes) : Path.isAbsolute ⟨b ++ a⟩ = Path.isAbsolute ⟨b⟩ := by
  obtain ⟨c, cs, rfl⟩ := List.exists_cons_of_ne_nil hb
  rfl

theorem isAbsolute_append_text (hy : y ≠ "") (x : String) :
    Path.isAbsolute ⟨(y ++ x : String)⟩ = Path.isAbsolute ⟨y⟩ := by
  rw [Text.Utf8.encode_append]
  exact isAbsolute_append (by simpa using hy) _

theorem extended_child (hd : IsText d.text) (hy : y ≠ "") (x : String) : (d.child y).extended x = d.child (y ++ x) := by
  have hx := isAbsolute_append_text hy x
  rw [extended_eq_iff.mpr (isText_child hd y)]
  cases ha : Path.isAbsolute ⟨y⟩ with
  | true => rw [child_of_isAbsolute ha, child_of_isAbsolute (hx.trans ha), Text.Utf8.encode_append]
  | false => rw [child_eq ha, child_eq (hx.trans ha), Text.Utf8.encode_append, List.append_assoc]

/-- Going down twice is going down once, by a way that does not depend on where it starts. -/
theorem child_child (y x : String) : ∃ z : String, (y ≠ "" → z ≠ "") ∧ ∀ d : Path, (d.child y).child x = d.child z := by
  cases hx : Path.isAbsolute ⟨x⟩ with
  | true =>
      refine ⟨x, ?_, fun d => ?_⟩
      · rintro - rfl
        cases hx
      · rw [child_of_isAbsolute hx, child_of_isAbsolute hx]
  | false =>
      by_cases hy : y = ""
      · subst hy
        refine ⟨x, by simp, fun d => ?_⟩
        rw [child_eq (x := "") (by decide), child_eq hx, child_eq hx, Text.Utf8.encode_empty, List.append_nil, glue_glued,
          List.append_nil]
      · have hyb : (y : Bytes) ≠ [] := by simpa using hy
        obtain ⟨g, hg⟩ := isText_glue ⟨y⟩
        have hz : ((y ++ (g ++ x) : String) : Bytes) = y ++ (glue ⟨y⟩ ++ x) := by
          rw [Text.Utf8.encode_append, Text.Utf8.encode_append, hg]
        have hza : Path.isAbsolute ⟨(y ++ (g ++ x) : String)⟩ = Path.isAbsolute ⟨y⟩ := by
          rw [hz]
          exact isAbsolute_append hyb _
        refine ⟨y ++ (g ++ x), fun _ => by simp [hy], fun d => ?_⟩
        cases ha : Path.isAbsolute ⟨y⟩ with
        | true =>
            rw [child_of_isAbsolute ha, child_of_isAbsolute (hza.trans ha), child_eq hx, hz, List.append_assoc]
        | false =>
            rw [child_eq ha, child_eq (hza.trans ha), child_eq hx, glue_append hyb, hz]
            simp only [List.append_assoc]

end Child

/-- Only a path that ends with a slash has an empty segment at its end. -/
theorem endsWithSlash_of_segments {before : List Bytes} (hb : before ≠ []) (hs : p.segments = before ++ [[]]) :
    p.endsWithSlash = true := by
  have hslash : ∀ x ∈ before, slash ∉ x := fun x hx => slash_not_mem (p := p) (by simp [hs, hx])
  have ht : p.segments = segments ⟨[slash].intercalate before ++ slash :: []⟩ := by
    rw [segments_slash, segments_intercalate hb hslash, hs]
    rfl
  rw [endsWithSlash, text_eq_intercalate, ht, ← text_eq_intercalate]
  simp

theorem segments_of_endsWithSlash (h : p.endsWithSlash = true) : ∃ a, p.text = a ++ [slash] ∧
    p.segments = segments ⟨a⟩ ++ [[]] := by
  obtain ⟨a, ha⟩ := List.getLast?_eq_some_iff.mp (by simpa [endsWithSlash] using h)
  refine ⟨a, ha, ?_⟩
  have hs := segments_slash a []
  rwa [← ha] at hs

theorem segments_child {x : String} (hx : Path.isAbsolute ⟨x⟩ = false) (hd : d.text ≠ []) :
    ∃ l, l ≠ [] ∧ (d.segments = l ∨ d.segments = l ++ [[]]) ∧ (d.child x).segments = l ++ segments ⟨x⟩ := by
  by_cases he : d.endsWithSlash = true
  · obtain ⟨a, ht, hs⟩ := segments_of_endsWithSlash he
    have hc : d.child x = ⟨a ++ slash :: x⟩ := by simp [child, join, hx, he, ht]
    exact ⟨segments ⟨a⟩, segments_ne_nil _, .inr hs, by rw [hc, segments_slash]⟩
  · have hc : d.child x = ⟨d.text ++ slash :: x⟩ := by simp [child, join, hx, hd, he]
    exact ⟨d.segments, segments_ne_nil d, .inl rfl, by rw [hc, segments_slash]⟩

theorem text_child_ne {x : String} (hx : Path.isAbsolute ⟨x⟩ = false) (hd : d.text ≠ []) : (d.child x).text ≠ [] := by
  obtain ⟨l, hl, -, hc⟩ := segments_child hx hd
  rw [Ne, ← segments_eq_singleton_iff, hc]
  intro h
  rcases List.append_eq_singleton_iff.mp h with ⟨h, -⟩ | ⟨-, h⟩
  · exact hl h
  · exact segments_ne_nil _ h

theorem isAbsolute_child {x : String} (hx : Path.isAbsolute ⟨x⟩ = false) (hd : d.text ≠ []) :
    (d.child x).isAbsolute = d.isAbsolute := by
  rw [child_eq hx, List.append_assoc]
  exact isAbsolute_append hd _

theorem isIdle_iff {segment : Bytes} : isIdle segment = true ↔ segment = [] ∨ segment = "." := by simp [isIdle]

/-- What is left of a path as its parent: nothing of the root, the empty path of a single name, and
else all segments before the last name. -/
theorem parent?_cases (p : Path) :
    (∃ idle, (∀ x ∈ idle, isIdle x = true) ∧ ((p.segments = [] :: idle ∧ p.parent? = none) ∨
      ∃ first, first ≠ [] ∧ p.segments = first :: idle ∧ p.parent? = some ⟨[]⟩)) ∨
    ∃ first before gap last idle, p.segments = first :: (before ++ gap ++ last :: idle) ∧
      (∀ x ∈ gap, isIdle x = true) ∧ (∀ x ∈ idle, isIdle x = true) ∧ isIdle last = false ∧
        p.parent? = some (ofSegments (first :: before)) := by
  cases hs : p.segments with
  | nil => exact (segments_ne_nil p hs).elim
  | cons first rest =>
      obtain ⟨idle, hr, hi⟩ := eq_append_of_dropWhile_reverse isIdle rest
      cases hd : rest.reverse.dropWhile isIdle with
      | nil =>
          left
          refine ⟨idle, hi, ?_⟩
          have hri : rest = idle := by simpa [hd] using hr
          by_cases hf : first = []
          · left
            refine ⟨by rw [hf, hri], ?_⟩
            simp [parent?, hs, hd, hf]
          · right
            exact ⟨first, hf, by rw [hri], by simp [parent?, hs, hd, hf]⟩
      | cons last before =>
          right
          obtain ⟨gap, hb, hg⟩ := eq_append_of_dropWhile_reverse isIdle before.reverse
          rw [List.reverse_reverse] at hb
          refine ⟨first, (before.dropWhile isIdle).reverse, gap, last, idle, ?_, hg, hi, ?_, ?_⟩
          · rw [hr, hd, List.reverse_cons, hb]
            simp
          · simpa [hd] using List.head?_dropWhile_not isIdle rest.reverse
          · simp [parent?, hs, hd]

/-- The first segments of a path, written as a path; the root keeps its slash. -/
theorem segments_ofSegments {first : Bytes} {before rest : List Bytes} (h : p.segments = first :: (before ++ rest)) :
    (ofSegments (first :: before)).segments = first :: before ∨
      first = [] ∧ before = [] ∧ (ofSegments (first :: before)).segments = [[], []] := by
  by_cases hb : first = [] ∧ before = []
  · obtain ⟨rfl, rfl⟩ := hb
    exact .inr ⟨rfl, rfl, by decide⟩
  · left
    have ho : ofSegments (first :: before) = ⟨[slash].intercalate (first :: before)⟩ := by
      rw [ofSegments]
      simpa using hb
    rw [ho]
    refine segments_intercalate (by simp) ?_
    intro x hx
    have hm : x ∈ (first :: before) ++ rest := List.mem_append_left _ hx
    exact slash_not_mem (p := p) (h ▸ hm)

theorem text_ofSegments_ne {first : Bytes} {before rest : List Bytes} (h : p.segments = first :: (before ++ rest)) :
    (ofSegments (first :: before)).text ≠ [] := by
  rw [Ne, ← segments_eq_singleton_iff]
  rcases segments_ofSegments h with hs | ⟨-, -, hs⟩ <;> rw [hs]
  · rintro ⟨⟩
    exact absurd hs (by decide)
  · simp

theorem isAbsolute_ofSegments {first : Bytes} {before rest : List Bytes} (h : p.segments = first :: (before ++ rest))
    (hp : p.text ≠ []) : (ofSegments (first :: before)).isAbsolute = p.isAbsolute := by
  rw [Bool.eq_iff_iff, isAbsolute_iff, isAbsolute_iff]
  rcases segments_ofSegments h with hs | ⟨rfl, -, hs⟩ <;> simp [text_ofSegments_ne h, hp, hs, h]

theorem isText_parent {q : Path} (hp : IsText p.text) (hq : p.parent? = some q) : IsText q.text := by
  obtain ⟨idle, -, ⟨-, hn⟩ | ⟨first, -, -, hn⟩⟩ | ⟨first, before, gap, last, idle, hs, -, -, -, hn⟩ := p.parent?_cases
  · simp [hn] at hq
  · obtain rfl : (⟨[]⟩ : Path) = q := by simpa [hn] using hq
    exact isText_encode ""
  · obtain rfl : ofSegments (first :: before) = q := by simpa [hn] using hq
    have hs' : p.segments = first :: (before ++ (gap ++ last :: idle)) := by simpa using hs
    rw [text_eq_intercalate]
    refine .intercalate fun x hx => ?_
    rcases segments_ofSegments hs' with h | ⟨-, -, h⟩ <;> rw [h] at hx
    · refine isText_of_mem_segments hp ?_
      rw [hs', ← List.cons_append]
      exact List.mem_append_left _ hx
    · obtain rfl : x = [] := by simpa using hx
      exact isText_encode ""

end Path

namespace FileTree

variable {t : FileTree} {here there place : Place} {segment : Bytes} {segments idle : List Bytes}

theorem step_of_isIdle (hd : t.find? here = some .directory) (hi : Path.isIdle segment = true) :
    t.step here segment = .ok here := by
  rcases Path.isIdle_iff.mp hi with rfl | rfl <;> simp [step, hd]

/-- A step leaves a directory: it stays, goes up, or goes down to something that is there. -/
theorem step_cases (h : t.step here segment = .ok there) : t.find? here = some .directory ∧
    ((Path.isIdle segment = true ∧ there = here) ∨ (segment = ".." ∧ there = here.dropLast) ∨
      (Path.isIdle segment = false ∧ segment ≠ ".." ∧ (t.find? (here ++ [segment])).isSome = true ∧
        there = here ++ [segment])) := by
  rw [step] at h
  cases hd : t.find? here with
  | none => simp [hd] at h
  | some e =>
      cases e with
      | file content => simp [hd] at h
      | directory =>
          refine ⟨rfl, ?_⟩
          simp only [hd] at h
          split at h
          next hi =>
            cases h
            exact .inl ⟨by simpa [Path.isIdle] using hi, rfl⟩
          next hi =>
            have hi : Path.isIdle segment = false := by simpa [Path.isIdle] using hi
            split at h
            next hu =>
              cases h
              exact .inr (.inl ⟨hu, rfl⟩)
            next hu =>
              split at h
              next hs =>
                cases h
                exact .inr (.inr ⟨hi, hu, hs, rfl⟩)
              next => cases h

@[simp] theorem follow_nil (here : Place) : t.follow here [] = .ok here := rfl

theorem follow_cons (here : Place) (segment : Bytes) (segments : List Bytes) :
    t.follow here (segment :: segments) = (t.step here segment).bind (t.follow · segments) := rfl

theorem follow_append (here : Place) (segments rest : List Bytes) :
    t.follow here (segments ++ rest) = (t.follow here segments).bind (t.follow · rest) :=
  List.foldlM_append

theorem follow_idle (hi : ∀ x ∈ idle, Path.isIdle x = true) (h : t.follow here idle = .ok there) : there = here := by
  induction idle with
  | nil => simpa [eq_comm] using h
  | cons x idle ih =>
      obtain ⟨next, hs, hf⟩ := ok_of_bind h
      obtain ⟨-, ⟨-, rfl⟩ | ⟨rfl, -⟩ | ⟨hx, -⟩⟩ := step_cases hs
      · exact ih (fun y hy => hi y (by simp [hy])) hf
      · simp [Path.isIdle] at hi
      · simp [hi x (by simp)] at hx

theorem follow_idle_of_directory (hd : t.find? here = some .directory) (hi : ∀ x ∈ idle, Path.isIdle x = true) :
    t.follow here idle = .ok here := by
  induction idle with
  | nil => rfl
  | cons x idle ih =>
      rw [follow_cons, step_of_isIdle hd (hi x (by simp))]
      exact ih fun y hy => hi y (by simp [hy])

theorem length_follow_le (h : t.follow here segments = .ok there) : there.length ≤ here.length + segments.length := by
  induction segments generalizing here with
  | nil =>
      cases h
      simp
  | cons x segments ih =>
      obtain ⟨next, hs, hf⟩ := ok_of_bind h
      have hl := ih hf
      have hn : next.length ≤ here.length + 1 := by
        obtain ⟨-, ⟨-, rfl⟩ | ⟨-, rfl⟩ | ⟨-, -, -, rfl⟩⟩ := step_cases hs <;> grind
      rw [List.length_cons]
      omega

theorem mem_of_follow (h : t.follow here segments = .ok there) : ∀ x ∈ there, x ∈ here ∨ x ∈ segments := by
  induction segments generalizing here with
  | nil =>
      cases h
      exact fun x hx => .inl hx
  | cons y segments ih =>
      obtain ⟨next, hs, hf⟩ := ok_of_bind h
      intro x hx
      rcases ih hf x hx with hx | hx
      · obtain ⟨-, ⟨-, rfl⟩ | ⟨-, rfl⟩ | ⟨-, -, -, rfl⟩⟩ := step_cases hs
        · exact .inl hx
        · exact .inl (List.dropLast_subset here hx)
        · rcases List.mem_append.mp hx with hx | hx
          · exact .inl hx
          · exact .inr (by simp [List.mem_singleton.mp hx])
      · exact .inr (List.mem_cons_of_mem y hx)

theorem locate_of_text_ne {p : Path} (h : p.text ≠ []) : t.locate p = t.follow (t.start p) p.segments := by
  simp [locate, h]

theorem text_ne_of_locate {p : Path} (h : t.locate p = .ok place) : p.text ≠ [] := by
  intro he
  simp [locate, he] at h

theorem isText_canonical {p q : Path} (ht : ∀ name ∈ t.home, IsText name) (hp : IsText p.text)
    (h : t.canonical p = .ok q) : IsText q.text := by
  rw [canonical] at h
  obtain ⟨place, hl, rfl⟩ : ∃ place, t.locate p = .ok place ∧ pathOf place = q := by
    cases hl : t.locate p with
    | error cause => cases hl ▸ h
    | ok place =>
        rw [hl] at h
        exact ⟨place, rfl, Except.ok.inj h⟩
  have hn := locate_of_text_ne (text_ne_of_locate hl) ▸ hl
  refine (isText_encode "/").append (.intercalate fun name hm => ?_)
  rcases mem_of_follow hn name hm with hm | hm
  · rw [start] at hm
    split at hm
    · cases hm
    · exact ht name hm
  · exact Path.isText_of_mem_segments hp hm

/-- The place from which the paths below a directory go on; those below the empty path start at home. -/
def base (t : FileTree) (d : Path) : Except IoError Place := if d.text = [] then .ok t.home else t.locate d

theorem base_of_locate {d : Path} (h : t.locate d = .ok place) : t.base d = .ok place := by
  simp [base, text_ne_of_locate h, h]

theorem locate_child {d : Path} {x : String} (hb : t.base d = .ok here) (hd : t.find? here = some .directory)
    (hx : Path.isAbsolute ⟨x⟩ = false) (hne : d.text ≠ [] ∨ x ≠ "") :
    t.locate (d.child x) = t.follow here (Path.segments ⟨x⟩) := by
  by_cases he : d.text = []
  · have hxe : x ≠ "" := by simpa [he] using hne
    cases (by simpa [base, he] using hb : t.home = here)
    rw [Path.child_of_text_eq_nil he, locate_of_text_ne (by simpa using hxe), start, hx]
    rfl
  · obtain ⟨l, -, hs, hc⟩ := Path.segments_child hx he
    have hstart : t.start (d.child x) = t.start d := by rw [start, start, Path.isAbsolute_child hx he]
    have hl : t.follow (t.start d) l = .ok here := by
      simp only [base, he, if_false, locate_of_text_ne he] at hb
      rcases hs with hs | hs
      · rwa [← hs]
      · rw [hs, follow_append] at hb
        obtain ⟨next, hl, hf⟩ := ok_of_bind hb
        rw [hl, follow_idle (by simp [Path.isIdle]) hf]
    rw [locate_of_text_ne (Path.text_child_ne hx he), hstart, hc, follow_append, hl]
    rfl

theorem base_ofSegments {p : Path} {first : Bytes} {before rest : List Bytes} (hp : p.text ≠ [])
    (hs : p.segments = first :: (before ++ rest)) (hf : t.follow (t.start p) (first :: before) = .ok here) :
    t.base (Path.ofSegments (first :: before)) = .ok here := by
  have hne := Path.text_ofSegments_ne hs
  have hstart : t.start (Path.ofSegments (first :: before)) = t.start p := by
    rw [start, start, Path.isAbsolute_ofSegments hs hp]
  simp only [base, hne, if_false, locate_of_text_ne hne, hstart]
  rcases Path.segments_ofSegments hs with hq | ⟨rfl, rfl, hq⟩
  · rw [hq, hf]
  · obtain ⟨next, hstep, hnext⟩ := ok_of_bind hf
    cases hnext
    have hd := (step_cases hstep).1
    obtain rfl := follow_idle (by simp [Path.isIdle]) hf
    rw [hq, follow_cons, step_of_isIdle hd (by decide)]
    exact hf

/-- What comes of the last name of a path: its parent leads to the place above, unless the path ends by
going up or has no name at all. -/
theorem locate_parent {p : Path} (hp : t.locate p = .ok place) :
    (∃ q, p.parent? = some q ∧ t.base q = .ok place.dropLast ∧ t.find? place.dropLast = some .directory ∧
      place ≠ []) ∨ (∃ here, t.find? here = some .directory ∧ place = here.dropLast ∧ (".." : Bytes) ∈ p.segments) ∨
    (t.find? place = some .directory ∧ (p.isAbsolute = true → p.parent? = none ∧ place = [])) := by
  have hne := text_ne_of_locate hp
  have hw := hp
  rw [locate_of_text_ne hne] at hw
  obtain ⟨idle, hi, ⟨hs, hq⟩ | ⟨first, hf, hs, hq⟩⟩ | ⟨first, before, gap, last, idle, hs, hg, hi, hlast, hq⟩ :=
    p.parent?_cases
  · have ha : p.isAbsolute = true := Path.isAbsolute_iff.mpr ⟨hne, by rw [hs]; rfl⟩
    have hroot : place = [] := by
      rw [start, ha, hs] at hw
      exact follow_idle (by simpa [Path.isIdle] using hi) hw
    subst hroot
    exact .inr (.inr ⟨rfl, fun _ => ⟨hq, rfl⟩⟩)
  · have ha : p.isAbsolute = false := by
      rw [Bool.eq_false_iff, Ne, Path.isAbsolute_iff, hs]
      simp [hf]
    rw [start, ha, hs] at hw
    obtain ⟨next, hstep, hidle⟩ := ok_of_bind hw
    obtain rfl := follow_idle hi hidle
    obtain ⟨hd, ⟨-, rfl⟩ | ⟨rfl, rfl⟩ | ⟨-, -, -, rfl⟩⟩ := step_cases hstep
    · exact .inr (.inr ⟨hd, by simp [ha]⟩)
    · exact .inr (.inl ⟨_, hd, rfl, by simp [hs]⟩)
    · left
      refine ⟨_, hq, ?_, by simpa using hd, by simp⟩
      simp [base]
  · have hs' : p.segments = first :: (before ++ (gap ++ last :: idle)) := by simpa using hs
    rw [hs', ← List.cons_append, follow_append] at hw
    obtain ⟨here, hbefore, hrest⟩ := ok_of_bind hw
    rw [follow_append] at hrest
    obtain ⟨here', hgap, hend⟩ := ok_of_bind hrest
    obtain rfl := follow_idle hg hgap
    rw [follow_cons] at hend
    obtain ⟨next, hstep, hidle⟩ := ok_of_bind hend
    obtain rfl := follow_idle hi hidle
    obtain ⟨hd, ⟨hl, -⟩ | ⟨rfl, rfl⟩ | ⟨-, -, -, rfl⟩⟩ := step_cases hstep
    · simp [hl] at hlast
    · exact .inr (.inl ⟨_, hd, rfl, by simp [hs]⟩)
    · left
      refine ⟨_, hq, ?_, by simpa using hd, by simp⟩
      simpa using base_ofSegments hne hs' hbefore

end FileTree

end ArkRoutes
