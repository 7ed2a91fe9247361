import ArkRoutes.Path.Relative
import ArkRoutes.Proofs.Walks
import Mathlib.Data.List.Induction

namespace ArkRoutes

/-- Where a path leads by its text alone: so many steps up from where it starts, and from there down. Nothing
takes back a step up, so there are none exactly if the path never goes above its start. -/
structure Way where
  ups : Nat := 0
  names : List Bytes := []
deriving DecidableEq

namespace Way

def step (w : Way) : Component → Way
  | .root => {}
  | .here => w
  | .up => if w.names = [] then { w with ups := w.ups + 1 } else { w with names := w.names.dropLast }
  | .name n => { w with names := w.names ++ [n] }

def walk (w : Way) (cs : List Component) : Way := cs.foldl step w

variable {w : Way} {cs : List Component}

@[simp] theorem walk_nil (w : Way) : w.walk [] = w := rfl

@[simp] theorem walk_cons (w : Way) (c : Component) (cs : List Component) : w.walk (c :: cs) = (w.step c).walk cs := rfl

@[simp] theorem walk_append (w : Way) (cs cs' : List Component) : w.walk (cs ++ cs') = (w.walk cs).walk cs' :=
  List.foldl_append

@[simp] theorem step_name (w : Way) (n : Bytes) : w.step (.name n) = ⟨w.ups, w.names ++ [n]⟩ := rfl

theorem step_up (ups : Nat) {names : List Bytes} (h : names ≠ []) :
    step ⟨ups, names⟩ .up = ⟨ups, names.take (names.length - 1)⟩ := by
  rw [step, if_neg h, List.dropLast_eq_take]

theorem walk_names (w : Way) (names : List Bytes) : w.walk (names.map .name) = ⟨w.ups, w.names ++ names⟩ := by
  induction names generalizing w with
  | nil => simp
  | cons n names ih => simp [ih]

theorem walk_replicate_up (ups : Nat) {names : List Bytes} {n : Nat} (h : n ≤ names.length) :
    walk ⟨ups, names⟩ (List.replicate n .up) = ⟨ups, names.take (names.length - n)⟩ := by
  induction n generalizing names with
  | zero => simp
  | succ n ih =>
      have hn : names ≠ [] := List.ne_nil_of_length_pos (by omega)
      have hl : n ≤ (names.take (names.length - 1)).length := by
        rw [List.length_take]
        omega
      rw [List.replicate_succ, walk_cons, step_up ups hn, ih hl, List.take_take, List.length_take]
      congr 2
      omega

theorem walk_replicate_up_nil (ups n : Nat) : walk ⟨ups, []⟩ (List.replicate n .up) = ⟨ups + n, []⟩ := by
  induction n generalizing ups with
  | zero => rfl
  | succ n ih =>
      rw [List.replicate_succ, walk_cons, Nat.add_comm n, ← Nat.add_assoc]
      exact ih (ups + 1)

/-- The components of the way in a normal form, where a step up takes back the step up before it. -/
def folded (w : Way) : List Component := List.replicate (w.ups % 2) .up ++ w.names.map .name

theorem walk_folded (w : Way) : walk {} w.folded = ⟨w.ups % 2, w.names⟩ := by
  rw [folded, walk_append, walk_replicate_up_nil, walk_names, Nat.zero_add, List.nil_append]

theorem mem_names_walk {n : Bytes} (h : n ∈ (w.walk cs).names) : n ∈ w.names ∨ .name n ∈ cs := by
  induction cs generalizing w with
  | nil => exact .inl h
  | cons c cs ih =>
      rcases ih h with h | h
      · cases c with
        | root => simp [step] at h
        | here => exact .inl h
        | up =>
            rw [step] at h
            split at h
            · exact .inl h
            · exact .inl (List.dropLast_subset _ h)
        | name m =>
            rcases List.mem_append.mp h with h | h
            · exact .inl h
            · rw [List.mem_singleton.mp h]
              exact .inr List.mem_cons_self
      · exact .inr (List.mem_cons_of_mem _ h)

end Way

namespace Component

def IsInner (c : Component) : Prop := ofInner? c.text = some c ∧ Path.slash ∉ c.text

theorem isInner_up : IsInner .up := ⟨rfl, by decide⟩

theorem isInner_climb {n : Nat} {cs : List Component} (h : ∀ c ∈ cs, c.IsInner) :
    ∀ c ∈ List.replicate n .up ++ cs, c.IsInner := by
  refine List.forall_mem_append.mpr ⟨fun c hc => ?_, h⟩
  rw [List.eq_of_mem_replicate hc]
  exact isInner_up

theorem ne_root_of_ofInner? {segment : Bytes} {c : Component} (h : ofInner? segment = some c) : c ≠ .root := by
  rintro rfl
  rw [ofInner?] at h
  split at h
  · cases h
  · split at h <;> cases h

theorem text_of_ofInner? {segment : Bytes} {c : Component} (h : ofInner? segment = some c) : c.text = segment := by
  rw [ofInner?] at h
  split at h
  · cases h
  · split at h <;> cases h
    · simp_all [text]
    · rfl

theorem ofInner?_eq_name_iff {n : Bytes} : ofInner? n = some (.name n) ↔ n ≠ [] ∧ n ≠ "." ∧ n ≠ ".." := by
  by_cases h₀ : n = []
  · simp [ofInner?, h₀]
  by_cases h₁ : n = "."
  · simp [ofInner?, h₁]
  by_cases h₂ : n = ".." <;> simp [ofInner?, h₀, h₁, h₂]

theorem name_injective : Function.Injective name := fun _ _ h => by injection h

theorem isInner_of_ofInner? {segment : Bytes} {c : Component} (h : ofInner? segment = some c)
    (hs : Path.slash ∉ segment) : c.IsInner := by
  rw [IsInner, text_of_ofInner? h]
  exact ⟨h, hs⟩

/-- The component that is read back from what is shown of one. -/
def asShown : Component → Component
  | .name n => .name (Text.Utf8.encode (Text.Utf8.decodeLossy n))
  | c => c

@[simp] theorem asShown_up : asShown .up = .up := rfl

theorem text_asShown (c : Component) : c.asShown.text = c.shown := by
  cases c <;> simp [asShown, text, shown]

theorem asShown_eq_iff {c : Component} : c.asShown = c ↔ IsText c.text := by
  cases c with
  | name n => simp [asShown, text, encode_decodeLossy_iff]
  | _ => exact iff_of_true rfl (isText_encode _)

theorem map_asShown_eq_iff {cs : List Component} : cs.map asShown = cs ↔ ∀ c ∈ cs, IsText c.text := by
  calc cs.map asShown = cs ↔ cs.map asShown = cs.map id := by rw [List.map_id]
    _ ↔ ∀ c ∈ cs, c.asShown = c := List.map_inj_left
    _ ↔ ∀ c ∈ cs, IsText c.text := by simp only [asShown_eq_iff]

theorem IsInner.asShown {c : Component} (h : c.IsInner) : c.asShown.IsInner := by
  cases c with
  | name n =>
      have hshown {s : String} (hs : ∀ c ∈ s.toList, c.toNat < 0x80) (hn : n ≠ s) :
          Text.Utf8.encode (Text.Utf8.decodeLossy n) ≠ s := by
        rwa [Ne, Text.Utf8.encode_inj, Text.Utf8.decodeLossy_eq_iff hs]
      obtain ⟨h₀, h₁, h₂⟩ := ofInner?_eq_name_iff.mp h.1
      refine ⟨ofInner?_eq_name_iff.mpr ⟨hshown (s := "") (by simp) h₀, hshown (s := ".") (by simp) h₁,
        hshown (s := "..") (by simp) h₂⟩, ?_⟩
      show Path.slash ∉ Text.Utf8.encode (Text.Utf8.decodeLossy n)
      rw [Text.Utf8.slash_mem_encode, Text.Utf8.slash_mem_decodeLossy]
      exact h.2
  | _ => exact h

end Component

namespace Path

variable {d p target : Path}

def way (p : Path) : Way := Way.walk {} p.components

/-! ### Components -/

def lead (absolute : Bool) (first : Bytes) : Option Component :=
  if first = [] then if absolute then some .root else none
  else if first = "." then some .here
  else Component.ofInner? first

theorem lead_cases {absolute : Bool} {first : Bytes} {c : Component} (h : lead absolute first = some c) :
    (c = .root ∧ absolute = true) ∨ c = .here ∨ Component.ofInner? first = some c := by
  rw [lead] at h
  split at h
  · split at h <;> cases h
    exact .inl ⟨rfl, ‹_›⟩
  · split at h
    · cases h
      exact .inr (.inl rfl)
    · exact .inr (.inr h)

theorem components_of_segments {first : Bytes} {rest : List Bytes} (h : p.segments = first :: rest) :
    p.components = (lead p.isAbsolute first).toList ++ rest.filterMap Component.ofInner? := by
  rw [components, h, lead]
  dsimp only
  congr 1
  by_cases h₀ : first = []
  · cases p.isAbsolute <;> simp [h₀]
  by_cases h₁ : first = "."
  · simp [h₁]
  by_cases h₂ : first = ".." <;> simp [h₀, h₁, h₂, Component.ofInner?]

/-- A path has the root at its beginning or nowhere. -/
theorem components_eq (p : Path) :
    ∃ inner, p.components = (if p.isAbsolute then [.root] else []) ++ inner ∧ ∀ c ∈ inner, c ≠ .root := by
  obtain ⟨first, rest, hs⟩ := List.exists_cons_of_ne_nil p.segments_ne_nil
  have hrest : ∀ c ∈ rest.filterMap Component.ofInner?, c ≠ .root := by
    intro c hc
    obtain ⟨segment, -, hc⟩ := List.mem_filterMap.mp hc
    exact Component.ne_root_of_ofInner? hc
  rw [components_of_segments hs]
  cases ha : p.isAbsolute with
  | true =>
      obtain rfl : first = [] := by simpa [hs] using (isAbsolute_iff.mp ha).2
      exact ⟨_, rfl, hrest⟩
  | false =>
      refine ⟨_, rfl, List.forall_mem_append.mpr ⟨fun c hc => ?_, hrest⟩⟩
      rcases lead_cases (Option.mem_toList.mp hc) with ⟨-, ⟨⟩⟩ | rfl | hc
      · simp
      · exact Component.ne_root_of_ofInner? hc

theorem isInner_of_mem {n : Bytes} (h : .name n ∈ p.components) : (Component.name n).IsInner := by
  obtain ⟨first, rest, hs⟩ := List.exists_cons_of_ne_nil p.segments_ne_nil
  have hslash : ∀ x ∈ first :: rest, slash ∉ x := fun x hx => slash_not_mem (hs ▸ hx)
  rw [components_of_segments hs, List.mem_append] at h
  rcases h with h | h
  · rcases lead_cases (Option.mem_toList.mp h) with ⟨⟨⟩, -⟩ | ⟨⟨⟩⟩ | h
    exact Component.isInner_of_ofInner? h (hslash _ (by simp))
  · obtain ⟨segment, hm, hn⟩ := List.mem_filterMap.mp h
    exact Component.isInner_of_ofInner? hn (hslash _ (by simp [hm]))

theorem isInner_of_mem_names {n : Bytes} (h : n ∈ p.way.names) : (Component.name n).IsInner := by
  rcases Way.mem_names_walk h with h | h
  · cases h
  · exact isInner_of_mem h

section Fold

variable {α : Type} {f : α → Component → α}

/-- For those who do not care about `.`, the components of a relative path are its segments. -/
theorem foldl_components (hf : ∀ a, f a .here = a) (hp : p.isAbsolute = false) (a : α) :
    p.components.foldl f a = (p.segments.filterMap Component.ofInner?).foldl f a := by
  obtain ⟨first, rest, hs⟩ := List.exists_cons_of_ne_nil p.segments_ne_nil
  have hl : ∀ b, ((lead false first).toList).foldl f b = ((Component.ofInner? first).toList).foldl f b := by
    intro b
    by_cases h₀ : first = []
    · simp [h₀, lead, Component.ofInner?]
    by_cases h₁ : first = "."
    · simp [h₁, lead, Component.ofInner?, hf]
    · simp [h₀, h₁, lead]
  rw [components_of_segments hs, hp, hs, List.foldl_append, hl, List.filterMap_cons]
  cases Component.ofInner? first <;> rfl

/-- A path below another one has the components of both. -/
theorem foldl_components_child (hf : ∀ a, f a .here = a) {x : String} (hx : Path.isAbsolute ⟨x⟩ = false) (a : α) :
    (d.child x).components.foldl f a = (Path.components ⟨x⟩).foldl f (d.components.foldl f a) := by
  by_cases hd : d.text = []
  · obtain rfl : d = ⟨[]⟩ := by rw [← hd]
    rw [child_of_text_eq_nil rfl]
    rfl
  · obtain ⟨l, hl, hs, hc⟩ := segments_child hx hd
    obtain ⟨first, rest, rfl⟩ := List.exists_cons_of_ne_nil hl
    have hdc : d.components = (lead d.isAbsolute first).toList ++ rest.filterMap Component.ofInner? := by
      rcases hs with hs | hs
      · exact components_of_segments hs
      · rw [List.cons_append] at hs
        simp [components_of_segments hs, Component.ofInner?]
    rw [List.cons_append] at hc
    rw [components_of_segments hc, isAbsolute_child hx hd, hdc, foldl_components hf hx, ← List.foldl_append,
      List.filterMap_append, List.append_assoc]

end Fold

theorem isAbsolute_below {x : String} (hx : Path.isAbsolute ⟨x⟩ = false) : (d.child x).isAbsolute = d.isAbsolute := by
  by_cases hd : d.text = []
  · obtain rfl : d = ⟨[]⟩ := by rw [← hd]
    rw [child_of_text_eq_nil rfl, hx]
    rfl
  · exact isAbsolute_child hx hd

theorem way_child {x : String} (hx : Path.isAbsolute ⟨x⟩ = false) :
    (d.child x).way = d.way.walk (Path.components ⟨x⟩) :=
  foldl_components_child (f := Way.step) (fun _ => rfl) hx {}

/-! ### Normal forms -/

def stack (rooted : Bool) (w : Way) : List Component := w.folded.reverse ++ if rooted then [.root] else []

theorem fold_stack (rooted : Bool) (w : Way) {c : Component} (hc : c ≠ .root) :
    fold (stack rooted w) c = stack rooted (w.step c) := by
  cases c with
  | root => exact (hc rfl).elim
  | here => rfl
  | name n => simp [fold, stack, Way.folded]
  | up =>
      obtain ⟨ups, names⟩ := w
      induction names using List.reverseRecOn with
      | nil =>
          rcases Nat.mod_two_eq_zero_or_one ups with hu | hu <;> cases rooted <;>
            simp [fold, stack, Way.folded, Way.step, Nat.add_mod, hu]
      | append_singleton names n => simp [stack, Way.folded, Way.step, fold]

theorem foldl_stack (rooted : Bool) {cs : List Component} (w : Way) (h : ∀ c ∈ cs, c ≠ .root) :
    cs.foldl fold (stack rooted w) = stack rooted (w.walk cs) := by
  induction cs generalizing w with
  | nil => rfl
  | cons c cs ih =>
      rw [List.foldl_cons, fold_stack rooted w (h c (by simp)), ih _ fun c hc => h c (by simp [hc]), Way.walk_cons]

theorem normalForm_eq (p : Path) : p.normalForm = (if p.isAbsolute then [.root] else []) ++ p.way.folded := by
  have hf : p.components.foldl fold [] = stack p.isAbsolute p.way := by
    obtain ⟨inner, hc, hi⟩ := p.components_eq
    rw [way, hc]
    cases p.isAbsolute with
    | true => exact foldl_stack true {} hi
    | false => exact foldl_stack false {} hi
  rw [normalForm, hf, stack]
  cases p.isAbsolute <;> simp

end Path

end ArkRoutes
