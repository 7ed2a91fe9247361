import ArkRoutes.Generation.Index
import ArkRoutes.Proofs.Walks

namespace ArkRoutes

namespace FileTree

variable {t t' u : FileTree} {p : Path} {here there place other : Place} {e : Entry} {text : String}

theorem lookup_cons_eq_ite (q other : Place) (e : Entry) (rest : List (Place × Entry)) :
    ((q, e) :: rest).lookup other = if other = q then some e else rest.lookup other := by
  by_cases h : other = q
  · simp [h]
  · simp [List.lookup_cons, beq_eq_false_iff_ne.mpr h, h]

theorem lookup_put (place other : Place) (e : Entry) (entries : List (Place × Entry)) :
    (put place e entries).lookup other = if other = place then some e else entries.lookup other := by
  induction entries with
  | nil => exact lookup_cons_eq_ite place other e []
  | cons first rest ih =>
      obtain ⟨q, old⟩ := first
      rw [put]
      split
      next hq =>
        subst hq
        rw [lookup_cons_eq_ite, lookup_cons_eq_ite]
        split <;> rfl
      next hq =>
        rw [lookup_cons_eq_ite, lookup_cons_eq_ite, ih]
        by_cases h : other = q
        · subst h
          simp [hq]
        · simp [h]

theorem find?_insert (hp : place ≠ []) (other : Place) :
    (t.insert place e).find? other = if other = place then some e else t.find? other := by
  by_cases ho : other = []
  · subst ho
    simp [find?, hp.symm]
  · simp [find?, ho, insert, lookup_put]

theorem find?_insert_self (hp : place ≠ []) : (t.insert place e).find? place = some e := by simp [find?_insert hp]

theorem find?_insert_of_ne (hp : place ≠ []) (h : other ≠ place) :
    (t.insert place e).find? other = t.find? other := by
  simp [find?_insert hp, h]

/-- Directories stay directories and files stay files, whatever becomes of their content. -/
structure Grows (t t' : FileTree) : Prop where
  home : t'.home = t.home
  directory : ∀ place, t.find? place = some .directory → t'.find? place = some .directory
  file : ∀ place content, t.find? place = some (.file content) → ∃ content', t'.find? place = some (.file content')

structure Extends (t t' : FileTree) : Prop where
  home : t'.home = t.home
  kept : ∀ place e, t.find? place = some e → t'.find? place = some e

theorem Extends.refl (t : FileTree) : t.Extends t := ⟨rfl, fun _ _ h => h⟩

theorem Extends.trans (h : t.Extends t') (h' : t'.Extends u) : t.Extends u :=
  ⟨h'.home.trans h.home, fun place e he => h'.kept place e (h.kept place e he)⟩

theorem Extends.grows (h : t.Extends t') : t.Grows t' :=
  ⟨h.home, fun place hd => h.kept place _ hd, fun place content hf => ⟨content, h.kept place _ hf⟩⟩

theorem extends_insert (hp : place ≠ []) (h : t.find? place = none) : t.Extends (t.insert place e) := by
  refine ⟨rfl, ?_⟩
  intro other e' ho
  rw [find?_insert_of_ne hp, ho]
  rintro rfl
  simp [h] at ho

theorem locate_of_isDirectory (h : t.isDirectory p = true) :
    ∃ place, t.locate p = .ok place ∧ t.find? place = some .directory := by
  rw [isDirectory] at h
  cases he : t.entry p with
  | error cause => simp [he] at h
  | ok e =>
      cases e with
      | file content => simp [he] at h
      | directory => exact entry_eq_ok he

theorem isDirectory_of_locate (hl : t.locate p = .ok place) (hf : t.find? place = some .directory) :
    t.isDirectory p = true := by
  simp [isDirectory, entry, hl, hf, bind, Except.bind]

namespace Grows

theorem refl (t : FileTree) : t.Grows t := (Extends.refl t).grows

theorem trans (h : t.Grows t') (h' : t'.Grows u) : t.Grows u where
  home := h'.home.trans h.home
  directory place hd := h'.directory place (h.directory place hd)
  file place content hf := by
    obtain ⟨content', hf'⟩ := h.file place content hf
    exact h'.file place content' hf'

theorem isSome (h : t.Grows t') (hs : (t.find? place).isSome = true) : (t'.find? place).isSome = true := by
  obtain ⟨e, he⟩ := Option.isSome_iff_exists.mp hs
  cases e with
  | directory => simp [h.directory place he]
  | file content =>
      obtain ⟨content', hf⟩ := h.file place content he
      simp [hf]

theorem step (h : t.Grows t') {segment : Bytes} (hs : t.step here segment = .ok there) :
    t'.step here segment = .ok there := by
  obtain ⟨hd, ⟨hi, rfl⟩ | ⟨rfl, rfl⟩ | ⟨hi, hu, hf, rfl⟩⟩ := step_cases hs
  · exact step_of_isIdle (h.directory _ hd) hi
  · simp [FileTree.step, h.directory _ hd]
  · have hne : ¬ (segment = [] ∨ segment = ".") := by simpa [Path.isIdle] using hi
    simp [FileTree.step, h.directory _ hd, hne, hu, h.isSome hf]

theorem follow (h : t.Grows t') {segments : List Bytes} (hf : t.follow here segments = .ok there) :
    t'.follow here segments = .ok there := by
  induction segments generalizing here with
  | nil => exact hf
  | cons segment segments ih =>
      rw [follow_cons] at hf
      obtain ⟨next, hs, hn⟩ := ok_of_bind hf
      rw [follow_cons, h.step hs]
      exact ih hn

theorem start (h : t.Grows t') (p : Path) : t'.start p = t.start p := by rw [FileTree.start, FileTree.start, h.home]

theorem locate (h : t.Grows t') (hl : t.locate p = .ok place) : t'.locate p = .ok place := by
  have hne := text_ne_of_locate hl
  rw [locate_of_text_ne hne] at hl ⊢
  rw [h.start]
  exact h.follow hl

theorem canonical (h : t.Grows t') {key : Path} (hc : t.canonical p = .ok key) : t'.canonical p = .ok key := by
  rw [FileTree.canonical] at hc ⊢
  cases hl : t.locate p with
  | error cause => simp [hl, Except.map] at hc
  | ok place =>
      rw [h.locate hl]
      rwa [hl] at hc

theorem isDirectory (h : t.Grows t') (hd : t.isDirectory p = true) : t'.isDirectory p = true := by
  obtain ⟨place, hl, hf⟩ := locate_of_isDirectory hd
  exact isDirectory_of_locate (h.locate hl) (h.directory place hf)

end Grows

/-! ### Where a path is written -/

theorem slot_of_blank (hne : p.text ≠ []) (hs : ∀ x ∈ p.segments, x = []) : t.slot p = .ok ([], ".") := by
  have hd : p.segments.reverse.dropWhile (· = []) = [] := by simpa [List.dropWhile_eq_nil_iff] using hs
  simp [slot, hne, hd]

theorem slot_of_segments (hne : p.text ≠ []) {before blanks : List Bytes} {last : Bytes}
    (hs : p.segments = before ++ last :: blanks) (hb : ∀ x ∈ blanks, x = []) (hl : last ≠ []) :
    t.slot p = (t.follow (t.start p) before).bind fun place =>
      match t.find? place with
      | some .directory => .ok (place, last)
      | some (.file _) => .error .notADirectory
      | none => .error .notFound := by
  have hd : p.segments.reverse.dropWhile (· = []) = last :: before.reverse := by
    rw [hs, List.reverse_append, List.reverse_cons, List.append_assoc]
    exact dropWhile_append_of_head? (by simpa using hb) (by simpa using hl)
  simp only [slot, hne, if_false, hd, List.reverse_reverse]
  rfl

structure Names (t : FileTree) (p : Path) (here : Place) (last : Bytes) : Prop where
  text : p.text ≠ []
  last_ne : last ≠ []
  directory : t.find? here = some .directory
  walk : ∃ before blanks, p.segments = before ++ last :: blanks ∧ (∀ x ∈ blanks, x = []) ∧
    t.follow (t.start p) before = .ok here

variable {last : Bytes}

theorem blank_or_named (p : Path) : (∀ x ∈ p.segments, x = []) ∨
    ∃ before last blanks, p.segments = before ++ last :: blanks ∧ (∀ x ∈ blanks, x = []) ∧ last ≠ [] := by
  obtain ⟨blanks, hs, hb⟩ := eq_append_of_dropWhile_reverse (· = []) p.segments
  simp only [decide_eq_true_eq] at hb
  cases hd : p.segments.reverse.dropWhile (· = []) with
  | nil =>
      left
      rw [hs, hd]
      simpa using hb
  | cons last before =>
      right
      refine ⟨before.reverse, last, blanks, by rw [hs, hd]; simp, hb, ?_⟩
      simpa [hd] using List.head?_dropWhile_not (· = []) p.segments.reverse

theorem Names.slot (h : t.Names p here last) : t.slot p = .ok (here, last) := by
  obtain ⟨before, blanks, hs, hb, hf⟩ := h.walk
  rw [slot_of_segments h.text hs hb h.last_ne, hf]
  simp [Except.bind, h.directory]

theorem names_of_slot (h : t.slot p = .ok (here, last)) (hd : isDotted last = false) : t.Names p here last := by
  have hne : p.text ≠ [] := by
    intro he
    simp [FileTree.slot, he] at h
  obtain hb | ⟨before, last', blanks, hs, hb, hl⟩ := blank_or_named p
  · rw [slot_of_blank hne hb] at h
    cases h
    simp [isDotted] at hd
  · rw [slot_of_segments hne hs hb hl] at h
    obtain ⟨place, hf, h⟩ := ok_of_bind h
    cases he : t.find? place with
    | none => simp [he] at h
    | some e =>
        cases e with
        | file content => simp [he] at h
        | directory =>
            simp only [he] at h
            cases h
            exact ⟨hne, hl, he, before, blanks, hs, hb, hf⟩

theorem Grows.names (h : t.Grows t') (hn : t.Names p here last) : t'.Names p here last := by
  obtain ⟨before, blanks, hs, hb, hf⟩ := hn.walk
  refine ⟨hn.text, hn.last_ne, h.directory _ hn.directory, before, blanks, hs, hb, ?_⟩
  rw [h.start]
  exact h.follow hf

theorem Names.step (h : t.Names p here last) (hd : isDotted last = false)
    (hs : (t.find? (here ++ [last])).isSome = true) :
    t.step here last = .ok (here ++ [last]) := by
  have hne : ¬ (last = [] ∨ last = ".") ∧ last ≠ ".." := by
    have hl := h.last_ne
    simp_all [isDotted]
  simp [FileTree.step, h.directory, hne, hs]

theorem Names.locate_directory (h : t.Names p here last) (hd : isDotted last = false)
    (hf : t.find? (here ++ [last]) = some .directory) : t.locate p = .ok (here ++ [last]) := by
  obtain ⟨before, blanks, hs, hb, hw⟩ := h.walk
  rw [locate_of_text_ne h.text, hs, follow_append, hw]
  show t.follow here (last :: blanks) = _
  rw [follow_cons, h.step hd (by simp [hf])]
  exact follow_idle_of_directory hf fun x hx => by simp [hb x hx, Path.isIdle]

/-- A path without a slash at its end leads to the very thing that it names. -/
theorem Names.locate (h : t.Names p here last) (hd : isDotted last = false) (he : p.endsWithSlash = false)
    (hf : (t.find? (here ++ [last])).isSome = true) : t.locate p = .ok (here ++ [last]) := by
  obtain ⟨before, blanks, hs, hb, hw⟩ := h.walk
  rcases List.eq_nil_or_concat blanks with rfl | ⟨blanks, x, rfl⟩
  · rw [locate_of_text_ne h.text, hs, follow_append, hw]
    show t.follow here [last] = _
    rw [follow_cons, h.step hd hf]
    rfl
  · obtain rfl : x = [] := hb x (by simp)
    have hs' : p.segments = (before ++ last :: blanks) ++ [[]] := by simp [hs]
    have hslash := Path.endsWithSlash_of_segments (by simp) hs'
    simp [he] at hslash

theorem makeDirectory_eq_ok (h : t.makeDirectory p = .ok t') : ∃ here last, t.Names p here last ∧
    isDotted last = false ∧ t.find? (here ++ [last]) = none ∧ t' = t.insert (here ++ [last]) .directory := by
  obtain ⟨⟨here, last⟩, hs, h⟩ := ok_of_bind h
  simp only at h
  split at h
  next => cases h
  next hnew =>
    obtain ⟨hd, hf⟩ : isDotted last = false ∧ t.find? (here ++ [last]) = none := by simpa using hnew
    cases h
    exact ⟨here, last, names_of_slot hs hd, hd, hf, rfl⟩

theorem extends_makeDirectory (h : t.makeDirectory p = .ok t') : t.Extends t' ∧ t'.isDirectory p = true := by
  obtain ⟨here, last, hn, hd, hf, rfl⟩ := makeDirectory_eq_ok h
  have hx : t.Extends (t.insert (here ++ [last]) .directory) := extends_insert (by simp) hf
  have hdir : (t.insert (here ++ [last]) .directory).find? (here ++ [last]) = some .directory :=
    find?_insert_self (by simp)
  exact ⟨hx, isDirectory_of_locate ((hx.grows.names hn).locate_directory hd hdir) hdir⟩

structure Writable (t : FileTree) (p : Path) (place : Place) : Prop where
  names : ∃ here last, t.Names p here last ∧ isDotted last = false ∧ place = here ++ [last]
  open_ended : p.endsWithSlash = false
  free : t.find? place ≠ some .directory

theorem writeText_eq_ok (h : t.writeText p text = .ok t') :
    ∃ place, t.Writable p place ∧ t' = t.insert place (.file (.text text)) := by
  obtain ⟨⟨here, last⟩, hs, h⟩ := ok_of_bind h
  simp only at h
  split at h
  next => cases h
  next hlast =>
    obtain ⟨hd, he⟩ : isDotted last = false ∧ p.endsWithSlash = false := by simpa using hlast
    split at h
    next => cases h
    next hfree =>
      cases h
      exact ⟨here ++ [last], ⟨⟨here, last, names_of_slot hs hd, hd, rfl⟩, he, hfree⟩, rfl⟩

namespace Writable

theorem ne_nil (h : t.Writable p place) : place ≠ [] := by
  obtain ⟨here, last, -, -, rfl⟩ := h.names
  simp

theorem writeText (h : t.Writable p place) (text : String) :
    t.writeText p text = .ok (t.insert place (.file (.text text))) := by
  obtain ⟨here, last, hn, hd, rfl⟩ := h.names
  rw [FileTree.writeText, hn.slot]
  show (if (isDotted last || p.endsWithSlash) = true then _ else _) = _
  rw [if_neg (by simp [hd, h.open_ended])]
  split
  next hdir => exact (h.free hdir).elim
  next => rfl

theorem grows (h : t.Writable p place) (text : String) : t.Grows (t.insert place (.file (.text text))) := by
  have hp := h.ne_nil
  refine ⟨rfl, ?_, ?_⟩
  · intro other ho
    rw [find?_insert_of_ne hp, ho]
    rintro rfl
    exact h.free ho
  · intro other content ho
    by_cases hplace : other = place
    · subst hplace
      exact ⟨.text text, find?_insert_self hp⟩
    · exact ⟨content, by rw [find?_insert_of_ne hp hplace, ho]⟩

theorem locate (h : t.Writable p place) (hs : (t.find? place).isSome = true) : t.locate p = .ok place := by
  obtain ⟨here, last, hn, hd, rfl⟩ := h.names
  exact hn.locate hd h.open_ended hs

/-- Where something was written, something can be written again. -/
theorem of_grows (h : t.Writable p place) (hg : t.Grows t') {content : Content}
    (hf : t'.find? place = some (.file content)) : t'.Writable p place := by
  obtain ⟨here, last, hn, hd, rfl⟩ := h.names
  exact ⟨⟨here, last, hg.names hn, hd, rfl⟩, h.open_ended, by simp [hf]⟩

end Writable

end FileTree

theorem Path.ancestors_eq_cons (p : Path) : ∃ above, p.ancestors = p :: above := by
  rw [ancestors]
  cases p.text.length with
  | zero => exact ⟨[], rfl⟩
  | succ n => cases h : p.parent? <;> simp [climb, h]

namespace Disk

open FileTree

variable {ε α β : Type} {t t' : FileTree} {a : α}

def Runs (d : Disk ε α) (t : FileTree) (a : α) (t' : FileTree) : Prop := d.run.run t = (.ok a, t')

theorem runs_pure {b : α} : (pure a : Disk ε α).Runs t b t' ↔ b = a ∧ t' = t := by
  constructor
  · intro h
    cases h
    exact ⟨rfl, rfl⟩
  · rintro ⟨rfl, rfl⟩
    rfl

theorem runs_throw {e : ε} : ¬ (throw e : Disk ε α).Runs t a t' := by
  intro h
  cases h

theorem run_bind (d : Disk ε α) (f : α → Disk ε β) (t : FileTree) :
    (d >>= f).run.run t =
      match d.run.run t with
      | (.ok a, u) => (f a).run.run u
      | (.error e, u) => (.error e, u) := by
  rw [ExceptT.run_bind, StateT.run_bind]
  show (match (d.run.run t).1 with
    | .ok a => ((f a).run : StateM FileTree _)
    | .error e => pure (.error e)).run (d.run.run t).2 = _
  cases h : d.run.run t with
  | mk result u => cases result <;> rfl

theorem runs_bind {d : Disk ε α} {f : α → Disk ε β} {b : β} :
    (d >>= f).Runs t b t' ↔ ∃ a u, d.Runs t a u ∧ (f a).Runs u b t' := by
  rw [Runs, run_bind]
  constructor
  · intro h
    cases hd : d.run.run t with
    | mk result u =>
        rw [hd] at h
        cases result with
        | error e => cases h
        | ok a => exact ⟨a, u, hd, h⟩
  · rintro ⟨a, u, hd, hf⟩
    rw [Runs] at hd
    rw [hd]
    exact hf

theorem runs_get {u : FileTree} : (get : Disk ε FileTree).Runs t u t' ↔ u = t ∧ t' = t := by
  constructor
  · intro h
    cases h
    exact ⟨rfl, rfl⟩
  · rintro ⟨rfl, rfl⟩
    rfl

theorem runs_set {u : FileTree} {x : PUnit} : (set u : Disk ε PUnit).Runs t x t' ↔ t' = u := by
  constructor
  · intro h
    cases h
    rfl
  · rintro rfl
    rfl

theorem run_about (path : Path) (d : Disk IoError α) (t : FileTree) :
    (about path d).run.run t =
      match d.run.run t with
      | (.ok a, u) => (.ok a, u)
      | (.error e, u) => (.error (.io path e), u) := by
  show (Except.mapError (Generation.Error.io path) <$> (d.run : StateM FileTree _)).run t = _
  rw [StateT.run_map]
  cases h : d.run.run t with
  | mk result u => cases result <;> rfl

theorem runs_about {path : Path} {d : Disk IoError α} : (about path d).Runs t a t' ↔ d.Runs t a t' := by
  rw [Runs, Runs, run_about]
  cases d.run.run t with
  | mk result u =>
      cases result <;>
        constructor <;>
          · intro h
            cases h <;> rfl

theorem runs_settle {p : Path} {e : IoError} {x : Unit} :
    (settle p e).Runs t x t' ↔ t.isDirectory p = true ∧ t' = t := by
  simp only [settle, runs_bind, runs_get]
  constructor
  · rintro ⟨u, v, ⟨rfl, rfl⟩, h⟩
    split at h
    next hd => exact ⟨hd, (runs_pure.mp h).2⟩
    next => exact (runs_throw h).elim
  · rintro ⟨hd, rfl⟩
    refine ⟨_, _, ⟨rfl, rfl⟩, ?_⟩
    rw [if_pos hd]
    exact runs_pure.mpr ⟨rfl, rfl⟩

theorem runs_writeText {p : Path} {text : String} {x : Unit} :
    (writeText p text).Runs t x t' ↔ t.writeText p text = .ok t' := by
  simp only [writeText, update, runs_bind, runs_get]
  constructor
  · rintro ⟨u, v, ⟨rfl, rfl⟩, h⟩
    split at h
    next v hv => rw [hv, runs_set.mp h]
    next => exact (runs_throw h).elim
  · intro h
    refine ⟨_, _, ⟨rfl, rfl⟩, ?_⟩
    rw [h]
    exact runs_set.mpr rfl

theorem extends_made {p : Path} {x : Unit} (h : (match t.makeDirectory p with
    | .ok u => set u
    | .error e => settle p e : Disk IoError Unit).Runs t x t') : t.Extends t' ∧ t'.isDirectory p = true := by
  split at h
  next u hm =>
    obtain rfl := runs_set.mp h
    exact extends_makeDirectory hm
  next =>
    obtain ⟨hd, rfl⟩ := runs_settle.mp h
    exact ⟨.refl _, hd⟩

/-- The first directory of the list is there in the end, and nothing that was there has changed. -/
theorem extends_makeAll {paths : List Path} {x : Unit} (h : (makeAll paths).Runs t x t') :
    t.Extends t' ∧ ∀ p ∈ paths.head?, p.text = [] ∨ t'.isDirectory p = true := by
  induction paths generalizing t t' x with
  | nil => exact (runs_throw h).elim
  | cons p above ih =>
      suffices hp : t.Extends t' ∧ (p.text = [] ∨ t'.isDirectory p = true) by simpa using hp
      rw [makeAll] at h
      split at h
      next hp =>
        obtain ⟨-, rfl⟩ := runs_pure.mp h
        exact ⟨.refl _, .inl hp⟩
      next =>
        obtain ⟨u, v, hget, hmade⟩ := runs_bind.mp h
        obtain ⟨rfl, rfl⟩ := runs_get.mp hget
        split at hmade
        next made hm =>
          obtain rfl := runs_set.mp hmade
          obtain ⟨hx, hd⟩ := extends_makeDirectory hm
          exact ⟨hx, .inr hd⟩
        next =>
          obtain ⟨_, u, habove, hrest⟩ := runs_bind.mp hmade
          obtain ⟨w, w', hget', hlast⟩ := runs_bind.mp hrest
          obtain ⟨rfl, rfl⟩ := runs_get.mp hget'
          obtain ⟨hx, hd⟩ := extends_made hlast
          exact ⟨(ih habove).1.trans hx, .inr hd⟩
        next =>
          obtain ⟨hd, rfl⟩ := runs_settle.mp hmade
          exact ⟨.refl _, .inr hd⟩

theorem extends_makeDirectories {p : Path} {x : Unit} (h : (makeDirectories p).Runs t x t') :
    t.Extends t' ∧ (p.text = [] ∨ t'.isDirectory p = true) := by
  obtain ⟨above, ha⟩ := p.ancestors_eq_cons
  rw [makeDirectories, ha] at h
  obtain ⟨hx, hd⟩ := extends_makeAll h
  exact ⟨hx, hd p (by simp)⟩

end Disk

end ArkRoutes
