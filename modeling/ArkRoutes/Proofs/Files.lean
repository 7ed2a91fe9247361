import ArkRoutes.Resolution

namespace ArkRoutes

theorem ok_of_bind {ε α β : Type} {x : Except ε α} {f : α → Except ε β} {b : β} (h : x.bind f = .ok b) :
    ∃ a, x = .ok a ∧ f a = .ok b := by
  cases x with
  | error cause => cases h
  | ok a => exact ⟨a, rfl, h⟩

theorem ok_of_toOption {ε α : Type} {x : Except ε α} {a : α} (h : x.toOption = some a) : x = .ok a := by
  cases x with
  | error cause => cases h
  | ok b => cases h; rfl

namespace FileTree

variable {t : FileTree} {place : Place} {content : Content} {p : Path}

theorem mem_entries_of_find? (h : t.find? place = some (.file content)) : (place, .file content) ∈ t.entries := by
  rw [find?] at h
  split at h
  next => cases h
  next =>
    obtain ⟨before, after, he, -⟩ := List.lookup_eq_some_iff.mp h
    simp [he]

theorem entry_eq_ok {e : Entry} (h : t.entry p = .ok e) : ∃ place, t.locate p = .ok place ∧ t.find? place = some e := by
  obtain ⟨place, hl, h⟩ := ok_of_bind h
  refine ⟨place, hl, ?_⟩
  cases hf : t.find? place with
  | none => simp [hf] at h
  | some e' =>
      simp only [hf, Except.ok.injEq] at h
      rw [h]

theorem entry_of_read (h : t.read p = .ok content) : t.entry p = .ok (.file content) := by
  obtain ⟨e, he, h⟩ := ok_of_bind h
  cases e with
  | directory => cases h
  | file content' =>
      cases h
      exact he

theorem locate_of_isFile (h : t.isFile p = true) :
    ∃ place content, t.locate p = .ok place ∧ t.find? place = some (.file content) := by
  rw [isFile] at h
  cases he : t.entry p with
  | error cause => simp [he] at h
  | ok e =>
      cases e with
      | directory => simp [he] at h
      | file content =>
          obtain ⟨place, hl, hf⟩ := entry_eq_ok he
          exact ⟨place, content, hl, hf⟩

theorem place_of_isFile (h : t.isFile p = true) :
    ∃ place content, t.find? place = some (.file content) ∧ t.canonical p = .ok (pathOf place) := by
  obtain ⟨place, content, hl, hf⟩ := locate_of_isFile h
  refine ⟨place, content, hf, ?_⟩
  rw [canonical, hl]
  rfl

theorem text_of_events {events : List Event} (h : t.events p = .ok events) :
    ∃ content text, t.read p = .ok content ∧ content.decode = .ok text ∧ Source.events text = events := by
  rw [FileTree.events] at h
  cases hr : t.read p with
  | error cause => simp [hr] at h
  | ok content =>
      cases hd : content.decode with
      | error fault => simp [hr, hd] at h
      | ok text =>
          simp only [hr, hd, Except.ok.injEq] at h
          exact ⟨content, text, rfl, hd, h⟩

theorem mem_entries_of_read (h : t.read p = .ok content) : ∃ place, (place, .file content) ∈ t.entries := by
  obtain ⟨place, -, hf⟩ := entry_eq_ok (entry_of_read h)
  exact ⟨place, mem_entries_of_find? hf⟩

theorem isFile_of_read (h : t.read p = .ok content) : t.isFile p = true := by
  rw [isFile, entry_of_read h]

end FileTree

namespace Module

variable {s : Settings} {t : FileTree} {path directory start : Path}

theorem isFile_of_exactFile? (h : exactFile? s t directory = some path) : t.isFile path = true :=
  List.find?_some h

theorem isFile_of_entryIn? (h : entryIn? s t directory = some path) : t.isFile path = true :=
  List.find?_some h

theorem isFile_of_probe {p : Path} (h : probe s t p = some path) : t.isFile path = true := by
  rw [probe, Option.orElse_apply, Option.orElse_eq_or, Option.or_eq_some_iff] at h
  rcases h with h | ⟨-, h⟩
  · exact isFile_of_exactFile? h
  · split at h
    next => exact isFile_of_entryIn? h
    next => cases h

theorem isFile_of_entryFile? (h : entryFile? s t directory = some path) : t.isFile path = true := by
  rw [entryFile?, Option.orElse_apply, Option.orElse_eq_or, Option.or_eq_some_iff] at h
  rcases h with h | ⟨-, h⟩
  · obtain ⟨manifest, -, h⟩ := Option.bind_eq_some_iff.mp h
    obtain ⟨main, -, h⟩ := Option.bind_eq_some_iff.mp h
    split at h
    next => cases h
    next => exact isFile_of_exactFile? h
  · exact isFile_of_entryIn? h

theorem isFile_of_inPackage? {subpath : String} {l : Located} (h : inPackage? s t directory subpath = some l) :
    t.isFile l.path = true := by
  rw [inPackage?] at h
  split at h
  next =>
    obtain ⟨found, hf, rfl⟩ := Option.map_eq_some_iff.mp h
    exact isFile_of_entryFile? hf
  next =>
    obtain ⟨found, hf, rfl⟩ := Option.map_eq_some_iff.mp h
    exact isFile_of_probe hf

theorem isFile_of_candidate? {specifier : String} {l : Located} (h : candidate? s t start specifier = some l) :
    t.isFile l.path = true := by
  rw [candidate?] at h
  split at h
  next =>
    obtain ⟨found, hf, rfl⟩ := Option.map_eq_some_iff.mp h
    exact isFile_of_probe hf
  next =>
    simp only at h
    split at h
    next => exact isFile_of_inPackage? h
    next =>
      obtain ⟨found, -, hf⟩ := List.exists_of_findSome?_eq_some h
      split at hf
      next => exact isFile_of_inPackage? hf
      next => cases hf

theorem isFile_of_locate {specifier : String} {l : Located} (h : locate s t start specifier = .ok l) :
    t.isFile l.path = true := by
  rw [locate] at h
  cases hc : candidate? s t start specifier with
  | none => simp [hc] at h
  | some found =>
      simp only [hc, Except.ok.injEq] at h
      subst h
      exact isFile_of_candidate? hc

end Module

end ArkRoutes
