import ArkRoutes.Proofs.Writing
import Mathlib.Logic.Relation

namespace ArkRoutes

def Path.IsAbove (q p : Path) : Prop := Relation.TransGen (fun a b => a.parent? = some b) p q

theorem Path.eq_or_isAbove_of_mem_climb {p q : Path} {n : Nat} (h : q ∈ p.climb n) : q = p ∨ q.IsAbove p := by
  induction n generalizing p with
  | zero => exact .inl (List.mem_singleton.mp h)
  | succ n ih =>
      rw [climb] at h
      cases hp : p.parent? with
      | none =>
          rw [hp] at h
          exact .inl (List.mem_singleton.mp h)
      | some parent =>
          rw [hp] at h
          rcases List.mem_cons.mp h with rfl | h
          · exact .inl rfl
          · right
            rcases ih h with rfl | ha
            · exact .single hp
            · exact .head hp ha

namespace FileTree

variable {directories files : Path → Prop} {t t' u : FileTree} {p : Path} {place : Place}

/-- Nothing changes except that missing directories are made where one of `directories` leads, and texts
are written where one of `files` leads. -/
structure Confined (directories files : Path → Prop) (t t' : FileTree) : Prop where
  home : t'.home = t.home
  change : ∀ place, t'.find? place = t.find? place ∨
    (t.find? place = none ∧ t'.find? place = some .directory ∧ ∃ q, directories q ∧ t'.locate q = .ok place) ∨
    (t.find? place ≠ some .directory ∧ (∃ text, t'.find? place = some (.file (.text text))) ∧
      ∃ p, files p ∧ t'.locate p = .ok place)

def SameFiles (t t' : FileTree) : Prop :=
  ∀ place content, t'.find? place = some (.file content) ↔ t.find? place = some (.file content)

namespace Confined

theorem refl (t : FileTree) : t.Confined directories files t := ⟨rfl, fun _ => .inl rfl⟩

theorem grows (h : t.Confined directories files t') : t.Grows t' := by
  refine ⟨h.home, ?_, ?_⟩
  · intro place hd
    rcases h.change place with hs | ⟨hn, -⟩ | ⟨hn, -⟩
    · rw [hs, hd]
    · simp [hd] at hn
    · exact (hn hd).elim
  · intro place content hf
    rcases h.change place with hs | ⟨hn, -⟩ | ⟨-, ⟨text, ht⟩, -⟩
    · exact ⟨content, by rw [hs, hf]⟩
    · simp [hf] at hn
    · exact ⟨_, ht⟩

/-- A path that has led somewhere still leads there, so the second change is one of the whole. -/
theorem trans (h : t.Confined directories files t') (h' : t'.Confined directories files u) :
    t.Confined directories files u := by
  have hg := h'.grows
  refine ⟨h'.home.trans h.home, ?_⟩
  intro place
  rcases h'.change place with hs' | ⟨hn', hd', hq'⟩ | ⟨hn', ht', hp'⟩
  · rw [hs']
    rcases h.change place with hs | ⟨hn, hd, q, hq, hl⟩ | ⟨hn, ht, p, hp, hl⟩
    · exact .inl hs
    · exact .inr (.inl ⟨hn, hd, q, hq, hg.locate hl⟩)
    · exact .inr (.inr ⟨hn, ht, p, hp, hg.locate hl⟩)
  · rcases h.change place with hs | ⟨-, hd, -⟩ | ⟨-, ⟨text, ht⟩, -⟩
    · exact .inr (.inl ⟨hs ▸ hn', hd', hq'⟩)
    · simp [hd] at hn'
    · simp [ht] at hn'
  · rcases h.change place with hs | ⟨-, hd, -⟩ | ⟨hn, -⟩
    · exact .inr (.inr ⟨hs ▸ hn', ht', hp'⟩)
    · exact (hn' hd).elim
    · exact .inr (.inr ⟨hn, ht', hp'⟩)

theorem mono {directories' files' : Path → Prop} (h : t.Confined directories files t')
    (hd : ∀ q, directories q → directories' q) (hf : ∀ p, files p → files' p) :
    t.Confined directories' files' t' := by
  refine ⟨h.home, ?_⟩
  intro place
  rcases h.change place with hs | ⟨hn, hdir, q, hq, hl⟩ | ⟨hn, ht, p, hp, hl⟩
  · exact .inl hs
  · exact .inr (.inl ⟨hn, hdir, q, hd q hq, hl⟩)
  · exact .inr (.inr ⟨hn, ht, p, hf p hp, hl⟩)

theorem file_iff (h : t.Confined directories files t') (hp : ∀ p, files p → t'.locate p ≠ .ok place)
    (content : Content) : t'.find? place = some (.file content) ↔ t.find? place = some (.file content) := by
  rcases h.change place with hs | ⟨hn, hd, -⟩ | ⟨-, -, p, hf, hl⟩
  · rw [hs]
  · simp [hn, hd]
  · exact (hp p hf hl).elim

theorem sameFiles (h : t.Confined directories (fun _ => False) t') : t.SameFiles t' :=
  fun _ content => h.file_iff (fun _ hf => hf.elim) content

end Confined

theorem confined_makeDirectory (hp : directories p) (h : t.makeDirectory p = .ok t') :
    t.Confined directories files t' := by
  obtain ⟨here, last, hn, hd, hf, rfl⟩ := makeDirectory_eq_ok h
  have hne : here ++ [last] ≠ [] := by simp
  have hx : t.Extends (t.insert (here ++ [last]) .directory) := extends_insert hne hf
  have hdir : (t.insert (here ++ [last]) .directory).find? (here ++ [last]) = some .directory := find?_insert_self hne
  refine ⟨rfl, ?_⟩
  intro other
  by_cases ho : other = here ++ [last]
  · subst ho
    exact .inr (.inl ⟨hf, hdir, p, hp, (hx.grows.names hn).locate_directory hd hdir⟩)
  · exact .inl (find?_insert_of_ne hne ho)

theorem confined_writeText {text : String} (hp : files p) (h : t.writeText p text = .ok t') :
    t.Confined directories files t' := by
  obtain ⟨place, hw, rfl⟩ := writeText_eq_ok h
  have hf : (t.insert place (.file (.text text))).find? place = some (.file (.text text)) :=
    find?_insert_self hw.ne_nil
  refine ⟨rfl, ?_⟩
  intro other
  by_cases ho : other = place
  · subst ho
    exact .inr (.inr ⟨hw.free, ⟨text, hf⟩, p, hp, (hw.of_grows (hw.grows text) hf).locate (by simp [hf])⟩)
  · exact .inl (find?_insert_of_ne hw.ne_nil ho)

end FileTree

namespace Disk

open FileTree

variable {ε α β : Type} {directories files : Path → Prop} {t t' : FileTree} {p : Path}

def tree (d : Disk ε α) (t : FileTree) : FileTree := (d.run.run t).2

theorem run_get_bind (f : FileTree → Disk ε β) (t : FileTree) : (get >>= f).run.run t = (f t).run.run t := run_bind _ _ t

theorem tree_get_bind (f : FileTree → Disk ε β) (t : FileTree) : (get >>= f).tree t = (f t).tree t :=
  congrArg Prod.snd (run_get_bind f t)

theorem tree_about (path : Path) (d : Disk IoError α) (t : FileTree) : (about path d).tree t = d.tree t := by
  rw [tree, run_about, tree]
  cases d.run.run t with
  | mk result u => cases result <;> rfl

theorem confined_bind {d : Disk ε α} {f : α → Disk ε β} (hd : t.Confined directories files (d.tree t))
    (hf : ∀ a u, d.Runs t a u → u.Confined directories files ((f a).tree u)) :
    t.Confined directories files ((d >>= f).tree t) := by
  rw [tree] at hd
  rw [tree, run_bind]
  cases hr : d.run.run t with
  | mk result u =>
      rw [hr] at hd
      cases result with
      | error e => exact hd
      | ok a => exact hd.trans (hf a u hr)

theorem tree_settle (p : Path) (e : IoError) (t : FileTree) : (settle p e).tree t = t := by
  rw [settle, tree_get_bind]
  split <;> rfl

theorem confined_made (hp : directories p) (t : FileTree) :
    t.Confined directories files ((match t.makeDirectory p with
      | .ok u => set u
      | .error e => settle p e : Disk IoError Unit).tree t) := by
  split
  next u hm => exact confined_makeDirectory hp hm
  next => exact (tree_settle p _ t).symm ▸ .refl t

theorem confined_makeAll {paths : List Path} (hp : ∀ p ∈ paths, directories p) (t : FileTree) :
    t.Confined directories files ((makeAll paths).tree t) := by
  induction paths generalizing t with
  | nil => exact .refl t
  | cons p above ih =>
      have hfirst : directories p := hp p (by simp)
      rw [makeAll]
      split
      next => exact .refl t
      next =>
        rw [tree_get_bind]
        split
        next u hm => exact confined_makeDirectory hfirst hm
        next =>
          refine confined_bind (ih (fun q hq => hp q (by simp [hq])) t) ?_
          intro _ u _
          rw [tree_get_bind]
          exact confined_made hfirst u
        next => exact (tree_settle p _ t).symm ▸ .refl t

theorem confined_makeDirectories (hp : ∀ q, q = p ∨ q.IsAbove p → directories q) (t : FileTree) :
    t.Confined directories files ((makeDirectories p).tree t) :=
  confined_makeAll (fun q hq => hp q (Path.eq_or_isAbove_of_mem_climb hq)) t

theorem run_writeText (p : Path) (text : String) (t : FileTree) :
    (writeText p text).run.run t =
      match t.writeText p text with
      | .ok u => (.ok (), u)
      | .error e => (.error e, t) := by
  rw [writeText, update, run_get_bind]
  cases t.writeText p text <;> rfl

end Disk

namespace Generation

open Disk FileTree

variable {directories files : Path → Prop} {t t' : FileTree}

theorem confined_prepare {directory? : Option Path}
    (hd : ∀ d ∈ directory?, ∀ q, q = d ∨ q.IsAbove d → directories q) (t : FileTree) :
    t.Confined directories files ((prepare directory?).tree t) := by
  cases directory? with
  | none => exact .refl t
  | some d =>
      rw [prepare, tree_about]
      exact confined_makeDirectories (hd d (by simp)) t

theorem confined_deposit {directory? : Option Path} {path : Path}
    (hd : ∀ d ∈ directory?, ∀ q, q = d ∨ q.IsAbove d → directories q) (hp : files path) (text : String)
    (t : FileTree) : t.Confined directories files ((deposit directory? path text).tree t) := by
  rw [deposit]
  refine confined_bind (confined_prepare hd t) ?_
  intro _ u _
  rw [tree_about, tree, run_writeText]
  split
  next v hw => exact confined_writeText hp hw
  next => exact .refl u

theorem confined_of_deposit_error {directory? : Option Path} {path : Path} {text : String} {cause : Error}
    (hd : ∀ d ∈ directory?, ∀ q, q = d ∨ q.IsAbove d → directories q)
    (h : (deposit directory? path text).run.run t = (.error cause, t')) :
    t.Confined directories (fun _ => False) t' := by
  have hmake : t.Confined directories (fun _ => False) ((prepare directory?).tree t) := confined_prepare hd t
  rw [tree] at hmake
  rw [deposit, run_bind] at h
  split at h
  next _ u hr =>
    rw [hr] at hmake
    rw [run_about, run_writeText] at h
    cases hw : u.writeText path text with
    | ok v =>
        rw [hw] at h
        cases h
    | error e =>
        rw [hw] at h
        cases h
        exact hmake
  next e u hr =>
    rw [hr] at hmake
    cases h
    exact hmake

theorem confined_ensure {path : Path} (hp : files path) (line : String) (t : FileTree) :
    t.Confined directories files ((Index.ensure path line).tree t) := by
  rw [Index.ensure, tree_get_bind]
  cases Index.content t path with
  | error cause => exact .refl t
  | ok old =>
      dsimp only
      rw [pure_bind]
      split
      next => exact .refl t
      next =>
        refine confined_bind ?_ fun _ u _ => .refl u
        rw [tree_about, tree, run_writeText]
        split
        next v hw => exact confined_writeText hp hw
        next => exact .refl t

namespace Options

def Needs (o : Options) (q : Path) : Prop :=
  q.IsAbove o.builderPath ∨ q = o.routeMapDirectory ∨ q.IsAbove o.routeMapDirectory

def Writes (o : Options) (p : Path) : Prop :=
  p = o.builderPath ∨ p = o.routeMapPath ∨ (o.mainTarget = false ∧ p = o.indexPath)

theorem needs_builder (o : Options) : ∀ d ∈ o.builderPath.parent?, ∀ q, q = d ∨ q.IsAbove d → o.Needs q := by
  rintro d hd q (rfl | hq)
  · exact .inl (.single hd)
  · exact .inl (.head hd hq)

theorem needs_routeMap (o : Options) : ∀ d ∈ some o.routeMapDirectory, ∀ q, q = d ∨ q.IsAbove d → o.Needs q := by
  intro d hd q hq
  cases hd
  exact .inr hq

end Options

variable {o : Options} {entries : List Entry}

theorem confined_writeFiles (hr : Builder.render o.moduleName o.libName entries =
    .ok (Builder.text o.moduleName o.libName entries)) (t : FileTree) :
    t.Confined o.Needs o.Writes ((writeFiles o entries).tree t) := by
  rw [writeFiles, writeBuilder_eq o hr, writeRouteMap_eq]
  refine confined_bind (confined_deposit o.needs_builder (.inl rfl) _ t) ?_
  intro _ u _
  refine confined_bind (confined_deposit o.needs_routeMap (.inr (.inl rfl)) _ u) ?_
  intro _ v _
  cases hm : o.mainTarget with
  | true => exact .refl v
  | false => exact confined_ensure (.inr (.inr ⟨hm, rfl⟩)) _ v

theorem run_generate (o : Options) (base : Settings) (t : FileTree) :
    (generate o base).run.run t =
      match o.fault? with
      | some fault => (.error (.options fault), t)
      | none =>
        if o.scanFiles.isEmpty then (.ok {}, t)
        else match (o.settings base).fault? with
          | some fault => (.error (.scan (.settings fault)), t)
          | none => (writeAll o (o.settings base)).run.run t := by
  rw [generate]
  cases o.fault? with
  | some fault => rfl
  | none =>
      dsimp only
      split
      next => rfl
      next => cases (o.settings base).fault? <;> rfl

theorem run_writeAll (o : Options) (s : Settings) (t : FileTree) :
    (writeAll o s).run.run t =
      match (writeFiles o (survey t o s).entries).run.run t with
      | (.ok updated, u) => (.ok { survey t o s with
          builderFile? := some o.builderPath
          routeMapFile? := some o.routeMapPath
          indexUpdated := updated }, u)
      | (.error cause, u) => (.error cause, u) := by
  rw [writeAll_eq, run_get_bind, run_bind]
  cases (writeFiles o (survey t o s).entries).run.run t with
  | mk result u => cases result <;> rfl

theorem confined_generate (o : Options) (base : Settings) (t : FileTree) :
    t.Confined o.Needs o.Writes ((generate o base).run.run t).2 := by
  rw [run_generate]
  cases o.fault? with
  | some fault => exact .refl t
  | none =>
      dsimp only
      split
      next => exact .refl t
      next =>
        cases (o.settings base).fault? with
        | some fault => exact .refl t
        | none =>
            have hfiles := confined_writeFiles (render_survey t o (o.settings base) o.moduleName o.libName) t
            rw [tree] at hfiles
            dsimp only
            rw [run_writeAll]
            cases hr : (writeFiles o (survey t o (o.settings base)).entries).run.run t with
            | mk result u =>
                rw [hr] at hfiles
                cases result <;> exact hfiles

def Accepted (o : Options) (base : Settings) : Prop :=
  o.fault? = none ∧ o.scanFiles ≠ [] ∧ (o.settings base).fault? = none

theorem run_generate_of_accepted {base : Settings} (h : Accepted o base) (t : FileTree) :
    (generate o base).run.run t = (writeAll o (o.settings base)).run.run t := by
  obtain ⟨hf, hs, hb⟩ := h
  rw [run_generate, hf, hb]
  simp [hs]

theorem run_generate_of_not_accepted {base : Settings} (h : ¬ Accepted o base) (t : FileTree) :
    ((generate o base).run.run t).2 = t := by
  rw [run_generate]
  cases hf : o.fault? with
  | some fault => rfl
  | none =>
      dsimp only
      split
      next => rfl
      next hs =>
        cases hb : (o.settings base).fault? with
        | some fault => rfl
        | none => exact (h ⟨hf, by simpa using hs, hb⟩).elim

theorem run_generate_of_builder_error {base : Settings} (h : Accepted o base) {cause : Error}
    (hb : (writeBuilder o (survey t o (o.settings base)).entries).run.run t = (.error cause, t')) :
    (generate o base).run.run t = (.error cause, t') := by
  rw [run_generate_of_accepted h, run_writeAll, writeFiles, run_bind, hb]

theorem run_generate_of_routeMap_error {base : Settings} (h : Accepted o base) {u : FileTree} {cause : Error}
    (hb : (writeBuilder o (survey t o (o.settings base)).entries).run.run t = (.ok (), u))
    (hm : (writeRouteMap o (survey t o (o.settings base)).entries).run.run u = (.error cause, t')) :
    (generate o base).run.run t = (.error cause, t') := by
  rw [run_generate_of_accepted h, run_writeAll, writeFiles, run_bind, hb]
  dsimp only
  rw [run_bind, hm]

end Generation

open Generation FileTree in
/-- A generation changes nothing but its own files, and makes directories only on the way to the builder
and to the route map. What is refused changes nothing at all. Where the builder cannot be written, no
file has changed; where the route map cannot be written, no file but the builder has, and so the index
file has its old content unless it is the builder. -/
theorem generation_confined (o : Options) (base : Settings) (t : FileTree) :
    let entries := (survey t o (o.settings base)).entries
    t.Confined o.Needs o.Writes ((generate o base).run.run t).2 ∧
      (¬ Accepted o base → ((generate o base).run.run t).2 = t) ∧
      (Accepted o base →
        (∀ cause t', (writeBuilder o entries).run.run t = (.error cause, t') →
          (generate o base).run.run t = (.error cause, t') ∧ t.SameFiles t') ∧
        ∀ u cause t', (writeBuilder o entries).run.run t = (.ok (), u) →
          (writeRouteMap o entries).run.run u = (.error cause, t') →
          (generate o base).run.run t = (.error cause, t') ∧
            (t'.canonical o.builderPath ≠ t'.canonical o.indexPath → ∀ place, t'.locate o.indexPath = .ok place →
              ∀ content, t'.find? place = some (.file content) ↔ t.find? place = some (.file content))) := by
  intro entries
  have hr := render_survey t o (o.settings base) o.moduleName o.libName
  refine ⟨confined_generate o base t, fun h => run_generate_of_not_accepted h t, fun h => ⟨?_, ?_⟩⟩
  · intro cause t' hb
    refine ⟨run_generate_of_builder_error h hb, ?_⟩
    rw [writeBuilder_eq o hr] at hb
    exact (confined_of_deposit_error o.needs_builder hb).sameFiles
  · intro u cause t' hb hm
    refine ⟨run_generate_of_routeMap_error h hb hm, ?_⟩
    intro hne place hi content
    rw [writeBuilder_eq o hr] at hb
    rw [writeRouteMap_eq] at hm
    have hbuilder : t.Confined o.Needs (· = o.builderPath)
        ((deposit o.builderPath.parent? o.builderPath (Builder.text o.moduleName o.libName entries)).tree t) :=
      confined_deposit o.needs_builder (by rfl) _ t
    rw [Disk.tree, hb] at hbuilder
    have hmap := (confined_of_deposit_error o.needs_routeMap hm).mono (fun _ h => h)
      (fun p (h : False) => (h.elim : p = o.builderPath))
    refine (hbuilder.trans hmap).file_iff ?_ content
    rintro p rfl hl
    exact hne (by rw [canonical, canonical, hl, hi])

section Blocked

open Generation FileTree

def blockedBuilder : FileTree := ⟨[], [(["Index.ets"], .file (.text "// index")), (["gen"], .file (.text ""))]⟩

def blockedRouteMap : FileTree :=
  ⟨[], [(["Index.ets"], .file (.text "// index")), (["gen"], .directory), (["gen", "route_map.json"], .directory)]⟩

theorem exists_of_toOption_eq_none {ε α τ : Type} {x : Except ε α × τ} (h : x.1.toOption = none) :
    ∃ e, x = (.error e, x.2) := by
  obtain ⟨result, t⟩ := x
  cases result with
  | error e => exact ⟨e, rfl⟩
  | ok a => cases h

theorem blocked_generations_confined : ¬ Accepted { homeModule with moduleName := " " } {} ∧
    ((generate { homeModule with moduleName := " " } {}).run.run blockedRouteMap).2 = blockedRouteMap ∧
    Accepted homeModule {} ∧
    (∃ cause t', (generate homeModule {}).run.run blockedBuilder = (.error cause, t') ∧ blockedBuilder.SameFiles t') ∧
    ∃ cause t', (generate homeModule {}).run.run blockedRouteMap = (.error cause, t') ∧
      (t'.find? ["gen", "B.ets"]).isSome = true ∧
      t'.canonical homeModule.builderPath ≠ t'.canonical homeModule.indexPath ∧
      t'.find? ["Index.ets"] = some (.file (.text "// index")) := by
  have hrefused : ¬ Accepted { homeModule with moduleName := " " } {} := fun h => absurd h.1 (by decide)
  have haccepted : Accepted homeModule {} := ⟨by decide, by decide, by decide⟩
  refine ⟨hrefused, (generation_confined _ {} blockedRouteMap).2.1 hrefused, haccepted, ?_, ?_⟩
  · obtain ⟨cause, hb⟩ := exists_of_toOption_eq_none (x := (writeBuilder homeModule
      (survey blockedBuilder homeModule (homeModule.settings {})).entries).run.run blockedBuilder) (by decide +kernel)
    exact ⟨cause, _, ((generation_confined homeModule {} blockedBuilder).2.2 haccepted).1 cause _ hb⟩
  · let entries := (survey blockedRouteMap homeModule (homeModule.settings {})).entries
    let u := ((writeBuilder homeModule entries).run.run blockedRouteMap).2
    have hb : (writeBuilder homeModule entries).run.run blockedRouteMap = (.ok (), u) :=
      Prod.ext (ok_of_toOption (by decide +kernel)) rfl
    obtain ⟨cause, hm⟩ := exists_of_toOption_eq_none (x := (writeRouteMap homeModule entries).run.run u)
      (by decide +kernel)
    obtain ⟨hrun, hindex⟩ :=
      ((generation_confined homeModule {} blockedRouteMap).2.2 haccepted).2 u cause _ hb hm
    have hne : ((writeRouteMap homeModule entries).run.run u).2.canonical homeModule.builderPath ≠
        ((writeRouteMap homeModule entries).run.run u).2.canonical homeModule.indexPath := by
      intro he
      exact absurd (congrArg Except.toOption he) (by decide +kernel)
    refine ⟨cause, _, hrun, by decide +kernel, hne, ?_⟩
    exact (hindex hne ["Index.ets"] (ok_of_toOption (by decide +kernel)) _).mpr rfl

end Blocked

end ArkRoutes
