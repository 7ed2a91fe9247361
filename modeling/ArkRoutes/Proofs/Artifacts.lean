import ArkRoutes.Proofs.BuilderText
import ArkRoutes.Proofs.Frame
import ArkRoutes.Proofs.JsonText
import ArkRoutes.Proofs.Regeneration
import ArkRoutes.Proofs.Words

namespace ArkRoutes

theorem Text.isWord_append_builder {s : String} (h : Text.IsWord s) : Text.IsWord (s ++ "Builder") := by
  refine ⟨fun he => ?_, fun c hc hm => ?_⟩
  · have hl := congrArg (·.toList.getLast?) he
    simp at hl
  · rw [String.toList_append, List.mem_append] at hm
    rcases hm with hm | hm
    · exact h.not_mem hc hm
    · simp only [List.mem_cons, List.not_mem_nil, or_false] at hc
      rcases hc with rfl | rfl | rfl | rfl | rfl <;> simp at hm

namespace Generation

open Disk FileTree

variable {t t' u : FileTree} {o : Options} {s : Settings} {entries : List Entry}

/-! ### The survey -/

theorem entries_survey (t : FileTree) (o : Options) (s : Settings) :
    (survey t o s).entries = o.scanFiles.flatMap fun file =>
      (((t.scan s (o.sourcePath file)).toOption.getD []).map (Entry.ofRoute o.builderDirectory)).filter Entry.isUsable := by
  rw [survey]
  dsimp only
  rw [List.flatMap_map]
  refine List.flatMap_congr fun file _ => ?_
  rw [entriesOf]
  cases t.scan s (o.sourcePath file) <;> rfl

theorem skippedFiles_survey (t : FileTree) (o : Options) (s : Settings) :
    (survey t o s).skippedFiles = (o.scanFiles.map o.sourcePath).filter fun path => (t.scan s path).toOption.isNone := by
  rw [survey]
  dsimp only
  rw [List.filterMap_map, ← List.filterMap_eq_filter, List.filterMap_map]
  refine List.filterMap_congr fun file _ => ?_
  simp only [Function.comp_apply, entriesOf]
  cases hs : t.scan s (o.sourcePath file) <;>
    simp [Option.guard, hs, bind, Except.bind, Except.toOption, pure, Except.pure]

theorem route_of_survey {e : Entry} (h : e ∈ (survey t o s).entries) :
    ∃ r file, r ∈ (t.scan s (o.sourcePath file)).toOption.getD [] ∧ Entry.ofRoute o.builderDirectory r = e := by
  rw [entries_survey] at h
  obtain ⟨file, -, h⟩ := List.mem_flatMap.mp h
  obtain ⟨r, hr, rfl⟩ := List.mem_map.mp (List.mem_filter.mp h).1
  exact ⟨r, file, hr, rfl⟩

theorem buildFunction_survey (t : FileTree) (o : Options) (s : Settings) :
    ∀ e ∈ (survey t o s).entries, e.buildFunction = e.component ++ "Builder" := by
  intro e he
  obtain ⟨r, file, -, rfl⟩ := route_of_survey he
  rfl

theorem isWord_survey (t : FileTree) (o : Options) (s : Settings) :
    ∀ e ∈ (survey t o s).entries, Text.IsWord e.component := by
  intro e he
  obtain ⟨r, file, hr, rfl⟩ := route_of_survey he
  exact t.isWord_scan s _ r hr

def Builder.StaysInLine (e : Entry) : Prop := '\n' ∉ e.name.toList ∧ '\n' ∉ e.importPath.toList

theorem isLegible_survey : ∀ e ∈ (survey t o s).entries, Builder.StaysInLine e → Builder.IsLegible e := by
  rintro e he ⟨hn, hp⟩
  have hc := isWord_survey t o s e he
  exact ⟨hn, hp, hc, buildFunction_survey t o s e he ▸ Text.isWord_append_builder hc, usable_survey t o s e he⟩

/-! ### Failures -/

def FailsOnFiles {α : Type} (d : Disk Error α) : Prop :=
  ∀ t cause u, d.run.run t = (.error cause, u) → ∃ path e, cause = .io path e

theorem failsOnFiles_pure {α : Type} (a : α) : FailsOnFiles (pure a) := by
  intro t cause u h
  cases h

theorem failsOnFiles_get : FailsOnFiles (get : Disk Error FileTree) := by
  intro t cause u h
  cases h

theorem failsOnFiles_bind {α β : Type} {d : Disk Error α} {f : α → Disk Error β} (hd : FailsOnFiles d)
    (hf : ∀ a, FailsOnFiles (f a)) : FailsOnFiles (d >>= f) := by
  intro t cause u h
  rw [run_bind] at h
  cases hr : d.run.run t with
  | mk result v =>
      rw [hr] at h
      cases result with
      | ok a => exact hf a v cause u h
      | error e =>
          cases h
          exact hd t _ _ hr

theorem failsOnFiles_about {α : Type} (path : Path) (d : Disk IoError α) : FailsOnFiles (about path d) := by
  intro t cause u h
  rw [run_about] at h
  cases hr : d.run.run t with
  | mk result v =>
      rw [hr] at h
      cases result with
      | ok a => cases h
      | error e =>
          cases h
          exact ⟨path, e, rfl⟩

theorem failsOnFiles_deposit (directory? : Option Path) (path : Path) (text : String) :
    FailsOnFiles (deposit directory? path text) := by
  refine failsOnFiles_bind ?_ fun _ => failsOnFiles_about _ _
  cases directory? with
  | none => exact failsOnFiles_pure _
  | some d => exact failsOnFiles_about _ _

theorem failsOnFiles_ensure (path : Path) (line : String) : FailsOnFiles (Index.ensure path line) := by
  refine failsOnFiles_bind failsOnFiles_get fun t => ?_
  cases Index.content t path with
  | error e =>
      intro t cause u h
      cases h
      exact ⟨path, e, rfl⟩
  | ok old =>
      dsimp only
      rw [pure_bind]
      split
      · exact failsOnFiles_pure _
      · exact failsOnFiles_bind (failsOnFiles_about _ _) fun _ => failsOnFiles_pure _

theorem failsOnFiles_writeFiles (hr : Builder.render o.moduleName o.libName entries =
    .ok (Builder.text o.moduleName o.libName entries)) : FailsOnFiles (writeFiles o entries) := by
  rw [writeFiles, writeBuilder_eq o hr, writeRouteMap_eq]
  refine failsOnFiles_bind (failsOnFiles_deposit _ _ _) fun _ => failsOnFiles_bind (failsOnFiles_deposit _ _ _) fun _ => ?_
  split
  · exact failsOnFiles_pure _
  · exact failsOnFiles_ensure _ _

/-! ### The files -/

theorem readText_of_deposited {directory? : Option Path} {path : Path} {place : Place} {text : String}
    (h : Deposited t directory? path place) (hf : t.find? place = some (.file (.text text))) :
    t.readText path = .ok text :=
  readText_of_locate (h.writable.locate (by simp [hf])) hf rfl

theorem readText_of_writeBuilder (hr : Builder.render o.moduleName o.libName entries =
    .ok (Builder.text o.moduleName o.libName entries)) (h : (writeBuilder o entries).Runs t () t') :
    t'.readText o.builderPath = .ok (Builder.text o.moduleName o.libName entries) := by
  rw [writeBuilder_eq o hr] at h
  obtain ⟨place, hd, -, hf, -⟩ := runs_deposit h
  exact readText_of_deposited hd hf

theorem Generated.readText_routeMap {b r : Place} (h : Generated o entries t b r) :
    t.readText o.routeMapPath = .ok (routeMapText o entries) :=
  readText_of_deposited h.routeMap h.routeMapFile

theorem Generated.readText_builder {b r : Place} (h : Generated o entries t b r) (ha : Apart o t)
    (hm : t.canonical o.builderPath ≠ t.canonical o.routeMapPath) :
    t.readText o.builderPath = .ok (Builder.text o.moduleName o.libName entries) := by
  rcases h.builderFile ha with rfl | hf
  · obtain ⟨content, hf⟩ := h.builder.file
    have hb := h.builder.writable.locate (by simp [hf])
    have hr := h.routeMap.writable.locate (by simp [hf])
    exact absurd (by rw [canonical, canonical, hb, hr]) hm
  · exact readText_of_deposited h.builder hf

def WroteBuilder (o : Options) (entries : List Entry) (t t' : FileTree) (builder : String) : Prop :=
  (∃ u, (writeBuilder o entries).run.run t = (.ok (), u) ∧ u.readText o.builderPath = .ok builder) ∧
    (Apart o t' → t'.canonical o.builderPath ≠ t'.canonical o.routeMapPath → t'.readText o.builderPath = .ok builder)

theorem wroteBuilder_of_runs {updated : Bool} (hr : Builder.render o.moduleName o.libName entries =
    .ok (Builder.text o.moduleName o.libName entries)) (h : (writeFiles o entries).Runs t updated t') :
    WroteBuilder o entries t t' (Builder.text o.moduleName o.libName entries) := by
  obtain ⟨-, b, r, hgen⟩ := generated_of_runs hr h
  obtain ⟨_, u, hbuilder, -⟩ := runs_bind.mp h
  exact ⟨⟨u, hbuilder, readText_of_writeBuilder hr hbuilder⟩, hgen.readText_builder⟩

end Generation

open Generation Disk FileTree in
/-- Once it is accepted, a generation fails on files only, never on a route. It reports the usable routes
of the files that can be scanned, in the order of the files, and the files that cannot. The route map
that it leaves has these routes as its items; so have the functions and the registrations of the builder
that it writes, as long as no text in them breaks out of its place. -/
theorem artifacts_agree (o : Options) (base : Settings) (t : FileTree) (h : Accepted o base) :
    let scanned (file : String) := (t.scan (o.settings base) (o.sourcePath file)).toOption
    let entries := (o.scanFiles.flatMap fun file => ((scanned file).getD []).map (Entry.ofRoute o.builderDirectory)).filter
      fun e => !(e.hasParam && !isIdentifier e.paramName)
    (Builder.render o.moduleName o.libName entries).toOption.isSome = true ∧
      (∀ cause t', (generate o base).run.run t = (.error cause, t') → ∃ path e, cause = .io path e) ∧
      ∀ summary t', (generate o base).run.run t = (.ok summary, t') →
        summary.entries = entries ∧ summary.scannedFiles = o.scanFiles.length ∧
        summary.skippedFiles = (o.scanFiles.filter fun file => (scanned file).isNone).map o.sourcePath ∧
        ∃ builder map, WroteBuilder o entries t t' builder ∧ t'.readText o.routeMapPath = .ok map ∧
          RouteMap.read? map = some (entries.map (RouteMap.Item.ofEntry o.moduleName o.pageSourceFile)) ∧
          ('\n' ∉ o.moduleName.toList → '\n' ∉ o.libName.toList → (∀ e ∈ entries, Builder.StaysInLine e) →
            Builder.functions (Text.lines builder) = entries.map Builder.Function.ofEntry ∧
              Builder.registrations (Text.lines builder) = entries.map Builder.Registration.ofEntry) := by
  intro scanned entries
  have he : (survey t o (o.settings base)).entries = entries := by
    have hu : (fun e : Generation.Entry => !(e.hasParam && !isIdentifier e.paramName)) = Entry.isUsable := by
      funext e
      simp [Entry.isUsable]
    rw [entries_survey, ← List.filter_flatMap, ← hu]
  have hr := render_survey t o (o.settings base) o.moduleName o.libName
  rw [he] at hr
  refine ⟨by rw [hr]; rfl, ?_, ?_⟩
  · intro cause t' hrun
    rw [run_generate_of_accepted h, run_writeAll, he] at hrun
    cases hw : (writeFiles o entries).run.run t with
    | mk result u =>
        rw [hw] at hrun
        cases result with
        | ok updated => cases hrun
        | error e =>
            cases hrun
            exact failsOnFiles_writeFiles hr t _ _ hw
  · intro summary t' hrun
    rw [run_generate_of_accepted h] at hrun
    obtain ⟨updated, hfiles, rfl⟩ := runs_writeAll_iff.mp hrun
    rw [he] at hfiles
    obtain ⟨-, b, r, hgen⟩ := generated_of_runs hr hfiles
    refine ⟨he, by simp [survey], ?_, _, _, wroteBuilder_of_runs hr hfiles, hgen.readText_routeMap,
      RouteMap.read?_text _, ?_⟩
    · dsimp only
      rw [skippedFiles_survey, List.filter_map]
      rfl
    · intro hm hl hs
      have hlegible : ∀ e ∈ entries, Builder.IsLegible e := fun e hm => isLegible_survey e (he ▸ hm) (hs e hm)
      rw [Builder.lines_text hm hl hlegible]
      exact ⟨Builder.functions_lines hlegible _ _, Builder.registrations_lines hlegible _ _⟩

/-! ### Two modules -/

section Modules

open Generation FileTree

def shopModule : Options :=
  { moduleName := "shop", builderDir := "gen", builderFile := "B.ets", routeMapDir := "gen",
    scanFiles := ["Home", "Gone", "Pay"] }

def shop : FileTree where
  home := []
  entries :=
    [(["Home.ets"], .file (.text "@AppRouter(\x7bname: 'home'\x7d) class Home \x7b\x7d")),
      (["Pay.ets"], .file (.text (
        "@AppRouter(\x7bname: 'it\\'s', login: true, hasParam: true, paramName: 'order'\x7d) class Pay \x7b\x7d\n" ++
        "@AppRouter(\x7bname: 'back', hasParam: true, paramName: 'no name'\x7d) class Back \x7b\x7d")))]

def shopRoutes : List Generation.Entry :=
  [⟨"home", "Home", "../Home", "HomeBuilder", false, "routerParam", false⟩,
    ⟨"it's", "Pay", "../Pay", "PayBuilder", true, "order", true⟩]

def shopSummary : Summary :=
  ⟨3, [⟨"./Gone.ets"⟩], shopRoutes, some ⟨"./gen/B.ets"⟩, some ⟨"./gen/route_map.json"⟩, true⟩

theorem exists_of_fst {α β : Type} {x : α × β} {a : α} (h : x.1 = a) : ∃ b, x = (a, b) := ⟨x.2, by rw [← h]⟩

theorem exists_run_shop : ∃ t', (generate shopModule {}).run.run shop = (.ok shopSummary, t') :=
  exists_of_fst (ok_of_toOption (by decide +kernel))

theorem staysInLine_shop : ∀ e ∈ shopSummary.entries, Builder.StaysInLine e := by
  simp [shopSummary, shopRoutes, Builder.StaysInLine]

theorem shop_artifacts_agree : Accepted shopModule {} ∧ ∃ t builder map,
    (generate shopModule {}).run.run shop = (.ok shopSummary, t) ∧ WroteBuilder shopModule shopRoutes shop t builder ∧
      t.readText shopModule.routeMapPath = .ok map ∧
      RouteMap.read? map = some [⟨"home", "gen/B.ets", "HomeBuilder", "shop", "false", "false", "routerParam"⟩,
        ⟨"it's", "gen/B.ets", "PayBuilder", "shop", "true", "true", "order"⟩] ∧
      Builder.functions (Text.lines builder) = [⟨"HomeBuilder", none, "Home", none⟩,
        ⟨"PayBuilder", some "order", "Pay", some ("order", "order")⟩] ∧
      Builder.registrations (Text.lines builder) = [⟨"home", "HomeBuilder", false⟩, ⟨"it's", "PayBuilder", true⟩] := by
  have ha : Accepted shopModule {} := ⟨by decide, by decide, by decide⟩
  refine ⟨ha, ?_⟩
  obtain ⟨t, hrun⟩ := exists_run_shop
  obtain ⟨he, -, -, builder, map, hbuilder, hmap, hitems, hlines⟩ :=
    (artifacts_agree shopModule {} shop ha).2.2 _ _ hrun
  rw [← he] at hbuilder hitems hlines
  obtain ⟨hf, hr⟩ := hlines (by decide) (by decide) staysInLine_shop
  have hi : shopSummary.entries.map (RouteMap.Item.ofEntry shopModule.moduleName shopModule.pageSourceFile) =
      [⟨"home", "gen/B.ets", "HomeBuilder", "shop", "false", "false", "routerParam"⟩,
        ⟨"it's", "gen/B.ets", "PayBuilder", "shop", "true", "true", "order"⟩] := by
    decide +kernel
  exact ⟨t, builder, map, hrun, hbuilder, hmap, hi ▸ hitems, hf, hr⟩

def ghostPage : FileTree where
  home := []
  entries :=
    [(["Home.ets"], .file (.text
      "@AppRouter(\x7bname: '\\n@Builder\\nexport function G() \x7b\\n  G()\\n\x7d\\n'\x7d) class Home \x7b\x7d"))]

def ghostRoute : Generation.Entry := { homeRoute with name := "\n@Builder\nexport function G() \x7b\n  G()\n\x7d\n" }

def ghostPageAfter : FileTree := ⟨[], ghostPage.entries ++ homeFiles [ghostRoute]⟩

def ghostLines : List String :=
  ["// Generated by auto-router-gen for module \x60m\x60. Do not edit.",
    "import \x7b AppRouterRegistry \x7d from 'autorouter';", "import \x7b Home \x7d from '../Home';", "", "@Builder",
    "export function HomeBuilder() \x7b", "  Home()", "\x7d", "", "export function registerRoutes(): void \x7b",
    "  AppRouterRegistry.register('", "@Builder", "export function G() \x7b", "  G()", "\x7d",
    "', wrapBuilder(HomeBuilder), false);", "\x7d"]

theorem lines_ghost : Text.lines (Builder.text "m" "autorouter" [ghostRoute]) = ghostLines := by
  have ht : Builder.text "m" "autorouter" [ghostRoute] = String.intercalate "\n" (ghostLines ++ [""]) := by
    decide +kernel
  rw [ht, Text.lines, Text.splitAt_intercalate rfl (by simp) (by decide +kernel), List.dropLast_concat]

/-- There is one route, and the builder has two functions and no registration. -/
theorem line_break_adds_function :
    (generate homeModule {}).run.run ghostPage =
      (.ok { homeSummary true with entries := [ghostRoute] }, ghostPageAfter) ∧
    ∃ builder, ghostPageAfter.readText homeModule.builderPath = .ok builder ∧
      (Builder.functions (Text.lines builder)).map Builder.Function.component = ["Home", "G"] ∧
      Builder.registrations (Text.lines builder) = [] := by
  have hl : ghostPageAfter.locate homeModule.builderPath = .ok ["gen", "B.ets"] := ok_of_toOption (by decide)
  refine ⟨run_eq_of_entries (by decide +kernel), Builder.text "m" "autorouter" [ghostRoute], ?_, ?_, ?_⟩
  · exact readText_of_locate hl rfl rfl
  · rw [lines_ghost]
    decide
  · rw [lines_ghost]
    decide

end Modules

end ArkRoutes
