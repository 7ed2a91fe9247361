import ArkRoutes.Proofs.ImportClosure
import ArkRoutes.Proofs.Writing

namespace ArkRoutes

namespace Generation

open Disk FileTree

variable {t t' u : FileTree}

def Apart (o : Options) (t : FileTree) : Prop :=
  o.mainTarget = true ∨ t.canonical o.builderPath ≠ t.canonical o.indexPath

def routeMapText (o : Options) (entries : List Entry) : String :=
  RouteMap.text (entries.map (RouteMap.Item.ofEntry o.moduleName o.pageSourceFile))

/-- A tree with the files of a generation, the builder at `b` and the route map at `r`. -/
structure Generated (o : Options) (entries : List Entry) (t : FileTree) (b r : Place) : Prop where
  builder : Deposited t o.builderPath.parent? o.builderPath b
  routeMap : Deposited t (some o.routeMapDirectory) o.routeMapPath r
  builderFile : Apart o t → b = r ∨ t.find? b = some (.file (.text (Builder.text o.moduleName o.libName entries)))
  routeMapFile : t.find? r = some (.file (.text (routeMapText o entries)))
  index : o.mainTarget = true ∨ o.mainTarget = false ∧ ∃ place content text, t.Writable o.indexPath place ∧
    t.find? place = some (.file content) ∧ content.decode = .ok text ∧ Text.contains text o.indexLine = true

variable {o : Options} {entries entries' : List Entry} {b r : Place}

theorem place_ne {place : Place} (hr : t.Writable o.routeMapPath r) (hi : u.Writable o.indexPath place) :
    place ≠ r := by
  obtain ⟨here, rfl⟩ := hr.eq_concat (by decide) (by decide)
  obtain ⟨there, rfl⟩ := hi.eq_concat (by decide) (by decide)
  intro h
  have hlast := congrArg List.getLast? h
  simp at hlast

theorem Options.indexLine_ne (o : Options) : o.indexLine ≠ "" := by
  unfold Options.indexLine
  intro h
  exact absurd (String.append_eq_empty_iff.mp h).2 (by decide)

theorem ne_of_apart {place : Place} (ha : Apart o t) (hm : o.mainTarget = false) (hb : t.locate o.builderPath = .ok b)
    (hi : t.locate o.indexPath = .ok place) : b ≠ place := by
  rintro rfl
  rcases ha with ha | ha
  · simp [hm] at ha
  · exact ha (by rw [canonical, canonical, hb, hi])

theorem generated_of_runs {updated : Bool}
    (hr : Builder.render o.moduleName o.libName entries = .ok (Builder.text o.moduleName o.libName entries))
    (h : (writeFiles o entries).Runs t updated t') : t.Grows t' ∧ ∃ b r, Generated o entries t' b r := by
  obtain ⟨_, t₁, hbuilder, hrest⟩ := runs_bind.mp h
  obtain ⟨_, t₂, hmap, hindex⟩ := runs_bind.mp hrest
  rw [writeBuilder_eq o hr] at hbuilder
  rw [writeRouteMap_eq] at hmap
  obtain ⟨b, hb, hg₁, hbt, -⟩ := runs_deposit hbuilder
  obtain ⟨r, hm, hg₂, hmt, hkept⟩ := runs_deposit hmap
  have hb₂ := hb.of_grows hg₂
  have hbt₂ : b = r ∨ t₂.find? b = some (.file (.text (Builder.text o.moduleName o.libName entries))) := by
    by_cases hbr : b = r
    · exact .inl hbr
    · exact .inr (hkept b _ hbr hbt)
  cases hmain : o.mainTarget with
  | true =>
      rw [hmain] at hindex
      obtain ⟨-, rfl⟩ := runs_pure.mp hindex
      exact ⟨hg₁.trans hg₂, b, r, hb₂, hm, fun _ => hbt₂, hmt, .inl hmain⟩
  | false =>
      rw [hmain] at hindex
      obtain ⟨i, content, text, hg₃, hi, hf, hd, hc, hsame⟩ := runs_ensure o.indexLine_ne hindex
      have hb₃ := hb₂.of_grows hg₃
      have hm₃ := hm.of_grows hg₃
      refine ⟨(hg₁.trans hg₂).trans hg₃, b, r, hb₃, hm₃, fun ha => ?_, ?_,
        .inr ⟨hmain, i, content, text, hi, hf, hd, hc⟩⟩
      · obtain ⟨builder, hbf⟩ := hb₃.file
        have hbi := ne_of_apart ha hmain (hb₃.writable.locate (by simp [hbf])) (hi.locate (by simp [hf]))
        rwa [hsame b hbi]
      · rw [hsame r (place_ne hm₃.writable hi).symm]
        exact hmt

def rewritten (o : Options) (entries : List Entry) (t : FileTree) (b r : Place) : FileTree :=
  (t.insert b (.file (.text (Builder.text o.moduleName o.libName entries)))).insert r
    (.file (.text (routeMapText o entries)))

theorem Generated.grows (h : Generated o entries t b r) (entries' : List Entry) :
    t.Grows (rewritten o entries' t b r) := by
  have hg := h.builder.writable.grows (Builder.text o.moduleName o.libName entries')
  exact hg.trans ((h.routeMap.of_grows hg).writable.grows (routeMapText o entries'))

end Generation

section Modules

open Generation

def homeRoute : Generation.Entry := ⟨"home", "Home", "../Home", "HomeBuilder", false, "routerParam", false⟩

def homeSummary (indexUpdated : Bool) : Summary :=
  ⟨1, [], [homeRoute], some ⟨"./gen/B.ets"⟩, some ⟨"./gen/route_map.json"⟩, indexUpdated⟩

def homeFiles (entries : List Generation.Entry) : List (Place × ArkRoutes.Entry) :=
  [(["gen"], .directory), (["gen", "B.ets"], .file (.text (Builder.text "m" "autorouter" entries))),
    (["gen", "route_map.json"], .file (.text (routeMapText homeModule entries))),
    (["Index.ets"], .file (.text "\nexport * from './gen/B';"))]

end Modules

end ArkRoutes
