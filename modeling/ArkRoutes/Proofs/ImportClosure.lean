import ArkRoutes.Proofs.Growth
import ArkRoutes.Proofs.Modules
import ArkRoutes.Scan

namespace ArkRoutes

open Resolution
open Surroundings (Alike)

namespace Query

variable {w : Surroundings} {q : Query} {events : List Event} {x : String}

end Query

variable {s : Settings} {t t' : FileTree} {entries : List Path} {p : Path}

theorem FileTree.Grows.key (hg : t.Grows t') (hf : t.isFile p = true) : t'.key p = t.key p := by
  obtain ⟨place, content, -, hc⟩ := FileTree.place_of_isFile hf
  rw [FileTree.key, FileTree.key, hc, hg.canonical hc]

theorem FileTree.isFile_of_events {events : List Event} (h : t.events p = .ok events) : t.isFile p = true := by
  obtain ⟨content, text, hr, -⟩ := FileTree.text_of_events h
  exact FileTree.isFile_of_read hr

theorem toOption_scan (t : FileTree) (s : Settings) (p : Path) : (t.scan s p).toOption =
    (t.events p).toOption.map fun events => (Collector.run (around s t [t.key p] p) events).routes := by
  rw [FileTree.scan]
  cases he : t.events p with
  | error cause => cases t.canonical p <;> rfl
  | ok events =>
      obtain ⟨place, content, -, hc⟩ := FileTree.place_of_isFile (FileTree.isFile_of_events he)
      simp only [FileTree.key, hc]
      rfl

end ArkRoutes
