import ArkRoutes.Proofs.Files
import ArkRoutes.Proofs.TraceErasure
import Mathlib.Data.List.Dedup
import Mathlib.Data.List.Perm.Subperm

namespace ArkRoutes

theorem Path.same_self (p : Path) : p.same p = true := by simp [Path.same]

theorem Path.same_comm (p q : Path) : p.same q = q.same p := by simp only [Path.same, Bool.beq_comm]

namespace FileTree

variable {t : FileTree} {first path : Path} {chain : List Path}

def holdsFile (t : FileTree) (place : Place) : Bool :=
  match t.find? place with
  | some (.file _) => true
  | _ => false

def files (t : FileTree) : List Place := (t.entries.map (·.1)).dedup.filter t.holdsFile

theorem mem_files {place : Place} {content : Content} (h : t.find? place = some (.file content)) :
    place ∈ t.files := by
  have hm : place ∈ t.entries.map (·.1) := List.mem_map_of_mem (mem_entries_of_find? h)
  exact List.mem_filter.mpr ⟨List.mem_dedup.mpr hm, by rw [holdsFile, h]⟩

structure ChainFrom (t : FileTree) (first : Path) (chain : List Path) : Prop where
  starts : chain.head? = some first
  canonical : ∀ file ∈ chain, ∃ path, t.isFile path = true ∧ t.canonical path = .ok file
  distinct : chain.Pairwise fun a b => a.same b = false

theorem canonical_key (h : t.isFile path = true) : t.canonical path = .ok (t.key path) := by
  obtain ⟨place, content, -, hc⟩ := place_of_isFile h
  rw [key, hc]
  rfl

namespace ChainFrom

theorem singleton (h : t.isFile path = true) (hc : t.canonical path = .ok first) : t.ChainFrom first [first] :=
  ⟨rfl, fun file hf => ⟨path, h, by rw [hc, List.mem_singleton.mp hf]⟩, List.pairwise_singleton _ _⟩

theorem append (h : t.ChainFrom first chain) (hp : t.isFile path = true)
    (hn : chain.any (t.key path).same = false) : t.ChainFrom first (chain ++ [t.key path]) where
  starts := by simp [h.starts]
  canonical := by
    intro file hf
    rcases List.mem_append.mp hf with hf | hf
    · exact h.canonical file hf
    · exact ⟨path, hp, by rw [canonical_key hp, List.mem_singleton.mp hf]⟩
  distinct := by
    refine List.pairwise_append.mpr ⟨h.distinct, List.pairwise_singleton _ _, ?_⟩
    intro a ha b hb
    rw [List.mem_singleton.mp hb, Path.same_comm]
    simpa using List.any_eq_false.mp hn a ha

theorem nodup (h : t.ChainFrom first chain) : chain.Nodup := by
  refine h.distinct.imp ?_
  rintro a _ ha rfl
  simp [Path.same_self] at ha

theorem length_le (h : t.ChainFrom first chain) : chain.length ≤ t.files.length := by
  have hs : chain ⊆ t.files.map pathOf := by
    intro file hf
    obtain ⟨path, hp, hc⟩ := h.canonical file hf
    obtain ⟨place, content, hf, hpl⟩ := place_of_isFile hp
    rw [hc, Except.ok.injEq] at hpl
    exact List.mem_map.mpr ⟨place, mem_files hf, hpl.symm⟩
  simpa using (List.Nodup.subperm h.nodup hs).length_le

end ChainFrom

end FileTree

namespace Resolution

variable {s : Settings} {t : FileTree}

/-- A question is either refused at once, or the file is read and asks with the longer chain. -/
theorem queryLogged_eq (chain : List Path) (path : Path) (q : Query) :
    queryLogged s t chain path q =
      if chain.any (t.key path).same then pure (.error (.cycle (t.key path)))
      else if s.depthLimit < chain.length then pure (.error (.depthExceeded s.depthLimit))
      else (do
        Logged.act (.reads (chain ++ [t.key path]) (t.key path))
        match t.events (t.key path) with
        | .error cause => pure (.error (.unreadable (t.key path) cause))
        | .ok events => (aroundLogged s t (chain ++ [t.key path]) (t.key path)).answerFrom q events) := by
  by_cases hl : s.depthLimit < chain.length
  · have hr : room s chain = 0 := by rw [room]; omega
    rw [queryLogged, hr, resolveLogged, if_pos hl]
  · have hr : room s chain = room s (chain ++ [t.key path]) + 1 := by
      simp only [room, List.length_append, List.length_singleton]
      omega
    rw [queryLogged, hr, resolveLogged, if_neg hl]
    rfl

/-- An answer depends on no other answer that is not in the log. -/
theorem query_of_answered {chain : List Path} {path : Path} {q : Query} {events : List Event}
    {ask : Path → Query → Answer} (hc : chain.any (t.key path).same = false) (hl : chain.length ≤ s.depthLimit)
    (he : t.events (t.key path) = .ok events)
    (h : (queryLogged s t chain path q).Only (Act.Answered (chain ++ [t.key path]) ask)) :
    query s t chain path q = q.answerFrom (surroundings s t (t.key path) ask) events := by
  have hq := queryLogged_eq (s := s) (t := t) chain path q
  rw [if_neg (by simp [hc]), if_neg (by omega), he] at hq
  rw [hq] at h
  rw [← queryLogged_value, hq, Logged.value_bind]
  exact (hears_answered (t.key path) (chain ++ [t.key path]) _ ask).answerFrom (Logged.only_bind_iff.mp h).2

/-- What becomes of a question: it is refused without a file being read, or the file is read first. -/
structure Ruled (s : Settings) (t : FileTree) (chain : List Path) (path : Path) (q : Query) : Prop where
  value : (queryLogged s t chain path q).value = query s t chain path q
  cycle : chain.any (t.key path).same = true →
    queryLogged s t chain path q = pure (.error (.cycle (t.key path)))
  depth : chain.any (t.key path).same = false → s.depthLimit < chain.length →
    queryLogged s t chain path q = pure (.error (.depthExceeded s.depthLimit))
  reads : chain.any (t.key path).same = false → chain.length ≤ s.depthLimit →
    (queryLogged s t chain path q).acts.head? = some (.reads (chain ++ [t.key path]) (t.key path))

theorem query_ruled (chain : List Path) (path : Path) (q : Query) : Ruled s t chain path q where
  value := queryLogged_value chain path q
  cycle := by
    intro hc
    rw [queryLogged_eq, if_pos hc]
  depth := by
    intro hc hl
    rw [queryLogged_eq, if_neg (by simp [hc]), if_pos hl]
  reads := by
    intro hc hl
    rw [queryLogged_eq, if_neg (by simp [hc]), if_neg (by omega)]
    rfl

def Truthful (s : Settings) (t : FileTree) : Act → Prop
  | .asks chain path q answer => answer = query s t chain path q
  | .reads chain file => chain.getLast? = some file

/-- What can be said of an act whose chain came about by adding files to chains with the property `Kept`. -/
structure InChain (s : Settings) (t : FileTree) (Kept : List Path → Prop) (a : Act) : Prop where
  kept : Kept a.chain
  length_le : a.chain.length ≤ s.depthLimit + 1
  truthful : Truthful s t a

/-- A property that a chain does not lose when a file that is not on it joins it. -/
def Extends (t : FileTree) (Kept : List Path → Prop) : Prop :=
  ∀ chain path, Kept chain → t.isFile path = true → chain.any (t.key path).same = false →
    Kept (chain ++ [t.key path])

variable {Kept : List Path → Prop}

theorem keeps_aroundLogged {chain : List Path} (path : Path) (hk : Kept chain)
    (hl : chain.length ≤ s.depthLimit + 1)
    (hq : ∀ path q, t.isFile path = true → (queryLogged s t chain path q).Only (InChain s t Kept)) :
    (aroundLogged s t chain path).Keeps (InChain s t Kept) := by
  intro specifier l q hs
  refine Logged.only_bind (Logged.only_act.mpr ⟨hk, hl, queryLogged_value chain l.path q⟩) ?_
  exact hq l.path q (Module.isFile_of_locate hs)

theorem only_queryLogged (he : Extends t Kept) (chain : List Path) (path : Path) (q : Query)
    (hk : chain.any (t.key path).same = false → Kept (chain ++ [t.key path])) :
    (queryLogged s t chain path q).Only (InChain s t Kept) := by
  -- every file that joins the chain takes up some of its room
  induction hr : room s chain using Nat.strongRecOn generalizing chain path q with
  | _ n ih =>
      rw [queryLogged_eq]
      split
      next => simp
      next hc =>
        split
        next => simp
        next hl =>
          have hkept := hk (by simpa using hc)
          have hlen : (chain ++ [t.key path]).length ≤ s.depthLimit + 1 := by
            rw [List.length_append, List.length_singleton]
            omega
          refine Logged.only_bind (Logged.only_act.mpr ⟨hkept, hlen, by simp [Truthful]⟩) ?_
          cases t.events (t.key path) with
          | error cause => simp
          | ok events =>
              refine (keeps_aroundLogged (t.key path) hkept hlen ?_).answerFrom q events
              intro path' q' hp
              have hroom : room s (chain ++ [t.key path]) < n := by
                simp only [← hr, room, List.length_append, List.length_singleton]
                omega
              exact ih _ hroom (chain ++ [t.key path]) path' q' (he _ path' hkept hp) rfl

structure Call where
  chain : List Path
  path : Path
  query : Query

def Calls (s : Settings) (t : FileTree) (inner outer : Call) : Prop :=
  ∃ answer, .asks inner.chain inner.path inner.query answer ∈
    (queryLogged s t outer.chain outer.path outer.query).acts

theorem calls_room_lt {inner outer : Call} (h : Calls s t inner outer) :
    room s inner.chain < room s outer.chain := by
  obtain ⟨answer, ha⟩ := h
  have he : Extends t fun chain => outer.chain.length < chain.length := by
    intro chain path hk _ _
    rw [List.length_append]
    omega
  have hi := only_queryLogged he outer.chain outer.path outer.query (by simp) _ ha
  have hk : outer.chain.length < inner.chain.length := hi.kept
  have hl : inner.chain.length ≤ s.depthLimit + 1 := hi.length_le
  simp only [room]
  omega

theorem calls_wellFounded (s : Settings) (t : FileTree) : WellFounded (Calls s t) :=
  Subrelation.wf calls_room_lt (measure fun c : Call => room s c.chain).wf

end Resolution

theorem FileTree.inChain_of_scanLogged {t : FileTree} {s : Settings} {entry : Path} {a : Act}
    (ha : a ∈ (t.scanLogged s entry).acts) :
    ∃ first, t.canonical entry = .ok first ∧ Resolution.InChain s t (t.ChainFrom first) a := by
  rw [scanLogged] at ha
  cases hc : t.canonical entry with
  | error cause => simp [hc] at ha
  | ok first =>
      refine ⟨first, rfl, ?_⟩
      cases hev : t.events entry with
      | error cause => simp [hc, hev] at ha
      | ok events =>
          simp only [hc, hev, Logged.acts_bind, Logged.acts_pure, List.append_nil] at ha
          obtain ⟨content, text, hr, -, -⟩ := text_of_events hev
          have hf : t.ChainFrom first [first] := .singleton (isFile_of_read hr) hc
          have he : Resolution.Extends t (t.ChainFrom first) := fun chain path hk hp hn => hk.append hp hn
          refine (Resolution.keeps_aroundLogged entry hf (by simp) ?_).run {} events a ha
          intro path q hp
          exact Resolution.only_queryLogged he [first] path q (hf.append hp)

open Resolution in
/-- The files a scan reads beyond its entry are read along chains that start with the entry, and no
question to a module leads back to itself. -/
theorem scan_reads_in_chains (t : FileTree) (s : Settings) (entry : Path) :
    (t.scanLogged s entry).value = t.scan s entry ∧
    (∀ key events ask, t.canonical entry = .ok key → t.events entry = .ok events →
      (t.scanLogged s entry).Only (Act.Answered [key] ask) →
        t.scan s entry = .ok (Collector.run (surroundings s t entry ask) events).routes) ∧
    (∀ chain file, .reads chain file ∈ (t.scanLogged s entry).acts →
      ∃ first, t.canonical entry = .ok first ∧ t.ChainFrom first chain ∧ chain.getLast? = some file ∧
        chain.length ≤ s.depthLimit + 1 ∧ chain.length ≤ t.files.length) ∧
    (∀ chain path q answer, .asks chain path q answer ∈ (t.scanLogged s entry).acts →
      answer = query s t chain path q) ∧
    (∀ chain path q, Ruled s t chain path q) ∧
    (∀ chain path q events ask, chain.any (t.key path).same = false → chain.length ≤ s.depthLimit →
      t.events (t.key path) = .ok events →
      (queryLogged s t chain path q).Only (Act.Answered (chain ++ [t.key path]) ask) →
        query s t chain path q = q.answerFrom (surroundings s t (t.key path) ask) events) ∧
    WellFounded (Calls s t) := by
  refine ⟨t.scanLogged_value s entry, fun key events ask hc he h => FileTree.scan_of_answered hc he h, ?_, ?_,
    query_ruled, fun chain path q events ask hc hl he h => query_of_answered hc hl he h, calls_wellFounded s t⟩
  · intro chain file hr
    obtain ⟨first, hc, ha⟩ := FileTree.inChain_of_scanLogged hr
    exact ⟨first, hc, ha.kept, ha.truthful, ha.length_le, ha.kept.length_le⟩
  · intro chain path q answer hr
    obtain ⟨first, -, ha⟩ := FileTree.inChain_of_scanLogged hr
    exact ha.truthful

def loopingPackage : FileTree where
  home := []
  entries :=
    [(["Page.ets"], .file (.text ("import {HOME} from './a'\n" ++ "@AppRouter({name: HOME}) struct Page {}"))),
      (["a.ets"], .file (.text "export * from './b'")), (["b.ets"], .file (.text "export * from './a'"))]

def Act.read? : Act → Option (List Path × Path)
  | .reads chain file => some (chain, file)
  | .asks _ _ _ _ => none

theorem loopingPackage_read_in_chains :
    (loopingPackage.scanLogged {} ⟨"/Page.ets"⟩).acts.filterMap Act.read? =
        [([⟨"/Page.ets"⟩, ⟨"/a.ets"⟩], ⟨"/a.ets"⟩), ([⟨"/Page.ets"⟩, ⟨"/a.ets"⟩, ⟨"/b.ets"⟩], ⟨"/b.ets"⟩)] ∧
      ∀ chain file, .reads chain file ∈ (loopingPackage.scanLogged {} ⟨"/Page.ets"⟩).acts →
        chain.length ≤ loopingPackage.files.length := by
  obtain ⟨-, -, hr, -⟩ := scan_reads_in_chains loopingPackage {} ⟨"/Page.ets"⟩
  refine ⟨by decide +kernel, ?_⟩
  intro chain file h
  obtain ⟨first, -, -, -, -, hl⟩ := hr chain file h
  exact hl

end ArkRoutes
