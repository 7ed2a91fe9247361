import ArkRoutes.Text.Affix
import ArkRoutes.Text.Blank
import Mathlib.Data.List.Basic
import Mathlib.Data.List.TakeWhile

namespace ArkRoutes

section Lists

variable {α : Type}

theorem not_mem_of_mem_splitOn [BEq α] [LawfulBEq α] {a : α} {xs l : List α} (h : l ∈ xs.splitOn a) :
    a ∉ l := by
  induction xs generalizing l with
  | nil =>
      rw [List.splitOn_nil, List.mem_singleton] at h
      simp [h]
  | cons x xs ih =>
      rw [List.splitOn_cons_eq_if_modifyHead] at h
      split at h
      next hx =>
        rcases List.mem_cons.mp h with rfl | h
        · simp
        · exact ih h
      next hx =>
        cases hs : xs.splitOn a with
        | nil => exact (List.splitOn_ne_nil a xs hs).elim
        | cons first rest =>
            rw [hs, List.modifyHead_cons] at h
            rcases List.mem_cons.mp h with rfl | h
            · have hf : a ∉ first := ih (by simp [hs])
              have ha : a ≠ x := by
                rintro rfl
                simp at hx
              simp [ha, hf]
            · exact ih (by simp [hs, h])

theorem length_splitOn_le [BEq α] (a : α) (xs : List α) : (xs.splitOn a).length ≤ xs.length + 1 := by
  induction xs with
  | nil => simp
  | cons x xs ih =>
      rw [List.splitOn_cons_eq_if_modifyHead]
      split
      · simpa using ih
      · rw [List.length_modifyHead, List.length_cons]
        omega

theorem intercalate_concat_append (sep : List α) (l : List (List α)) (a e : List α) :
    sep.intercalate (l ++ [a ++ e]) = sep.intercalate (l ++ [a]) ++ e := by
  induction l with
  | nil => simp
  | cons x l ih =>
      rw [List.cons_append, List.cons_append, List.intercalate_cons_of_ne_nil (by simp),
        List.intercalate_cons_of_ne_nil (by simp), ih]
      simp only [List.append_assoc]

theorem eq_append_of_dropWhile_reverse (p : α → Bool) (l : List α) :
    ∃ tail, l = (l.reverse.dropWhile p).reverse ++ tail ∧ ∀ x ∈ tail, p x = true := by
  refine ⟨(l.reverse.takeWhile p).reverse, ?_, ?_⟩
  · rw [← List.reverse_append, List.takeWhile_append_dropWhile, List.reverse_reverse]
  · intro x hx
    exact List.mem_takeWhile_imp (List.mem_reverse.mp hx)

theorem dropWhile_append_of_head? {p : α → Bool} {lead l : List α} (hp : ∀ x ∈ lead, p x = true)
    (hl : ∀ x ∈ l.head?, p x = false) : (lead ++ l).dropWhile p = l := by
  rw [List.dropWhile_append_of_pos hp]
  cases l with
  | nil => rfl
  | cons x l => rw [List.dropWhile_cons_of_neg (by simpa using hl x)]

end Lists

namespace Text

variable {c : Char} {m : String}

/-! ### Fields -/

structure Separated (c : Char) (text : String) (fields : List String) : Prop where
  nonempty : fields ≠ []
  apart : ∀ field ∈ fields, c ∉ field.toList
  joined : String.intercalate (String.singleton c) fields = text

theorem splitAt_ne_nil (c : Char) (s : String) : splitAt c s ≠ [] := by
  simp [splitAt, List.splitOn_ne_nil]

theorem not_mem_of_mem_splitAt {s field : String} (h : field ∈ splitAt c s) : c ∉ field.toList := by
  obtain ⟨cs, hc, rfl⟩ := List.mem_map.mp h
  rw [String.toList_ofList]
  exact not_mem_of_mem_splitOn hc

theorem intercalate_splitAt (hm : m.toList = [c]) (s : String) : String.intercalate m (splitAt c s) = s := by
  rw [← String.toList_inj, String.toList_intercalate, hm, splitAt, List.map_map]
  simp [Function.comp_def, List.intercalate_splitOn]

theorem splitAt_intercalate (hm : m.toList = [c]) {fields : List String} (hn : fields ≠ [])
    (h : ∀ field ∈ fields, c ∉ field.toList) : splitAt c (String.intercalate m fields) = fields := by
  have hs : ∀ l ∈ fields.map String.toList, c ∉ l := by simpa using h
  rw [splitAt, String.toList_intercalate, hm]
  simp [List.splitOn_intercalate c hs (by simpa using hn), Function.comp_def]

theorem splitAt_eq_iff {s : String} {fields : List String} : splitAt c s = fields ↔ Separated c s fields := by
  have hm : (String.singleton c).toList = [c] := by simp
  constructor
  · rintro rfl
    exact ⟨splitAt_ne_nil c s, fun _ => not_mem_of_mem_splitAt, intercalate_splitAt hm s⟩
  · intro h
    rw [← h.joined, splitAt_intercalate hm h.nonempty h.apart]

theorem splitAt_append (hm : m.toList = [c]) (a b : String) : splitAt c (a ++ m ++ b) = splitAt c a ++ splitAt c b := by
  simp [splitAt, hm, List.splitOn_append_cons_self]

theorem eq_of_splitAt_eq_append {s : String} {l r : List String} (hl : l ≠ []) (hr : r ≠ [])
    (h : splitAt '/' s = l ++ r) : s = String.intercalate "/" l ++ "/" ++ String.intercalate "/" r := by
  have hs : ∀ field ∈ l ++ r, '/' ∉ field.toList := fun field hf => not_mem_of_mem_splitAt (h ▸ hf)
  have hb : splitAt '/' (String.intercalate "/" l ++ "/" ++ String.intercalate "/" r) = splitAt '/' s := by
    rw [splitAt_append rfl, splitAt_intercalate rfl hl fun x hx => hs x (by simp [hx]),
      splitAt_intercalate rfl hr fun x hx => hs x (by simp [hx]), h]
  have hj := intercalate_splitAt (c := '/') (m := "/") rfl
  rw [← hj s, ← hb, hj]

theorem splitAt_of_not_mem {s : String} (h : c ∉ s.toList) : splitAt c s = [s] := by
  rw [splitAt, List.splitOn_eq_singleton h]
  simp

theorem splitAt_append_of_not_mem {a : String} (h : c ∉ a.toList) (hm : m.toList = [c]) (b : String) :
    splitAt c (a ++ m ++ b) = a :: splitAt c b := by
  rw [splitAt_append hm, splitAt_of_not_mem h, List.singleton_append]

/-! ### Blanks at the ends -/

structure Trims (s t : String) : Prop where
  around : ∃ lead tail : List Char, s.toList = lead ++ t.toList ++ tail ∧
    (∀ c ∈ lead, isBlank c = true) ∧ ∀ c ∈ tail, isBlank c = true
  head : ∀ c ∈ t.toList.head?, isBlank c = false
  last : ∀ c ∈ t.toList.getLast?, isBlank c = false

theorem trims_trim (s : String) : Trims s (trim s) := by
  obtain ⟨tail, hd, ht⟩ := eq_append_of_dropWhile_reverse isBlank (s.toList.dropWhile isBlank)
  have hs : (trim s).toList = trimChars s.toList := by rw [trim, String.toList_ofList]
  refine ⟨⟨s.toList.takeWhile isBlank, tail, ?_, fun c hc => List.mem_takeWhile_imp hc, ht⟩, ?_, ?_⟩
  · rw [hs, List.append_assoc, trimChars, ← hd, List.takeWhile_append_dropWhile]
  · intro c hc
    have hh : c ∈ (s.toList.dropWhile isBlank).head? := by
      rw [hd, List.head?_append]
      rw [hs, trimChars] at hc
      simp [Option.mem_def.mp hc]
    have hb := List.head?_dropWhile_not isBlank s.toList
    rw [Option.mem_def.mp hh] at hb
    simpa using hb
  · intro c hc
    rw [hs, trimChars, List.getLast?_reverse] at hc
    have hb := List.head?_dropWhile_not isBlank (s.toList.dropWhile isBlank).reverse
    rw [Option.mem_def.mp hc] at hb
    simpa using hb

theorem trim_eq_iff {s t : String} : trim s = t ↔ Trims s t := by
  constructor
  · rintro rfl
    exact trims_trim s
  · rintro ⟨⟨lead, tail, hs, hl, ht⟩, hh, hg⟩
    have hc : trimChars s.toList = t.toList := by
      cases hn : t.toList with
      | nil =>
          -- `s` is blank as a whole, and the blanks at its front are all of it
          have hd : s.toList.dropWhile isBlank = [] := by
            rw [List.dropWhile_eq_nil_iff, hs, hn]
            simpa [or_imp, forall_and] using ⟨hl, ht⟩
          rw [trimChars, hd]
          rfl
      | cons c cs =>
          have hd : s.toList.dropWhile isBlank = t.toList ++ tail := by
            rw [hs, List.append_assoc]
            exact dropWhile_append_of_head? hl (by simpa [hn] using hh)
          rw [trimChars, hd, List.reverse_append, dropWhile_append_of_head? (by simpa using ht) (by simpa using hg),
            List.reverse_reverse, hn]
    rw [trim, hc, String.ofList_toList]

end Text

end ArkRoutes
