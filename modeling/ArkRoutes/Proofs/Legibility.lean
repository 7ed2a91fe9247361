import ArkRoutes.Path
import ArkRoutes.Proofs.Separation

namespace ArkRoutes

namespace Text.Utf8

@[simp] theorem encode_empty : encode "" = [] := rfl

@[simp] theorem encode_append (s t : String) : encode (s ++ t) = encode s ++ encode t := by
  simp [encode]

theorem encode_eq (s : String) : encode s = s.toList.flatMap String.utf8EncodeChar := by
  conv_lhs => rw [← String.ofList_toList (s := s)]
  rw [encode, String.toByteArray_ofList, List.utf8Encode]
  simp

/-! ### Well-formed characters -/

theorem isTail_iff {b : UInt8} : isTail b = true ↔ 0x80 ≤ b.toNat ∧ b.toNat ≤ 0xBF := by
  simp [isTail, UInt8.le_iff_toNat_le]

theorem isSecond_iff {a b : UInt8} : isSecond a b = true ↔
    0x80 ≤ b.toNat ∧ b.toNat ≤ 0xBF ∧ (a.toNat = 0xE0 → 0xA0 ≤ b.toNat) ∧ (a.toNat = 0xED → b.toNat ≤ 0x9F) ∧
      (a.toNat = 0xF0 → 0x90 ≤ b.toNat) ∧ (a.toNat = 0xF4 → b.toNat ≤ 0x8F) := by
  have he (n : UInt8) : (a == n) = decide (a.toNat = n.toNat) := by
    rw [Bool.eq_iff_iff, beq_iff_eq, decide_eq_true_eq, UInt8.toNat_inj]
  simp only [isSecond, he, isTail, UInt8.le_iff_toNat_le]
  split_ifs <;> simp_all <;> omega

def code (a : UInt8) : List UInt8 → Nat
  | [] => a.toNat
  | [b] => a.toNat % 32 * 64 + low b
  | [b, c] => (a.toNat % 16 * 64 + low b) * 64 + low c
  | b :: c :: d :: _ => ((a.toNat % 8 * 64 + low b) * 64 + low c) * 64 + low d

/-- A first byte and the bytes that complete its character. -/
def Completes (a : UInt8) : List UInt8 → Prop
  | [] => a < 0x80
  | [b] => 0xC2 ≤ a ∧ a < 0xE0 ∧ isSecond a b = true
  | [b, c] => 0xE0 ≤ a ∧ a < 0xF0 ∧ isSecond a b = true ∧ isTail c = true
  | [b, c, d] => 0xF0 ≤ a ∧ a ≤ 0xF4 ∧ isSecond a b = true ∧ isTail c = true ∧ isTail d = true
  | _ => False

theorem first_of_completes {a : UInt8} {l : List UInt8} (h : Completes a l) (rest : List UInt8) :
    first a (l ++ rest) = .ok (Char.ofNat (code a l), l.length + 1) := by
  have hlow (hc : 0xC2 ≤ a) : ¬ a < 0x80 := by grind
  have hin (hc : 0xC2 ≤ a) (hf : a ≤ 0xF4) : ¬ (decide (a < 0xC2) || decide (0xF4 < a)) = true := by grind
  match l, h with
  | [], h => exact (first.eq_def ..).trans (if_pos h)
  | [b], ⟨h, h', hb⟩ => simp [first, hlow h, hin h (by grind), hb, h', code]
  | [b, c], ⟨h, h', hb, hc⟩ =>
      have h₂ : ¬ a < 0xE0 := by grind
      simp [first, hlow (by grind), hin (by grind) (by grind), h₂, hb, hc, h', code]
  | [b, c, d], ⟨h, h', hb, hc, hd⟩ =>
      have h₂ : ¬ a < 0xE0 := by grind
      have h₃ : ¬ a < 0xF0 := by grind
      simp [first, hlow (by grind), hin (by grind) h', h₂, h₃, hb, hc, hd, code]

theorem toNat_ofNat {n : Nat} (h : n < 256) : (UInt8.ofNat n).toNat = n :=
  UInt8.toNat_ofNat_of_lt' (by simpa [UInt8.size] using h)

theorem low_ofNat {n : Nat} (h : n < 64) : low (UInt8.ofNat (n + 128)) = n := by
  rw [low, toNat_ofNat (by omega)]
  omega

theorem exists_utf8EncodeChar (c : Char) :
    ∃ a l, String.utf8EncodeChar c = a :: l ∧ Completes a l ∧ code a l = c.toNat := by
  have hv : c.toNat < 0xD800 ∨ 0xDFFF < c.toNat ∧ c.toNat < 0x110000 := c.valid
  have hc : c.val.toNat = c.toNat := rfl
  simp only [String.utf8EncodeChar, hc]
  split_ifs with h₁ h₂ h₃
  · refine ⟨_, _, rfl, ?_, ?_⟩
    · simp [Completes, UInt8.lt_iff_toNat_lt]; omega
    · simp [code]; omega
  · refine ⟨_, _, rfl, ?_, ?_⟩
    · simp only [Completes, isSecond_iff, UInt8.lt_iff_toNat_lt, UInt8.le_iff_toNat_le]
      rw [toNat_ofNat (by omega), toNat_ofNat (by omega)]
      simp
      omega
    · simp only [code]
      rw [toNat_ofNat (by omega), low_ofNat (by omega)]
      omega
  · refine ⟨_, _, rfl, ?_, ?_⟩
    · simp only [Completes, isSecond_iff, isTail_iff, UInt8.lt_iff_toNat_lt, UInt8.le_iff_toNat_le]
      rw [toNat_ofNat (by omega), toNat_ofNat (by omega), toNat_ofNat (by omega)]
      simp
      omega
    · simp only [code]
      rw [toNat_ofNat (by omega), low_ofNat (by omega), low_ofNat (by omega)]
      omega
  · refine ⟨_, _, rfl, ?_, ?_⟩
    · simp only [Completes, isSecond_iff, isTail_iff, UInt8.le_iff_toNat_le]
      rw [toNat_ofNat (by omega), toNat_ofNat (by omega), toNat_ofNat (by omega), toNat_ofNat (by omega)]
      simp
      omega
    · simp only [code]
      rw [toNat_ofNat (by omega), low_ofNat (by omega), low_ofNat (by omega), low_ofNat (by omega)]
      omega

theorem decodeLossyFrom_append {a : UInt8} {l : List UInt8} (h : Completes a l) (rest : List UInt8) :
    decodeLossyFrom 0 (a :: l ++ rest) = Char.ofNat (code a l) :: decodeLossyFrom 0 rest := by
  have hskip (l : List UInt8) : decodeLossyFrom l.length (l ++ rest) = decodeLossyFrom 0 rest := by
    induction l with
    | nil => rfl
    | cons b l ih => exact ih
  rw [List.cons_append, decodeLossyFrom]
  simp only [first_of_completes h, Nat.add_sub_cancel, hskip]

@[simp] theorem decodeLossy_encode (s : String) : decodeLossy (encode s) = s := by
  have hc (cs : List Char) : decodeLossyFrom 0 (cs.flatMap String.utf8EncodeChar) = cs := by
    induction cs with
    | nil => rfl
    | cons c cs ih =>
        obtain ⟨a, l, he, hl, hn⟩ := exists_utf8EncodeChar c
        rw [List.flatMap_cons, he, decodeLossyFrom_append hl, ih, hn, Char.ofNat_toNat]
  rw [decodeLossy, encode_eq, hc, String.ofList_toList]

@[simp] theorem encode_inj {s t : String} : encode s = encode t ↔ s = t :=
  ⟨fun h => by rw [← decodeLossy_encode s, h, decodeLossy_encode], fun h => h ▸ rfl⟩

@[simp] theorem encode_eq_nil_iff {s : String} : encode s = [] ↔ s = "" := encode_inj (t := "")

/-! ### Plain characters -/

theorem exists_of_first {a : UInt8} {rest : List UInt8} {c : Char} {n : Nat} (h : first a rest = .ok (c, n)) :
    ∃ l r, rest = l ++ r ∧ Completes a l ∧ c = Char.ofNat (code a l) ∧ n = l.length + 1 := by
  rw [first.eq_def] at h
  split at h
  next ha =>
    cases h
    exact ⟨[], rest, rfl, ha, rfl, rfl⟩
  split at h
  next => cases h
  next hin =>
    simp only [Bool.or_eq_true, decide_eq_true_eq, not_or, UInt8.not_lt] at hin
    match rest, h with
    | b :: rest, h =>
      dsimp only at h
      split at h
      next => cases h
      next hb =>
        replace hb : isSecond a b = true := by simpa using hb
        split at h
        next ha =>
          cases h
          exact ⟨[b], rest, rfl, ⟨hin.1, ha, hb⟩, rfl, rfl⟩
        next h₂ =>
          match rest, h with
          | c :: rest, h =>
            dsimp only at h
            split at h
            next => cases h
            next hc =>
              replace hc : isTail c = true := by simpa using hc
              split at h
              next ha =>
                cases h
                exact ⟨[b, c], rest, rfl, ⟨by simpa using h₂, ha, hb, hc⟩, rfl, rfl⟩
              next h₃ =>
                match rest, h with
                | d :: rest, h =>
                  dsimp only at h
                  split at h
                  next => cases h
                  next hd =>
                    cases h
                    exact ⟨[b, c, d], rest, rfl, ⟨by simpa using h₃, hin.2, hb, hc, by simpa using hd⟩, rfl, rfl⟩

theorem first_append {a x : UInt8} (hx : x.toNat < 0x80) (l rest : List UInt8) :
    first a (l ++ x :: rest) = match first a l with
      | .error none => .error (some (l.length + 1))
      | answer => answer := by
  have hs : isSecond a x = false := by
    rw [Bool.eq_false_iff, Ne, isSecond_iff]
    omega
  have ht : isTail x = false := by
    rw [Bool.eq_false_iff, Ne, isTail_iff]
    omega
  have hstop (e : Except (Option Nat) (Char × Nat)) (n : Nat) : (if (!false) = true then .error (some n) else e) =
      .error (some n) := if_pos rfl
  match l with
  | [] | [b] | [b, c] | b :: c :: d :: l =>
      simp only [List.cons_append, List.nil_append, first, hs, ht, hstop]
      split_ifs <;> rfl

theorem le_of_first_eq_error {a : UInt8} {l : List UInt8} {n : Nat} (h : first a l = .error (some n)) :
    n ≤ l.length + 1 := by
  match l with
  | [] | [b] | [b, c] | b :: c :: d :: l =>
      simp only [first] at h
      split_ifs at h <;> cases h <;> simp

theorem decodeLossyFrom_cons (a : UInt8) (l : List UInt8) : decodeLossyFrom 0 (a :: l) = match first a l with
    | .ok (c, n) => c :: decodeLossyFrom (n - 1) l
    | .error (some n) => '\uFFFD' :: decodeLossyFrom (n - 1) l
    | .error none => ['\uFFFD'] := rfl

theorem decodeLossyFrom_length (l : List UInt8) : decodeLossyFrom l.length l = [] := by
  induction l with
  | nil => rfl
  | cons a l ih => exact ih

/-- Plain characters stay apart from what is around them. -/
theorem decodeLossyFrom_append_plain {x : UInt8} (hx : x.toNat < 0x80) {l : List UInt8} {skip : Nat}
    (hs : skip ≤ l.length) (rest : List UInt8) :
    decodeLossyFrom skip (l ++ x :: rest) = decodeLossyFrom skip l ++ decodeLossyFrom 0 (x :: rest) := by
  induction l generalizing skip with
  | nil =>
      obtain rfl : skip = 0 := by simpa using hs
      rfl
  | cons a l ih =>
      cases skip with
      | succ skip => exact ih (by simpa using hs)
      | zero =>
          rw [List.cons_append, decodeLossyFrom_cons, decodeLossyFrom_cons, first_append hx]
          rcases hf : first a l with (_ | n) | ⟨c, n⟩
          · simp [ih (Nat.le_refl _), decodeLossyFrom_length]
          · have hn := le_of_first_eq_error hf
            simp [ih (by omega : n - 1 ≤ l.length)]
          · obtain ⟨l', r, rfl, -, -, rfl⟩ := exists_of_first hf
            simp only [Nat.add_sub_cancel, ih (by simp : l'.length ≤ (l' ++ r).length), List.cons_append]

theorem decodeLossy_append (l : List UInt8) {s : String} {x : UInt8} {rest : List UInt8} (hs : encode s = x :: rest)
    (hx : x.toNat < 0x80) : decodeLossy (l ++ encode s) = decodeLossy l ++ s := by
  conv_rhs => rw [← decodeLossy_encode s]
  rw [decodeLossy, hs, decodeLossyFrom_append_plain hx (Nat.zero_le _), String.ofList_append]
  rfl

/-- No character takes more bytes than it needs. -/
theorem toNat_of_completes {a : UInt8} {l : List UInt8} (h : Completes a l) :
    (Char.ofNat (code a l)).toNat = code a l ∧ (code a l < 0x80 → l = []) := by
  have hn : (code a l < 0xD800 ∨ 0xDFFF < code a l ∧ code a l < 0x110000) ∧ (code a l < 0x80 → l = []) := by
    match l, h with
    | [], h =>
        have ha : a.toNat < 0x80 := UInt8.lt_iff_toNat_lt.mp h
        exact ⟨.inl (Nat.lt_trans ha (by decide)), fun _ => rfl⟩
    | [b], ⟨h, h', hb⟩ =>
        rw [UInt8.le_iff_toNat_le] at h
        simp [code, low]
        simp at h
        have h' := UInt8.lt_iff_toNat_lt.mp h'
        simp at h'
        omega
    | [b, c], ⟨h, h', hb, hc⟩ =>
        simp only [isSecond_iff, isTail_iff, UInt8.lt_iff_toNat_lt, UInt8.le_iff_toNat_le] at h h' hb hc
        simp at h h'
        simp [code, low]
        omega
    | [b, c, d], ⟨h, h', hb, hc, hd⟩ =>
        simp only [isSecond_iff, isTail_iff, UInt8.le_iff_toNat_le] at h h' hb hc hd
        simp at h h'
        simp [code, low]
        omega
  refine ⟨?_, hn.2⟩
  rw [Char.ofNat, dif_pos hn.1]
  rfl

theorem plain_of_completes {a : UInt8} {l : List UInt8} (h : Completes a l)
    (hc : (Char.ofNat (code a l)).toNat < 0x80) : l = [] ∧ UInt8.ofNat (Char.ofNat (code a l)).toNat = a := by
  obtain ⟨hn, hl⟩ := toNat_of_completes h
  rw [hn] at hc ⊢
  obtain rfl := hl hc
  exact ⟨rfl, UInt8.ofNat_toNat⟩

theorem eq_of_decodeLossyFrom {l : List UInt8} {cs : List Char} (h : decodeLossyFrom 0 l = cs)
    (hc : ∀ c ∈ cs, c.toNat < 0x80) : l = cs.map fun c => UInt8.ofNat c.toNat := by
  induction cs generalizing l with
  | nil =>
      cases l with
      | nil => rfl
      | cons a l =>
          rw [decodeLossyFrom_cons] at h
          split at h <;> cases h
  | cons c cs ih =>
      cases l with
      | nil => cases h
      | cons a l =>
          rw [List.forall_mem_cons] at hc
          rw [decodeLossyFrom_cons] at h
          split at h
          next c' n hf =>
            obtain ⟨l', r, rfl, hl, rfl, rfl⟩ := exists_of_first hf
            obtain ⟨rfl, h⟩ := List.cons.inj h
            obtain ⟨rfl, ha⟩ := plain_of_completes hl hc.1
            rw [List.map_cons, ha, List.nil_append, ← ih (by simpa using h) hc.2]
          next =>
            obtain ⟨rfl, -⟩ := List.cons.inj h
            exact absurd hc.1 (by decide)
          next =>
            obtain ⟨rfl, -⟩ := List.cons.inj h
            exact absurd hc.1 (by decide)

theorem mem_of_mem_decodeLossyFrom {l : List UInt8} {skip : Nat} {c : Char} (h : c ∈ decodeLossyFrom skip l)
    (hc : c.toNat < 0x80) : UInt8.ofNat c.toNat ∈ l := by
  induction l generalizing skip with
  | nil => cases h
  | cons a l ih =>
      cases skip with
      | succ skip => exact List.mem_cons_of_mem _ (ih h)
      | zero =>
          rw [decodeLossyFrom_cons] at h
          split at h
          next c' n hf =>
            rcases List.mem_cons.mp h with rfl | h
            · obtain ⟨l', r, rfl, hl, rfl, rfl⟩ := exists_of_first hf
              rw [(plain_of_completes hl hc).2]
              exact List.mem_cons_self
            · exact List.mem_cons_of_mem _ (ih h)
          next =>
            rcases List.mem_cons.mp h with rfl | h
            · exact absurd hc (by decide)
            · exact List.mem_cons_of_mem _ (ih h)
          next =>
            rw [List.mem_singleton.mp h] at hc
            exact absurd hc (by decide)

theorem decodeLossy_eq_iff {b : List UInt8} {s : String} (hs : ∀ c ∈ s.toList, c.toNat < 0x80) :
    decodeLossy b = s ↔ b = encode s := by
  constructor
  · intro h
    have hb : decodeLossyFrom 0 b = s.toList := by rw [← h, decodeLossy, String.toList_ofList]
    have he : decodeLossyFrom 0 (encode s) = s.toList := by
      conv_rhs => rw [← decodeLossy_encode s, decodeLossy, String.toList_ofList]
    rw [eq_of_decodeLossyFrom hb hs, ← eq_of_decodeLossyFrom he hs]
  · rintro rfl
    exact decodeLossy_encode s

theorem slash_mem_decodeLossy (l : List UInt8) : '/' ∈ (decodeLossy l).toList ↔ Path.slash ∈ l := by
  rw [decodeLossy, String.toList_ofList]
  constructor
  · exact fun h => mem_of_mem_decodeLossyFrom h (by decide)
  · intro h
    obtain ⟨before, after, rfl⟩ := List.append_of_mem h
    rw [decodeLossyFrom_append_plain (by decide) (Nat.zero_le _)]
    exact List.mem_append_right _ List.mem_cons_self

theorem slash_mem_encode (s : String) : Path.slash ∈ encode s ↔ '/' ∈ s.toList := by
  rw [← slash_mem_decodeLossy, decodeLossy_encode]

theorem encode_intercalate (fields : List String) :
    encode (String.intercalate "/" fields) = [Path.slash].intercalate (fields.map encode) := by
  have hs : encode "/" = [Path.slash] := rfl
  induction fields with
  | nil => rfl
  | cons field fields ih =>
      cases fields with
      | nil => simp
      | cons next fields =>
          rw [String.intercalate_cons_of_ne_nil (List.cons_ne_nil _ _), encode_append, encode_append, ih, hs]
          exact List.intercalate_cons_cons.symm

theorem splitOn_encode (s : String) : (encode s).splitOn Path.slash = (splitAt '/' s).map encode := by
  have hs : encode s = [Path.slash].intercalate ((splitAt '/' s).map encode) := by
    rw [← encode_intercalate, intercalate_splitAt rfl]
  rw [hs]
  refine List.splitOn_intercalate _ (List.forall_mem_map.mpr fun field hf => ?_) (by simp [splitAt_ne_nil])
  rw [slash_mem_encode]
  exact not_mem_of_mem_splitAt hf

end Text.Utf8

open Text.Utf8

def IsText (b : Bytes) : Prop := ∃ s : String, b = s

theorem isText_encode (s : String) : IsText s := ⟨s, rfl⟩

theorem encode_decodeLossy_iff {b : Bytes} : encode (decodeLossy b) = b ↔ IsText b := by
  constructor
  · exact fun h => ⟨_, h.symm⟩
  · rintro ⟨s, rfl⟩
    rw [decodeLossy_encode]

theorem IsText.append {a b : Bytes} : IsText a → IsText b → IsText (a ++ b)
  | ⟨s, hs⟩, ⟨t, ht⟩ => ⟨s ++ t, by rw [hs, ht, encode_append]⟩

theorem IsText.intercalate {segments : List Bytes} (h : ∀ x ∈ segments, IsText x) :
    IsText ([Path.slash].intercalate segments) := by
  have hs : segments = (segments.map decodeLossy).map encode := by
    rw [List.map_map]
    calc segments = segments.map id := (List.map_id segments).symm
      _ = segments.map (encode ∘ decodeLossy) := List.map_congr_left fun x hx => (encode_decodeLossy_iff.mpr (h x hx)).symm
  rw [hs, ← encode_intercalate]
  exact isText_encode _

namespace Path

variable {p : Path}

theorem isText_of_mem_segments (hp : IsText p.text) {x : Bytes} (hx : x ∈ p.segments) : IsText x := by
  obtain ⟨s, hs⟩ := hp
  rw [segments, hs, splitOn_encode] at hx
  obtain ⟨field, -, rfl⟩ := List.mem_map.mp hx
  exact isText_encode field

/-- The ending goes behind the path itself exactly if the path is a text. -/
theorem extended_eq_iff {ending : String} : p.extended ending = ⟨p.text ++ ending⟩ ↔ IsText p.text := by
  rw [← encode_decodeLossy_iff, extended, shown, Path.mk.injEq]
  exact List.append_left_inj _

end Path

end ArkRoutes
