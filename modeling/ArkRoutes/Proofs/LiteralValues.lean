import Mathlib.Tactic.IntervalCases
import ArkRoutes.Proofs.LiteralMeaning
import ArkRoutes.Proofs.RouteLiterals
import ArkRoutes.Source.Grammar

namespace ArkRoutes

namespace Literal

/-! ### What is read and what is meant -/

/-- At least as many code units are read as are meant, and just these if `p` holds and not otherwise. -/
structure Compares (read meant : List Nat) (p : Prop) : Prop where
  length_le : meant.length ≤ read.length
  eq_iff : read = meant ↔ p

namespace Compares

variable {read meant read' meant' : List Nat} {p q : Prop}

theorem of_eq (h : read = meant) (hp : p) : Compares read meant p := ⟨by rw [h], iff_of_true h hp⟩

theorem of_lt (h : meant.length < read.length) (hp : ¬p) : Compares read meant p :=
  ⟨h.le, iff_of_false (fun he => by rw [he] at h; exact lt_irrefl _ h) hp⟩

theorem append (h : Compares read meant p) (h' : Compares read' meant' q) :
    Compares (read ++ read') (meant ++ meant') (p ∧ q) := by
  refine ⟨by simpa using Nat.add_le_add h.length_le h'.length_le, fun he => ?_, fun ⟨hp, hq⟩ => ?_⟩
  · have hl := congrArg List.length he
    rw [List.length_append, List.length_append] at hl
    obtain ⟨hr, hr'⟩ := List.append_inj he (by have := h.length_le; have := h'.length_le; omega)
    exact ⟨h.eq_iff.mp hr, h'.eq_iff.mp hr'⟩
  · rw [h.eq_iff.mpr hp, h'.eq_iff.mpr hq]

end Compares

def misread : List Char :=
  ['b', 'v', 'f', '1', '2', '3', '4', '5', '6', '7', '\n', '\r', '\u2028', '\u2029']

end Literal

namespace Source.Piece

/-- Whether a piece is read as what it means. An escape of more than one character behind the backslash
never is, but for the question mark that takes a line end with it. -/
def IsDecoded (template : Bool) : Piece → Prop
  | plain cs => template = true → '\r' ∉ cs
  | escape ['\\', c] => c ∉ Literal.misread
  | escape ['\\', '?', _] => True
  | escape _ => False

end Source.Piece

namespace Literal

open Source Source.Token

/-! ### Escapes -/

theorem value_long {cs : List Char} (h : 2 ≤ cs.length) : Piece.value (.escape ('\\' :: cs)) = cs := by
  match cs with
  | a :: b :: cs => simp [Piece.value, Piece.unescape]

theorem not_isDecoded_long {template : Bool} {cs : List Char} (hl : 2 ≤ cs.length) (hq : cs.head? ≠ some '?') :
    ¬(Piece.escape ('\\' :: cs)).IsDecoded template := by
  match cs with
  | a :: b :: [] =>
      have ha : a ≠ '?' := by simpa using hq
      simp [Piece.IsDecoded, ha]
  | a :: b :: c :: cs => simp [Piece.IsDecoded]

theorem compares_long {template : Bool} {cs : List Char} {u : List Nat} (hl : 2 ≤ cs.length)
    (hq : cs.head? ≠ some '?') (hu : u.length < (units cs).length) :
    Compares (units (Piece.value (.escape ('\\' :: cs)))) u ((Piece.escape ('\\' :: cs)).IsDecoded template) := by
  rw [value_long hl]
  exact .of_lt hu (not_isDecoded_long hl hq)

theorem octal_cases {c : Char} (h : isOctalDigit c = true) :
    c = '0' ∨ c = '1' ∨ c = '2' ∨ c = '3' ∨ c = '4' ∨ c = '5' ∨ c = '6' ∨ c = '7' := by
  simp only [isOctalDigit, Bool.and_eq_true, decide_eq_true_eq] at h
  have h1 : 48 ≤ c.toNat := h.1
  have h2 : c.toNat ≤ 55 := h.2
  rw [← Char.ofNat_toNat c]
  generalize c.toNat = n at h1 h2
  interval_cases n <;> decide

theorem digit_cases {c : Char} (h : c.isDigit = true) : isOctalDigit c = true ∨ c = '8' ∨ c = '9' := by
  simp only [Char.isDigit, Bool.and_eq_true, decide_eq_true_eq] at h
  have h1 : 48 ≤ c.toNat := h.1
  have h2 : c.toNat ≤ 57 := h.2
  rw [← Char.ofNat_toNat c]
  generalize c.toNat = n at h1 h2
  interval_cases n <;> decide

theorem compares_digits {template : Bool} {c : Char} {rest : List Char} {u : List Nat}
    (hd : c.isDigit = true) (h : digits? template c rest = some (u, 1)) :
    Compares (units (Piece.unescape ['\\', c])) u (c ∉ misread) := by
  unfold digits? at h
  split at h
  next =>
    split at h
    next hc =>
      simp only [Bool.and_eq_true, decide_eq_true_eq] at hc
      cases h
      rw [hc.1]
      exact .of_eq (by decide) (by decide)
    next => cases h
  next =>
    split at h
    next ho =>
      simp only [Option.some.injEq, Prod.mk.injEq] at h
      obtain ⟨rfl, hl⟩ := h
      have hds : ((c :: rest).take (if c ≤ '3' then 3 else 2)).takeWhile isOctalDigit = [c] := by
        have hk : ∃ k, (if c ≤ '3' then 3 else 2) = k + 1 := by split <;> exact ⟨_, rfl⟩
        obtain ⟨k, hk⟩ := hk
        rw [hk, List.take_succ_cons, List.takeWhile_cons_of_pos ho] at hl ⊢
        rw [List.length_cons] at hl
        rw [List.length_eq_zero_iff.mp (Nat.succ.inj hl)]
      rw [hds]
      rcases octal_cases ho with rfl | rfl | rfl | rfl | rfl | rfl | rfl | rfl <;> exact ⟨by decide, by decide⟩
    next ho =>
      cases h
      rcases digit_cases hd with h | rfl | rfl
      · exact absurd h ho
      · exact .of_eq (by decide) (by decide)
      · exact .of_eq (by decide) (by decide)

theorem compares_letter {c : Char} (hl : isLineEnd c = false) (hd : c.isDigit = false) :
    Compares (units (Piece.unescape ['\\', c])) (single c) (c ∉ misread) := by
  by_cases h : c ∈ ['b', 't', 'n', 'v', 'f', 'r']
  · simp only [List.mem_cons, List.not_mem_nil, or_false] at h
    rcases h with rfl | rfl | rfl | rfl | rfl | rfl <;> exact ⟨by decide, by decide⟩
  · simp only [List.mem_cons, List.not_mem_nil, or_false, not_or] at h
    have h0 : c ≠ '0' := by
      rintro rfl
      cases hd
    have hu : Piece.unescape ['\\', c] = [c] := by simp [Piece.unescape, h, h0]
    have hs : single c = codeUnits c.toNat := by simp [single, h]
    rw [hu, hs]
    refine .of_eq (by simp [units]) fun hm => ?_
    simp only [misread, List.mem_cons, List.not_mem_nil, or_false, h, false_or] at hm
    rcases hm with rfl | rfl | rfl | rfl | rfl | rfl | rfl | rfl | rfl | rfl | rfl <;>
      simp_all [isLineEnd, Char.isDigit]

theorem compares_single {template : Bool} {c : Char} {rest : List Char} {u : List Nat}
    (h : escape? template (c :: rest) = some (u, 1)) :
    Compares (units (Piece.value (.escape ['\\', c]))) u ((Piece.escape ['\\', c]).IsDecoded template) := by
  change Compares (units (Piece.unescape ['\\', c])) u (c ∉ misread)
  rw [escape?] at h
  split at h
  next =>
    have := (of_hex? h).1
    omega
  next =>
    split at h
    next =>
      split at h
      next =>
        have := (of_braced? h).1
        omega
      next =>
        have := (of_hex? h).1
        omega
    next =>
      split at h
      next hl =>
        simp only [Option.some.injEq, Prod.mk.injEq] at h
        obtain ⟨rfl, -⟩ := h
        simp only [isLineEnd, Bool.or_eq_true, beq_iff_eq] at hl
        rcases hl with ((rfl | rfl) | rfl) | rfl <;> exact ⟨by decide, by decide⟩
      next hl =>
        split at h
        next hd => exact compares_digits hd h
        next hd =>
          cases h
          exact compares_letter (by simpa using hl) (by simpa using hd)

/-- The same length is taken from the text, and several characters are read for one that is meant. -/
theorem compares_taken {template : Bool} {cs : List Char} {u : List Nat} {n : Nat} (hn : n < cs.length)
    (h2 : 2 ≤ n) (hq : cs.head? ≠ some '?') (hu : u.length < n) :
    Compares (units (Piece.value (.escape ('\\' :: cs.take n)))) u
      ((Piece.escape ('\\' :: cs.take n)).IsDecoded template) := by
  have hl : (cs.take n).length = n := by simp; omega
  refine compares_long (by omega) ?_ (lt_of_lt_of_le (by omega) (length_le_units _))
  rwa [List.head?_take, if_neg (by omega)]

theorem length_of_codePoint {template : Bool} {rest : List Char} {u : List Nat} {n m : Nat}
    (hl : codePointLength? ('u' :: rest) = some n) (he : escape? template ('u' :: rest) = some (u, m)) :
    m = n ∧ u.length < n ∧ 2 ≤ n := by
  rw [escape?, if_neg (by decide), if_pos rfl] at he
  unfold codePointLength? at hl
  split at hl
  next tail heq =>
    cases heq
    rw [List.head?_cons, if_pos rfl, List.tail_cons] at he
    obtain ⟨hm, hu⟩ := of_braced? he
    dsimp only at hl
    split at hl
    next =>
      split at hl
      · cases hl
      · cases hl
        omega
    next => cases hl
  next tail hne heq =>
    cases heq
    have hb : rest.head? ≠ some '{' := by
      intro hb
      cases rest with
      | nil => cases hb
      | cons c rest =>
          cases hb
          exact hne _ rfl
    rw [if_neg hb] at he
    obtain ⟨hm, hu⟩ := of_hex? he
    split at hl
    · cases hl
      omega
    · cases hl
  next => cases hl

/-- A character of a class without quotes and the backslash stands for itself. -/
theorem apart_of_class {p : Char → Bool} {quote c : Char} (hquote : quote ∈ quotes) (hc : p c = true)
    (hp : ∀ d ∈ '\\' :: quotes, p d = false) : c ≠ quote ∧ c ≠ '\\' := by
  refine ⟨?_, ?_⟩
  · rintro rfl
    simp [hp c (List.mem_cons_of_mem _ hquote)] at hc
  · rintro rfl
    simp [hp '\\' List.mem_cons_self] at hc

theorem escape?_octal {template : Bool} {c : Char} (ho : isOctalDigit c = true) (rest : List Char) :
    escape? template (c :: rest) = digits? template c rest := by
  rcases octal_cases ho with rfl | rfl | rfl | rfl | rfl | rfl | rfl | rfl <;> rfl

theorem isDigit_of_isOctalDigit {c : Char} (ho : isOctalDigit c = true) : c.isDigit = true := by
  rcases octal_cases ho with rfl | rfl | rfl | rfl | rfl | rfl | rfl | rfl <;> rfl

/-- The third octal digit is read with the other two, although it stands for itself if all three do not fit
into eight bits. -/
theorem plain?_octal {d : Char} (ho : isOctalDigit d = true) (next? : Option Char) :
    plain? false d next? = some (codeUnits d.toNat) := by
  rcases octal_cases ho with rfl | rfl | rfl | rfl | rfl | rfl | rfl | rfl <;> rfl

/-- The value `v` begins with what is meant by the `n` characters behind a backslash, and goes on with what
is meant by the rest. -/
def Meant (quote : Char) (cs : List Char) (n : Nat) (v : List Nat) (behind : List Char) : Prop :=
  ∃ u w, v = u ++ w ∧ read? quote n cs = some (w, behind) ∧
    Compares (units (Piece.value (.escape ('\\' :: cs.take n)))) u
      ((Piece.escape ('\\' :: cs.take n)).IsDecoded (quote = '\x60'))

theorem meant_thirdDigit {quote : Char} (hquote : quote ∈ quotes) (ht : decide (quote = '\x60') = false)
    {c d e : Char} (hc : c ≠ '?') (he : isOctalDigit e = true) {rest behind : List Char} {w : List Nat} (k : Nat)
    (hr : read? quote 0 (e :: rest) = some (w, behind)) : Meant quote (c :: d :: e :: rest) 3 (k :: w) behind := by
  obtain ⟨hq, hb⟩ := apart_of_class hquote he (by simp [quotes, isOctalDigit])
  obtain ⟨v, w, hv, hw, rfl⟩ := read?_plain hq hb hr
  rw [ht, plain?_octal he] at hv
  cases hv
  refine ⟨k :: codeUnits e.toNat, w, rfl, hw, compares_long (by simp) (by simpa using hc) ?_⟩
  have hl := length_le_units [c, d]
  have hu : units (List.take 3 (c :: d :: e :: rest)) = units [c, d] ++ codeUnits e.toNat := by simp [units]
  rw [hu, List.length_append, List.length_cons]
  simp only [List.length_cons, List.length_nil] at hl
  omega

/-- In a template a zero is the only digit with a meaning, and no other digit is behind it. -/
theorem length_of_zero {c : Char} {rest : List Char} {u : List Nat} {m : Nat} (ho : isOctalDigit c = true)
    (h : digits? true c rest = some (u, m)) : m = 1 ∧ ((c :: rest).takeWhile isOctalDigit).length = 1 := by
  rw [digits?, if_pos rfl] at h
  split at h
  next h0 =>
    cases h
    simp only [Bool.and_eq_true, Bool.not_eq_true'] at h0
    refine ⟨rfl, ?_⟩
    cases rest with
    | nil => simp [ho]
    | cons d rest =>
        have hd : isOctalDigit d = false := by
          by_contra h
          simp [isDigit_of_isOctalDigit (Bool.eq_true_of_not_eq_false h)] at h0
        simp [ho, hd]
  next => cases h

theorem meant_octal {quote : Char} (hquote : quote ∈ quotes) {c : Char} {rest : List Char} {u w : List Nat}
    {m n : Nat} {behind : List Char} (ho : isOctalDigit c = true)
    (he : escape? (quote = '\x60') (c :: rest) = some (u, m))
    (hr : read? quote m (c :: rest) = some (w, behind))
    (hn : n = (((c :: rest).take 3).takeWhile isOctalDigit).length) (hlt : n < (c :: rest).length) :
    Meant quote (c :: rest) n (u ++ w) behind := by
  have hpos : 0 < ((c :: rest).takeWhile isOctalDigit).length := by simp [List.takeWhile_cons_of_pos ho]
  have hc : c ≠ '?' := by
    rintro rfl
    cases ho
  have hd := he
  rw [escape?_octal ho] at hd
  rw [← List.take_takeWhile, List.length_take] at hn
  cases ht : decide (quote = '\x60') with
  | true =>
      rw [ht] at hd
      obtain ⟨rfl, h1⟩ := length_of_zero ho hd
      obtain rfl : n = 1 := by omega
      exact ⟨_, _, rfl, hr, compares_single he⟩
  | false =>
      rw [ht, digits?, if_neg Bool.false_ne_true, if_pos ho] at hd
      simp only [Option.some.injEq, Prod.mk.injEq, ← List.take_takeWhile, List.length_take] at hd
      obtain ⟨rfl, rfl⟩ := hd
      have hk : (if c ≤ '3' then 3 else 2) = 3 ∨ (if c ≤ '3' then 3 else 2) = 2 := by split <;> simp
      generalize (if c ≤ '3' then 3 else 2) = k at hk he hr ⊢
      by_cases hm : min k ((c :: rest).takeWhile isOctalDigit).length = n
      · rw [hm] at he hr
        refine ⟨_, _, rfl, hr, ?_⟩
        obtain rfl | h2 : n = 1 ∨ 2 ≤ n := by omega
        · exact compares_single he
        · exact compares_taken hlt h2 (by simpa using hc) h2
      · obtain ⟨rfl, rfl, h3⟩ : k = 2 ∧ n = 3 ∧ 3 ≤ ((c :: rest).takeWhile isOctalDigit).length := by omega
        rw [min_eq_left (by omega), read?_owed] at hr
        have hall : ((c :: rest).take 3).takeWhile isOctalDigit = (c :: rest).take 3 :=
          (List.takeWhile_prefix _).eq_of_length_le (by rw [← List.take_takeWhile]; simp; omega)
        match rest with
        | d :: e :: rest =>
            have hoe : isOctalDigit e = true := List.takeWhile_eq_self_iff.mp hall e (by simp)
            exact meant_thirdDigit hquote ht hc hoe _ hr

theorem plain?_lineEnd {template : Bool} {c : Char} (hc : isLineEnd c = true) (hr : c ≠ '\r') {next? : Option Char}
    {v : List Nat} (h : plain? template c next? = some v) : v = codeUnits c.toNat := by
  have hd : c ≠ '$' := by
    rintro rfl
    cases hc
  unfold plain? at h
  split at h
  · simpa [hd, hr] using h.symm
  · split at h
    · cases h
    · simpa using h.symm

/-- A line end is read together with the character in front of it. -/
theorem read?_lineEnd {quote : Char} (hquote : quote ∈ quotes) {c : Char} (hc : isLineEnd c = true) (hr : c ≠ '\r')
    {rest behind : List Char} {v : List Nat} (h : read? quote 0 (c :: rest) = some (v, behind)) :
    ∃ w, read? quote 0 rest = some (w, behind) ∧ v = codeUnits c.toNat ++ w := by
  obtain ⟨hq, hb⟩ := apart_of_class hquote hc (by simp [quotes, isLineEnd])
  obtain ⟨u, w, hu, hw, rfl⟩ := read?_plain hq hb h
  rw [plain?_lineEnd hc hr hu]
  exact ⟨w, hw, rfl⟩

theorem meant_carriageReturn {quote : Char} (hquote : quote ∈ quotes) {c : Char} (hc : isLineEnd c = true)
    (hr : c ≠ '\r') {rest behind : List Char} {u w : List Nat} {m : Nat} (hrest : rest ≠ [])
    (he : escape? (quote = '\x60') ('\r' :: c :: rest) = some (u, m))
    (h : read? quote m ('\r' :: c :: rest) = some (w, behind)) :
    Meant quote ('\r' :: c :: rest) 2 (u ++ w) behind := by
  have hlt : 2 < ('\r' :: c :: rest).length := by simpa using List.length_pos_of_ne_nil hrest
  rw [escape?, if_neg (by decide), if_neg (by decide), if_pos (by decide)] at he
  simp only [Option.some.injEq, Prod.mk.injEq] at he
  obtain ⟨rfl, rfl⟩ := he
  split at h
  next => exact ⟨_, _, rfl, h, compares_taken hlt le_rfl (by simp) (by simp)⟩
  next =>
    obtain ⟨w, hw, rfl⟩ := read?_lineEnd hquote hc hr h
    refine ⟨codeUnits c.toNat, w, rfl, hw, compares_long (by simp) (by simp) ?_⟩
    have := length_codeUnits_pos '\r'.toNat
    have hu : units (List.take 2 ('\r' :: c :: rest)) = codeUnits '\r'.toNat ++ codeUnits c.toNat := by
      simp [units]
    rw [hu, List.length_append]
    omega

theorem meant_questionMark {quote : Char} (hquote : quote ∈ quotes) {c : Char} (hc : isLineEnd c = true)
    (hr : c ≠ '\r') {rest behind : List Char} {u w : List Nat} {m : Nat}
    (he : escape? (quote = '\x60') ('?' :: c :: rest) = some (u, m))
    (h : read? quote m ('?' :: c :: rest) = some (w, behind)) :
    Meant quote ('?' :: c :: rest) 2 (u ++ w) behind := by
  cases he
  obtain ⟨w, hw, rfl⟩ := read?_lineEnd hquote hc hr h
  refine ⟨single '?' ++ codeUnits c.toNat, w, (List.append_assoc ..).symm, hw, .of_eq ?_ trivial⟩
  rw [value_long (by simp)]
  simp [units, single]

theorem eq_one_of_escape? {template : Bool} {a b : Char} {rest : List Char} {u : List Nat} {m : Nat}
    (hx : a ≠ 'x') (hu : a ≠ 'u') (ho : isOctalDigit a = false) (hab : a = '\r' → b ≠ '\n')
    (he : escape? template (a :: b :: rest) = some (u, m)) : m = 1 := by
  rw [escape?, if_neg hx, if_neg hu] at he
  split at he
  next =>
    have hn : ¬(decide (a = '\r') && decide ((b :: rest).head? = some '\n')) = true := by simpa using hab
    rw [if_neg hn] at he
    cases he
    rfl
  next =>
    split at he
    next =>
      unfold digits? at he
      split at he
      · split at he
        · cases he
          rfl
        · cases he
      · rw [ho] at he
        cases he
        rfl
    next =>
      cases he
      rfl

theorem meant_escape {quote : Char} (hquote : quote ∈ quotes) {cs : List Char} {u w : List Nat} {m n : Nat}
    {behind : List Char} (he : escape? (quote = '\x60') cs = some (u, m)) (hr : read? quote m cs = some (w, behind))
    (hn : escapeLength? cs = some n) (hlt : n < cs.length) : Meant quote cs n (u ++ w) behind := by
  unfold escapeLength? at hn
  split at hn
  next => cases hn
  next rest =>
    split at hn
    · cases hn
      rw [escape?, if_pos rfl] at he
      obtain ⟨rfl, hu⟩ := of_hex? he
      exact ⟨_, _, rfl, hr, compares_taken hlt (by omega) (by simp) (by omega)⟩
    · cases hn
  next rest =>
    obtain ⟨rfl, hu, h2⟩ := length_of_codePoint hn he
    exact ⟨_, _, rfl, hr, compares_taken hlt h2 (by simp) hu⟩
  next a b rest hx hu =>
    split at hn
    next ho => exact meant_octal hquote ho he hr (by simpa using hn.symm) hlt
    next ho =>
      split at hn
      next hab =>
        cases hn
        simp only [Bool.and_eq_true, Bool.or_eq_true, decide_eq_true_eq, bne_iff_ne] at hab
        obtain ⟨⟨rfl | rfl, hl⟩, hb⟩ := hab
        · exact meant_carriageReturn hquote hl hb (List.ne_nil_of_length_pos (by simpa using hlt)) he hr
        · exact meant_questionMark hquote hl hb he hr
      next hab =>
        cases hn
        have hcr : a = '\r' → b ≠ '\n' := by
          rintro rfl rfl
          exact hab rfl
        obtain rfl := eq_one_of_escape? hx hu (by simpa using ho) hcr he
        exact ⟨_, _, rfl, hr, compares_single he⟩
  next c hx hu =>
    cases hn
    simp at hlt

/-! ### Quoted stretches -/

theorem cutQuoted_owed {quote : Char} {owed : Nat} {cs : List Char} {q : Quoted}
    (h : cutQuoted quote owed cs = some q) :
    owed < cs.length ∧ ∃ q', cutQuoted quote 0 (cs.drop owed) = some q' ∧
      q = { q' with length := q'.length + owed } := by
  induction owed generalizing cs q with
  | zero =>
      cases cs with
      | nil => cases h
      | cons c cs => exact ⟨by simp, q, h, rfl⟩
  | succ owed ih =>
      cases cs with
      | nil => cases h
      | cons c cs =>
          rw [cutQuoted] at h
          obtain ⟨q₁, hq, rfl⟩ := Option.map_eq_some_iff.mp h
          obtain ⟨hl, q', hq', rfl⟩ := ih hq
          exact ⟨by simpa using hl, q', hq', by simp [Nat.add_assoc]⟩

theorem isDecoded_addPlain {template : Bool} {c : Char} {pieces : List Piece} :
    (∀ p ∈ addPlain c pieces, p.IsDecoded template) ↔
      (template = true → c ≠ '\r') ∧ ∀ p ∈ pieces, p.IsDecoded template := by
  unfold addPlain
  split
  next cs rest =>
    rw [List.forall_mem_cons, List.forall_mem_cons, ← and_assoc]
    refine and_congr_left' ?_
    change (template = true → '\r' ∉ c :: cs) ↔
      (template = true → c ≠ '\r') ∧ (template = true → '\r' ∉ cs)
    rw [← forall_and, List.mem_cons, not_or, ne_comm]
  next =>
    rw [List.forall_mem_cons]
    refine and_congr_left' ?_
    change (template = true → '\r' ∉ [c]) ↔ (template = true → c ≠ '\r')
    rw [List.mem_singleton, ne_comm]

theorem compares_plain {template : Bool} {c : Char} {next? : Option Char} {u : List Nat}
    (h : plain? template c next? = some u) : Compares (codeUnits c.toNat) u (template = true → c ≠ '\r') := by
  unfold plain? at h
  split at h
  next ht =>
    split at h
    next => cases h
    next =>
      split at h
      next hr =>
        cases h
        subst hr
        refine ⟨by split <;> decide, iff_of_false (by split <;> decide) fun hn => hn ht rfl⟩
      next hr =>
        cases h
        exact .of_eq rfl fun _ => hr
  next ht =>
    split at h
    · cases h
    · cases h
      exact .of_eq rfl fun h => absurd h ht

def Compared (quote : Char) (cs : List Char) : Prop :=
  ∀ ⦃q v behind⦄, cutQuoted quote 0 cs = some q → read? quote 0 cs = some (v, behind) →
    Compares (units (q.pieces.flatMap Piece.value)) v (∀ p ∈ q.pieces, p.IsDecoded (quote = '\x60')) ∧
      behind = cs.drop q.length

theorem compared_ended {quote c : Char} {rest : List Char} {ending : Ending} {n : Nat}
    (he : endingAt? quote c rest = some (ending, n)) : Compared quote (c :: rest) := by
  intro q v behind hc hv
  rw [cutQuoted, he] at hc
  cases hc
  unfold endingAt? at he
  split at he
  next hq =>
    cases he
    rw [read?, if_pos hq] at hv
    cases hv
    exact ⟨.of_eq rfl (by simp), rfl⟩
  next hq =>
    split at he
    next hs =>
      -- a substitution, so there is no value
      simp only [Bool.and_eq_true, decide_eq_true_eq] at hs
      obtain ⟨⟨rfl, rfl⟩, hs⟩ := hs
      obtain ⟨u, w, hu, -, -⟩ := read?_plain hq (by decide) hv
      simp [plain?, hs] at hu
    next => cases he

theorem compared_escape {quote : Char} (hquote : quote ∈ quotes) {rest : List Char}
    (he : endingAt? quote '\\' rest = none) (hq : '\\' ≠ quote) (ih : ∀ n, Compared quote (rest.drop n)) :
    Compared quote ('\\' :: rest) := by
  intro q v behind hc hv
  rw [cutQuoted, he] at hc
  obtain ⟨n, hn, hc⟩ := Option.bind_eq_some_iff.mp hc
  obtain ⟨q₁, hq₁, hc⟩ := Option.bind_eq_some_iff.mp hc
  cases hc
  obtain ⟨hlt, q₂, hq₂, rfl⟩ := cutQuoted_owed hq₁
  rw [read?, if_neg hq, if_pos rfl] at hv
  obtain ⟨⟨u, m⟩, hu, hv⟩ := Option.bind_eq_some_iff.mp hv
  obtain ⟨⟨w, _⟩, hw, hv⟩ := Option.bind_eq_some_iff.mp hv
  cases hv
  obtain ⟨u', w', he, hr, hcmp⟩ := meant_escape hquote hu hw hn hlt
  rw [read?_owed] at hr
  obtain ⟨hrest, rfl⟩ := ih n hq₂ hr
  rw [he, List.flatMap_cons, units_append, List.forall_mem_cons]
  refine ⟨hcmp.append hrest, ?_⟩
  rw [List.drop_drop, List.drop_succ_cons, Nat.add_comm]

theorem compared_plain {quote c : Char} {rest : List Char} (he : endingAt? quote c rest = none)
    (hq : c ≠ quote) (hb : c ≠ '\\') (ih : Compared quote rest) : Compared quote (c :: rest) := by
  intro q v behind hc hv
  rw [cutQuoted, he] at hc
  dsimp only at hc
  rw [if_neg hb] at hc
  split at hc
  next => cases hc
  next =>
    obtain ⟨q₁, hq₁, hc⟩ := Option.bind_eq_some_iff.mp hc
    cases hc
    obtain ⟨u, w, hu, hw, rfl⟩ := read?_plain hq hb hv
    obtain ⟨hrest, rfl⟩ := ih hq₁ hw
    rw [value_addPlain, units_cons, isDecoded_addPlain]
    exact ⟨(compares_plain hu).append hrest, rfl⟩

theorem compared {quote : Char} (hquote : quote ∈ quotes) (cs : List Char) : Compared quote cs := by
  match cs with
  | [] =>
      intro q v behind hc hv
      cases hc
  | c :: rest =>
      cases he : endingAt? quote c rest with
      | some ended => exact compared_ended he
      | none =>
          have hq : c ≠ quote := by
            rintro rfl
            simp [endingAt?] at he
          by_cases hb : c = '\\'
          · subst hb
            exact compared_escape hquote he hq fun n => compared hquote (rest.drop n)
          · exact compared_plain he hq hb (compared hquote rest)
termination_by cs.length

end Literal

/-! ### Tokens -/

namespace Source

def Shape.literal? : Shape → Option (List Piece × Bool)
  | .string pieces => some (pieces, false)
  | .template pieces true true => some (pieces, true)
  | _ => none

namespace Token

theorem mem_run {fuel : Nat} {s : Scanner} {cs : List Char} {t : Token} (h : t ∈ s.run fuel cs) :
    ∃ (s : Scanner) (cs : List Char), t.shape = (s.shapeOf cs).1 ∧
      t.text = String.ofList (cs.take (s.shapeOf cs).2) := by
  induction fuel generalizing s cs with
  | zero => simp [Scanner.run] at h
  | succ fuel ih =>
      rw [Scanner.run] at h
      dsimp only at h
      split at h
      · cases h
      · rcases List.mem_cons.mp h with rfl | h
        · exact ⟨_, _, rfl, rfl⟩
        · exact ih h

theorem of_quoted_literal {q? : Option Quoted} {shape : Quoted → Shape} {n mark : Nat} {x : List Piece × Bool}
    (h : ((q?.bind fun q => some (shape q, q.length + n)).getD (.mark, mark)).1.literal? = some x) :
    ∃ q, q? = some q ∧ (shape q).literal? = some x ∧
      ((q?.bind fun q => some (shape q, q.length + n)).getD (.mark, mark)).2 = q.length + n := by
  cases q? with
  | none => cases h
  | some q => exact ⟨q, rfl, h, rfl⟩

theorem of_shapeOf_literal {s : Scanner} {cs : List Char} {pieces : List Piece} {template : Bool}
    (h : (s.shapeOf cs).1.literal? = some (pieces, template)) :
    ∃ quote rest q, quote ∈ Literal.quotes ∧ template = decide (quote = '\x60') ∧ cs = quote :: rest ∧
      cutQuoted quote 0 rest = some q ∧ q.pieces = pieces ∧ (s.shapeOf cs).2 = q.length + 1 := by
  unfold Scanner.shapeOf at h ⊢
  dsimp only at h ⊢
  split at h
  next => cases h
  next hw =>
    rw [if_neg hw]
    split at h
    next => cases h
    next hd =>
      rw [if_neg hd]
      split at h
      next rest =>
        obtain ⟨q, hq, hs, hn⟩ := of_quoted_literal h
        cases hs
        exact ⟨_, rest, q, by decide, rfl, rfl, hq, rfl, hn⟩
      next rest =>
        obtain ⟨q, hq, hs, hn⟩ := of_quoted_literal h
        cases hs
        exact ⟨_, rest, q, by decide, rfl, rfl, hq, rfl, hn⟩
      next rest =>
        obtain ⟨q, hq, hs, hn⟩ := of_quoted_literal h
        rw [if_pos rfl] at hs
        cases he : q.ending with
        | quote =>
            rw [he] at hs
            cases hs
            exact ⟨_, rest, q, by decide, rfl, rfl, hq, rfl, hn⟩
        | substitution =>
            rw [he] at hs
            cases hs
      next rest =>
        split at h
        next =>
          obtain ⟨q, -, hs, -⟩ := of_quoted_literal h
          cases hs
        next => cases h
      next => split at h <;> cases h
      next => split at h <;> [split at h; skip] <;> cases h
      next => cases h

end Token

namespace Grammar

theorem primary_literal {t : Token} {pieces : List Piece} {template : Bool}
    (h : t.shape.literal? = some (pieces, template)) (sub : Sub) (n : Nat) (behind : List Token) :
    primary sub n (t :: behind) = some (.string pieces, behind) := by
  obtain ⟨shape, text, lead⟩ := t
  change shape.literal? = some (pieces, template) at h
  unfold Shape.literal? at h
  split at h
  next =>
    cases h
    rfl
  next =>
    cases h
    rfl
  next => cases h

end Grammar

end Source

namespace Literal

open Source Source.Token

/-- A literal of a text is read as a string of its pieces, and is lowered to the value that the language gives
it if every piece is read as what it means, and otherwise not. -/
theorem lowered_value_iff {text : String} {t : Token} (ht : t ∈ Token.scan text) {pieces : List Piece}
    {template : Bool} (hp : t.shape.literal? = some (pieces, template)) {v : List Nat} (hv : value? t.text = some v)
    (sub : Grammar.Sub) (n : Nat) (behind : List Token) :
    ∃ node s, Grammar.primary sub n (t :: behind) = some (node, behind) ∧ node.expr = .literal (.text s) ∧
      (units s.toList = v ↔ ∀ p ∈ pieces, p.IsDecoded template) := by
  refine ⟨.string pieces, Piece.textOf pieces, Grammar.primary_literal hp sub n behind, rfl, ?_⟩
  obtain ⟨scanner, cs, hs, htext⟩ := mem_run ht
  rw [hs] at hp
  obtain ⟨quote, rest, q, hquote, rfl, rfl, hq, rfl, hn⟩ := of_shapeOf_literal hp
  rw [htext, hn] at hv
  rw [Piece.textOf, String.toList_ofList]
  exact (compared hquote rest hq (read?_of_value? hv)).1.eq_iff

def thornyLiteral : Token :=
  ⟨.string [.plain ['i', 't'], .escape ['\\', '\''], .plain ['s'], .escape ['\\', 'n']], "'it\\'s\\n'", " "⟩

theorem thornyLiteral_lowered : ∃ node s,
    Grammar.primary (Grammar.parse 0) 1 [thornyLiteral] = some (node, []) ∧ node.expr = .literal (.text s) ∧
      units s.toList = units "it's\n".toList := by
  have ht : thornyLiteral ∈ Token.scan "const name = 'it\\'s\\n'" := by decide +kernel
  have hv : value? thornyLiteral.text = some (units "it's\n".toList) := by decide +kernel
  obtain ⟨node, s, hread, hexpr, hvalue⟩ := lowered_value_iff ht rfl hv (Grammar.parse 0) 1 []
  exact ⟨node, s, hread, hexpr, hvalue.mpr (by simp [Piece.IsDecoded, misread])⟩

/-- A hexadecimal escape means one character and is lowered to its spelling. -/
theorem hexadecimal_lowered :
    Token.scan "'\\x41'" = [⟨.string [.escape ['\\', 'x', '4', '1']], "'\\x41'", ""⟩] ∧
      value? "'\\x41'" = some (units "A".toList) ∧
      (Grammar.primary (Grammar.parse 0) 1 (Token.scan "'\\x41'")).map (fun r => r.1.expr) =
        some (.literal (.text "x41")) ∧
      units "x41".toList ≠ units "A".toList := by
  have ht : Token.scan "'\\x41'" = [⟨.string [.escape ['\\', 'x', '4', '1']], "'\\x41'", ""⟩] := by decide +kernel
  rw [ht]
  refine ⟨rfl, by decide +kernel, rfl, by decide +kernel⟩

end Literal

end ArkRoutes
