import Mathlib.Data.List.Basic
import Mathlib.Data.List.TakeWhile
import ArkRoutes.Data.Json5
import ArkRoutes.Source.Token.Scan

namespace ArkRoutes

namespace Literal

open Source.Token

/-! ### Values -/

def codeUnits (n : Nat) : List Nat :=
  if n < 0x10000 then [n] else [0xD800 + (n - 0x10000) / 0x400, 0xDC00 + (n - 0x10000) % 0x400]

def units (cs : List Char) : List Nat := cs.flatMap fun c => codeUnits c.toNat

def single (c : Char) : List Nat :=
  if c = 'b' then [8] else if c = 't' then [9] else if c = 'n' then [10] else if c = 'v' then [11]
  else if c = 'f' then [12] else if c = 'r' then [13] else codeUnits c.toNat

def octal (digits : List Char) : Nat := digits.foldl (fun n c => 8 * n + (c.toNat - 48)) 0

/-- Digits behind a backslash: octal ones while the number fits into eight bits, or one `8` or `9`. In a
template there is `\0` only, and no digit may follow. -/
def digits? (template : Bool) (c : Char) (rest : List Char) : Option (List Nat × Nat) :=
  if template then
    if c = '0' && !rest.head?.any Char.isDigit then some ([0], 1) else none
  else if isOctalDigit c then
    let digits := ((c :: rest).take (if c ≤ '3' then 3 else 2)).takeWhile isOctalDigit
    some ([octal digits], digits.length)
  else some ([c.toNat], 1)

def braced? (rest : List Char) : Option (List Nat × Nat) :=
  let digits := rest.takeWhile isHexDigit
  if digits = [] || (rest.drop digits.length).head? ≠ some '}' then none
  else do
    let n ← Data.Json5.hexNumber? digits
    if n ≤ 0x10FFFF then return (codeUnits n, digits.length + 3) else none

def hex? (width : Nat) (rest : List Char) : Option (List Nat × Nat) :=
  if rest.length < width then none
  else (Data.Json5.hexNumber? (rest.take width)).map fun n => ([n], width + 1)

/-- What a backslash and the characters behind it mean, and how many of these it takes. Together with a
line end it means nothing. -/
def escape? (template : Bool) : List Char → Option (List Nat × Nat)
  | [] => none
  | c :: rest =>
    if c = 'x' then hex? 2 rest
    else if c = 'u' then if rest.head? = some '{' then braced? rest.tail else hex? 4 rest
    else if isLineEnd c then some ([], if c = '\r' && rest.head? = some '\n' then 2 else 1)
    else if c.isDigit then digits? template c rest
    else some (single c, 1)

/-- A character that stands for itself. In a template every line break means a line feed, and `${` does
not stand for itself; elsewhere a line break is none. -/
def plain? (template : Bool) (c : Char) (next? : Option Char) : Option (List Nat) :=
  if template then
    if c = '$' && next? = some '{' then none
    else if c = '\r' then some (if next? = some '\n' then [] else [10])
    else some (codeUnits c.toNat)
  else if c = '\n' || c = '\r' then none
  else some (codeUnits c.toNat)

def read? (quote : Char) (owed : Nat) : List Char → Option (List Nat × List Char)
  | [] => none
  | c :: rest =>
    match owed with
    | owed + 1 => read? quote owed rest
    | 0 =>
      if c = quote then some ([], rest)
      else if c = '\\' then do
        let (u, n) ← escape? (quote = '\x60') rest
        let (v, behind) ← read? quote n rest
        return (u ++ v, behind)
      else do
        let u ← plain? (quote = '\x60') c rest.head?
        let (v, behind) ← read? quote 0 rest
        return (u ++ v, behind)

def quotes : List Char := ['\'', '"', '\x60']

def value? (literal : String) : Option (List Nat) :=
  match literal.toList with
  | quote :: rest =>
    if quote ∈ quotes then
      match read? quote 0 rest with
      | some (v, []) => some v
      | _ => none
    else none
  | [] => none

example : value? "'\\x41\\u{1F600}\\\n\\0'" = some [0x41, 0xD83D, 0xDE00, 0] := by decide +kernel

/-! ### Lengths -/

theorem length_codeUnits_pos (n : Nat) : 0 < (codeUnits n).length := by
  unfold codeUnits
  split <;> simp

theorem length_codeUnits_le (n : Nat) : (codeUnits n).length ≤ 2 := by
  unfold codeUnits
  split <;> simp

theorem units_cons (c : Char) (cs : List Char) : units (c :: cs) = codeUnits c.toNat ++ units cs := rfl

theorem length_units_cons (c : Char) (cs : List Char) :
    (units (c :: cs)).length = (codeUnits c.toNat).length + (units cs).length := by
  rw [units_cons, List.length_append]

theorem units_append (cs ds : List Char) : units (cs ++ ds) = units cs ++ units ds := List.flatMap_append

theorem length_le_units (cs : List Char) : cs.length ≤ (units cs).length := by
  induction cs with
  | nil => exact le_rfl
  | cons c cs ih =>
      have := length_codeUnits_pos c.toNat
      rw [length_units_cons, List.length_cons]
      omega

theorem of_hex? {width n : Nat} {cs : List Char} {u : List Nat} (h : hex? width cs = some (u, n)) :
    n = width + 1 ∧ u.length = 1 := by
  unfold hex? at h
  split at h
  · cases h
  · obtain ⟨k, -, h⟩ := Option.map_eq_some_iff.mp h
    cases h
    exact ⟨rfl, rfl⟩

theorem of_braced? {n : Nat} {cs : List Char} {u : List Nat} (h : braced? cs = some (u, n)) :
    n = (cs.takeWhile isHexDigit).length + 3 ∧ u.length ≤ 2 := by
  unfold braced? at h
  dsimp only at h
  split at h
  · cases h
  · obtain ⟨k, -, h⟩ := Option.bind_eq_some_iff.mp h
    split at h
    · cases h
      exact ⟨rfl, length_codeUnits_le k⟩
    · cases h

theorem of_digits? {template : Bool} {c : Char} {rest : List Char} {u : List Nat} {n : Nat}
    (h : digits? template c rest = some (u, n)) : 0 < n ∧ u.length = 1 := by
  unfold digits? at h
  split at h
  · split at h
    · cases h
      exact ⟨Nat.one_pos, rfl⟩
    · cases h
  · split at h
    next ho =>
      have hk : ∃ k, (if c ≤ '3' then 3 else 2) = k + 1 := by split <;> exact ⟨_, rfl⟩
      obtain ⟨k, hk⟩ := hk
      dsimp only at h
      rw [hk, List.take_succ_cons, List.takeWhile_cons_of_pos ho] at h
      cases h
      exact ⟨by simp, rfl⟩
    next =>
      cases h
      exact ⟨Nat.one_pos, rfl⟩

theorem length_single_le (c : Char) : (single c).length ≤ (codeUnits c.toNat).length := by
  have := length_codeUnits_pos c.toNat
  unfold single
  split_ifs <;> simp <;> omega

theorem length_le_of_escape? {template : Bool} {cs : List Char} {u : List Nat} {n : Nat}
    (h : escape? template cs = some (u, n)) (hn : n ≤ cs.length) : u.length ≤ (units (cs.take n)).length := by
  cases cs with
  | nil => cases h
  | cons c rest =>
      have hl := length_le_units ((c :: rest).take n)
      rw [List.length_take, min_eq_left hn] at hl
      rw [escape?] at h
      split at h
      next =>
        have := of_hex? h
        omega
      next =>
        split at h
        next =>
          split at h
          next =>
            have := of_braced? h
            omega
          next =>
            have := of_hex? h
            omega
        next =>
          split at h
          next =>
            cases h
            exact Nat.zero_le _
          next =>
            split at h
            next =>
              have := of_digits? h
              omega
            next =>
              cases h
              simpa [units] using length_single_le c

/-! ### Reading on -/

theorem read?_owed (quote : Char) (owed : Nat) (cs : List Char) :
    read? quote owed cs = read? quote 0 (cs.drop owed) := by
  induction owed generalizing cs with
  | zero => rfl
  | succ owed ih =>
      cases cs with
      | nil => rfl
      | cons c cs => exact ih cs

theorem lt_length_of_read? {quote : Char} {owed : Nat} {cs : List Char} {x : List Nat × List Char}
    (h : read? quote owed cs = some x) : owed < cs.length := by
  rw [read?_owed] at h
  by_contra hn
  rw [List.drop_eq_nil_of_le (by omega)] at h
  cases h

theorem takeWhile_append_of_lt {p : Char → Bool} {cs : List Char} (h : (cs.takeWhile p).length < cs.length)
    (more : List Char) : (cs ++ more).takeWhile p = cs.takeWhile p := by
  rw [List.takeWhile_append, if_neg (by omega)]

theorem digits?_append {template : Bool} {c : Char} {cs : List Char} {u : List Nat} {n : Nat}
    (h : digits? template c cs = some (u, n)) (hn : n < cs.length + 1) (more : List Char) :
    digits? template c (cs ++ more) = some (u, n) := by
  unfold digits? at h ⊢
  split at h
  next ht =>
    have hc : cs ≠ [] := by
      rintro rfl
      split at h <;> simp_all
    rw [if_pos ht, List.head?_append_of_ne_nil _ hc]
    exact h
  next ht =>
    rw [if_neg ht]
    split at h
    next ho =>
      simp only [Option.some.injEq, Prod.mk.injEq] at h
      obtain ⟨rfl, rfl⟩ := h
      rw [if_pos ho, ← List.cons_append, List.take_append]
      generalize (if c ≤ '3' then 3 else 2) = k at hn ⊢
      by_cases hk : (((c :: cs).take k).takeWhile isOctalDigit).length < ((c :: cs).take k).length
      · rw [takeWhile_append_of_lt hk]
      · have hk : k - (c :: cs).length = 0 := by
          rw [List.length_take] at hk
          simp only [List.length_cons] at hk ⊢
          omega
        rw [hk, List.take_zero, List.append_nil]
    next ho =>
      rw [if_neg ho]
      exact h

theorem braced?_append {cs : List Char} {x : List Nat × Nat} (h : braced? cs = some x) (more : List Char) :
    braced? (cs ++ more) = some x := by
  unfold braced? at h ⊢
  dsimp only at h ⊢
  split at h
  · cases h
  next hd =>
    simp only [Bool.or_eq_true, decide_eq_true_eq, not_or, not_not] at hd
    have hlt : (cs.takeWhile isHexDigit).length < cs.length := by
      by_contra hn
      rw [List.drop_eq_nil_of_le (by omega)] at hd
      exact absurd hd.2 (by simp)
    have hhead : ((cs ++ more).drop (cs.takeWhile isHexDigit).length).head? = some '\x7d' := by
      rw [List.drop_append_of_le_length (by omega), List.head?_append, hd.2]
      rfl
    rw [takeWhile_append_of_lt hlt, hhead, if_neg (by simpa using hd.1)]
    exact h

theorem hex?_append {width : Nat} {cs : List Char} {x : List Nat × Nat} (h : hex? width cs = some x)
    (more : List Char) : hex? width (cs ++ more) = some x := by
  unfold hex? at h ⊢
  split at h
  · cases h
  next hl =>
    rw [List.take_append_of_le_length (by omega), if_neg (by rw [List.length_append]; omega)]
    exact h

theorem escape?_append {template : Bool} {cs : List Char} {u : List Nat} {n : Nat}
    (h : escape? template cs = some (u, n)) (hn : n < cs.length) (more : List Char) :
    escape? template (cs ++ more) = some (u, n) := by
  cases cs with
  | nil => cases h
  | cons c rest =>
      rw [List.length_cons] at hn
      have hhead : rest ≠ [] → (rest ++ more).head? = rest.head? := fun hr => List.head?_append_of_ne_nil _ hr
      rw [List.cons_append]
      rw [escape?] at h ⊢
      split
      next hx =>
        rw [if_pos hx] at h
        exact hex?_append h more
      next hx =>
        rw [if_neg hx] at h
        split
        next hu =>
          rw [if_pos hu] at h
          have hr : rest ≠ [] := by
            rintro rfl
            cases h
          rw [hhead hr, List.tail_append_of_ne_nil hr]
          split at h
          next hb => rw [if_pos hb, braced?_append h]
          next hb => rw [if_neg hb, hex?_append h]
        next hu =>
          rw [if_neg hu] at h
          split
          next hl =>
            rw [if_pos hl] at h
            have hr : rest ≠ [] := by
              rintro rfl
              simp at h hn
              omega
            rw [hhead hr]
            exact h
          next hl =>
            rw [if_neg hl] at h
            split
            next hd =>
              rw [if_pos hd] at h
              exact digits?_append h hn more
            next hd =>
              rw [if_neg hd] at h
              exact h

theorem read?_append {quote : Char} {owed : Nat} {cs behind : List Char} {v : List Nat}
    (h : read? quote owed cs = some (v, behind)) (more : List Char) :
    read? quote owed (cs ++ more) = some (v, behind ++ more) := by
  induction cs generalizing owed v with
  | nil => cases h
  | cons c cs ih =>
      cases owed with
      | succ owed => exact ih h
      | zero =>
          rw [List.cons_append]
          rw [read?] at h ⊢
          split
          next hq =>
            rw [if_pos hq] at h
            cases h
            rfl
          next hq =>
            rw [if_neg hq] at h
            split
            next hb =>
              rw [if_pos hb] at h
              obtain ⟨⟨u, n⟩, he, h⟩ := Option.bind_eq_some_iff.mp h
              obtain ⟨⟨w, _⟩, hr, h⟩ := Option.bind_eq_some_iff.mp h
              cases h
              simp [escape?_append he (lt_length_of_read? hr) more, ih hr]
            next hb =>
              rw [if_neg hb] at h
              obtain ⟨u, hu, h⟩ := Option.bind_eq_some_iff.mp h
              obtain ⟨⟨w, _⟩, hr, h⟩ := Option.bind_eq_some_iff.mp h
              cases h
              have hc : cs ≠ [] := List.ne_nil_of_length_pos (lt_length_of_read? hr)
              simp [List.head?_append_of_ne_nil _ hc, hu, ih hr]

theorem length_le_of_plain? {template : Bool} {c : Char} {next? : Option Char} {u : List Nat}
    (h : plain? template c next? = some u) : u.length ≤ (codeUnits c.toNat).length := by
  have hc := length_codeUnits_pos c.toNat
  unfold plain? at h
  split at h
  · split at h
    · cases h
    · split at h
      · cases h
        split
        · exact Nat.zero_le _
        · exact hc
      · cases h
        exact le_rfl
  · split at h
    · cases h
    · cases h
      exact le_rfl

theorem length_append_le {template : Bool} {body tail : List Char} {u w : List Nat} {n : Nat}
    (he : escape? template (body ++ tail) = some (u, n)) (hn : n ≤ body.length)
    (hw : w.length + (units (body.take n)).length ≤ (units body).length) :
    (u ++ w).length ≤ (units body).length := by
  have hu := length_le_of_escape? he (by rw [List.length_append]; omega)
  rw [List.take_append_of_le_length hn] at hu
  rw [List.length_append]
  omega

/-- What is meant up to the quote has no more code units than what is written there. -/
theorem length_le_of_read? {quote : Char} {owed : Nat} {cs behind : List Char} {v : List Nat}
    (h : read? quote owed cs = some (v, behind)) : ∃ body, cs = body ++ quote :: behind ∧ owed ≤ body.length ∧
      v.length + (units (body.take owed)).length ≤ (units body).length := by
  induction cs generalizing owed v with
  | nil => cases h
  | cons c cs ih =>
      cases owed with
      | succ owed =>
          obtain ⟨body, rfl, hn, hl⟩ := ih h
          refine ⟨c :: body, rfl, by simpa using hn, ?_⟩
          rw [List.take_succ_cons, length_units_cons, length_units_cons]
          omega
      | zero =>
          rw [read?] at h
          split at h
          next hq =>
            cases h
            exact ⟨[], by rw [hq]; rfl, le_rfl, le_rfl⟩
          next =>
            split at h
            next =>
              obtain ⟨⟨u, n⟩, he, h⟩ := Option.bind_eq_some_iff.mp h
              obtain ⟨⟨w, _⟩, hr, h⟩ := Option.bind_eq_some_iff.mp h
              cases h
              obtain ⟨body, rfl, hn, hl⟩ := ih hr
              have := length_append_le he hn hl
              refine ⟨c :: body, rfl, Nat.zero_le _, ?_⟩
              rw [length_units_cons]
              exact le_trans this (Nat.le_add_left _ _)
            next =>
              obtain ⟨u, hu, h⟩ := Option.bind_eq_some_iff.mp h
              obtain ⟨⟨w, _⟩, hr, h⟩ := Option.bind_eq_some_iff.mp h
              cases h
              obtain ⟨body, rfl, -, hl⟩ := ih hr
              have := length_le_of_plain? hu
              refine ⟨c :: body, rfl, Nat.zero_le _, ?_⟩
              rw [length_units_cons, List.length_append]
              simp only [List.take_zero] at hl ⊢
              omega

/-- Behind a backslash at the front there is one more than what is meant. -/
theorem length_lt_of_backslash {quote : Char} (hq : quote ≠ '\\') {cs behind : List Char} {v : List Nat}
    (h : read? quote 0 ('\\' :: cs) = some (v, behind)) :
    ∃ body, cs = body ++ quote :: behind ∧ v.length < (units ('\\' :: body)).length := by
  rw [read?, if_neg hq.symm, if_pos rfl] at h
  obtain ⟨⟨u, n⟩, he, h⟩ := Option.bind_eq_some_iff.mp h
  obtain ⟨⟨w, _⟩, hr, h⟩ := Option.bind_eq_some_iff.mp h
  cases h
  obtain ⟨body, rfl, hn, hl⟩ := length_le_of_read? hr
  have hle := length_append_le he hn hl
  have hpos := length_codeUnits_pos '\\'.toNat
  refine ⟨body, rfl, ?_⟩
  rw [length_units_cons]
  omega

theorem read?_plain {quote d : Char} (hq : d ≠ quote) (hb : d ≠ '\\') {rest behind : List Char} {v : List Nat}
    (h : read? quote 0 (d :: rest) = some (v, behind)) :
    ∃ u w, plain? (quote = '\x60') d rest.head? = some u ∧ read? quote 0 rest = some (w, behind) ∧
      v = u ++ w := by
  rw [read?, if_neg hq, if_neg hb] at h
  obtain ⟨u, hu, h⟩ := Option.bind_eq_some_iff.mp h
  obtain ⟨⟨w, _⟩, hr, h⟩ := Option.bind_eq_some_iff.mp h
  cases h
  exact ⟨u, w, hu, hr, rfl⟩

theorem read?_of_value? {quote : Char} {rest : List Char} {n : Nat} {v : List Nat}
    (h : value? (String.ofList ((quote :: rest).take (n + 1))) = some v) :
    read? quote 0 rest = some (v, rest.drop n) := by
  have hl : (String.ofList ((quote :: rest).take (n + 1))).toList = quote :: rest.take n := by simp
  rw [value?, hl] at h
  dsimp only at h
  split at h
  next =>
    split at h
    next hr =>
      cases h
      simpa using read?_append hr (rest.drop n)
    next => cases h
  next => cases h

end Literal

end ArkRoutes
