import ArkRoutes.Data.Json5
import ArkRoutes.Generation.RouteMap

namespace ArkRoutes.Data

/-! ### The reader -/

namespace JsonText

def isGap (c : Char) : Bool := c == ' ' || c == '\t' || c == '\n' || c == '\r'

def named? (c : Char) : Option Char :=
  if c = '"' || c = '\\' || c = '/' then some c
  else if c = 'b' then some '\x08'
  else if c = 'f' then some '\x0c'
  else if c = 'n' then some '\n'
  else if c = 'r' then some '\r'
  else if c = 't' then some '\t'
  else none

def stringRest? (skip : Nat) : List Char → Option (List Char × List Char)
  | [] => none
  | c :: rest =>
    match skip with
    | skip + 1 => stringRest? skip rest
    | 0 =>
      let more (c : Char) (skip : Nat) := (stringRest? skip rest).map fun (cs, rest) => (c :: cs, rest)
      if c = '"' then some ([], rest)
      else if c.toNat < 0x20 then none
      else if c = '\\' then
        match rest with
        | [] => none
        | 'u' :: digits => (Json5.codePoint? digits).bind fun (c, n) => more c (n + 1)
        | e :: _ => (named? e).bind fun c => more c 1
      else more c 0

def text? (cs : List Char) : Option (String × List Char) :=
  (stringRest? 0 cs).map fun (text, rest) => (String.ofList text, rest)

def fraction : Json5.Reader (List Char) := do
  if (← Json5.peek?) = some '.' then
    let _ ← Json5.next
    let ds ← Json5.digits
    if ds.isEmpty then failure else return ds
  else return []

def numeral : Json5.Reader Numeral := do
  let negative := (← Json5.peek?) = some '-'
  if negative then let _ ← Json5.next
  let whole ← Json5.wholePart
  let fraction ← fraction
  let e ← some <$> Json5.exponent <|> pure none
  let magnitude := match fraction, e with
    | [], none => .whole (Json5.decimalValue whole)
    | _, _ => .decimal (Json5.decimalValue (whole ++ fraction)) (e.getD 0 - fraction.length)
  return ⟨if negative then some .minus else none, magnitude⟩

variable {α : Type}

def listed? (close : Char) (read : List Char → Option (List α × List Char)) (cs : List Char) :
    Option (List α × List Char) :=
  match cs.dropWhile isGap with
  | [] => none
  | c :: rest => if c = close then some ([], rest) else read (c :: rest)

def more? (close : Char) (read : List Char → Option (List α × List Char)) (a : α) (cs : List Char) :
    Option (List α × List Char) :=
  match cs.dropWhile isGap with
  | [] => none
  | c :: rest =>
    if c = close then some ([a], rest)
    else if c = ',' then (read rest).map fun (as, rest) => (a :: as, rest)
    else none

def key? (cs : List Char) : Option (String × List Char) :=
  match cs.dropWhile isGap with
  | '"' :: rest => do
    let (k, rest) ← text? rest
    match rest.dropWhile isGap with
    | ':' :: rest => return (k, rest)
    | _ => none
  | _ => none

mutual

def value? : Nat → List Char → Option (Value × List Char)
  | 0, _ => none
  | fuel + 1, cs =>
    match cs.dropWhile isGap with
    | '"' :: rest => (text? rest).map fun (s, rest) => (.string s, rest)
    | '[' :: rest => (listed? ']' (items? fuel) rest).map fun (vs, rest) => (.array vs, rest)
    | '{' :: rest => (listed? '}' (fields? fuel) rest).map fun (fs, rest) => (.object fs, rest)
    | 't' :: 'r' :: 'u' :: 'e' :: rest => some (.bool true, rest)
    | 'f' :: 'a' :: 'l' :: 's' :: 'e' :: rest => some (.bool false, rest)
    | 'n' :: 'u' :: 'l' :: 'l' :: rest => some (.null, rest)
    | rest => (numeral rest).map fun (x, rest) => (.number x, rest)

def items? : Nat → List Char → Option (List Value × List Char)
  | 0, _ => none
  | fuel + 1, cs => do
    let (v, rest) ← value? fuel cs
    more? ']' (items? fuel) v rest

def fields? : Nat → List Char → Option (List (String × Value) × List Char)
  | 0, _ => none
  | fuel + 1, cs => do
    let (k, rest) ← key? cs
    let (v, rest) ← value? fuel rest
    more? '}' (fields? fuel) (k, v) rest

end

/-- Every value takes at least one character, so the length of the text is fuel enough. -/
def decode? (text : String) : Option Value := do
  let (v, rest) ← value? (text.length + 1) text.toList
  if rest.all isGap then return v else none

example :
    (["[1.5e3, -0, true]", " \x7b\"a\": null\x7d\n", "\"\\ud83d\\ude00\\/\""].all fun text => (decode? text).isSome) ∧
      (["[1,]", "\x7ba: 1\x7d", "'a'", "01", "1.", "+1", "\"\t\"", "\"\\ud83d\"", "1 // one", ""].all fun text =>
        (decode? text).isNone) := by
  decide +kernel

end JsonText

/-! ### Texts -/

namespace Json

mutual

def value : Json → Value
  | bool b => .bool b
  | string s => .string s
  | array items => .array (values items)
  | object fields => .object (valuesOf fields)

def values : List Json → List Value
  | [] => []
  | v :: rest => v.value :: values rest

def valuesOf : List (String × Json) → List (String × Value)
  | [] => []
  | (k, v) :: rest => (k, v.value) :: valuesOf rest

end

end Json

namespace JsonText

open Json

theorem stringRest?_skip (cs rest : List Char) : stringRest? cs.length (cs ++ rest) = stringRest? 0 rest := by
  induction cs with
  | nil => rfl
  | cons c cs ih => rw [List.cons_append, List.length_cons, stringRest?, ih]

theorem stringRest?_named {e c : Char} (h : named? e = some c) (rest : List Char) :
    stringRest? 0 ('\\' :: e :: rest) = (stringRest? 0 rest).map fun (cs, rest) => (c :: cs, rest) := by
  have hu : e ≠ 'u' := fun he => by simp [he, named?] at h
  have hs := stringRest?_skip [e] rest
  rw [List.length_singleton, List.singleton_append] at hs
  rw [stringRest?]
  · simp [h, hs]
  · exact hu

theorem fourDigits_eq : ∀ n < 0x20,
    (fourDigits n).toList.length = 4 ∧ Json5.hexNumber? (fourDigits n).toList = some n := by
  decide

theorem codePoint?_fourDigits {n : Nat} (hn : n < 0x20) (rest : List Char) :
    Json5.codePoint? ((fourDigits n).toList ++ rest) = some (Char.ofNat n, 4) := by
  obtain ⟨hl, hx⟩ := fourDigits_eq n hn
  match hd : (fourDigits n).toList, hl with
  | [a, b, c, d], _ =>
    rw [hd] at hx
    have h₁ : ¬0xDC00 ≤ n := by omega
    have h₂ : ¬0xD800 ≤ n := by omega
    simp [Json5.codePoint?, hx, h₁, h₂]

theorem stringRest?_control {c : Char} (hc : c.toNat < 0x20) (rest : List Char) :
    stringRest? 0 ('\\' :: 'u' :: (fourDigits c.toNat).toList ++ rest) =
      (stringRest? 0 rest).map fun (cs, rest) => (c :: cs, rest) := by
  have hs : stringRest? 5 ('u' :: ((fourDigits c.toNat).toList ++ rest)) = stringRest? 0 rest := by
    simpa [(fourDigits_eq _ hc).1] using stringRest?_skip ('u' :: (fourDigits c.toNat).toList) rest
  rw [List.cons_append, List.cons_append, stringRest?]
  simp [codePoint?_fourDigits hc, hs]

theorem stringRest?_plain {c : Char} (hq : c ≠ '"') (hb : c ≠ '\\') (hc : ¬c.toNat < 0x20) (rest : List Char) :
    stringRest? 0 (c :: rest) = (stringRest? 0 rest).map fun (cs, rest) => (c :: cs, rest) := by
  rw [stringRest?.eq_def]
  simp [hq, hb, hc]

theorem stringRest?_escapedChar (c : Char) (rest : List Char) :
    stringRest? 0 ((escapedChar c).toList ++ rest) = (stringRest? 0 rest).map fun (cs, rest) => (c :: cs, rest) := by
  by_cases hq : c = '"'
  · subst hq
    exact stringRest?_named rfl rest
  by_cases hb : c = '\\'
  · subst hb
    exact stringRest?_named rfl rest
  by_cases hbs : c = '\x08'
  · subst hbs
    exact stringRest?_named rfl rest
  by_cases hff : c = '\x0c'
  · subst hff
    exact stringRest?_named rfl rest
  by_cases hn : c = '\n'
  · subst hn
    exact stringRest?_named rfl rest
  by_cases hr : c = '\r'
  · subst hr
    exact stringRest?_named rfl rest
  by_cases ht : c = '\t'
  · subst ht
    exact stringRest?_named rfl rest
  rw [escapedChar, if_neg hq, if_neg hb, if_neg hbs, if_neg hff, if_neg hn, if_neg hr, if_neg ht]
  by_cases hc : c.toNat < 0x20
  · rw [if_pos hc]
    simpa using stringRest?_control hc rest
  · rw [if_neg hc]
    simpa using stringRest?_plain hq hb hc rest

theorem stringRest?_escaped (cs rest : List Char) :
    stringRest? 0 ((String.join (cs.map escapedChar)).toList ++ '"' :: rest) = some (cs, rest) := by
  induction cs with
  | nil => simp [stringRest?]
  | cons c cs ih =>
      rw [List.map_cons, String.join_cons, String.toList_append, List.append_assoc, stringRest?_escapedChar, ih]
      rfl

theorem text?_escaped (s : String) (rest : List Char) :
    text? ((String.join (s.toList.map escapedChar)).toList ++ '"' :: rest) = some (s, rest) := by
  rw [text?, stringRest?_escaped]
  simp

/-! ### Values -/

variable {unit : String}

theorem isGap_newline (hu : ∀ c ∈ unit.toList, isGap c = true) (level : Nat) :
    ∀ c ∈ (newline unit level).toList, isGap c = true := by
  have hj : ∀ c ∈ (String.join (List.replicate level unit)).toList, isGap c = true := by
    simp only [String.toList_join, List.mem_flatMap]
    rintro c ⟨u, hm, hc⟩
    exact hu c (List.eq_of_mem_replicate hm ▸ hc)
  intro c hc
  rw [newline, String.toList_append, List.mem_append] at hc
  rcases hc with hc | hc
  · obtain rfl : c = '\n' := by simpa using hc
    rfl
  · exact hj c hc

theorem dropWhile_gap {g : List Char} (hg : ∀ c ∈ g, isGap c = true) {c : Char} (hc : isGap c = false) (rest : List Char) :
    (g ++ c :: rest).dropWhile isGap = c :: rest := by
  rw [List.dropWhile_append_of_pos hg, List.dropWhile_cons_of_neg (by simp [hc])]

theorem lines_eq_cons (unit : String) (level : Nat) (v : Json) :
    ∃ c rest, (lines unit level v).toList = c :: rest ∧ isGap c = false ∧ c ≠ ']' := by
  cases v with
  | bool b => cases b <;> simp [lines, isGap]
  | string s => simp [lines, quote, isGap]
  | array items => cases items <;> simp [lines, isGap]
  | object fields => cases fields <;> simp [lines, isGap]

theorem listed?_eq {g : List Char} (hg : ∀ c ∈ g, isGap c = true) {c d : Char} (hc : isGap c = false)
    (hne : c ≠ d) (read : List Char → Option (List α × List Char)) (rest : List Char) :
    listed? d read (g ++ c :: rest) = read (c :: rest) := by
  simp only [listed?, dropWhile_gap hg hc, if_neg hne]

theorem more?_close {g : List Char} (hg : ∀ c ∈ g, isGap c = true) {d : Char} (hc : isGap d = false)
    (read : List Char → Option (List α × List Char)) (a : α) (tail : List Char) :
    more? d read a (g ++ d :: tail) = some ([a], tail) := by
  simp only [more?, dropWhile_gap hg hc, if_true]

theorem more?_comma {d : Char} (hc : ',' ≠ d) {read : List Char → Option (List α × List Char)} {rest tail : List Char}
    {as : List α} (hr : read rest = some (as, tail)) (a : α) : more? d read a (',' :: rest) = some (a :: as, tail) := by
  have hd : (',' :: rest).dropWhile isGap = ',' :: rest := List.dropWhile_cons_of_neg (by decide)
  simp only [more?, hd, if_neg hc, if_true, hr, Option.map_some]

theorem key?_quote {g : List Char} (hg : ∀ c ∈ g, isGap c = true) (k : String) (rest : List Char) :
    key? (g ++ ((quote k).toList ++ ':' :: rest)) = some (k, rest) := by
  have hq : (quote k).toList ++ ':' :: rest =
      '"' :: ((String.join (k.toList.map escapedChar)).toList ++ '"' :: ':' :: rest) := by
    simp [quote]
  rw [hq, key?, dropWhile_gap hg (by decide)]
  simp only [text?_escaped, Option.bind_eq_bind, Option.bind_some]
  rfl

/-- Whatever blanks stand before it and whatever stands behind it, `v` is read back at every level. -/
def Reads (unit : String) (v : Json) : Prop :=
  ∀ (level fuel : Nat) (tail g : List Char), (lines unit level v).length ≤ fuel → (∀ c ∈ g, isGap c = true) →
    value? (fuel + 1) (g ++ ((lines unit level v).toList ++ tail)) = some (v.value, tail)

theorem reads_bool (unit : String) (b : Bool) : Reads unit (.bool b) := by
  intro level fuel tail g _ hg
  cases b with
  | true =>
      have hl : (lines unit level (.bool true)).toList ++ tail = 't' :: 'r' :: 'u' :: 'e' :: tail := by simp [lines]
      rw [hl, value?, dropWhile_gap hg (by decide)]
      rfl
  | false =>
      have hl : (lines unit level (.bool false)).toList ++ tail = 'f' :: 'a' :: 'l' :: 's' :: 'e' :: tail := by
        simp [lines]
      rw [hl, value?, dropWhile_gap hg (by decide)]
      rfl

theorem reads_string (unit : String) (s : String) : Reads unit (.string s) := by
  intro level fuel tail g _ hg
  have hl : (lines unit level (.string s)).toList ++ tail =
      '"' :: ((String.join (s.toList.map escapedChar)).toList ++ '"' :: tail) := by simp [lines, quote]
  rw [hl, value?, dropWhile_gap hg (by decide)]
  simp only [text?_escaped, Option.map_some, Json.value]

theorem items?_lines (hu : ∀ c ∈ unit.toList, isGap c = true) {v : Json} {rest : List Json}
    (h : ∀ w ∈ v :: rest, Reads unit w) (level fuel : Nat)
    (hf : (lines unit level v).length + (moreItems unit level rest).length < fuel) (tail : List Char)
    {g close : List Char} (hg : ∀ c ∈ g, isGap c = true) (hc : ∀ c ∈ close, isGap c = true) :
    items? (fuel + 1) (g ++ ((lines unit level v).toList ++
      ((moreItems unit level rest).toList ++ (close ++ ']' :: tail)))) = some (v.value :: values rest, tail) := by
  induction rest generalizing v fuel g with
  | nil =>
      obtain ⟨n, rfl⟩ : ∃ n, fuel = n + 1 := ⟨fuel - 1, by omega⟩
      have hv := h v (by simp) level n (close ++ ']' :: tail) g (by omega) hg
      rw [moreItems, String.toList_empty, List.nil_append, items?]
      simp only [hv, Option.bind_eq_bind, Option.bind_some]
      exact more?_close hc (by decide) _ _ _
  | cons w rest ih =>
      have hm : (moreItems unit level (w :: rest)).toList ++ (close ++ ']' :: tail) =
          ',' :: ((newline unit level).toList ++ ((lines unit level w).toList ++
            ((moreItems unit level rest).toList ++ (close ++ ']' :: tail)))) := by simp [moreItems]
      have hlen := congrArg List.length hm
      simp only [List.length_append, List.length_cons, String.length_toList] at hlen
      obtain ⟨n, rfl⟩ : ∃ n, fuel = n + 1 := ⟨fuel - 1, by omega⟩
      have hv := h v (by simp) level n ((moreItems unit level (w :: rest)).toList ++ (close ++ ']' :: tail)) g
        (by omega) hg
      have hr := ih (fun x hx => h x (List.mem_cons_of_mem v hx)) n (by omega) (isGap_newline hu level)
      rw [items?]
      simp only [hv, Option.bind_eq_bind, Option.bind_some]
      rw [hm]
      exact more?_comma (by decide) hr _

theorem reads_array (hu : ∀ c ∈ unit.toList, isGap c = true) {items : List Json} (h : ∀ v ∈ items, Reads unit v) :
    Reads unit (.array items) := by
  intro level fuel tail g hf hg
  cases items with
  | nil =>
      have hl : (lines unit level (.array [])).toList ++ tail = '[' :: ']' :: tail := by simp [lines]
      rw [hl, value?, dropWhile_gap hg (by decide)]
      rfl
  | cons v rest =>
      have hl : (lines unit level (.array (v :: rest))).toList ++ tail =
          '[' :: ((newline unit (level + 1)).toList ++ ((lines unit (level + 1) v).toList ++
            ((moreItems unit (level + 1) rest).toList ++ ((newline unit level).toList ++ ']' :: tail)))) := by
        simp [lines]
      have hlen := congrArg List.length hl
      simp only [List.length_append, List.length_cons, String.length_toList] at hlen
      obtain ⟨n, rfl⟩ : ∃ n, fuel = n + 1 := ⟨fuel - 1, by omega⟩
      have hi := items?_lines hu h (level + 1) n (by omega) tail (g := []) (by simp) (isGap_newline hu level)
      obtain ⟨c, text, hv, hc, hne⟩ := lines_eq_cons unit (level + 1) v
      rw [List.nil_append, hv, List.cons_append] at hi
      rw [hl, hv, List.cons_append, value?, dropWhile_gap hg (by decide)]
      simp only [listed?_eq (isGap_newline hu _) hc hne, hi]
      rfl

theorem fields?_lines (hu : ∀ c ∈ unit.toList, isGap c = true) {k : String} {v : Json} {rest : List (String × Json)}
    (h : ∀ f ∈ (k, v) :: rest, Reads unit f.2) (level fuel : Nat)
    (hf : (lines unit level v).length + (moreFields unit level rest).length < fuel) (tail : List Char)
    {g close : List Char} (hg : ∀ c ∈ g, isGap c = true) (hc : ∀ c ∈ close, isGap c = true) :
    fields? (fuel + 1) (g ++ ((quote k).toList ++ ':' :: ([' '] ++
      ((lines unit level v).toList ++ ((moreFields unit level rest).toList ++ (close ++ '}' :: tail)))))) =
      some ((k, v.value) :: valuesOf rest, tail) := by
  induction rest generalizing k v fuel g with
  | nil =>
      obtain ⟨n, rfl⟩ : ∃ n, fuel = n + 1 := ⟨fuel - 1, by omega⟩
      have hv : Reads unit v := h (k, v) (by simp)
      have hv := hv level n (close ++ '}' :: tail) [' '] (by omega) (by simp [isGap])
      rw [moreFields, String.toList_empty, List.nil_append, fields?]
      simp only [key?_quote hg, hv, Option.bind_eq_bind, Option.bind_some]
      exact more?_close hc (by decide) _ _ _
  | cons f rest ih =>
      obtain ⟨l, w⟩ := f
      have hm : (moreFields unit level ((l, w) :: rest)).toList ++ (close ++ '}' :: tail) =
          ',' :: ((newline unit level).toList ++ ((quote l).toList ++ ':' :: ([' '] ++ ((lines unit level w).toList ++
            ((moreFields unit level rest).toList ++ (close ++ '}' :: tail)))))) := by simp [moreFields]
      have hlen := congrArg List.length hm
      simp only [List.length_append, List.length_cons, String.length_toList] at hlen
      obtain ⟨n, rfl⟩ : ∃ n, fuel = n + 1 := ⟨fuel - 1, by omega⟩
      have hv : Reads unit v := h (k, v) (by simp)
      have hv := hv level n ((moreFields unit level ((l, w) :: rest)).toList ++ (close ++ '}' :: tail)) [' ']
        (by omega) (by simp [isGap])
      have hr := ih (fun x hx => h x (List.mem_cons_of_mem _ hx)) n (by omega) (isGap_newline hu level)
      rw [fields?]
      simp only [key?_quote hg, hv, Option.bind_eq_bind, Option.bind_some]
      rw [hm]
      exact more?_comma (by decide) hr _

theorem reads_object (hu : ∀ c ∈ unit.toList, isGap c = true) {fields : List (String × Json)}
    (h : ∀ f ∈ fields, Reads unit f.2) : Reads unit (.object fields) := by
  intro level fuel tail g hf hg
  cases fields with
  | nil =>
      have hl : (lines unit level (.object [])).toList ++ tail = '{' :: '}' :: tail := by simp [lines]
      rw [hl, value?, dropWhile_gap hg (by decide)]
      rfl
  | cons f rest =>
      obtain ⟨k, v⟩ := f
      have hl : (lines unit level (.object ((k, v) :: rest))).toList ++ tail =
          '{' :: ((newline unit (level + 1)).toList ++ ((quote k).toList ++ ':' :: ([' '] ++
            ((lines unit (level + 1) v).toList ++ ((moreFields unit (level + 1) rest).toList ++
              ((newline unit level).toList ++ '}' :: tail)))))) := by
        simp [lines]
      have hlen := congrArg List.length hl
      simp only [List.length_append, List.length_cons, String.length_toList] at hlen
      obtain ⟨n, rfl⟩ : ∃ n, fuel = n + 1 := ⟨fuel - 1, by omega⟩
      have hf := fields?_lines hu h (level + 1) n (by omega) tail (g := []) (by simp) (isGap_newline hu level)
      obtain ⟨text, hq⟩ : ∃ text, (quote k).toList = '"' :: text := by simp [quote]
      rw [List.nil_append, hq, List.cons_append] at hf
      rw [hl, hq, List.cons_append, value?, dropWhile_gap hg (by decide)]
      simp only [listed?_eq (isGap_newline hu _) (c := '"') (d := '}') (by decide) (by decide), hf]
      rfl

theorem reads (hu : ∀ c ∈ unit.toList, isGap c = true) : (v : Json) → Reads unit v
  | .bool b => reads_bool unit b
  | .string s => reads_string unit s
  | .array items => reads_array hu fun v _hv => reads hu v
  | .object fields => reads_object hu fun f _hf => reads hu f.2
termination_by v => sizeOf v
decreasing_by
  · have hl := List.sizeOf_lt_of_mem _hv
    simp only [Json.array.sizeOf_spec]
    omega
  · have hl := List.sizeOf_lt_of_mem _hf
    have hs : sizeOf f = 1 + sizeOf f.1 + sizeOf f.2 := rfl
    simp only [Json.object.sizeOf_spec]
    omega

theorem decode?_pretty (hu : ∀ c ∈ unit.toList, isGap c = true) (v : Json) : decode? (v.pretty unit) = some v.value := by
  have hv := reads hu v 0 (v.pretty unit).length [] [] (Nat.le_refl _) (by simp)
  rw [List.nil_append, List.append_nil] at hv
  rw [decode?]
  simp only [pretty] at hv ⊢
  rw [hv]
  rfl

end JsonText

end ArkRoutes.Data

/-! ### The route map -/

namespace ArkRoutes.Generation.RouteMap

open Data

def Item.value (i : Item) : Value :=
  .object [("name", .string i.name), ("pageSourceFile", .string i.pageSourceFile),
    ("buildFunction", .string i.buildFunction),
    ("data", .object [("moduleName", .string i.moduleName), ("login", .string i.login),
      ("hasParam", .string i.hasParam), ("paramName", .string i.paramName)])]

def fieldsAt? (keys : List String) : Value → Option (List Value)
  | .object fields => if fields.map Prod.fst = keys then some (fields.map Prod.snd) else none
  | _ => none

def Item.ofValue? (v : Value) : Option Item :=
  match fieldsAt? ["name", "pageSourceFile", "buildFunction", "data"] v with
  | some [.string name, .string pageSourceFile, .string buildFunction, data] =>
    match fieldsAt? ["moduleName", "login", "hasParam", "paramName"] data with
    | some [.string moduleName, .string login, .string hasParam, .string paramName] =>
      some ⟨name, pageSourceFile, buildFunction, moduleName, login, hasParam, paramName⟩
    | _ => none
  | _ => none

def read? (text : String) : Option (List Item) :=
  match (JsonText.decode? text).bind (fieldsAt? ["routerMap"]) with
  | some [.array items] => items.mapM Item.ofValue?
  | _ => none

theorem values_map_json (items : List Item) : Json.values (items.map Item.json) = items.map Item.value := by
  induction items with
  | nil => rfl
  | cons i items ih =>
      rw [List.map_cons, Json.values, ih]
      rfl

/-- A route map is an object with one key, under which its items stand in their order. -/
theorem decode?_text (items : List Item) :
    JsonText.decode? (text items) = some (.object [("routerMap", .array (items.map Item.value))]) := by
  have hd : JsonText.decode? (text items) = some (Json.object [("routerMap", .array (items.map Item.json))]).value :=
    JsonText.decode?_pretty (by simp [JsonText.isGap]) _
  rw [hd, ← values_map_json]
  rfl

theorem Item.ofValue?_value (i : Item) : Item.ofValue? i.value = some i := rfl

theorem mapM_ofValue? (items : List Item) : (items.map Item.value).mapM Item.ofValue? = some items := by
  induction items with
  | nil => rfl
  | cons i items ih =>
      rw [List.map_cons, List.mapM_cons, Item.ofValue?_value, ih]
      rfl

theorem read?_text (items : List Item) : read? (text items) = some items := by
  rw [read?, decode?_text]
  exact mapM_ofValue? items

theorem text_injective : Function.Injective text := by
  intro items items' h
  have hr := congrArg read? h
  rw [read?_text, read?_text] at hr
  exact Option.some.inj hr

/-- A route map decodes to its items, so no two route maps have the same text. -/
theorem text_decodes :
    (∀ items, JsonText.decode? (text items) = some (.object [("routerMap", .array (items.map Item.value))])) ∧
      Function.Injective text :=
  ⟨decode?_text, text_injective⟩

end ArkRoutes.Generation.RouteMap
