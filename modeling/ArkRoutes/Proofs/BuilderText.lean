import Mathlib.Data.List.Basic
import Mathlib.Data.List.Induction
import ArkRoutes.Generation.Builder
import ArkRoutes.Proofs.Separation
import ArkRoutes.Source.Token.Scan

namespace ArkRoutes

namespace Text

def cut? (c : Char) (s : String) : Option (String × String) :=
  (s.toList.dropWhile (· != c)).tail?.map fun rest =>
    (String.ofList (s.toList.takeWhile (· != c)), String.ofList rest)

theorem cut?_append {c : Char} {a : String} (h : c ∉ a.toList) {m : String} (hm : m.toList = [c]) (b : String) :
    cut? c (a ++ m ++ b) = some (a, b) := by
  have ha : ∀ x ∈ a.toList, (x != c) = true := by
    intro x hx
    have hne : x ≠ c := fun he => h (he ▸ hx)
    simpa using hne
  simp [cut?, hm, List.dropWhile_append_of_pos ha, List.takeWhile_append_of_pos ha]

theorem afterLead?_append (lead s : String) : afterLead? lead (lead ++ s) = some s := by
  rw [afterLead?, dropStart?_eq_some_iff.mpr (String.toList_append (s := lead) (t := s))]
  simp

theorem beginsWith_append (lead s : String) : beginsWith lead (lead ++ s) = true := by
  rw [beginsWith, dropStart?_eq_some_iff.mpr (String.toList_append (s := lead) (t := s))]
  rfl

theorem append_of_afterLead? {lead s rest : String} (h : afterLead? lead s = some rest) : lead ++ rest = s := by
  rw [afterLead?, Option.map_eq_some_iff] at h
  obtain ⟨cs, hd, rfl⟩ := h
  rw [dropStart?_eq_some_iff] at hd
  exact String.toList_injective (by simp [hd])

theorem beforeTail?_append (s tail : String) : beforeTail? tail (s ++ tail) = some s := by
  have hr : (s ++ tail).toList.reverse = tail.toList.reverse ++ s.toList.reverse := by simp
  rw [beforeTail?, dropStart?_eq_some_iff.mpr hr]
  simp

theorem append_of_beforeTail? {s tail rest : String} (h : beforeTail? tail s = some rest) : rest ++ tail = s := by
  rw [beforeTail?, Option.map_eq_some_iff] at h
  obtain ⟨cs, hd, rfl⟩ := h
  rw [dropStart?_eq_some_iff] at hd
  exact String.toList_injective (List.reverse_injective (by simp [hd]))

theorem exists_of_beginsWith {lead s : String} (h : beginsWith lead s = true) : ∃ rest, s = lead ++ rest := by
  obtain ⟨r, hr⟩ := Option.isSome_iff_exists.mp h
  refine ⟨String.ofList r, ?_⟩
  rw [← String.toList_inj, dropStart?_eq_some_iff.mp hr]
  simp

theorem exists_of_endsWith {tail s : String} (h : endsWith tail s = true) : ∃ before, s = before ++ tail := by
  obtain ⟨r, hr⟩ := Option.isSome_iff_exists.mp h
  refine ⟨String.ofList r.reverse, ?_⟩
  rw [← String.toList_inj, ← List.reverse_inj, dropStart?_eq_some_iff.mp hr]
  simp

theorem endsWith_append (s tail : String) : endsWith tail (s ++ tail) = true := by
  rw [endsWith, Option.isSome_iff_exists]
  exact ⟨s.toList.reverse, dropStart?_eq_some_iff.mpr (by simp)⟩

theorem splitAt_join (ls : List String) :
    splitAt '\n' (String.join (ls.map (· ++ "\n"))) = ls.flatMap (splitAt '\n') ++ [""] := by
  induction ls with
  | nil => decide
  | cons l ls ih =>
      rw [List.map_cons, String.join_cons, splitAt_append rfl, ih, List.flatMap_cons, List.append_assoc]

def lines (s : String) : List String := (splitAt '\n' s).dropLast

theorem lines_joined (ls : List String) :
    lines (String.join (ls.map (· ++ "\n"))) = ls.flatMap (splitAt '\n') := by
  rw [lines, splitAt_join, List.dropLast_concat]

theorem lines_join {ls : List String} (h : ∀ l ∈ ls, '\n' ∉ l.toList) :
    lines (String.join (ls.map (· ++ "\n"))) = ls := by
  rw [lines_joined, List.flatMap_congr fun l hl => splitAt_of_not_mem (h l hl)]
  simp

/-- A name that ends where a blank, a comma, a bracket or the line does. -/
def IsWord (s : String) : Prop := s ≠ "\x7d" ∧ ∀ c ∈ [' ', ',', '(', ')', '\n'], c ∉ s.toList

theorem IsWord.not_mem {s : String} (h : IsWord s) {c : Char} (hc : c ∈ [' ', ',', '(', ')', '\n']) :
    c ∉ s.toList :=
  h.2 c hc

end Text

namespace Source

/-- The pieces of a literal up to the first quote that no backslash takes with it, and what follows this
quote. A backslash takes the character behind it. -/
def untilQuote? : List Char → Option (List Piece × List Char)
  | [] => none
  | '\\' :: c :: rest => (untilQuote? rest).map fun (pieces, rest) => (.escape ['\\', c] :: pieces, rest)
  | c :: rest =>
    if c = '\'' then some ([], rest)
    else (untilQuote? rest).map fun (pieces, rest) => (Token.addPlain c pieces, rest)

theorem value_addPlain (c : Char) (pieces : List Piece) :
    (Token.addPlain c pieces).flatMap Piece.value = c :: pieces.flatMap Piece.value := by
  unfold Token.addPlain
  split <;> rfl

end Source

namespace Generation.Builder

open Source

/-! ### The reader -/

structure Function where
  name : String
  parameter? : Option String
  component : String
  argument? : Option (String × String)
deriving DecidableEq

structure Registration where
  route : String
  function : String
  login : Bool
deriving DecidableEq

def inside? {α : Type} (read : String → Option α) (s : String) : Option (Option α) :=
  if s = "" then some none else (read s).map some

def parameter? (s : String) : Option String := Text.beforeTail? ": ESObject" s

def signature? (line : String) : Option (String × Option String) := do
  let (name, rest) ← Text.cut? '(' (← Text.afterLead? "export function " line)
  return (name, ← inside? parameter? (← Text.beforeTail? ") \x7b" rest))

def argument? (s : String) : Option (String × String) := do
  let (property, rest) ← Text.cut? ':' (← Text.beforeTail? " \x7d" (← Text.afterLead? "\x7b " s))
  return (property, ← Text.afterLead? " " rest)

def call? (line : String) : Option (String × Option (String × String)) := do
  let (component, rest) ← Text.cut? '(' (← Text.afterLead? "  " line)
  return (component, ← inside? argument? (← Text.beforeTail? ")" rest))

def function? : List String → Option Function
  | signature :: call :: closing :: _ => do
    let (name, parameter?) ← signature? signature
    let (component, argument?) ← call? call
    if closing = "\x7d" then return ⟨name, parameter?, component, argument?⟩ else none
  | _ => none

def functions : List String → List Function
  | [] => []
  | line :: rest => (if line = "@Builder" then function? rest else none).toList ++ functions rest

def literal? (s : String) : Option (String × String) :=
  (untilQuote? s.toList).map fun (pieces, rest) => (Piece.textOf pieces, String.ofList rest)

def flag? (s : String) : Option Bool := if s = "true" then some true else if s = "false" then some false else none

def registration? (line : String) : Option Registration := do
  let (route, rest) ← literal? (← Text.afterLead? "  AppRouterRegistry.register('" line)
  let (function, rest) ← Text.cut? ')' (← Text.afterLead? ", wrapBuilder(" rest)
  let login ← flag? (← Text.beforeTail? ");" (← Text.afterLead? ", " rest))
  return ⟨route, function, login⟩

def registrations (lines : List String) : List Registration := lines.filterMap registration?

/-! ### What the entries say -/

def Function.ofEntry (e : Entry) : Function where
  name := e.buildFunction
  parameter? := if e.hasParam then some e.paramName else none
  component := e.component
  argument? := if e.hasParam then some (e.paramName, e.paramName) else none

def Registration.ofEntry (e : Entry) : Registration := ⟨e.name, e.buildFunction, e.login⟩

structure IsLegible (e : Entry) : Prop where
  name : '\n' ∉ e.name.toList
  importPath : '\n' ∉ e.importPath.toList
  component : Text.IsWord e.component
  buildFunction : Text.IsWord e.buildFunction
  usable : e.isUsable = true

/-! ### Reading the lines of an entry -/

variable {e : Entry} {entries : List Entry}

/-- A parameter that is used consists of the characters of an identifier. -/
theorem not_mem_paramName (hu : e.isUsable = true) (hp : e.hasParam = true) {c : Char}
    (hc : (isIdentifierStart c || c.isDigit) = false) : c ∉ e.paramName.toList := by
  have hi : isIdentifier e.paramName = true := by simpa [Entry.isUsable, hp] using hu
  rw [isIdentifier] at hi
  intro hm
  cases hs : e.paramName.toList with
  | nil => simp [hs] at hm
  | cons first rest =>
      rw [hs] at hi hm
      simp only [Bool.and_eq_true, List.all_eq_true] at hi
      rcases List.mem_cons.mp hm with rfl | hm
      · simp [hi.1] at hc
      · simp [hi.2 c hm] at hc

theorem inside?_empty {α : Type} (read : String → Option α) : inside? read "" = some none := if_pos rfl

theorem inside?_of_ne {α : Type} {read : String → Option α} {s : String} {a : α} (hs : s ≠ "") (hr : read s = some a) :
    inside? read s = some (some a) := by
  rw [inside?, if_neg hs, hr]
  rfl

theorem signature?_eq {name inner : String} {parameter : Option String} (hn : '(' ∉ name.toList)
    (hi : inside? parameter? inner = some parameter) :
    signature? ("export function " ++ name ++ "(" ++ inner ++ ") \x7b") = some (name, parameter) := by
  unfold signature?
  have hl : "export function " ++ name ++ "(" ++ inner ++ ") \x7b" =
      "export function " ++ (name ++ "(" ++ (inner ++ ") \x7b")) := by simp only [String.append_assoc]
  rw [hl]
  simp only [Option.bind_eq_bind, Option.bind_some, Text.afterLead?_append, Text.cut?_append hn (m := "(") rfl,
    Text.beforeTail?_append, hi]
  rfl

theorem signature?_signatureLine (h : IsLegible e) :
    signature? (signatureLine e) = some (e.buildFunction, if e.hasParam then some e.paramName else none) := by
  unfold signatureLine
  refine signature?_eq (h.buildFunction.not_mem (by simp)) ?_
  cases e.hasParam with
  | false => exact inside?_empty _
  | true => exact inside?_of_ne (by simp) (Text.beforeTail?_append _ _)

theorem call?_eq {component inner : String} {argument : Option (String × String)} (hc : '(' ∉ component.toList)
    (hi : inside? argument? inner = some argument) :
    call? ("  " ++ component ++ "(" ++ inner ++ ")") = some (component, argument) := by
  unfold call?
  have hl : "  " ++ component ++ "(" ++ inner ++ ")" = "  " ++ (component ++ "(" ++ (inner ++ ")")) := by
    simp only [String.append_assoc]
  rw [hl]
  simp only [Option.bind_eq_bind, Option.bind_some, Text.afterLead?_append, Text.cut?_append hc (m := "(") rfl,
    Text.beforeTail?_append, hi]
  rfl

theorem argument?_eq {property : String} (hp : ':' ∉ property.toList) (value : String) :
    argument? ("\x7b " ++ property ++ ": " ++ value ++ " \x7d") = some (property, value) := by
  unfold argument?
  have hl : "\x7b " ++ property ++ ": " ++ value ++ " \x7d" =
      "\x7b " ++ (property ++ ":" ++ (" " ++ value) ++ " \x7d") := by
    have hs : ": " = ":" ++ " " := by decide
    rw [hs]
    simp only [String.append_assoc]
  rw [hl]
  simp only [Option.bind_eq_bind, Option.bind_some, Text.afterLead?_append, Text.beforeTail?_append,
    Text.cut?_append hp (m := ":") rfl]
  rfl

theorem call?_callLine (h : IsLegible e) :
    call? (callLine e) = some (e.component, if e.hasParam then some (e.paramName, e.paramName) else none) := by
  unfold callLine
  refine call?_eq (h.component.not_mem (by simp)) ?_
  cases hp : e.hasParam with
  | false => exact inside?_empty _
  | true => exact inside?_of_ne (by simp) (argument?_eq (not_mem_paramName h.usable hp (by decide)) _)

theorem function?_functionLines (h : IsLegible e) (rest : List String) :
    function? (signatureLine e :: callLine e :: "\x7d" :: rest) = some (Function.ofEntry e) := by
  unfold function?
  simp only [Option.bind_eq_bind, Option.bind_some, signature?_signatureLine h, call?_callLine h]
  rfl

def escapedPieces : List Char → List Piece
  | [] => []
  | c :: rest =>
    if c = '\\' || c = '\'' then .escape ['\\', c] :: escapedPieces rest else Token.addPlain c (escapedPieces rest)

theorem textOf_escapedPieces (s : String) : Piece.textOf (escapedPieces s.toList) = s := by
  have hv : ∀ cs : List Char, (escapedPieces cs).flatMap Piece.value = cs := by
    intro cs
    induction cs with
    | nil => rfl
    | cons c cs ih =>
        rw [escapedPieces]
        split
        next h =>
          simp only [Bool.or_eq_true, decide_eq_true_eq] at h
          rcases h with rfl | rfl <;> rw [List.flatMap_cons, ih] <;> rfl
        next h => rw [value_addPlain, ih]
  rw [Piece.textOf, hv, String.ofList_toList]

theorem untilQuote?_escaped (s rest : List Char) :
    untilQuote? (escaped s ++ '\'' :: rest) = some (escapedPieces s, rest) := by
  induction s with
  | nil => simp [escaped, untilQuote?, escapedPieces]
  | cons c s ih =>
      rw [escaped, escapedPieces]
      split
      next h => simp [untilQuote?, ih]
      next h =>
        simp only [Bool.or_eq_true, decide_eq_true_eq, not_or] at h
        rw [List.cons_append, untilQuote?]
        · simp [h.2, ih]
        · simp [h.1]

theorem literal?_escaped (s rest : String) :
    literal? (String.ofList (escaped s.toList) ++ "'" ++ rest) = some (s, rest) := by
  have hl : (String.ofList (escaped s.toList) ++ "'" ++ rest).toList = escaped s.toList ++ '\'' :: rest.toList := by
    simp
  rw [literal?, hl, untilQuote?_escaped]
  simp [textOf_escapedPieces]

theorem flag?_text (b : Bool) : flag? (if b then "true" else "false") = some b := by cases b <;> decide

theorem registration?_registerLine (h : IsLegible e) :
    registration? (registerLine e) = some (Registration.ofEntry e) := by
  unfold registerLine quoted registration?
  have hl : "  AppRouterRegistry.register(" ++ ("'" ++ String.ofList (escaped e.name.toList) ++ "'") ++
      ", wrapBuilder(" ++ e.buildFunction ++ "), " ++ (if e.login then "true" else "false") ++ ");" =
      "  AppRouterRegistry.register('" ++ (String.ofList (escaped e.name.toList) ++ "'" ++ (", wrapBuilder(" ++
        (e.buildFunction ++ ")" ++ (", " ++ ((if e.login then "true" else "false") ++ ");"))))) := by
    have hq : "  AppRouterRegistry.register('" = "  AppRouterRegistry.register(" ++ "'" := by decide
    have hs : "), " = ")" ++ ", " := by decide
    rw [hq, hs]
    simp only [String.append_assoc]
  rw [hl]
  simp only [Option.bind_eq_bind, Option.bind_some, Text.afterLead?_append, literal?_escaped,
    Text.beforeTail?_append, flag?_text, Text.cut?_append (h.buildFunction.not_mem (c := ')') (by simp)) (m := ")") rfl]
  rfl

/-! ### Reading all lines -/

theorem registration?_eq_none {line : String} (h : Text.afterLead? "  AppRouterRegistry.register('" line = none) :
    registration? line = none := by
  unfold registration?
  rw [h]
  rfl

theorem registration?_of_head? {line : String} (h : line.toList.head? ≠ some ' ') : registration? line = none := by
  refine registration?_eq_none (Option.eq_none_iff_forall_ne_some.mpr fun rest hr => h ?_)
  rw [← Text.append_of_afterLead? hr, String.toList_append]
  rfl

/-- A call hands over nothing or an object, never a literal. -/
theorem registration?_callLine (h : IsLegible e) : registration? (callLine e) = none := by
  refine registration?_eq_none (Option.eq_none_iff_forall_ne_some.mpr fun rest hr => ?_)
  have hl := Text.append_of_afterLead? hr
  unfold callLine at hl
  generalize hi : (if e.hasParam = true then "\x7b " ++ e.paramName ++ ": " ++ e.paramName ++ " \x7d" else "") = inner at hl
  have hl : "AppRouterRegistry.register" ++ "(" ++ ("'" ++ rest) = e.component ++ "(" ++ (inner ++ ")") := by
    have hs : "  AppRouterRegistry.register('" = "  " ++ ("AppRouterRegistry.register" ++ "(" ++ "'") := by decide
    rw [hs] at hl
    simpa only [String.append_assoc, String.append_right_inj] using hl
  have hc := congrArg (Text.cut? '(') hl
  rw [Text.cut?_append (by decide) rfl, Text.cut?_append (h.component.not_mem (by simp)) rfl] at hc
  have hr : "'" ++ rest = inner ++ ")" := by
    injection hc with hc
    injection hc
  have hh := congrArg (·.toList.head?) hr
  rw [← hi] at hh
  cases he : e.hasParam <;> simp [he] at hh

theorem functions_append {p : List String} (h : ∀ l ∈ p, l.toList.head? ≠ some '@') (rest : List String) :
    functions (p ++ rest) = functions rest := by
  induction p with
  | nil => rfl
  | cons l p ih =>
      have hl : l ≠ "@Builder" := fun he => h l (by simp) (by rw [he]; rfl)
      rw [List.cons_append, functions, if_neg hl, ih fun m hm => h m (by simp [hm])]
      rfl

theorem head?_importLine (names : List String) (path : String) :
    (importLine names path).toList.head? = some 'i' := by
  unfold importLine
  simp

theorem head?_signatureLine (e : Entry) : (signatureLine e).toList.head? = some 'e' := by
  unfold signatureLine
  simp

theorem head?_callLine (e : Entry) : (callLine e).toList.head? = some ' ' := by
  unfold callLine
  simp

theorem head?_registerLine (e : Entry) : (registerLine e).toList.head? = some ' ' := by
  unfold registerLine
  simp

theorem functions_functionLines (h : IsLegible e) (rest : List String) :
    functions (functionLines e ++ rest) = Function.ofEntry e :: functions rest := by
  have ht : functions ([signatureLine e, callLine e, "\x7d"] ++ rest) = functions rest :=
    functions_append (by simp [head?_signatureLine, head?_callLine]) rest
  calc functions (functionLines e ++ rest)
      = functions ("@Builder" :: signatureLine e :: callLine e :: "\x7d" :: rest) :=
        functions_append (p := [""]) (by simp) _
    _ = Function.ofEntry e :: functions ([signatureLine e, callLine e, "\x7d"] ++ rest) := by
        rw [functions, if_pos rfl, function?_functionLines h]
        rfl
    _ = Function.ofEntry e :: functions rest := by rw [ht]

theorem functions_flatMap (h : ∀ e ∈ entries, IsLegible e) (rest : List String) :
    functions (entries.flatMap functionLines ++ rest) = entries.map Function.ofEntry ++ functions rest := by
  induction entries with
  | nil => rfl
  | cons e entries ih =>
      rw [List.flatMap_cons, List.append_assoc, functions_functionLines (h e (by simp)),
        ih fun f hf => h f (by simp [hf])]
      rfl

theorem functions_lines (h : ∀ e ∈ entries, IsLegible e) (moduleName libName : String) :
    functions (lines moduleName libName entries) = entries.map Function.ofEntry := by
  have hr : functions (["", "export function registerRoutes(): void \x7b"] ++ entries.map registerLine ++ ["\x7d"]) =
      [] := by
    rw [← List.append_nil (_ ++ _), functions_append]
    · rfl
    · simp only [List.forall_mem_append, List.forall_mem_map, head?_registerLine]
      simp
  unfold lines
  rw [List.append_assoc, List.append_assoc, List.append_assoc, functions_append (by simp [head?_importLine]),
    functions_flatMap h, ← List.append_assoc ["", _], hr, List.append_nil]

theorem registrations_append (ls ms : List String) : registrations (ls ++ ms) = registrations ls ++ registrations ms :=
  List.filterMap_append

theorem registrations_of_head? {ls : List String} (h : ∀ l ∈ ls, l.toList.head? ≠ some ' ') : registrations ls = [] :=
  List.filterMap_eq_nil_iff.mpr fun l hl => registration?_of_head? (h l hl)

theorem registrations_flatMap (h : ∀ e ∈ entries, IsLegible e) : registrations (entries.flatMap functionLines) = [] := by
  refine List.filterMap_eq_nil_iff.mpr fun l hl => ?_
  obtain ⟨e, he, hl⟩ := List.mem_flatMap.mp hl
  by_cases hc : l = callLine e
  · rw [hc, registration?_callLine (h e he)]
  · have hl : l = "" ∨ l = "@Builder" ∨ l = signatureLine e ∨ l = "\x7d" := by
      simpa [functionLines, hc] using hl
    refine registration?_of_head? ?_
    rcases hl with rfl | rfl | rfl | rfl <;> simp [head?_signatureLine]

theorem registrations_map (h : ∀ e ∈ entries, IsLegible e) :
    registrations (entries.map registerLine) = entries.map Registration.ofEntry := by
  rw [registrations, List.filterMap_map, List.filterMap_eq_map_iff_forall_eq_some]
  exact fun e he => registration?_registerLine (h e he)

theorem registrations_lines (h : ∀ e ∈ entries, IsLegible e) (moduleName libName : String) :
    registrations (lines moduleName libName entries) = entries.map Registration.ofEntry := by
  unfold lines
  simp only [registrations_append, registrations_flatMap h, registrations_map h]
  rw [registrations_of_head?, registrations_of_head?, registrations_of_head?, registrations_of_head?]
  · simp
  · simp
  · simp
  · simp [head?_importLine]
  · simp [head?_importLine]

/-! ### What is imported -/

def importedFrom (is : List Import) : List String := is.flatMap Import.components

theorem mem_path_addImport {path component p : String} {is : List Import} :
    p ∈ (addImport path component is).map Import.path ↔ p ∈ is.map Import.path ∨ p = path := by
  induction is with
  | nil => simp [addImport]
  | cons i is ih =>
      rw [addImport]
      split
      · split <;> simp_all
      · rw [List.map_cons, List.mem_cons, ih]
        simp [or_assoc]

theorem mem_importedFrom_addImport {path component c : String} {is : List Import} :
    c ∈ importedFrom (addImport path component is) ↔ c ∈ importedFrom is ∨ c = component := by
  induction is with
  | nil => simp [addImport, importedFrom]
  | cons i is ih =>
      rw [addImport]
      split
      · split
        · simp_all [importedFrom]
        · simp [importedFrom, or_left_comm, or_comm]
      · simp only [importedFrom, List.flatMap_cons, List.mem_append] at ih ⊢
        rw [ih, or_assoc]

theorem imports_concat (entries : List Entry) (e : Entry) :
    imports (entries ++ [e]) = addImport e.importPath e.component (imports entries) := by
  simp [imports]

theorem mem_imports {f : List Import → List String} {g : Entry → String} (hn : f [] = [])
    (ha : ∀ (e : Entry) (is : List Import) (x : String),
      x ∈ f (addImport e.importPath e.component is) ↔ x ∈ f is ∨ x = g e) {x : String} :
    x ∈ f (imports entries) ↔ x ∈ entries.map g := by
  induction entries using List.reverseRecOn with
  | nil => simp [imports, hn]
  | append_singleton entries e ih => rw [imports_concat, ha, ih]; simp

theorem mem_path_imports {p : String} : p ∈ (imports entries).map Import.path ↔ p ∈ entries.map Entry.importPath :=
  mem_imports (f := List.map Import.path) rfl fun _ _ _ => mem_path_addImport

theorem mem_importedFrom_imports {c : String} : c ∈ importedFrom (imports entries) ↔ c ∈ entries.map Entry.component :=
  mem_imports (f := importedFrom) rfl fun _ _ _ => mem_importedFrom_addImport

/-! ### Line breaks -/

theorem not_mem_intercalate {c : Char} {sep : String} {names : List String} (hs : c ∉ sep.toList)
    (h : ∀ n ∈ names, c ∉ n.toList) : c ∉ (String.intercalate sep names).toList := by
  induction names with
  | nil => simp
  | cons n names ih =>
      have ih := ih fun m hm => h m (List.mem_cons_of_mem _ hm)
      by_cases he : names = []
      · simpa [he] using h n (by simp)
      · rw [String.intercalate_cons_of_ne_nil he]
        simp [h n (by simp), hs, ih, -String.toList_intercalate]

theorem not_mem_importLine {names : List String} {path : String} (hn : ∀ n ∈ names, '\n' ∉ n.toList)
    (hp : '\n' ∉ path.toList) : '\n' ∉ (importLine names path).toList := by
  have hi : '\n' ∉ (String.intercalate ", " names).toList := not_mem_intercalate (by decide) hn
  unfold importLine
  simp [hi, hp, -String.toList_intercalate]

theorem not_mem_escaped {s : List Char} (h : '\n' ∉ s) : '\n' ∉ escaped s := by
  induction s with
  | nil => simp [escaped]
  | cons c s ih =>
      have hc : '\n' ≠ c := fun he => h (List.mem_cons.mpr (.inl he))
      have ih := ih fun hm => h (List.mem_cons_of_mem _ hm)
      rw [escaped]
      split <;> simp [hc, ih]

theorem not_mem_functionLines (h : IsLegible e) : ∀ l ∈ functionLines e, '\n' ∉ l.toList := by
  have hp : e.hasParam = true → '\n' ∉ e.paramName.toList := fun hp => not_mem_paramName h.usable hp (by decide)
  have hs : '\n' ∉ (signatureLine e).toList := by
    unfold signatureLine
    cases he : e.hasParam <;> simp [h.buildFunction.not_mem, hp, he]
  have hc : '\n' ∉ (callLine e).toList := by
    unfold callLine
    cases he : e.hasParam <;> simp [h.component.not_mem, hp, he]
  simp [functionLines, hs, hc]

theorem not_mem_registerLine (h : IsLegible e) : '\n' ∉ (registerLine e).toList := by
  unfold registerLine quoted
  cases e.login <;> simp [not_mem_escaped h.name, h.buildFunction.not_mem]

theorem not_mem_lines {moduleName libName : String} (hm : '\n' ∉ moduleName.toList) (hn : '\n' ∉ libName.toList)
    (h : ∀ e ∈ entries, IsLegible e) : ∀ l ∈ lines moduleName libName entries, '\n' ∉ l.toList := by
  have hi : ∀ i ∈ imports entries, '\n' ∉ (importLine i.components i.path).toList := by
    intro i hi
    refine not_mem_importLine (fun c hc => ?_) ?_
    · have hc : c ∈ importedFrom (imports entries) := List.mem_flatMap.mpr ⟨i, hi, hc⟩
      obtain ⟨e, he, rfl⟩ := List.mem_map.mp (mem_importedFrom_imports.mp hc)
      exact (h e he).component.not_mem (by simp)
    · obtain ⟨e, he, hp⟩ := List.mem_map.mp (mem_path_imports.mp (List.mem_map_of_mem hi))
      exact hp ▸ (h e he).importPath
  intro l hl
  unfold lines at hl
  simp only [List.mem_append, List.mem_cons, List.mem_map, List.mem_flatMap, List.not_mem_nil, or_false] at hl
  rcases hl with (((((rfl | rfl) | ⟨i, him, rfl⟩) | ⟨e, he, hl⟩) | rfl | rfl) | ⟨e, he, rfl⟩) | rfl
  · simp [hm]
  · exact not_mem_importLine (by decide) hn
  · exact hi i him
  · exact not_mem_functionLines (h e he) l hl
  · simp
  · simp
  · exact not_mem_registerLine (h e he)
  · simp

theorem lines_text {moduleName libName : String} (hm : '\n' ∉ moduleName.toList) (hn : '\n' ∉ libName.toList)
    (h : ∀ e ∈ entries, IsLegible e) : Text.lines (text moduleName libName entries) = lines moduleName libName entries :=
  Text.lines_join (not_mem_lines hm hn h)

end Generation.Builder

end ArkRoutes
