namespace ArkRoutes.Text

def dropStart? : List Char → List Char → Option (List Char)
  | [], cs => some cs
  | _ :: _, [] => none
  | p :: ps, c :: cs => if p = c then dropStart? ps cs else none

def afterLead? (lead s : String) : Option String :=
  (dropStart? lead.toList s.toList).map String.ofList

def beforeTail? (tail s : String) : Option String :=
  (dropStart? tail.toList.reverse s.toList.reverse).map fun cs => String.ofList cs.reverse

def beginsWith (lead s : String) : Bool := (dropStart? lead.toList s.toList).isSome

def endsWith (tail s : String) : Bool := (dropStart? tail.toList.reverse s.toList.reverse).isSome

def occursIn (part : List Char) : List Char → Bool
  | [] => part.isEmpty
  | c :: cs => (dropStart? part (c :: cs)).isSome || occursIn part cs

def contains (s part : String) : Bool := occursIn part.toList s.toList

def withoutTrailingSlashes (s : String) : String :=
  String.ofList (s.toList.reverse.dropWhile (· == '/')).reverse

def splitAt (sep : Char) (s : String) : List String :=
  (s.toList.splitOn sep).map String.ofList

theorem dropStart?_eq_some_iff {p s r : List Char} : dropStart? p s = some r ↔ s = p ++ r := by
  induction p generalizing s with
  | nil => simp [dropStart?, eq_comm]
  | cons a p ih =>
    cases s with
    | nil => simp [dropStart?]
    | cons c s =>
      by_cases h : a = c
      · subst h; simp [dropStart?, ih]
      · simp [dropStart?, h]; intro h'; exact absurd h'.symm h

end ArkRoutes.Text
