namespace ArkRoutes.Text

/-- A set of code points is the list of the points where membership changes, in ascending order. -/
def withinEdges (edges : List Nat) (n : Nat) : Bool := (edges.takeWhile (· ≤ n)).length % 2 == 1

end ArkRoutes.Text
