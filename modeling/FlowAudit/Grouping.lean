/-!
Grouping the members of a list by a key. Groups come in ascending order of their keys, and the
members of a group keep the order of the list.
-/
namespace FlowAudit

variable {κ α : Type} [Ord κ]

/-- Adds a member at the front of the group of its key, which is begun where there is none. -/
def insertGrouped (key : κ) (a : α) : List (κ × List α) → List (κ × List α)
  | [] => [(key, [a])]
  | (first, members) :: rest =>
    match compare key first with
    | .lt => (key, [a]) :: (first, members) :: rest
    | .eq => (first, a :: members) :: rest
    | .gt => (first, members) :: insertGrouped key a rest

/-- All groups of a list. -/
def groupBy (key : α → κ) (xs : List α) : List (κ × List α) :=
  xs.foldr (fun a groups => insertGrouped (key a) a groups) []

end FlowAudit
