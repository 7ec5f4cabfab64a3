/-! Sets of code points, as tables. A table lists runs of consecutive code points, a row at a
time; the character properties beyond ASCII are such tables. -/

namespace ResourceQuery.Unicode

/-- A set of code points: rows of runs, each of which is given by its first and its last member.
-/
abbrev Table := List (List (Nat × Nat))

namespace Table

/-- Whether the code point lies in one of the runs. -/
def contains (table : Table) (code : Nat) : Bool :=
  table.any fun row => row.any fun run => decide (run.1 ≤ code) && decide (code ≤ run.2)

theorem contains_iff {table : Table} {code : Nat} :
    table.contains code = true ↔ ∃ row ∈ table, ∃ run ∈ row, run.1 ≤ code ∧ code ≤ run.2 := by
  simp [contains]

end Table

end ResourceQuery.Unicode
