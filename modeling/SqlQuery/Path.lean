import SqlQuery.Error

/-!
Paths of tables, such as `schema.table`: at least one name, and no name empty.
-/

namespace SqlQuery

structure Path where
  segments : List String
  segments_ne_nil : segments ≠ []
  ne_empty_of_mem : ∀ segment ∈ segments, segment ≠ ""
  deriving DecidableEq, Repr

namespace Path

def ofSegments (segments : List String) : Except Error Path :=
  if h : segments ≠ [] ∧ ∀ segment ∈ segments, segment ≠ "" then
    .ok ⟨segments, h.1, h.2⟩
  else
    .error .emptyTablePath

def parse (dotted : String) : Except Error Path :=
  ofSegments ((dotted.toList.splitOn '.').map String.ofList)

/-- The last name, that of the table itself. -/
def name (path : Path) : String :=
  path.segments.getLast path.segments_ne_nil

def text (path : Path) : String :=
  ".".intercalate path.segments

end Path

end SqlQuery
