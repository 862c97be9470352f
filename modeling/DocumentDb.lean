import DocumentDb.Json.Path
import DocumentDb.Main
import DocumentDb.Store.Memory
import DocumentDb.Proofs.Database.Conformity
import DocumentDb.Proofs.Database.Copies
import DocumentDb.Proofs.Database.Identity
import DocumentDb.Proofs.Database.Lists
import DocumentDb.Proofs.Query.Faults
import DocumentDb.Proofs.Store.Isolation
import DocumentDb.Proofs.Store.Refinement
import DocumentDb.Proofs.Document.Vetting
import DocumentDb.Proofs.Store.Sizes
import DocumentDb.Proofs.Database.Tracing
import DocumentDb.Proofs.Database.Capacity
import DocumentDb.Proofs.Database.Refusals
import DocumentDb.Proofs.Document.Paths
import DocumentDb.Proofs.Document.ReferenceLists
import DocumentDb.Proofs.Document.References
import DocumentDb.Proofs.Database.Removals
import DocumentDb.Proofs.Calendar.Lengths
import DocumentDb.Proofs.Document.Defaults
import DocumentDb.Proofs.Document.Patching
import DocumentDb.Proofs.Database.Closure
import DocumentDb.Proofs.Schema.Idempotence
import DocumentDb.Proofs.Document.ArrayRules
import DocumentDb.Proofs.Document.Spending
import DocumentDb.Proofs.Document.BackReferences
import DocumentDb.Proofs.Document.Origins
import DocumentDb.Proofs.Document.KeyedUpdates
import DocumentDb.Proofs.Query.Literals
import DocumentDb.Proofs.Database.ListEdits
import DocumentDb.Proofs.Database.TidyLists
import DocumentDb.Proofs.Query.Answers
import DocumentDb.Proofs.Query.Operators
import DocumentDb.Proofs.Query.Layouts
import DocumentDb.Proofs.Query.Projections
import DocumentDb.Proofs.Query.Populating
import DocumentDb.Proofs.Schema.Depth
import DocumentDb.Proofs.Calendar.TextOrder
import DocumentDb.Proofs.Store.Packing
import DocumentDb.Proofs.Store.ShardOrder
import DocumentDb.Proofs.Database.Deletions
import DocumentDb.Proofs.Document.EqualValues
import DocumentDb.Proofs.Command.TypedFilters
import DocumentDb.Proofs.Document.Counting
import DocumentDb.Proofs.Store.Upserts
