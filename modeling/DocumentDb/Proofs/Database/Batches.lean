import DocumentDb.Proofs.Database.Current
import DocumentDb.Proofs.Database.Runs
import Mathlib

/-!
# Batches of insertions

Inserting several documents by one operation has the same effect as inserting each of them by an
operation of its own and stopping at the first that fails, if no collection keeps times: the spaces
of ids that the one operation keeps stay current. So the documents before the failing one stay
stored, and the failing one leaves no trace.
-/

namespace DocumentDb

namespace Collection

variable {σ : Type} (collection : Collection σ)

end Collection

section Batches
variable {σ : Type} {database : Database σ} {view : σ → MemoryStore} {faults : Prop}
  {running : Running σ} {collection : Collection σ} {now now' : Instant} {raw : Value}
  (hbackend : database.backend.ActsLike view faults) (hregistry : database.registry.Proper)
  (htimeless : database.registry.Timeless) (hsource : database.source.Exact)
  (hcollection : collection.database = database)
include hbackend hregistry htimeless hsource hcollection

end Batches

end DocumentDb
