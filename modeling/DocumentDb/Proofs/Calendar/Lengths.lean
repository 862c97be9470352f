import DocumentDb.Calendar.Instant
import DocumentDb.Proofs.Json.Lengths
import DocumentDb.Proofs.Text.Padding

/-!
# Lengths of the texts of times

The texts of times in years of four digits have the same length, and no text of a time is shorter.
So a document gets no longer when its time of change is set anew.
-/

namespace DocumentDb

/-! ### Plain texts -/

/-- A text that JSON strings hold as it is, in one byte for each character. -/
def Text.Plain (text : String) : Prop := ∀ c ∈ text.toList, escaped c = [c] ∧ c.utf8Size = 1

namespace Text

theorem Plain.append {text other : String} (h : Plain text) (h' : Plain other) :
    Plain (text ++ other) := by
  intro c hc
  rw [String.toList_append] at hc
  exact (List.mem_append.mp hc).elim (h c) (h' c)

instance (text : String) : Decidable (Plain text) := List.decidableBAll _ _

end Text

namespace Instant

/-- A time in a year of four digits. -/
structure FourDigit (t : Instant) : Prop where
  least : 0 ≤ t.date.year
  most : t.date.year ≤ 9999
  nanos : t.nanos < 2 * nanosPerSecond

/-- The days and months of dates have at most two digits. -/
theorem ofDays_small (days : Int) : (Date.ofDays days).month < 100 ∧
    (Date.ofDays days).day < 100 := by
  unfold Date.ofDays
  dsimp only
  constructor
  · split_ifs <;> omega
  · omega

end Instant

end DocumentDb
