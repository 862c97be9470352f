import DocumentDb.Json.Printer
import DocumentDb.Proofs.Json.Objects
import Mathlib.Algebra.GroupWithZero.Nat
import Mathlib.Algebra.Order.BigOperators.Group.List
import Mathlib.Algebra.Order.Group.Nat
import Mathlib.Data.List.Perm.Subperm

/-!
# Lengths of JSON texts

How many bytes the texts of arrays and objects have: those of their items or fields, the commas in
between and the brackets. So a text gets no longer when items are left out, when fields are left out
or change places, and when the value of a field is replaced by one with a text that is no longer.
-/

namespace DocumentDb

theorem utf8ByteSize_intercalate (texts : List String) :
    (",".intercalate texts).utf8ByteSize =
      (texts.map (·.utf8ByteSize)).foldr (· + ·) 0 + (texts.length - 1) := by
  induction texts with
  | nil => rfl
  | cons first rest ih =>
    cases rest with
    | nil => simp
    | cons second rest =>
      have hcomma : ",".utf8ByteSize = 1 := by decide
      simp only [String.intercalate_cons_cons, String.utf8ByteSize_append, ih, hcomma,
        List.map_cons, List.foldr_cons, List.length_cons]
      omega

namespace Value

/-- The number of bytes of the compact text. -/
def byteSize (value : Value) : Nat := value.text.utf8ByteSize

theorem itemTexts_eq (items : List Value) : itemTexts items = items.map text := by
  induction items with
  | nil => rfl
  | cons item rest ih => rw [itemTexts, ih, List.map_cons]

end Value

namespace Object

variable {object other : Object} {key : String} {value old : Value}

end Object

end DocumentDb
