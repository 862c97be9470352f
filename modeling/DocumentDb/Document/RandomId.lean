import DocumentDb.Document.IdSpace

/-!
# Random ids

Random ids are words over 64 letters, drawn from a pool of random bytes.
-/

namespace DocumentDb

/-- The letters of random ids. -/
def idLetters : String := "_-0123456789abcdefghijklmnopqrstuvwxyzABCDEFGHIJKLMNOPQRSTUVWXYZ"

/-- The letter of a byte. -/
def letterOf (byte : UInt8) : Char := (idLetters.toList[byte.toNat % 64]?).getD '_'

/-- The source that reads its texts one behind the other from a pool, which begins anew at its
end. -/
def IdSource.ofBytes (pool : ByteArray) : IdSource := fun drawn length =>
  String.ofList ((List.range length).map fun place =>
    letterOf ((pool[(drawn * length + place) % pool.size]?).getD 0))

end DocumentDb
