import DocumentDb.Proofs.Json.Equality

/-!
# Values up to the order of fields

`Value.Alike` relates values that differ in nothing but their numbers and the order of the fields of
objects, given which numbers may stand for each other. Over equal numbers these are the values that
are the same up to the order of fields, `Value.Reordered`.

* `KeysOnce.agrees_iff_alike`: comparing values decides which ones are alike.
* `Alike.imp`: another relation of the numbers that stand inside relates the values as well.
-/

namespace DocumentDb

namespace Value

/-- **Alike values**: arrays have alike items at the same places, and objects alike values at the
same keys. -/
inductive Alike (numbers : Number → Number → Prop) : Value → Value → Prop
  | null : Alike numbers .null .null
  | bool {b : Bool} : Alike numbers (.bool b) (.bool b)
  | number {m n : Number} (h : numbers m n) : Alike numbers (.number m) (.number n)
  | string {s : String} : Alike numbers (.string s) (.string s)
  | array {xs ys : List Value} (hlength : xs.length = ys.length)
      (h : ∀ (i : Nat) x y, xs[i]? = some x → ys[i]? = some y → Alike numbers x y) :
      Alike numbers (.array xs) (.array ys)
  | object {xs ys : List (String × Value)} (hkeys : (Object.keys xs).Perm (Object.keys ys))
      (h : ∀ key x y, Object.value? xs key = some x → Object.value? ys key = some y →
        Alike numbers x y) : Alike numbers (.object xs) (.object ys)

/-- **The same value**, up to the order of the fields of objects. -/
def Reordered : Value → Value → Prop := Alike (· = ·)

/-- Every number inside the value passes a test. -/
inductive Numbers (test : Number → Prop) : Value → Prop
  | null : Numbers test .null
  | bool {b : Bool} : Numbers test (.bool b)
  | number {n : Number} (h : test n) : Numbers test (.number n)
  | string {s : String} : Numbers test (.string s)
  | array {items : List Value} (h : ∀ item ∈ items, Numbers test item) : Numbers test (.array items)
  | object {fields : List (String × Value)} (h : ∀ field ∈ fields, Numbers test field.2) :
      Numbers test (.object fields)

section Numbers
variable {test : Number → Prop}

theorem numbers_number_iff {n : Number} : Numbers test (.number n) ↔ test n :=
  ⟨fun h => by cases h with | number h => exact h, .number⟩

theorem numbers_array_iff {items : List Value} :
    Numbers test (.array items) ↔ ∀ item ∈ items, Numbers test item :=
  ⟨fun h => by cases h with | array h => exact h, .array⟩

theorem numbers_object_iff {fields : Object} :
    Numbers test (.object fields) ↔ ∀ field ∈ fields, Numbers test field.2 :=
  ⟨fun h => by cases h with | object h => exact h, .object⟩

theorem numbers_of_forall (h : ∀ n, test n) (a : Value) : a.Numbers test := by
  induction a using inner_induction with
  | null => exact .null
  | bool => exact .bool
  | number n => exact .number (h n)
  | string => exact .string
  | array _ ih => exact .array ih
  | object _ ih => exact .object ih

end Numbers

section Alike
variable {a b : Value}

/-- **Comparing values decides which ones are alike.** -/
theorem KeysOnce.agrees_iff_alike {numbers : Number → Number → Bool} (ha : a.KeysOnce) :
    agrees numbers a b = true ↔ Alike (fun m n => numbers m n = true) a b := by
  induction ha generalizing b with
  | null =>
    constructor
    · intro h
      cases b with
      | null => exact .null
      | _ => simp [agrees] at h
    · rintro ⟨⟩
      rfl
  | bool =>
    constructor
    · intro h
      cases b with
      | bool =>
        obtain rfl := eq_of_beq h
        exact .bool
      | _ => simp [agrees] at h
    · rintro ⟨⟩
      exact beq_self_eq_true _
  | number =>
    constructor
    · intro h
      cases b with
      | number => exact .number h
      | _ => simp [agrees] at h
    · rintro ⟨⟩
      assumption
  | string =>
    constructor
    · intro h
      cases b with
      | string =>
        obtain rfl := eq_of_beq h
        exact .string
      | _ => simp [agrees] at h
    · rintro ⟨⟩
      exact beq_self_eq_true _
  | array _ ih =>
    constructor
    · intro h
      cases b with
      | array =>
        obtain ⟨hlength, hitems⟩ := List.forall₂_iff_get.mp (agrees_array_iff.mp h)
        refine .array hlength fun i x y hx hy => ?_
        obtain ⟨hi, rfl⟩ := List.getElem?_eq_some_iff.mp hx
        obtain ⟨hj, rfl⟩ := List.getElem?_eq_some_iff.mp hy
        exact (ih _ (List.getElem_mem hi)).mp (hitems i hi hj)
      | _ => simp [agrees] at h
    · intro h
      cases h with
      | array hlength hitems =>
        refine agrees_array_iff.mpr (List.forall₂_iff_get.mpr ⟨hlength, fun i hi hj => ?_⟩)
        exact (ih _ (List.getElem_mem hi)).mpr
          (hitems i _ _ (List.getElem?_eq_getElem hi) (List.getElem?_eq_getElem hj))
  | object hkeys _ ih =>
    constructor
    · intro h
      cases b with
      | object =>
        obtain ⟨hperm, hvalues⟩ := (agrees_object_iff_keys hkeys).mp h
        refine .object hperm fun key x y hx hy => ?_
        exact (ih _ (Object.mem_of_value? hx)).mp (hvalues key x y hx hy)
      | _ => simp [agrees] at h
    · intro h
      cases h with
      | object hperm hvalues =>
        refine (agrees_object_iff_keys hkeys).mpr ⟨hperm, fun key x y hx hy => ?_⟩
        exact (ih _ (Object.mem_of_value? hx)).mpr (hvalues key x y hx hy)

/-- **Values whose numbers are related in another way as well** are alike in that way. -/
theorem Alike.imp {numbers others : Number → Number → Prop} {left right : Number → Prop}
    (h : Alike numbers a b) (ha : a.Numbers left) (hb : b.Numbers right)
    (himp : ∀ m n, left m → right n → numbers m n → others m n) : Alike others a b := by
  induction h with
  | null => exact .null
  | bool => exact .bool
  | number h => exact .number (himp _ _ (numbers_number_iff.mp ha) (numbers_number_iff.mp hb) h)
  | string => exact .string
  | array hlength _ ih =>
    refine .array hlength fun i x y hx hy => ih i x y hx hy ?_ ?_
    · exact numbers_array_iff.mp ha x (List.mem_of_getElem? hx)
    · exact numbers_array_iff.mp hb y (List.mem_of_getElem? hy)
  | object hkeys _ ih =>
    refine .object hkeys fun key x y hx hy => ih key x y hx hy ?_ ?_
    · exact numbers_object_iff.mp ha _ (Object.mem_of_value? hx)
    · exact numbers_object_iff.mp hb _ (Object.mem_of_value? hy)

theorem alike_congr {numbers others : Number → Number → Prop} {left right : Number → Prop}
    (ha : a.Numbers left) (hb : b.Numbers right)
    (hiff : ∀ m n, left m → right n → (numbers m n ↔ others m n)) :
    Alike numbers a b ↔ Alike others a b :=
  ⟨fun h => h.imp ha hb fun m n hm hn => (hiff m n hm hn).mp,
    fun h => h.imp ha hb fun m n hm hn => (hiff m n hm hn).mpr⟩

theorem Alike.refl {numbers : Number → Number → Prop} (hnumbers : ∀ n, numbers n n) (a : Value) :
    Alike numbers a a := by
  induction a using inner_induction with
  | null => exact .null
  | bool => exact .bool
  | number n => exact .number (hnumbers n)
  | string => exact .string
  | array items ih =>
    refine .array rfl fun i x y hx hy => ?_
    obtain rfl : x = y := Option.some.inj (hx.symm.trans hy)
    exact ih x (List.mem_of_getElem? hx)
  | object fields ih =>
    refine .object (List.Perm.refl _) fun key x y hx hy => ?_
    obtain rfl : x = y := Option.some.inj (hx.symm.trans hy)
    exact ih _ (Object.mem_of_value? hx)

/-- Fields may stand in any order. -/
theorem reordered_of_perm {fields others : Object} (hkeys : (Object.keys fields).Nodup)
    (hperm : fields.Perm others) : Reordered (.object fields) (.object others) := by
  have hothers : (Object.keys fields).Perm (Object.keys others) := hperm.map _
  refine .object hothers fun key x y hx hy => ?_
  have hfound : Object.value? others key = some x :=
    Object.value?_of_mem (hothers.nodup hkeys) _ (hperm.subset (Object.mem_of_value? hx))
  obtain rfl : x = y := Option.some.inj (hfound.symm.trans hy)
  exact Alike.refl (fun _ => rfl) x

/-- The order of fields does not matter to equality. -/
theorem Reordered.same (ha : a.KeysOnce) (h : Reordered a b) : same a b = true := by
  refine ha.agrees_iff_alike.mpr (h.imp (numbers_of_forall (fun _ => trivial) a)
    (numbers_of_forall (fun _ => trivial) b) fun m n _ _ hmn => ?_)
  rw [hmn]
  exact Number.same_iff.mpr rfl

end Alike

end Value

end DocumentDb
