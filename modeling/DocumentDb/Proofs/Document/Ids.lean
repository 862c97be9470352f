import DocumentDb.Document.RandomId
import DocumentDb.Proofs.Schema.Proper

/-!
# Ids and their spaces

An id is admitted by a rule if it is of its kind and within its bounds. Generating and claiming take
the same step, `IdSpace.claimed`, for an admitted id that was not in use; they differ in where the
id comes from. In a space whose numbers are at most its counter, the next number is never in use.
-/

namespace DocumentDb

/-- A source gives texts of the length that is asked for. -/
def IdSource.Exact (source : IdSource) : Prop :=
  ∀ drawn length, (source drawn length).length = length

theorem IdSource.ofBytes_exact (pool : ByteArray) : (IdSource.ofBytes pool).Exact := by
  intro drawn length
  simp [IdSource.ofBytes]

/-- An id of the kind of a rule and within its bounds. -/
def IdRule.Admits : IdRule → DocId → Prop
  | incr most, .number n => 0 < n ∧ n ≤ most
  | uid least most, .text s => least ≤ s.length ∧ s.length ≤ most
  | _, _ => False

instance (rule : IdRule) (id : DocId) : Decidable (rule.Admits id) := by
  unfold IdRule.Admits
  split <;> infer_instance

/-- Admitted ids are valid ids of documents. -/
theorem IdRule.Admits.valid {rule : IdRule} {id : DocId} (h : rule.Admits id)
    (hrule : rule.Proper) : DocId.ofValue? id.toValue = some id := by
  cases rule with
  | incr most =>
    cases id with
    | number n => exact DocId.ofValue?_toValue_number h.1
    | text s => cases h
  | uid least most =>
    cases id with
    | number n => cases h
    | text s => exact DocId.ofValue?_toValue_text (Nat.lt_of_lt_of_le hrule.1 h.1)

/-- The ids of a counter are the positive numbers up to its maximum. -/
theorem IdRule.admits_incr_iff {most : Nat} {id : DocId} :
    (IdRule.incr most).Admits id ↔ ∃ n, id = .number n ∧ 0 < n ∧ n ≤ most := by
  cases id with
  | number n => simp [IdRule.Admits]
  | text s => simp [IdRule.Admits]

namespace IdSpace

variable {space after : IdSpace} {field : String} {value : Value} {id : DocId}

/-- All numbers in use are at most the counter. -/
def Numbered (space : IdSpace) : Prop := ∀ n, DocId.number n ∈ space.ids → n ≤ space.count

/-- What an id in a space is taken by: admitted by the rule, not in use before, in use then. -/
structure Takes (space : IdSpace) (id : DocId) (after : IdSpace) : Prop where
  admits : space.rule.Admits id
  unused : id ∉ space.ids
  after_eq : after = space.claimed id

theorem cast_ok (h : space.cast field value = .ok id) :
    value = id.toValue ∧ space.rule.Admits id := by
  unfold IdSpace.cast at h
  cases hrule : space.rule with
  | incr most =>
    rw [hrule] at h
    simp only at h
    split at h
    · next n hn =>
      split_ifs at h with hmost
      cases h
      refine ⟨DocId.eq_toValue ?_, by simp [IdRule.Admits]; omega⟩
      cases value with
      | number number =>
        change number.toNat? = some (n + 1) at hn
        simp [DocId.ofValue?, hn]
      | _ => cases hn
    · cases h
  | uid least most =>
    rw [hrule] at h
    simp only at h
    split at h
    · split_ifs at h with hlength
      cases h
      simp only [Bool.or_eq_true, decide_eq_true_eq, not_or, Nat.not_lt] at hlength
      exact ⟨rfl, hlength⟩
    · cases h

/-- The value of an admitted id stands for it. -/
theorem cast_toValue (h : space.rule.Admits id) : space.cast field id.toValue = .ok id := by
  unfold IdSpace.cast
  cases hrule : space.rule with
  | incr most =>
    rw [hrule] at h
    cases id with
    | text s => cases h
    | number n =>
      obtain ⟨hpositive, hmost⟩ := h
      obtain ⟨m, rfl⟩ : ∃ m, n = m + 1 := ⟨n - 1, by omega⟩
      have hvalue : (DocId.number (m + 1)).toValue.toNat? = some (m + 1) := by
        simp [DocId.toValue, Value.ofNat, Value.toNat?, Number.toNat?]
        omega
      dsimp only
      rw [hvalue]
      dsimp only
      rw [if_neg (by omega)]
  | uid least most =>
    rw [hrule] at h
    cases id with
    | number n => cases h
    | text s =>
      obtain ⟨hleast, hmost⟩ := h
      have hlength : (decide (s.length < least) || decide (most < s.length)) = false := by
        simp
        omega
      dsimp only [DocId.toValue]
      rw [hlength, if_neg Bool.false_ne_true]

theorem cast_noReuse : NoReuse (space.cast field value) := by
  unfold IdSpace.cast
  intro e h
  split at h
  · split at h
    · split_ifs at h
      · cases h; intro hreuse; cases hreuse
    · cases h; intro hreuse; cases hreuse
  · split at h
    · split_ifs at h
      · cases h; intro hreuse; cases hreuse
    · cases h; intro hreuse; cases hreuse

theorem contains_iff : space.contains id = true ↔ id ∈ space.ids := List.contains_iff_mem

theorem existing_ok (h : space.existing field value = .ok id) :
    value = id.toValue ∧ space.rule.Admits id ∧ id ∈ space.ids := by
  unfold IdSpace.existing at h
  obtain ⟨cast, hcast, h⟩ := bind_ok_iff.mp h
  split_ifs at h with hin
  cases h
  exact ⟨(cast_ok hcast).1, (cast_ok hcast).2, contains_iff.mp hin⟩

theorem existing_noReuse : NoReuse (space.existing field value) := by
  unfold IdSpace.existing
  refine cast_noReuse.bind fun id => ?_
  split_ifs
  · exact noReuse_pure
  · exact noReuse_error (by rintro ⟨⟩)

theorem claim_ok (h : space.claim field value = .ok (id, after)) :
    value = id.toValue ∧ space.Takes id after := by
  unfold IdSpace.claim IdSpace.unused at h
  obtain ⟨claimed, hunused, h⟩ := bind_ok_iff.mp h
  obtain ⟨cast, hcast, hunused⟩ := bind_ok_iff.mp hunused
  split_ifs at hunused with hin
  cases hunused
  cases h
  exact ⟨(cast_ok hcast).1, (cast_ok hcast).2, fun h => hin (contains_iff.mpr h), rfl⟩

theorem claim_ok_iff :
    space.claim field value = .ok (id, after) ↔ value = id.toValue ∧ space.Takes id after := by
  constructor
  · exact claim_ok
  · rintro ⟨rfl, hadmits, hunused, rfl⟩
    have hcontains : ¬ space.contains id = true := fun h => hunused (contains_iff.mp h)
    unfold IdSpace.claim IdSpace.unused
    rw [cast_toValue hadmits]
    simp only [bind, Except.bind]
    rw [if_neg hcontains]
    rfl

theorem claim_noReuse : NoReuse (space.claim field value) := by
  unfold IdSpace.claim IdSpace.unused
  refine NoReuse.bind (cast_noReuse.bind fun id => ?_) fun _ => noReuse_pure
  split_ifs
  · exact noReuse_error (by rintro ⟨⟩)
  · exact noReuse_pure

/-- The next number is the one behind the counter. -/
theorem generateNumber_ok {most : Nat} (hrule : space.rule = .incr most)
    (h : space.generateNumber most = .ok (id, after)) :
    space.Takes id after ∧ id = .number (space.count + 1) := by
  unfold IdSpace.generateNumber at h
  dsimp only at h
  split_ifs at h with hmost hin
  cases h
  refine ⟨⟨?_, fun h => hin (contains_iff.mpr h), ?_⟩, rfl⟩
  · rw [hrule]
    simp [IdRule.Admits]
    omega
  · simp [IdSpace.claimed]

/-- In a numbered space there is a next number as long as the counter is below its maximum. -/
theorem generateNumber_eq {most : Nat} (hnumbered : space.Numbered) :
    space.generateNumber most =
      if space.count + 1 ≤ most then
        .ok (.number (space.count + 1), space.claimed (.number (space.count + 1)))
      else .error (.capacity (.idsExhausted space.collection most)) := by
  have hunused : ¬ space.contains (.number (space.count + 1)) = true := by
    intro h
    have := hnumbered _ (contains_iff.mp h)
    omega
  unfold IdSpace.generateNumber
  dsimp only
  by_cases hmost : space.count + 1 ≤ most
  · rw [if_neg (Nat.not_lt.mpr hmost), if_neg hunused, if_pos hmost, IdSpace.claimed,
      Nat.max_eq_right (Nat.le_succ _)]
  · rw [if_pos (Nat.not_le.mp hmost), if_neg hmost]

/-- In a numbered space the next number is never in use. -/
theorem generateNumber_noReuse {most : Nat} (h : space.Numbered) :
    NoReuse (space.generateNumber most) := by
  rw [generateNumber_eq h]
  split_ifs
  · exact noReuse_ok
  · exact noReuse_error (by rintro ⟨⟩)

theorem uidLength_bounds {least most : Nat} (h : least ≤ most) :
    least ≤ uidLength least most ∧ uidLength least most ≤ most := by
  unfold uidLength
  omega

theorem generateText_ok {source : IdSource} (hsource : source.Exact) {least most : Nat}
    (hrule : space.rule = .uid least most) (hbounds : least ≤ most) {tries drawn drawn' : Nat}
    (h : space.generateText source (uidLength least most) tries drawn =
      (.ok (id, after), drawn')) :
    space.Takes id after ∧ ∃ s, id = .text s := by
  induction tries generalizing drawn with
  | zero => simp [IdSpace.generateText] at h
  | succ tries ih =>
    simp only [IdSpace.generateText] at h
    split_ifs at h with hin
    · exact ih h
    · cases h
      refine ⟨⟨?_, fun h => hin (contains_iff.mpr h), rfl⟩, _, rfl⟩
      rw [hrule]
      simp only [IdRule.Admits, hsource drawn _]
      exact uidLength_bounds hbounds

theorem generateText_noReuse {source : IdSource} {length tries drawn : Nat} :
    NoReuse (space.generateText source length tries drawn).1 := by
  induction tries generalizing drawn with
  | zero => exact noReuse_error (by rintro ⟨⟩)
  | succ tries ih =>
    simp only [IdSpace.generateText]
    split_ifs
    · exact ih
    · exact noReuse_ok

/-- **A generated id** is an unused one; if it is a number, it is the one behind the counter. -/
theorem generate_ok {source : IdSource} (hsource : source.Exact) (hrule : space.rule.Proper)
    {drawn : Nat} (h : (space.generate source drawn).1 = .ok (id, after)) :
    space.Takes id after ∧ ∀ n, id = .number n → n = space.count + 1 := by
  unfold IdSpace.generate at h
  cases heq : space.rule with
  | incr most =>
    rw [heq] at h
    obtain ⟨htakes, hid⟩ := generateNumber_ok heq h
    exact ⟨htakes, fun n hn => by rw [hid] at hn; cases hn; rfl⟩
  | uid least most =>
    rw [heq] at h hrule
    obtain ⟨htakes, s, hid⟩ := generateText_ok hsource heq hrule.2 (Prod.ext h rfl)
    exact ⟨htakes, fun n hn => by rw [hid] at hn; cases hn⟩

theorem generate_noReuse {source : IdSource} (h : space.Numbered) {drawn : Nat} :
    NoReuse (space.generate source drawn).1 := by
  unfold IdSpace.generate
  split
  · exact generateNumber_noReuse h
  · exact generateText_noReuse

/-! ### Taking an id -/

@[simp] theorem claimed_collection : (space.claimed id).collection = space.collection := by
  cases id <;> rfl

@[simp] theorem claimed_rule : (space.claimed id).rule = space.rule := by
  cases id <;> rfl

@[simp] theorem claimed_recorded : (space.claimed id).recorded = space.recorded := by
  cases id <;> rfl

@[simp] theorem claimed_ids : (space.claimed id).ids = id :: space.ids := by
  cases id <;> rfl

@[simp] theorem claimed_shardMax : (space.claimed id).shardMax = space.shardMax := by
  cases id <;> rfl

/-- All but the ids and the counter stays when an id is generated, whatever the source is. -/
theorem generate_keeps {source : IdSource} {drawn : Nat}
    (h : (space.generate source drawn).1 = .ok (id, after)) :
    after.collection = space.collection ∧ after.rule = space.rule ∧
      after.shardMax = space.shardMax := by
  have htext : ∀ length tries drawn,
      (space.generateText source length tries drawn).1 = .ok (id, after) →
        after.collection = space.collection ∧ after.rule = space.rule ∧
          after.shardMax = space.shardMax := by
    intro length tries
    induction tries with
    | zero => intro drawn h; cases h
    | succ tries ih =>
      intro drawn h
      simp only [IdSpace.generateText] at h
      split_ifs at h
      · exact ih _ h
      · cases h
        exact ⟨rfl, rfl, rfl⟩
  unfold IdSpace.generate at h
  split at h
  · unfold IdSpace.generateNumber at h
    dsimp only at h
    split_ifs at h
    cases h
    exact ⟨rfl, rfl, rfl⟩
  · exact htext _ _ _ h

theorem count_le_claimed : space.count ≤ (space.claimed id).count := by
  cases id with
  | number n => exact Nat.le_max_left _ _
  | text s => exact Nat.le_refl _

/-- Taking an id keeps the numbers in use at most the counter. -/
theorem Numbered.claimed (h : space.Numbered) : (space.claimed id).Numbered := by
  intro n hn
  rw [claimed_ids] at hn
  rcases List.mem_cons.mp hn with heq | hin
  · rw [← heq]; exact Nat.le_max_right _ _
  · exact Nat.le_trans (h n hin) count_le_claimed

theorem checkReference_ok {built : Value}
    (h : space.checkReference field value = .ok built) :
    ∃ id, built = reference space.collection id ∧ space.rule.Admits id ∧ id ∈ space.ids ∧
      value.field? refKey = some id.toValue := by
  unfold IdSpace.checkReference at h
  split at h
  · split at h
    · next hid =>
      split at h
      · split_ifs at h
        obtain ⟨id, hexisting, h⟩ := bind_ok_iff.mp h
        cases h
        obtain ⟨rfl, hadmits, hin⟩ := existing_ok hexisting
        exact ⟨id, rfl, hadmits, hin, hid⟩
      · cases h
    · cases h
  · cases h

theorem checkReference_noReuse : NoReuse (space.checkReference field value) := by
  unfold IdSpace.checkReference
  split
  · split
    · split
      · split_ifs
        · exact existing_noReuse.bind fun _ => noReuse_pure
        · exact noReuse_error (by rintro ⟨⟩)
      · exact noReuse_error (by rintro ⟨⟩)
    · exact noReuse_error (by rintro ⟨⟩)
  · exact noReuse_error (by rintro ⟨⟩)

end IdSpace

end DocumentDb
