import DocumentDb.Proofs.Schema.Allowed

/-!
# What casting yields

Casting checks one rule after the other and names the field in its errors. Whether it succeeds, and
what it then yields, depends on the rules only: `Rules.Casts` says so value by value, and
`Rules.cast_ok_iff` that this is what casting does, under the name of any field.
-/

namespace DocumentDb

/-- A check and then another step. -/
theorem bind_unit_ok_iff {α : Type} {first : Except Error Unit} {next : Except Error α} {a : α} :
    (first >>= fun _ => next) = .ok a ↔ first = .ok () ∧ next = .ok a := by
  rw [bind_ok_iff]
  exact ⟨fun ⟨_, hfirst, hnext⟩ => ⟨hfirst, hnext⟩, fun ⟨hfirst, hnext⟩ => ⟨(), hfirst, hnext⟩⟩

namespace Rules

variable {rules : Rules} {field : String}

/-- The number is within the bounds. -/
structure AllowsNumber (rules : Rules) (x : Finite) : Prop where
  least : ∀ least, rules.least = some least → x.order least ≠ .lt
  most : ∀ most, rules.most = some most → x.order most ≠ .gt

/-- The time is later than one bound and earlier than the other. -/
structure AllowsTime (rules : Rules) (t : Instant) : Prop where
  after : ∀ bound, rules.startsAfter = some bound → bound.before t = true
  before : ∀ bound, rules.startsBefore = some bound → t.before bound = true

/-- The value is accepted by `anyOf`, if there is one. -/
def Accepts (rules : Rules) (value : Value) : Prop :=
  ∀ choices, rules.choices = some choices → ∃ choice ∈ choices, choice.accepts value = true

/-- **What a value becomes**, if the rules allow it. -/
inductive Casts (rules : Rules) : ScalarKind → Value → Value → Prop
  | null {kind : ScalarKind} (hrequired : rules.required = false)
    (hchoices : kind = .any → rules.Accepts .null) : Casts rules kind .null .null
  | string {text : String} (hlength : rules.AllowsLength (rules.transform text).length)
    (hlisted : rules.Lists (.string (rules.transform text)))
    (hpattern : rules.Matches (rules.transform text)) :
    Casts rules .string (.string text) (.string (rules.transform text))
  | number {n : Number} (hbounds : rules.AllowsNumber n.toFinite)
    (hlisted : rules.Lists (.number n)) (hpattern : rules.Matches n.text) :
    Casts rules .number (.number n) (.number n)
  | boolean {b : Bool} : Casts rules .boolean (.bool b) (.bool b)
  | date {text : String} {t : Instant} (hread : Calendar.readInstant? text = some t)
    (hbounds : rules.AllowsTime t) : Casts rules .date (.string text) (.string t.text)
  | any {value : Value} (hnull : value ≠ .null) (hchoices : rules.Accepts value) :
    Casts rules .any value value

/-! ### Single checks -/

theorem check_ok_iff {α : Type} {bound : Option α} {exceeded : α → Bool}
    {violation : α → Violation} : check field bound exceeded violation = .ok () ↔
      ∀ limit, bound = some limit → exceeded limit = false := by
  refine ⟨check_ok, fun h => ?_⟩
  unfold check
  split
  · next limit => rw [h limit rfl]; rfl
  · rfl

theorem checkListed_ok_iff {value : Value} :
    rules.checkListed field value = .ok () ↔ rules.Lists value := by
  refine ⟨checkListed_ok, fun h => check_ok_iff.mpr fun listed hlisted => ?_⟩
  simpa using h listed hlisted

theorem checkPattern_ok_iff {text shown : String} :
    rules.checkPattern field text shown = .ok () ↔ rules.Matches text := by
  refine ⟨checkPattern_ok, fun h => check_ok_iff.mpr fun pattern hpattern => ?_⟩
  simpa using h pattern hpattern

theorem checkChoices_ok_iff {value : Value} :
    rules.checkChoices field value = .ok () ↔ rules.Accepts value := by
  unfold checkChoices Accepts
  rw [check_ok_iff]
  simp

/-- The bounds of a length are checked one after the other. -/
theorem checkLength_ok_iff {length : Nat} {short long : Nat → Violation} :
    check field rules.minLength (length < ·) short = .ok () ∧
      check field rules.maxLength (· < length) long = .ok () ↔ rules.AllowsLength length := by
  rw [check_ok_iff, check_ok_iff]
  refine ⟨fun h => ⟨fun least hleast => ?_, fun most hmost => ?_⟩, fun h => ⟨?_, ?_⟩⟩
  · simpa using h.1 least hleast
  · simpa using h.2 most hmost
  · exact fun least hleast => by simpa using h.least least hleast
  · exact fun most hmost => by simpa using h.most most hmost

/-! ### Values -/

theorem castString_ok_iff {raw : String} {built : Value} :
    rules.castString field raw = .ok built ↔ rules.AllowsLength (rules.transform raw).length ∧
      rules.Lists (.string (rules.transform raw)) ∧ rules.Matches (rules.transform raw) ∧
        .string (rules.transform raw) = built := by
  unfold castString
  dsimp only
  rw [bind_unit_ok_iff, bind_unit_ok_iff, bind_unit_ok_iff, bind_unit_ok_iff, ← and_assoc,
    checkLength_ok_iff, checkListed_ok_iff, checkPattern_ok_iff]
  simp [pure, Except.pure]

theorem castNumber_ok_iff {n : Number} {built : Value} :
    rules.castNumber field n = .ok built ↔ rules.AllowsNumber n.toFinite ∧
      rules.Lists (.number n) ∧ rules.Matches n.text ∧ .number n = built := by
  unfold castNumber
  dsimp only
  rw [bind_unit_ok_iff, bind_unit_ok_iff, bind_unit_ok_iff, bind_unit_ok_iff, checkListed_ok_iff,
    checkPattern_ok_iff, check_ok_iff, check_ok_iff, ← and_assoc]
  simp only [pure, Except.pure, Except.ok.injEq, beq_eq_false_iff_ne]
  exact and_congr ⟨fun h => ⟨h.1, h.2⟩, fun h => ⟨h.least, h.most⟩⟩ Iff.rfl

theorem castDate_ok_iff {text : String} {built : Value} :
    rules.castDate field text = .ok built ↔ ∃ t, Calendar.readInstant? text = some t ∧
      rules.AllowsTime t ∧ .string t.text = built := by
  unfold castDate
  cases Calendar.readInstant? text with
  | none => simp
  | some t =>
    dsimp only
    rw [bind_unit_ok_iff, bind_unit_ok_iff, check_ok_iff, check_ok_iff, ← and_assoc]
    simp only [pure, Except.pure, Except.ok.injEq, Bool.not_eq_false', Option.some.injEq,
      exists_eq_left']
    exact and_congr ⟨fun h => ⟨h.1, h.2⟩, fun h => ⟨h.after, h.before⟩⟩ Iff.rfl

/-- **Casting does what the rules say**, whatever the name of the field. -/
theorem cast_ok_iff {kind : ScalarKind} {value built : Value} :
    rules.cast field kind value = .ok built ↔ rules.Casts kind value built := by
  constructor
  · intro h
    unfold cast at h
    split at h
    · split_ifs at h with hrequired
      · cases h
      · obtain ⟨_, hchoices, h⟩ := bind_ok_iff.mp h
        cases h
        exact .null (by simpa using hrequired) fun _ => checkChoices_ok_iff.mp hchoices
    · next hkind =>
      split_ifs at h with hrequired
      · cases h
      · cases h
        exact .null (by simpa using hrequired) fun hany => absurd hany (by simpa using hkind)
    · obtain ⟨hlength, hlisted, hpattern, rfl⟩ := castString_ok_iff.mp h
      exact .string hlength hlisted hpattern
    · obtain ⟨hbounds, hlisted, hpattern, rfl⟩ := castNumber_ok_iff.mp h
      exact .number hbounds hlisted hpattern
    · cases h
      exact .boolean
    · obtain ⟨t, hread, hbounds, rfl⟩ := castDate_ok_iff.mp h
      exact .date hread hbounds
    · next hnull =>
      obtain ⟨_, hchoices, h⟩ := bind_ok_iff.mp h
      cases h
      exact .any (by simpa using hnull) (checkChoices_ok_iff.mp hchoices)
    · cases h
  · intro h
    cases h with
    | null hrequired hchoices =>
      cases kind with
      | any =>
        rw [cast, hrequired, if_neg Bool.false_ne_true, bind_unit_ok_iff]
        exact ⟨checkChoices_ok_iff.mpr (hchoices rfl), rfl⟩
      | _ => simp [cast, hrequired, pure, Except.pure]
    | string hlength hlisted hpattern =>
      exact castString_ok_iff.mpr ⟨hlength, hlisted, hpattern, rfl⟩
    | number hbounds hlisted hpattern =>
      exact castNumber_ok_iff.mpr ⟨hbounds, hlisted, hpattern, rfl⟩
    | boolean => rfl
    | date hread hbounds => exact castDate_ok_iff.mpr ⟨_, hread, hbounds, rfl⟩
    | any hnull hchoices =>
      rw [cast, bind_unit_ok_iff]
      · exact ⟨checkChoices_ok_iff.mpr hchoices, rfl⟩
      · exact hnull

/-- **The rules of a list** hold for its items exactly if its length and each item are allowed. -/
theorem checkItems_ok_iff {items : List Value} : rules.checkItems field items = .ok () ↔
    rules.AllowsLength items.length ∧ ∀ item ∈ items, rules.Lists item := by
  have heach : rules.checkEachListed field items = .ok () ↔ ∀ item ∈ items, rules.Lists item := by
    induction items with
    | nil => simp [checkEachListed, pure, Except.pure]
    | cons item rest ih =>
      rw [checkEachListed, bind_unit_ok_iff, checkListed_ok_iff, ih, List.forall_mem_cons]
  unfold checkItems
  dsimp only
  rw [bind_unit_ok_iff, bind_unit_ok_iff, ← and_assoc, checkLength_ok_iff, heach]

end Rules

end DocumentDb
