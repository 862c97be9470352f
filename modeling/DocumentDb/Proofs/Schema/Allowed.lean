import DocumentDb.Proofs.Document.Ids
import DocumentDb.Schema.Casting

/-!
# Values that rules allow

`Rules.Allows` says what a value that is not null has to be for the rules of a field, without saying
how it is found out. Casting yields only values that are allowed, or null where the field is not
required.
-/

namespace DocumentDb

namespace Rules

variable {rules : Rules} {field : String}

/-- The value is one of the listed ones, if there is a list. -/
def Lists (rules : Rules) (value : Value) : Prop :=
  ∀ listed, rules.listed = some listed → ∃ other ∈ listed, Value.same other value = true

/-- The text matches the pattern, if there is one. -/
def Matches (rules : Rules) (text : String) : Prop :=
  ∀ pattern, rules.pattern = some pattern → pattern.matchesText text = true

/-- The number of characters is within the bounds. -/
structure AllowsLength (rules : Rules) (length : Nat) : Prop where
  least : ∀ least, rules.minLength = some least → least ≤ length
  most : ∀ most, rules.maxLength = some most → length ≤ most

/-- **What a value of a type has to be.** -/
inductive Allows (rules : Rules) : ScalarKind → Value → Prop
  | string {s : String} (hlength : rules.AllowsLength s.length) (hlisted : rules.Lists (.string s))
    (hpattern : rules.Matches s) : Allows rules .string (.string s)
  | number {n : Number}
    (hleast : ∀ least, rules.least = some least → n.toFinite.order least ≠ .lt)
    (hmost : ∀ most, rules.most = some most → n.toFinite.order most ≠ .gt)
    (hlisted : rules.Lists (.number n)) (hpattern : rules.Matches n.text) :
    Allows rules .number (.number n)
  | boolean {b : Bool} : Allows rules .boolean (.bool b)
  | date {t : Instant} (hafter : ∀ bound, rules.startsAfter = some bound → bound.before t = true)
    (hbefore : ∀ bound, rules.startsBefore = some bound → t.before bound = true) :
    Allows rules .date (.string t.text)
  | any {value : Value} (hnull : value ≠ .null)
    (hchoices : ∀ choices, rules.choices = some choices →
      ∃ choice ∈ choices, choice.accepts value = true) : Allows rules .any value

theorem check_ok {α : Type} {bound : Option α} {exceeded : α → Bool} {violation : α → Violation}
    {u : Unit} (h : check field bound exceeded violation = .ok u) :
    ∀ limit, bound = some limit → exceeded limit = false := by
  rintro limit rfl
  simp only [check] at h
  split_ifs at h with hexceeded
  exact Bool.eq_false_iff.mpr hexceeded

theorem check_noReuse {α : Type} {bound : Option α} {exceeded : α → Bool}
    {violation : α → Violation} (h : ∀ a n c, violation a ≠ .generatedInUse n c) :
    NoReuse (check field bound exceeded violation) := by
  unfold check
  split
  · split_ifs
    · refine noReuse_error ?_
      rintro hreuse
      generalize hviolation : violation _ = v at hreuse
      cases hreuse
      exact h _ _ _ hviolation
    · exact noReuse_ok
  · exact noReuse_ok

theorem checkListed_ok {value : Value} {u : Unit} (h : rules.checkListed field value = .ok u) :
    rules.Lists value := by
  intro listed hlisted
  have := check_ok h listed hlisted
  simpa using this

theorem checkPattern_ok {text shown : String} {u : Unit}
    (h : rules.checkPattern field text shown = .ok u) : rules.Matches text := by
  intro pattern hpattern
  have := check_ok h pattern hpattern
  simpa using this

theorem castString_ok {raw : String} {built : Value}
    (h : rules.castString field raw = .ok built) : rules.Allows .string built := by
  unfold castString at h
  obtain ⟨_, hleast, h⟩ := bind_ok_iff.mp h
  obtain ⟨_, hmost, h⟩ := bind_ok_iff.mp h
  obtain ⟨_, hlisted, h⟩ := bind_ok_iff.mp h
  obtain ⟨_, hpattern, h⟩ := bind_ok_iff.mp h
  cases h
  refine .string ⟨fun least hl => ?_, fun most hm => ?_⟩ (checkListed_ok hlisted)
    (checkPattern_ok hpattern)
  · have := check_ok hleast least hl
    simpa using this
  · have := check_ok hmost most hm
    simpa using this

theorem castNumber_ok {n : Number} {built : Value}
    (h : rules.castNumber field n = .ok built) : rules.Allows .number built := by
  unfold castNumber at h
  obtain ⟨_, hleast, h⟩ := bind_ok_iff.mp h
  obtain ⟨_, hmost, h⟩ := bind_ok_iff.mp h
  obtain ⟨_, hlisted, h⟩ := bind_ok_iff.mp h
  obtain ⟨_, hpattern, h⟩ := bind_ok_iff.mp h
  cases h
  refine .number (fun least hl => ?_) (fun most hm => ?_) (checkListed_ok hlisted)
    (checkPattern_ok hpattern)
  · have := check_ok hleast least hl
    simpa using this
  · have := check_ok hmost most hm
    simpa using this

theorem castDate_ok {text : String} {built : Value}
    (h : rules.castDate field text = .ok built) : rules.Allows .date built := by
  unfold castDate at h
  split at h
  · cases h
  · obtain ⟨_, hafter, h⟩ := bind_ok_iff.mp h
    obtain ⟨_, hbefore, h⟩ := bind_ok_iff.mp h
    cases h
    refine .date (fun bound hb => ?_) (fun bound hb => ?_)
    · have := check_ok hafter bound hb
      simpa using this
    · have := check_ok hbefore bound hb
      simpa using this

theorem checkChoices_ok {value : Value} {u : Unit} (hnull : value ≠ .null)
    (h : rules.checkChoices field value = .ok u) : rules.Allows .any value := by
  refine .any hnull fun choices hchoices => ?_
  have := check_ok h choices hchoices
  simpa using this

/-- **A value that was cast** is allowed, or it is a null that may be there. -/
theorem cast_ok {kind : ScalarKind} {value built : Value}
    (h : rules.cast field kind value = .ok built) :
    rules.Allows kind built ∨ (built = .null ∧ rules.required = false) := by
  unfold cast at h
  split at h
  · split_ifs at h with hrequired
    · cases h
    · obtain ⟨_, _, h⟩ := bind_ok_iff.mp h
      cases h
      exact Or.inr ⟨rfl, by simpa using hrequired⟩
  · split_ifs at h with hrequired
    · cases h
    · cases h
      exact Or.inr ⟨rfl, by simpa using hrequired⟩
  · exact Or.inl (castString_ok h)
  · exact Or.inl (castNumber_ok h)
  · cases h; exact Or.inl .boolean
  · exact Or.inl (castDate_ok h)
  · next hnull =>
    obtain ⟨_, hchoices, h⟩ := bind_ok_iff.mp h
    cases h
    exact Or.inl (checkChoices_ok (by simpa using hnull) hchoices)
  · cases h

theorem checkListed_noReuse {value : Value} : NoReuse (rules.checkListed field value) :=
  check_noReuse (by intros; simp)

theorem checkPattern_noReuse {text shown : String} :
    NoReuse (rules.checkPattern field text shown) :=
  check_noReuse (by intros; simp)

theorem checkChoices_noReuse {value : Value} : NoReuse (rules.checkChoices field value) :=
  check_noReuse (by intros; simp)

theorem missing_noReuse {α : Type} : NoReuse (missing field : Except Error α) :=
  noReuse_error (by rintro ⟨⟩)

theorem cast_noReuse {kind : ScalarKind} {value : Value} :
    NoReuse (rules.cast field kind value) := by
  unfold cast
  split
  · split_ifs
    · exact missing_noReuse
    · exact checkChoices_noReuse.bind fun _ => noReuse_pure
  · split_ifs
    · exact missing_noReuse
    · exact noReuse_pure
  · unfold castString
    exact (check_noReuse (by intros; simp)).bind fun _ =>
      (check_noReuse (by intros; simp)).bind fun _ => checkListed_noReuse.bind fun _ =>
        checkPattern_noReuse.bind fun _ => noReuse_pure
  · unfold castNumber
    exact (check_noReuse (by intros; simp)).bind fun _ =>
      (check_noReuse (by intros; simp)).bind fun _ => checkListed_noReuse.bind fun _ =>
        checkPattern_noReuse.bind fun _ => noReuse_pure
  · exact noReuse_pure
  · unfold castDate
    split
    · exact noReuse_error (by rintro ⟨⟩)
    · exact (check_noReuse (by intros; simp)).bind fun _ =>
        (check_noReuse (by intros; simp)).bind fun _ => noReuse_pure
  · exact checkChoices_noReuse.bind fun _ => noReuse_pure
  · exact noReuse_error (by rintro ⟨⟩)

theorem castField_noReuse {kind : ScalarKind} {value? : Option Value} :
    NoReuse (rules.castField field kind value?) := by
  unfold castField
  split
  · exact cast_noReuse.map
  · split
    · exact cast_noReuse.map
    · split_ifs
      · exact missing_noReuse
      · exact noReuse_pure

theorem checkEachListed_noReuse {items : List Value} :
    NoReuse (rules.checkEachListed field items) := by
  induction items with
  | nil => exact noReuse_pure
  | cons item rest ih => exact checkListed_noReuse.bind fun _ => ih

theorem checkItems_noReuse {items : List Value} : NoReuse (rules.checkItems field items) :=
  (check_noReuse (by intros; simp)).bind fun _ => (check_noReuse (by intros; simp)).bind fun _ =>
    checkEachListed_noReuse

end Rules

end DocumentDb
