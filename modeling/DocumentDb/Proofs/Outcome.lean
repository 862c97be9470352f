import DocumentDb.Store.Backend
import Mathlib.Tactic.SplitIfs

/-!
# Outcomes of steps

A step either yields a value or fails, and leaves a state behind in both cases. `Ensures` says what
holds of the value and the state of a step that succeeds and of the error and the state of one that
fails. Work on documents under a fixed context, writes to stores and operations on databases are all
steps in this sense.
-/

namespace DocumentDb

/-! ### Results without a state -/

section Results
variable {α β : Type}

theorem bind_ok_iff {ε : Type} {first : Except ε α} {next : α → Except ε β} {b : β} :
    (first >>= next) = .ok b ↔ ∃ a, first = .ok a ∧ next a = .ok b := by
  cases first with
  | error e => simp [bind, Except.bind]
  | ok a => simp [bind, Except.bind]

theorem bind_error_iff {first : Except Error α} {next : α → Except Error β} {e : Error} :
    (first >>= next) = .error e ↔
      first = .error e ∨ ∃ a, first = .ok a ∧ next a = .error e := by
  cases first with
  | error e => simp [bind, Except.bind]
  | ok a => simp [bind, Except.bind]

theorem map_ok_iff {result : Except Error α} {f : α → β} {b : β} :
    result.map f = .ok b ↔ ∃ a, result = .ok a ∧ f a = b := by
  cases result with
  | error e => simp [Except.map]
  | ok a => simp [Except.map]

theorem mapM_congr {f g : α → Except Error β} {list : List α} (h : ∀ a ∈ list, f a = g a) :
    list.mapM f = list.mapM g := by
  induction list with
  | nil => rfl
  | cons a rest ih =>
    obtain ⟨ha, hrest⟩ := List.forall_mem_cons.mp h
    rw [List.mapM_cons, List.mapM_cons, ha, ih hrest]

theorem exists_of_mem_mapM {f : α → Except Error β} {list : List α} {results : List β}
    (h : list.mapM f = .ok results) {b : β} (hin : b ∈ results) : ∃ a ∈ list, f a = .ok b := by
  induction list generalizing results with
  | nil =>
    cases h
    cases hin
  | cons a rest ih =>
    rw [List.mapM_cons] at h
    obtain ⟨first, hfirst, h⟩ := bind_ok_iff.mp h
    obtain ⟨others, hothers, h⟩ := bind_ok_iff.mp h
    cases h
    rcases List.mem_cons.mp hin with rfl | hin
    · exact ⟨a, List.mem_cons_self, hfirst⟩
    · obtain ⟨other, hmem, hother⟩ := ih hothers hin
      exact ⟨other, List.mem_cons_of_mem _ hmem, hother⟩

theorem exists_of_mapM_error {f : α → Except Error β} {list : List α} {e : Error}
    (h : list.mapM f = .error e) : ∃ a ∈ list, f a = .error e := by
  induction list with
  | nil => cases h
  | cons a rest ih =>
    rw [List.mapM_cons] at h
    rcases bind_error_iff.mp h with hfirst | ⟨first, -, h⟩
    · exact ⟨a, List.mem_cons_self, hfirst⟩
    · rcases bind_error_iff.mp h with hrest | ⟨others, -, h⟩
      · obtain ⟨other, hmem, hother⟩ := ih hrest
        exact ⟨other, List.mem_cons_of_mem _ hmem, hother⟩
      · cases h

end Results

/-! ### Reuse -/

/-- The error of a generated number that is in use already. -/
inductive Error.Reuse : Error → Prop
  | violation {field : String} {n : Nat} {collection : String} :
    Reuse (.violation field (.generatedInUse n collection))

/-- A result is no error of reuse. -/
def NoReuse {α : Type} (result : Except Error α) : Prop := ∀ e, result = .error e → ¬ e.Reuse

section NoReuse
variable {α β : Type}

theorem noReuse_ok {a : α} : NoReuse (.ok a) := by
  intro e h; cases h

theorem noReuse_pure {a : α} : NoReuse (pure a) := noReuse_ok

theorem noReuse_error {e : Error} (h : ¬ e.Reuse) : NoReuse (.error e : Except Error α) := by
  intro e' he; cases he; exact h

theorem NoReuse.bind {first : Except Error α} {next : α → Except Error β} (hfirst : NoReuse first)
    (hnext : ∀ a, NoReuse (next a)) : NoReuse (first >>= next) := by
  cases first with
  | error e => exact noReuse_error (hfirst e rfl)
  | ok a => exact hnext a

theorem NoReuse.map {result : Except Error α} {f : α → β} (h : NoReuse result) :
    NoReuse (result.map f) := by
  cases result with
  | error e => exact noReuse_error (h e rfl)
  | ok a => exact noReuse_ok

end NoReuse

/-! ### Steps -/

section Steps
variable {σ α β : Type}

/-- **What a step ensures** when it is taken in a state. -/
def Ensures (step : Write σ α) (before : σ) (done : α → σ → Prop) (failed : Error → σ → Prop) :
    Prop :=
  match step before with
  | (.ok a, after) => done a after
  | (.error e, after) => failed e after

variable {before : σ} {done done' : α → σ → Prop} {failed failed' : Error → σ → Prop}

theorem Ensures.mono {step : Write σ α} (h : Ensures step before done failed)
    (hdone : ∀ a after, done a after → done' a after)
    (hfailed : ∀ e after, failed e after → failed' e after) :
    Ensures step before done' failed' := by
  unfold Ensures at h ⊢
  split at h
  · exact hdone _ _ h
  · exact hfailed _ _ h

theorem Ensures.and {step : Write σ α} (h : Ensures step before done failed)
    (h' : Ensures step before done' failed') :
    Ensures step before (fun a after => done a after ∧ done' a after)
      (fun e after => failed e after ∧ failed' e after) := by
  unfold Ensures at h h' ⊢
  split at h
  · next heq => rw [heq] at h'; exact ⟨h, h'⟩
  · next heq => rw [heq] at h'; exact ⟨h, h'⟩

/-- What a step that succeeded ensures. -/
theorem Ensures.of_ok {step : Write σ α} (h : Ensures step before done failed) {a : α} {after : σ}
    (hstep : step before = (.ok a, after)) : done a after := by
  unfold Ensures at h
  rwa [hstep] at h

/-- What a step that failed ensures. -/
theorem Ensures.of_error {step : Write σ α} (h : Ensures step before done failed) {e : Error}
    {after : σ} (hstep : step before = (.error e, after)) : failed e after := by
  unfold Ensures at h
  rwa [hstep] at h

/-- What a step ensures of the state in any case. -/
theorem Ensures.state {step : Write σ α} {kept : σ → Prop}
    (h : Ensures step before (fun _ after => kept after) (fun _ after => kept after)) :
    kept (step before).2 := by
  unfold Ensures at h
  split at h <;> next heq => rw [heq]; exact h

theorem ensures_of_state {step : Write σ α} {kept : σ → Prop} (h : kept (step before).2) :
    Ensures step before (fun _ after => kept after) (fun _ after => kept after) := by
  unfold Ensures
  split <;> next heq => rw [heq] at h; exact h

theorem ensures_of_eq {step : Write σ α}
    (hdone : ∀ a after, step before = (.ok a, after) → done a after)
    (hfailed : ∀ e after, step before = (.error e, after) → failed e after) :
    Ensures step before done failed := by
  unfold Ensures
  split
  · next heq => exact hdone _ _ heq
  · next heq => exact hfailed _ _ heq

theorem ensures_any {step : Write σ α} :
    Ensures step before (fun _ _ => True) (fun _ _ => True) :=
  ensures_of_eq (fun _ _ _ => trivial) fun _ _ _ => trivial

theorem ensures_self {step : Write σ α} :
    Ensures step before (fun a after => step before = (.ok a, after))
      (fun e after => step before = (.error e, after)) :=
  ensures_of_eq (fun _ _ h => h) fun _ _ h => h

theorem ensures_bind {first : Write σ α} {next : α → Write σ β} {done : β → σ → Prop} :
    Ensures (first >>= next) before done failed ↔
      Ensures first before (fun a after => Ensures (next a) after done failed) failed := by
  unfold Ensures
  simp only [bind, ExceptT.bind, ExceptT.mk, StateT.bind]
  rcases first before with ⟨result, after⟩
  cases result <;> rfl

theorem ensures_map {step : Write σ α} {f : α → β} {done : β → σ → Prop} :
    Ensures (f <$> step) before done failed ↔
      Ensures step before (fun a after => done (f a) after) failed := by
  unfold Ensures
  simp only [Functor.map, ExceptT.map, ExceptT.mk, bind, StateT.bind]
  rcases step before with ⟨result, after⟩
  cases result <;> rfl

/-- A step and then another, as a run of both. -/
theorem step_bind (first : Write σ α) (next : α → Write σ β) (before : σ) :
    (first >>= next) before =
      match first before with
      | (.ok a, after) => next a after
      | (.error e, after) => (.error e, after) := by
  simp only [bind, ExceptT.bind, ExceptT.mk, StateT.bind]
  rcases first before with ⟨result, after⟩
  cases result <;> rfl

theorem ensures_get {done : σ → σ → Prop} :
    Ensures (get : Write σ σ) before done failed ↔ done before before := Iff.rfl

theorem ensures_modify {f : σ → σ} {done : Unit → σ → Prop} :
    Ensures (modify f : Write σ Unit) before done failed ↔ done () (f before) := Iff.rfl

/-- A step and then another. -/
theorem Ensures.bind {first : Write σ α} {next : α → Write σ β} {middle : α → σ → Prop}
    {done : β → σ → Prop} (hfirst : Ensures first before middle failed)
    (hnext : ∀ a after, middle a after → Ensures (next a) after done failed) :
    Ensures (first >>= next) before done failed :=
  ensures_bind.mpr (hfirst.mono hnext fun _ _ h => h)

/-- **Steps in a row stop at the first that fails**, after those before it. -/
theorem exists_failed_of_mapM {f : α → Write σ β} {row : List α} {e : Error} {after : σ}
    (h : row.mapM f before = (.error e, after)) :
    ∃ done a rest results middle, row = done ++ a :: rest ∧
      done.mapM f before = (.ok results, middle) ∧ f a middle = (.error e, after) := by
  induction row generalizing before with
  | nil => cases h
  | cons a rest ih =>
    rw [List.mapM_cons, step_bind] at h
    rcases hfirst : f a before with ⟨result, middle⟩
    rw [hfirst] at h
    cases result with
    | error e =>
      cases h
      exact ⟨[], a, rest, [], before, rfl, rfl, hfirst⟩
    | ok first =>
      dsimp only at h
      rw [step_bind] at h
      rcases hrest : rest.mapM f middle with ⟨result, last⟩
      rw [hrest] at h
      cases result with
      | ok others => cases h
      | error e =>
        cases h
        obtain ⟨done, failing, later, results, next, rfl, hdone, hfails⟩ := ih hrest
        refine ⟨a :: done, failing, later, first :: results, next, rfl, ?_, hfails⟩
        rw [List.mapM_cons, step_bind, hfirst]
        dsimp only
        rw [step_bind, hdone]
        rfl

end Steps

end DocumentDb
