import DocumentDb.Document.Order
import Mathlib.Data.List.Nodup

/-!
# What collapsing keeps

A collapsed list has each key of the list once and loses nothing else (`collapse_collapses`). The
keys stand in the order of their first items, each with its last item. Items without a key stay:
none is lost, and each of them stands behind what is left of the items before it. A list that has
each key once is collapsed already (`collapse_eq_self`).
-/

namespace DocumentDb

section Collapsing
variable {α κ : Type} [DecidableEq κ] {key : α → Option κ} {item : α} {items : List α}

/-- **A list is collapsed to another one.** -/
structure Collapses (key : α → Option κ) (items collapsed : List α) : Prop where
  /-- No two items have one key. -/
  once : (collapsed.filterMap key).Nodup
  /-- Keys stand in the order in which they occur first. -/
  order : collapsed.filterMap key = (items.filterMap key).eraseDups
  /-- An item with a key is the last one of it. -/
  last : ∀ item ∈ collapsed, key item ≠ none → ∃ before after,
    items = before ++ item :: after ∧ ∀ later ∈ after, key later ≠ key item
  /-- All items without a key stay, in their order. -/
  unkeyed : collapsed.filter (fun item => (key item).isNone) =
    items.filter fun item => (key item).isNone
  /-- An item without a key stands behind those before it and one item for each key of them. -/
  place : ∀ before item after, items = before ++ item :: after → key item = none →
    collapsed[(before.filterMap key).eraseDups.length +
      (before.filter fun item => (key item).isNone).length]? = some item

/-! ### Along a list -/

theorem collapse_cons_none (hkey : key item = none) (rest : List α) :
    collapse key (item :: rest) = item :: collapse key rest := by
  rw [collapse, hkey]
  rfl

theorem collapse_cons_some {own : κ} (hkey : key item = some own) (rest : List α) :
    collapse key (item :: rest) = lastWithKey key item rest ::
      collapse key (rest.filter fun other => key other != some own) := by
  rw [collapse, hkey]
  rfl

/-- Induction along a collapse: behind an item with a key, the other items of this key are gone. -/
theorem collapse_induction (key : α → Option κ) {motive : List α → Prop} (nil : motive [])
    (unkeyed : ∀ item rest, key item = none → motive rest → motive (item :: rest))
    (keyed : ∀ item rest own, key item = some own →
      motive (rest.filter fun other => key other != some own) → motive (item :: rest))
    (items : List α) : motive items := by
  match items with
  | [] => exact nil
  | item :: rest =>
    cases hkey : key item with
    | none => exact unkeyed item rest hkey (collapse_induction key nil unkeyed keyed rest)
    | some own => exact keyed item rest own hkey (collapse_induction key nil unkeyed keyed _)
termination_by items.length
decreasing_by
  · simp_wf
  · simp_wf
    have := List.length_filter_le (fun other => key other != some own) rest
    omega

theorem key_lastWithKey (item : α) (rest : List α) :
    key (lastWithKey key item rest) = key item := by
  unfold lastWithKey
  cases hfound : rest.reverse.find? fun other => key other == key item with
  | none => rfl
  | some found => simpa using List.find?_some hfound

theorem mem_collapse (h : item ∈ collapse key items) : item ∈ items := by
  induction items using collapse_induction key with
  | nil => rwa [collapse] at h
  | unkeyed head rest hkey ih =>
    rw [collapse_cons_none hkey] at h
    rcases List.mem_cons.mp h with rfl | hin
    · exact List.mem_cons_self
    · exact List.mem_cons_of_mem _ (ih hin)
  | keyed head rest own hkey ih =>
    rw [collapse_cons_some hkey] at h
    rcases List.mem_cons.mp h with rfl | hin
    · unfold lastWithKey
      cases hfound : rest.reverse.find? fun other => key other == key head with
      | none => exact List.mem_cons_self
      | some found =>
        exact List.mem_cons_of_mem _ (List.mem_reverse.mp (List.mem_of_find?_eq_some hfound))
    · exact List.mem_cons_of_mem _ (List.mem_of_mem_filter (ih hin))

/-- A collapsed list has the last item of each key. -/
theorem find?_of_mem_collapse (h : item ∈ collapse key items) (hkey : key item ≠ none) :
    items.reverse.find? (fun other => key other == key item) = some item := by
  induction items using collapse_induction key with
  | nil => rw [collapse] at h; cases h
  | unkeyed head rest hhead ih =>
    rw [collapse_cons_none hhead] at h
    rw [List.reverse_cons, List.find?_append]
    rcases List.mem_cons.mp h with rfl | hin
    · exact absurd hhead hkey
    · rw [ih hin, Option.some_or]
  | keyed head rest own hhead ih =>
    rw [collapse_cons_some hhead] at h
    rw [List.reverse_cons, List.find?_append]
    rcases List.mem_cons.mp h with rfl | hin
    · have hown : key (lastWithKey key head rest) = key head := key_lastWithKey head rest
      rw [hown]
      unfold lastWithKey
      cases rest.reverse.find? fun other => key other == key head <;> simp
    · -- The filter drops no item of this key.
      have hother : key item ≠ some own := by
        simpa using (List.mem_filter.mp (mem_collapse hin)).2
      have hfound := ih hin
      rw [← List.filter_reverse, List.find?_filter] at hfound
      have htest : (fun other => decide ((key other != some own) = true ∧
          (key other == key item) = true)) = fun other => key other == key item := by
        funext other
        by_cases hsame : key other = key item <;> simp [hsame, hother]
      rw [htest] at hfound
      rw [hfound, Option.some_or]

/-- An item of the first part of a collapsed list has no key of the second part. -/
theorem mem_collapse_append {first second : List α} (h : item ∈ collapse key (first ++ second)) :
    item ∈ second ∨ (item ∈ first ∧ (key item ≠ none → key item ∉ second.map key)) := by
  by_cases hkey : key item = none
  · rcases List.mem_append.mp (mem_collapse h) with hin | hin
    · exact Or.inr ⟨hin, fun hsome => absurd hkey hsome⟩
    · exact Or.inl hin
  have hfound := find?_of_mem_collapse h hkey
  rw [List.reverse_append, List.find?_append] at hfound
  cases hsecond : second.reverse.find? fun other => key other == key item with
  | some last =>
    rw [hsecond, Option.some_or] at hfound
    cases hfound
    exact Or.inl (List.mem_reverse.mp (List.mem_of_find?_eq_some hsecond))
  | none =>
    rw [hsecond, Option.none_or] at hfound
    refine Or.inr ⟨List.mem_reverse.mp (List.mem_of_find?_eq_some hfound), fun _ hin => ?_⟩
    obtain ⟨other, hother, hsame⟩ := List.mem_map.mp hin
    exact List.find?_eq_none.mp hsecond other (List.mem_reverse.mpr hother) (by simpa using hsame)

/-! ### Items with a key -/

/-- The keys of the items with another key than one of them. -/
theorem filterMap_filter_ne {own : κ} (items : List α) :
    (items.filter fun other => key other != some own).filterMap key =
      (items.filterMap key).filter fun other => !other == own := by
  rw [List.filterMap_filter, List.filter_filterMap]
  refine congrArg (List.filterMap · items) (funext fun other => ?_)
  cases hother : key other with
  | none => rfl
  | some found =>
    by_cases hsame : found = own
    · simp [hsame, Option.filter]
    · simp [hsame, Option.filter]

theorem filterMap_collapse (items : List α) :
    (collapse key items).filterMap key = (items.filterMap key).eraseDups := by
  induction items using collapse_induction key with
  | nil => rw [collapse]; rfl
  | unkeyed item rest hkey ih =>
    rw [collapse_cons_none hkey, List.filterMap_cons_none hkey, List.filterMap_cons_none hkey, ih]
  | keyed item rest own hkey ih =>
    have hlast : key (lastWithKey key item rest) = some own :=
      (key_lastWithKey item rest).trans hkey
    rw [collapse_cons_some hkey, List.filterMap_cons_some hlast, List.filterMap_cons_some hkey,
      List.eraseDups_cons, ih, filterMap_filter_ne]

/-- **A collapsed list has each key once.** -/
theorem nodup_collapse (items : List α) : ((collapse key items).filterMap key).Nodup := by
  induction items using collapse_induction key with
  | nil => simp [collapse]
  | unkeyed item rest hkey ih =>
    rwa [collapse_cons_none hkey, List.filterMap_cons_none hkey]
  | keyed item rest own hkey ih =>
    have hlast : key (lastWithKey key item rest) = some own :=
      (key_lastWithKey item rest).trans hkey
    rw [collapse_cons_some hkey, List.filterMap_cons_some hlast]
    refine List.nodup_cons.mpr ⟨fun hin => ?_, ih⟩
    obtain ⟨other, hother, hsame⟩ := List.mem_filterMap.mp hin
    have hdiffers : key other ≠ some own := by
      simpa using (List.mem_filter.mp (mem_collapse hother)).2
    exact hdiffers hsame

/-- A list that has each key once is collapsed already. -/
theorem collapse_eq_self (h : (items.filterMap key).Nodup) : collapse key items = items := by
  induction items with
  | nil => rw [collapse]
  | cons item rest ih =>
    cases hkey : key item with
    | none =>
      rw [List.filterMap_cons_none hkey] at h
      rw [collapse_cons_none hkey, ih h]
    | some own =>
      rw [List.filterMap_cons_some hkey] at h
      obtain ⟨hfresh, hrest⟩ := List.nodup_cons.mp h
      have hothers : ∀ other ∈ rest, key other ≠ some own := fun other hin hsame =>
        hfresh (List.mem_filterMap.mpr ⟨other, hin, hsame⟩)
      have hlast : lastWithKey key item rest = item := by
        have hnone : rest.reverse.find? (fun other => key other == key item) = none := by
          simpa [hkey] using hothers
        rw [lastWithKey, hnone, Option.getD_none]
      have hfilter : rest.filter (fun other => key other != some own) = rest := by
        simpa using hothers
      rw [collapse_cons_some hkey, hlast, hfilter, ih hrest]

/-! ### Items without a key -/

theorem filter_collapse (items : List α) :
    (collapse key items).filter (fun item => (key item).isNone) =
      items.filter fun item => (key item).isNone := by
  induction items using collapse_induction key with
  | nil => rw [collapse]
  | unkeyed item rest hkey ih =>
    rw [collapse_cons_none hkey, List.filter_cons, List.filter_cons, ih]
  | keyed item rest own hkey ih =>
    have hlast : key (lastWithKey key item rest) = some own :=
      (key_lastWithKey item rest).trans hkey
    have hothers : (rest.filter fun other => key other != some own).filter
        (fun other => (key other).isNone) = rest.filter fun other => (key other).isNone := by
      rw [List.filter_filter]
      refine List.filter_congr fun other _ => ?_
      cases key other <;> simp
    rw [collapse_cons_some hkey, List.filter_cons, List.filter_cons, hlast, hkey, ih, hothers]
    rfl

omit [DecidableEq κ] in
/-- A list has as many items as it has keys and items without one. -/
theorem length_eq_keyed_add_unkeyed (items : List α) : items.length =
    (items.filterMap key).length + (items.filter fun item => (key item).isNone).length := by
  induction items with
  | nil => rfl
  | cons item rest ih =>
    cases hkey : key item with
    | none => simp [hkey, ih, Nat.add_assoc]
    | some => simp [hkey, ih, Nat.add_right_comm]

/-- What is left of the items before an item without a key tells its place. -/
theorem getElem?_collapse (hitem : key item = none) (before after : List α) :
    (collapse key (before ++ item :: after))[(collapse key before).length]? = some item := by
  induction before using collapse_induction key generalizing after with
  | nil => simp [collapse, hitem]
  | unkeyed head rest hkey ih =>
    rw [List.cons_append, collapse_cons_none hkey, collapse_cons_none hkey]
    exact ih after
  | keyed head rest own hkey ih =>
    have hother : (key item != some own) = true := by simp [hitem]
    rw [List.cons_append, collapse_cons_some hkey, collapse_cons_some hkey, List.filter_append,
      List.filter_cons, if_pos hother]
    exact ih _

/-- **What collapsing does** to any list. -/
theorem collapse_collapses (key : α → Option κ) (items : List α) :
    Collapses key items (collapse key items) where
  once := nodup_collapse items
  order := filterMap_collapse items
  last item hin hkey := by
    obtain ⟨-, later, earlier, hitems, hlater⟩ :=
      List.find?_eq_some_iff_append.mp (find?_of_mem_collapse hin hkey)
    refine ⟨earlier.reverse, later.reverse, ?_, fun other hother => ?_⟩
    · rw [← List.reverse_reverse items, hitems]
      simp
    · simpa using hlater other (List.mem_reverse.mp hother)
  unkeyed := filter_collapse items
  place before item after hitems hitem := by
    rw [hitems, ← filterMap_collapse, ← filter_collapse, ← length_eq_keyed_add_unkeyed]
    exact getElem?_collapse hitem before after

end Collapsing

end DocumentDb
