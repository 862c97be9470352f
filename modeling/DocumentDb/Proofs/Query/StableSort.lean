import Mathlib.Data.List.Basic
import Mathlib.Data.List.Perm.Basic
import Mathlib.Order.Basic

/-!
# Stable sorts

A stable sort of a list puts its items in order and leaves those that are tied as they were. Where
the order is one on the items at all (`Ranks`), there is just one such list (`StableSort.unique`),
and merge sort finds it (`stableSort_mergeSort`). Nothing is asked of the order of other items.
-/

namespace DocumentDb

variable {α : Type} {precedes : α → α → Prop}

/-- Neither of two items comes before the other one. -/
def Tied (precedes : α → α → Prop) (a b : α) : Prop := ¬ precedes a b ∧ ¬ precedes b a

instance [DecidableRel precedes] : DecidableRel (Tied precedes) := fun a b => by
  unfold Tied; infer_instance

/-- **A relation ranks items**: it is asymmetric, and what is tied with both of two items does not
lie between them. -/
structure Ranks (precedes : α → α → Prop) (items : List α) : Prop where
  asymm : ∀ a ∈ items, ∀ b ∈ items, precedes a b → ¬ precedes b a
  between : ∀ a ∈ items, ∀ b ∈ items, ∀ c ∈ items, precedes a c → precedes a b ∨ precedes b c

/-- **A stable sort** of a list: the same items in order, and tied ones in the order given. -/
structure StableSort (precedes : α → α → Prop) [DecidableRel precedes] (given sorted : List α) :
    Prop where
  perm : sorted.Perm given
  ordered : sorted.Pairwise fun a b => ¬ precedes b a
  stable : ∀ a ∈ given, sorted.filter (Tied precedes a) = given.filter (Tied precedes a)

namespace Ranks

variable {items : List α}

theorem tail {a : α} (h : Ranks precedes (a :: items)) : Ranks precedes items where
  asymm b hb c hc := h.asymm b (.tail a hb) c (.tail a hc)
  between b hb c hc d hd := h.between b (.tail a hb) c (.tail a hc) d (.tail a hd)

theorem tied_self (h : Ranks precedes items) {a : α} (ha : a ∈ items) : Tied precedes a a :=
  ⟨fun haa => h.asymm a ha a ha haa haa, fun haa => h.asymm a ha a ha haa haa⟩

/-- Nothing comes before the head of items in order. -/
theorem not_precedes_head (h : Ranks precedes items) {a b : α} {rest : List α}
    (hin : a ∈ items) (hb : b ∈ a :: rest) (hordered : ∀ c ∈ rest, ¬ precedes c a) :
    ¬ precedes b a := by
  rcases List.mem_cons.mp hb with rfl | hrest
  · exact (h.tied_self hin).1
  · exact hordered b hrest

/-- Two orders of the same items in which tied ones stand in the same order. -/
theorem ordered_unique [DecidableRel precedes] {first second : List α}
    (h : Ranks precedes first) (hperm : first.Perm second)
    (hfirst : first.Pairwise fun a b => ¬ precedes b a)
    (hsecond : second.Pairwise fun a b => ¬ precedes b a)
    (htied : ∀ a ∈ first, first.filter (Tied precedes a) = second.filter (Tied precedes a)) :
    first = second := by
  induction first generalizing second with
  | nil => exact (List.nil_perm.mp hperm).symm
  | cons a as ih =>
    cases second with
    | nil => exact hperm.eq_nil
    | cons b bs =>
      obtain ⟨hahead, has⟩ := List.pairwise_cons.mp hfirst
      obtain ⟨hbhead, hbs⟩ := List.pairwise_cons.mp hsecond
      have hb : b ∈ a :: as := hperm.mem_iff.mpr List.mem_cons_self
      have ha : a ∈ b :: bs := hperm.mem_iff.mp List.mem_cons_self
      -- The heads are tied with one another, so both lists say which one of the tied comes first.
      have hab : Tied precedes a b :=
        ⟨h.not_precedes_head hb ha hbhead, h.not_precedes_head List.mem_cons_self hb hahead⟩
      have hself : Tied precedes a a := h.tied_self List.mem_cons_self
      have hheads := htied a List.mem_cons_self
      rw [List.filter_cons_of_pos (by simpa using hself),
        List.filter_cons_of_pos (by simpa using hab)] at hheads
      obtain rfl : a = b := (List.cons.inj hheads).1
      refine congrArg (a :: ·) (ih h.tail hperm.cons_inv has hbs fun c hc => ?_)
      have hrest := htied c (.tail a hc)
      simp only [List.filter_cons] at hrest
      split at hrest
      · exact (List.cons.inj hrest).2
      · exact hrest

end Ranks

section Sorting
variable [DecidableRel precedes] {given : List α}

/-- **There is one stable sort** of a list. -/
theorem StableSort.unique {first second : List α} (hranks : Ranks precedes given)
    (hfirst : StableSort precedes given first) (hsecond : StableSort precedes given second) :
    first = second := by
  have hin {a : α} (ha : a ∈ first) : a ∈ given := hfirst.perm.mem_iff.mp ha
  have hranks' : Ranks precedes first :=
    { asymm := fun a ha b hb => hranks.asymm a (hin ha) b (hin hb)
      between := fun a ha b hb c hc => hranks.between a (hin ha) b (hin hb) c (hin hc) }
  exact hranks'.ordered_unique (hfirst.perm.trans hsecond.perm.symm) hfirst.ordered
    hsecond.ordered fun a ha => (hfirst.stable a (hin ha)).trans (hsecond.stable a (hin ha)).symm

/-- **Merge sort is stable**, as far as the relation ranks what it is given. -/
theorem stableSort_mergeSort {le : α → α → Bool} (hranks : Ranks precedes given)
    (hle : ∀ a b, le a b = true ↔ ¬ precedes b a) :
    StableSort precedes given (given.mergeSort le) := by
  -- The order is total and transitive on the items, which are the members of a type of their own.
  let inside (a b : { a // a ∈ given }) : Bool := le a.1 b.1
  have htrans (a b c) (hab : inside a b = true) (hbc : inside b c = true) : inside a c = true := by
    refine (hle a.1 c.1).mpr fun hca => ?_
    rcases hranks.between c.1 c.2 b.1 b.2 a.1 a.2 hca with hcb | hba
    · exact (hle b.1 c.1).mp hbc hcb
    · exact (hle a.1 b.1).mp hab hba
  have htotal (a b) : (inside a b || inside b a) = true := by
    rw [Bool.or_eq_true, hle, hle, ← not_and_or]
    exact fun ⟨hba, hab⟩ => hranks.asymm b.1 b.2 a.1 a.2 hba hab
  have hmap : (given.attach.mergeSort inside).map Subtype.val = given.mergeSort le := by
    rw [List.map_mergeSort (f := Subtype.val) (s := le) fun a _ b _ => rfl,
      List.attach_map_subtype_val]
  refine ⟨List.mergeSort_perm given le, ?_, fun a ha => ?_⟩
  · rw [← hmap, List.pairwise_map]
    exact (List.pairwise_mergeSort htrans htotal given.attach).imp (hle _ _).mp
  · let kept (b : { a // a ∈ given }) : Bool := Tied precedes a b.1
    have hpairs : (given.attach.filter kept).Pairwise fun b c => inside b c = true := by
      refine List.pairwise_of_forall_mem_list fun b hb c hc => (hle b.1 c.1).mpr fun hcb => ?_
      obtain ⟨-, hb⟩ := List.mem_filter.mp hb
      obtain ⟨-, hc⟩ := List.mem_filter.mp hc
      rcases hranks.between c.1 c.2 a ha b.1 b.2 hcb with hca | hab
      · exact (of_decide_eq_true hc).2 hca
      · exact (of_decide_eq_true hb).1 hab
    have hsub : (given.filter (Tied precedes a)).Sublist (given.mergeSort le) := by
      have hkept : (given.attach.filter kept).map Subtype.val =
          given.filter (Tied precedes a) := by
        conv_rhs => rw [← given.attach_map_subtype_val, List.filter_map]
        rfl
      rw [← hkept, ← hmap]
      exact (List.sublist_mergeSort htrans htotal hpairs List.filter_sublist).map _
    have hfilter := hsub.filter fun b => Tied precedes a b
    rw [List.filter_filter] at hfilter
    simp only [Bool.and_self] at hfilter
    exact (hfilter.eq_of_length
      ((List.mergeSort_perm given le).filter _).length_eq.symm).symm

end Sorting

end DocumentDb
