import DocumentDb.Proofs.Document.Embedding
import DocumentDb.Proofs.Document.StoredForm
import DocumentDb.Proofs.Database.Runs
import Mathlib

/-!
# The order of keys

A document keeps its id first, then its declared fields in the order of the schema, then what passes
through, and the times at the end, unless they are declared: that is what `Tree.order` does, and
ordering twice is ordering once. So a changed document is in order.

A new document is put together piece by piece. Its declared keys come first, in their order, if none
of them is a time that is set only at the end; the others stand behind them as the input has them,
with the times that are kept at the end (`Tree.Arranged`). So it is in order exactly if what passes
through has no time in the wrong place (`key_order`). A time that passes through can be in the wrong
place, and then the next change moves it.
-/

namespace DocumentDb

/-! ### Fields in the order of keys -/

namespace Object

theorem put_append {front rest : Object} {key : String} {value : Value}
    (h : key ∈ Object.keys front) :
    (front ++ rest).put key value = front.put key value ++ rest := by
  induction front with
  | nil => cases h
  | cons field others ih =>
    obtain ⟨name, first⟩ := field
    rw [List.cons_append, Object.put, Object.put]
    split_ifs with hname
    · rfl
    · have hothers : key ∈ Object.keys others := by
        rcases List.mem_cons.mp h with rfl | hin
        · exact absurd rfl hname
        · exact hin
      rw [ih hothers, List.cons_append]

theorem keys_put_of_mem {fields : Object} {key : String} {value : Value}
    (h : key ∈ Object.keys fields) : Object.keys (fields.put key value) = Object.keys fields := by
  rw [keys_put, if_pos h]

theorem keys_append (fields others : Object) :
    Object.keys (fields ++ others) = Object.keys fields ++ Object.keys others :=
  List.map_append

/-- Fields of one object in the order of another one with the same keys are the other one. -/
theorem eq_of_keys_eq {fields others : Object} (hkeys : Object.keys fields = Object.keys others)
    (honce : (Object.keys others).Nodup) (h : ∀ field ∈ fields, field ∈ others) :
    fields = others := by
  induction fields generalizing others with
  | nil => exact (List.map_eq_nil_iff.mp hkeys.symm).symm
  | cons field rest ih =>
    cases others with
    | nil => cases hkeys
    | cons other more =>
      obtain ⟨hkey, hrest⟩ := List.cons.inj hkeys
      obtain ⟨hfresh, honce⟩ := List.nodup_cons.mp honce
      have hsame : field = other := by
        rcases List.mem_cons.mp (h field List.mem_cons_self) with heq | hin
        · exact heq
        · refine absurd ?_ hfresh
          rw [← hkey]
          exact List.mem_map_of_mem hin
      have hothers : ∀ later ∈ rest, later ∈ more := by
        intro later hlater
        rcases List.mem_cons.mp (h later (List.mem_cons_of_mem _ hlater)) with rfl | hin
        · refine absurd ?_ hfresh
          rw [← hrest]
          exact List.mem_map_of_mem hlater
        · exact hin
      rw [hsame, ih hrest honce hothers]

theorem has_iff_mem_keys {fields : Object} {key : String} :
    (Object.keys fields).contains key = true ↔ ∃ value, Object.value? fields key = some value := by
  rw [List.contains_iff_mem]
  exact ⟨exists_value?_of_mem_keys, fun ⟨_, hvalue⟩ => mem_keys_of_value? hvalue⟩

end Object

/-- Keys in their order, but for the times, which come last. -/
def timesLast (keys : List String) : List String :=
  keys.filter (fun key => key ≠ createdKey && key ≠ updatedKey) ++
    [createdKey, updatedKey].filter keys.contains

namespace Tree

variable {tree : Tree} {document : Document}

/-- **The order of keys**: the declared ones, the id first, as the schema has them, then the others
and at last the times. -/
def keyOrder (tree : Tree) (keys : List String) : List String :=
  tree.keys.filter keys.contains ++ timesLast (keys.filter fun key => !tree.declares key)

/-! ### Picking -/

theorem pick_congr {other : Document} {keys : List String}
    (h : ∀ key ∈ keys, Object.value? document key = Object.value? other key) :
    pick document keys = pick other keys :=
  List.filterMap_congr fun key hin => by rw [h key hin]

/-- Fields that have picked keys are picked themselves. -/
theorem pick_eq_self {fields : Object} {keys : List String} (honce : keys.Nodup)
    (h : (Object.keys fields).Sublist keys) : pick fields keys = fields := by
  induction keys generalizing fields with
  | nil => exact (List.map_eq_nil_iff.mp (List.sublist_nil.mp h)).symm
  | cons first rest ih =>
    obtain ⟨hfresh, hothersOnce⟩ := List.nodup_cons.mp honce
    have hskip : (Object.keys fields).Sublist rest → pick fields (first :: rest) = fields := by
      intro hrest
      have hnone : Object.value? fields first = none :=
        Object.value?_eq_none_iff.mpr fun hin => hfresh (hrest.subset hin)
      calc pick fields (first :: rest) = pick fields rest := by simp [pick, hnone]
        _ = fields := ih hothersOnce hrest
    cases fields with
    | nil => exact hskip (List.nil_sublist _)
    | cons field others =>
      obtain ⟨name, value⟩ := field
      by_cases hname : name = first
      · subst hname
        have hothers : (Object.keys others).Sublist rest := List.cons_sublist_cons.mp h
        have hsame : pick ((name, value) :: others) rest = pick others rest := by
          refine pick_congr fun key hin => ?_
          rw [Object.value?, if_neg]
          rintro rfl
          exact hfresh hin
        calc pick ((name, value) :: others) (name :: rest)
            = (name, value) :: pick ((name, value) :: others) rest := by
              simp [pick, Object.value?]
          _ = (name, value) :: others := by rw [hsame, ih hothersOnce hothers]
      · refine hskip ?_
        rcases List.sublist_cons_iff.mp h with hrest | ⟨others', heq, _⟩
        · exact hrest
        · exact absurd (List.cons.inj heq).1 hname

theorem filter_pick (keep : String → Bool) (keys : List String) :
    (pick document keys).filter (fun field => keep field.1) = pick document (keys.filter keep) := by
  induction keys with
  | nil => rfl
  | cons key rest ih =>
    unfold pick at ih ⊢
    cases hvalue : Object.value? document key <;> by_cases hkeep : keep key = true <;>
      simp [hvalue, hkeep, ih]

theorem keys_pick_eq (keys : List String) :
    Object.keys (pick document keys) = keys.filter (Object.keys document).contains := by
  induction keys with
  | nil => rfl
  | cons key rest ih =>
    unfold pick Object.keys at ih ⊢
    cases hvalue : Object.value? document key with
    | none =>
      have hnot : (Object.keys document).contains key = false := by
        rw [Bool.eq_false_iff]
        intro hin
        exact Object.value?_eq_none_iff.mp hvalue (List.contains_iff_mem.mp hin)
      have hnot : (document.map (·.1)).contains key = false := hnot
      rw [List.filterMap_cons, hvalue, Option.map_none,
        List.filter_cons_of_neg (by rw [hnot]; simp)]
      exact ih
    | some value =>
      have hin : (document.map (·.1)).contains key = true :=
        Object.has_iff_mem_keys.mpr ⟨value, hvalue⟩
      rw [List.filterMap_cons, hvalue, Option.map_some, List.map_cons,
        List.filter_cons_of_pos hin]
      exact congrArg _ ih

/-! ### Ordering -/

/-- Whether a field is a time. -/
def isTime (field : String × Value) : Bool := field.1 = createdKey || field.1 = updatedKey

/-- **Ordering what stands in two parts already**: only the times of the second part move. -/
theorem order_append {front rest : Object} (hproper : tree.Proper)
    (hfront : (Object.keys front).Sublist tree.keys)
    (hrest : ∀ field ∈ rest, tree.declares field.1 = false) :
    tree.order (front ++ rest) =
      front ++ (rest.filter (!isTime ·) ++ pick rest [createdKey, updatedKey]) := by
  have hdeclared : ∀ field ∈ front, tree.declares field.1 = true := fun field hin =>
    declares_iff.mpr (hfront.subset (List.mem_map_of_mem hin))
  have hnone : ∀ key, tree.declares key = true → Object.value? rest key = none := by
    intro key hkey
    refine Object.value?_eq_none_iff.mpr fun hin => ?_
    obtain ⟨field, hfield, rfl⟩ := List.mem_map.mp hin
    rw [hrest field hfield] at hkey
    cases hkey
  have hpicked : pick (front ++ rest) tree.keys = front := by
    rw [← pick_eq_self (keys_nodup hproper) hfront]
    refine pick_congr fun key hin => ?_
    rw [pick_eq_self (keys_nodup hproper) hfront, Object.value?_append,
      hnone key (declares_iff.mpr hin), Option.or_none]
  have hothers : others tree (front ++ rest) = rest.filter (!isTime ·) := by
    unfold others
    rw [List.filter_append, List.filter_eq_nil_iff.mpr, List.nil_append]
    · refine List.filter_congr fun field hin => ?_
      rw [hrest field hin]
      simp [isTime]
    · intro field hin
      simp [hdeclared field hin]
  have htimes : (pick (front ++ rest) [createdKey, updatedKey]).filter
      (fun field => !tree.declares field.1) = pick rest [createdKey, updatedKey] := by
    rw [filter_pick fun key => !tree.declares key]
    have hskipped : pick rest [createdKey, updatedKey] =
        pick rest ([createdKey, updatedKey].filter fun key => !tree.declares key) := by
      rw [← filter_pick fun key => !tree.declares key, List.filter_eq_self.mpr]
      intro field hin
      have hvalue := value?_of_mem_pick rest field hin
      by_contra hkey
      rw [hnone field.1 (by simpa using hkey)] at hvalue
      cases hvalue
    rw [hskipped]
    refine pick_congr fun key hin => ?_
    have hkey : tree.declares key = false := by simpa using List.of_mem_filter hin
    have hfree : Object.value? front key = none := by
      refine Object.value?_eq_none_iff.mpr fun hkeys => ?_
      obtain ⟨field, hfield, rfl⟩ := List.mem_map.mp hkeys
      rw [hdeclared field hfield] at hkey
      cases hkey
    rw [Object.value?_append, hfree, Option.none_or]
  rw [order_eq, hpicked, hothers, htimes, List.append_assoc]

/-- **Ordering twice is ordering once.** -/
theorem order_order (hproper : tree.Proper) (document : Document) :
    tree.order (tree.order document) = tree.order document := by
  have htimes : ∀ field ∈ (pick document [createdKey, updatedKey]).filter
      (fun field => !tree.declares field.1), isTime field = true := by
    intro field hin
    have hkey := mem_keys_of_mem_pick document (List.mem_of_mem_filter hin)
    simpa [isTime] using hkey
  have hothers : ∀ field ∈ others tree document, isTime field = false := by
    intro field hin
    have hkept := List.of_mem_filter hin
    simp only [Bool.and_eq_true, decide_eq_true_eq] at hkept
    simp [isTime, hkept.1.2, hkept.2]
  obtain ⟨rest, hrest⟩ : ∃ rest, rest = others tree document ++
      (pick document [createdKey, updatedKey]).filter (fun field => !tree.declares field.1) :=
    ⟨_, rfl⟩
  have hform : tree.order document = pick document tree.keys ++ rest := by
    rw [order_eq, hrest, List.append_assoc]
  have hundeclared : ∀ field ∈ rest, tree.declares field.1 = false := by
    intro field hin
    rw [hrest] at hin
    rcases List.mem_append.mp hin with hin | hin
    · have hkept := List.of_mem_filter hin
      simp only [Bool.and_eq_true] at hkept
      simpa using hkept.1.1
    · simpa using List.of_mem_filter hin
  have hkept : rest.filter (!isTime ·) = others tree document := by
    rw [hrest, List.filter_append, List.filter_eq_self.mpr fun field hin => by
      rw [hothers field hin]; rfl, List.filter_eq_nil_iff.mpr fun field hin => by
      rw [htimes field hin]; simp, List.append_nil]
  have hpicked : pick rest [createdKey, updatedKey] =
      (pick document [createdKey, updatedKey]).filter fun field => !tree.declares field.1 := by
    have hnone : ∀ key ∈ [createdKey, updatedKey],
        Object.value? (others tree document) key = none := by
      intro key hkey
      refine Object.value?_eq_none_iff.mpr fun hin => ?_
      obtain ⟨field, hfield, rfl⟩ := List.mem_map.mp hin
      have hnot := hothers field hfield
      simp only [List.mem_cons, List.not_mem_nil, or_false] at hkey
      rcases hkey with hkey | hkey <;> simp [isTime, hkey] at hnot
    calc pick rest [createdKey, updatedKey]
        = pick (pick document ([createdKey, updatedKey].filter fun key => !tree.declares key))
            [createdKey, updatedKey] := by
          refine pick_congr fun key hin => ?_
          rw [hrest, Object.value?_append, hnone key hin, Option.none_or, filter_pick fun key =>
            !tree.declares key]
      _ = pick document ([createdKey, updatedKey].filter fun key => !tree.declares key) :=
          pick_eq_self (by decide) ((keys_pick document).trans List.filter_sublist)
      _ = _ := (filter_pick _ _).symm
  rw [hform, order_append hproper (keys_pick document) hundeclared, hkept, hpicked, hrest]

/-- **The keys of an ordered document** are in the order of keys. -/
theorem keys_order (document : Document) :
    Object.keys (tree.order document) = tree.keyOrder (Object.keys document) := by
  have hothers : Object.keys (others tree document) =
      ((Object.keys document).filter fun key => !tree.declares key).filter
        fun key => key ≠ createdKey && key ≠ updatedKey := by
    unfold others Object.keys
    rw [List.filter_filter, List.filter_map]
    refine congrArg _ (List.filter_congr fun field _ => ?_)
    simp only [Function.comp_apply]
    rw [Bool.and_assoc, Bool.and_comm]
  have htimes : Object.keys ((pick document [createdKey, updatedKey]).filter fun field =>
      !tree.declares field.1) = [createdKey, updatedKey].filter
        ((Object.keys document).filter fun key => !tree.declares key).contains := by
    rw [filter_pick fun key => !tree.declares key, keys_pick_eq, List.filter_filter]
    refine List.filter_congr fun key _ => ?_
    rw [Bool.eq_iff_iff]
    simp
  rw [order_eq, keyOrder, timesLast, ← hothers, ← htimes, ← keys_pick_eq, Object.keys_append,
    Object.keys_append, List.append_assoc]

/-! ### Documents in two parts -/

/-- The keys behind the declared ones in a new document: those that pass through from the input, and
the times that are kept but not declared. -/
def keysBehind (tree : Tree) (input : Object) : List String :=
  (Object.keys input).filter (fun key => !tree.declares key && !tree.managedKeys.contains key) ++
    tree.managedKeys.filter fun key => !tree.declares key

/-- The input has a value for each time that is kept and declared. -/
def Supplied (tree : Tree) (input : Object) : Prop :=
  ∀ key ∈ tree.managedKeys, tree.fields.declares key = true →
    ∃ value, Object.value? input key = some value ∧ value ≠ .null

theorem managedKeys_nodup : tree.managedKeys.Nodup := by
  unfold managedKeys
  cases tree.settings.createdAt <;> cases tree.settings.updatedAt <;> decide

theorem keysBehind_nodup {input : Object} (h : (Object.keys input).Nodup) :
    (tree.keysBehind input).Nodup := by
  refine List.Nodup.append (h.filter _) (managedKeys_nodup.filter _) fun key hkept hmanaged => ?_
  have hfree := List.of_mem_filter hkept
  simp only [Bool.and_eq_true, Bool.not_eq_true', List.contains_eq_mem,
    decide_eq_false_iff_not] at hfree
  exact hfree.2 (List.mem_of_mem_filter hmanaged)

/-- **A document in two parts**: declared fields in the order of the schema, and behind them those
with other keys. -/
structure Arranged (tree : Tree) (document : Document) (behind : List String) : Prop where
  parts : ∃ front rest : Object, document = front ++ rest ∧
    (Object.keys front).Sublist tree.keys ∧ Object.keys rest = behind
  undeclared : ∀ key ∈ behind, tree.declares key = false

/-- **A document in two parts is in order** exactly if no time in its second part has to move. -/
theorem Arranged.order_eq_self_iff {behind : List String} (h : tree.Arranged document behind)
    (hproper : tree.Proper) (honce : behind.Nodup) :
    tree.order document = document ↔ timesLast behind = behind := by
  obtain ⟨⟨front, rest, rfl, hfront, rfl⟩, hbehind⟩ := h
  have hrest : ∀ field ∈ rest, tree.declares field.1 = false :=
    fun field hin => hbehind _ (List.mem_map_of_mem hin)
  have hkeys : Object.keys (rest.filter (!isTime ·) ++ pick rest [createdKey, updatedKey]) =
      timesLast (Object.keys rest) := by
    have hplain : Object.keys (rest.filter (!isTime ·)) =
        (Object.keys rest).filter fun key => key ≠ createdKey && key ≠ updatedKey := by
      unfold Object.keys
      rw [List.filter_map]
      exact congrArg _ (List.filter_congr fun field _ => by simp [isTime])
    rw [timesLast, ← hplain, ← keys_pick_eq, Object.keys_append]
  rw [order_append hproper hfront hrest, List.append_cancel_left_eq, ← hkeys]
  refine ⟨congrArg _, fun hsame => Object.eq_of_keys_eq hsame honce fun field hin => ?_⟩
  rcases List.mem_append.mp hin with hin | hin
  · exact List.mem_of_mem_filter hin
  · exact Object.mem_of_value? (value?_of_mem_pick rest field hin)

/-- **A time set at the end** of a document in two parts: it is behind the others, or it is declared
and has its place already. -/
theorem Arranged.stamped {behind : List String} (h : tree.Arranged document behind) (flag : Bool)
    (time : String) (value : Value)
    (hplaced : flag = true → tree.declares time = true → time ∈ Object.keys document)
    (hfresh : flag = true → time ∉ behind) :
    tree.Arranged (if flag then document.put time value else document)
      (behind ++ (if flag then [time] else []).filter fun key => !tree.declares key) := by
  cases flag with
  | false => simpa using h
  | true =>
    obtain ⟨⟨front, rest, rfl, hfront, rfl⟩, hbehind⟩ := h
    have hrest : time ∉ Object.keys rest := hfresh rfl
    cases hdeclared : tree.declares time with
    | true =>
      have hin : time ∈ Object.keys front := by
        have hin := hplaced rfl hdeclared
        rw [Object.keys_append] at hin
        rcases List.mem_append.mp hin with hin | hin
        · exact hin
        · exact absurd hin hrest
      refine ⟨⟨front.put time value, rest, ?_, ?_, ?_⟩, ?_⟩
      · rw [if_pos rfl, Object.put_append hin]
      · rwa [Object.keys_put_of_mem hin]
      · simp [hdeclared]
      · simpa [hdeclared] using hbehind
    | false =>
      have hnot : time ∉ Object.keys front := fun hin => by
        rw [declares_iff.mpr (hfront.subset hin)] at hdeclared
        cases hdeclared
      refine ⟨⟨front, rest ++ [(time, value)], ?_, hfront, ?_⟩, ?_⟩
      · rw [if_pos rfl, Object.put_eq_append, List.append_assoc]
        rw [Object.keys_append, List.mem_append, not_or]
        exact ⟨hnot, hrest⟩
      · simp [Object.keys, hdeclared]
      · simpa [hdeclared, or_imp, forall_and] using hbehind

/-- **Stamping a new document** leaves it in two parts. -/
theorem Arranged.new (now : Instant) {id : Value} {declared input : Object}
    (hdeclared : (Object.keys declared).Sublist tree.fields.names)
    (hgiven : ∀ key ∈ tree.managedKeys, tree.fields.declares key = true →
      key ∈ Object.keys declared) :
    tree.Arranged (Build.stampNew tree now ((idKey, id) :: (declared ++ input.filter fun field =>
        !tree.fields.declares field.1 && !tree.managedKeys.contains field.1)))
      (tree.keysBehind input) := by
  have hkeys : Object.keys (input.filter fun field =>
      !tree.fields.declares field.1 && !tree.managedKeys.contains field.1) =
        (Object.keys input).filter fun key =>
          !tree.declares key && !tree.managedKeys.contains key := by
    unfold Object.keys
    rw [List.filter_map]
    refine congrArg _ (List.filter_congr fun field _ => ?_)
    have hid : idKey ∈ tree.managedKeys := List.mem_cons_self
    simp only [Function.comp_apply, declares]
    by_cases hkey : field.1 = idKey
    · simp [hkey, hid]
    · simp [hkey]
  have hplain : tree.Arranged ((idKey, id) :: (declared ++ input.filter fun field =>
      !tree.fields.declares field.1 && !tree.managedKeys.contains field.1))
      ((Object.keys input).filter fun key =>
        !tree.declares key && !tree.managedKeys.contains key) := by
    refine ⟨⟨(idKey, id) :: declared, _, rfl, hdeclared.cons_cons _, hkeys⟩, fun key hin => ?_⟩
    have hfree := List.of_mem_filter hin
    simp only [Bool.and_eq_true, Bool.not_eq_true'] at hfree
    exact hfree.1
  have hfresh : ∀ key ∈ tree.managedKeys, key ∉ (Object.keys input).filter fun key =>
      !tree.declares key && !tree.managedKeys.contains key := by
    intro key hkey hin
    have hfree := List.of_mem_filter hin
    simp [hkey] at hfree
  have hthere : ∀ key ∈ tree.managedKeys, tree.declares key = true →
      key ∈ Object.keys ((idKey, id) :: (declared ++ input.filter fun field =>
        !tree.fields.declares field.1 && !tree.managedKeys.contains field.1)) := by
    intro key hkey hdeclares
    rcases List.mem_cons.mp (declares_iff.mp hdeclares) with rfl | hname
    · exact List.mem_cons_self
    · refine List.mem_cons_of_mem _ (List.mem_map.mpr ?_)
      obtain ⟨field, hfield, rfl⟩ := List.mem_map.mp
        (hgiven key hkey (Fields.declares_iff.mpr hname))
      exact ⟨field, List.mem_append_left _ hfield, rfl⟩
  have hcreated := hplain.stamped tree.settings.createdAt createdKey (.string now.text)
    (fun hset => hthere _ (created_mem_managed hset))
    fun hset => hfresh _ (created_mem_managed hset)
  have hupdated := hcreated.stamped tree.settings.updatedAt updatedKey (.string now.text) ?_ ?_
  · have hbehind : tree.managedKeys.filter (fun key => !tree.declares key) =
        (if tree.settings.createdAt then [createdKey] else []).filter (fun key =>
          !tree.declares key) ++
        (if tree.settings.updatedAt then [updatedKey] else []).filter fun key =>
          !tree.declares key := by
      rw [managedKeys, List.filter_cons_of_neg (by simp [declares]), List.filter_append]
    rw [keysBehind, hbehind, ← List.append_assoc]
    exact hupdated
  · intro hset hdeclares
    have hin := hthere _ (updated_mem_managed hset) hdeclares
    split_ifs
    · exact Object.mem_keys_put.mpr (Or.inr hin)
    · exact hin
  · intro hset hin
    rcases List.mem_append.mp hin with hin | hin
    · exact hfresh _ (updated_mem_managed hset) hin
    · have htime := List.mem_of_mem_filter hin
      split_ifs at htime
      · exact absurd (List.mem_singleton.mp htime) (by decide)
      · cases htime

end Tree

/-! ### The keys of what is built -/

namespace Build

/-- **What a step yields**, if it succeeds. -/
def Yields {α : Type} (context : Context) (step : Build α) (done : α → Prop) : Prop :=
  ∀ work, Ensures (step context) work (fun a _ => done a) fun _ _ => True

section Yields
variable {context : Context} {α β : Type} {done : β → Prop} {middle : α → Prop}

theorem yields_any {step : Build α} : Yields context step fun _ => True := fun _ => ensures_any

theorem yields_pure {a : β} (h : done a) : Yields context (pure a) done := fun _ => h

theorem yields_lift {result : Except Error α} :
    Yields context (lift result) fun a => result = .ok a :=
  fun _ => ensures_lift context (fun _ h => h) fun _ _ => trivial

theorem Yields.bind {first : Build α} {next : α → Build β} (hfirst : Yields context first middle)
    (hnext : ∀ a, middle a → Yields context (next a) done) :
    Yields context (first >>= next) done :=
  fun work => (hfirst work).bind fun a after ha => hnext a ha after

theorem Yields.mono {step : Build β} {done' : β → Prop} (h : Yields context step done)
    (hdone : ∀ a, done a → done' a) : Yields context step done' :=
  fun work => (h work).mono (fun a _ => hdone a) fun _ _ h => h

theorem yields_fail {e : Error} : Yields context (fail e) done := yields_lift.mono nofun

theorem yields_map {step : Build α} {f : α → β} (h : Yields context step fun a => done (f a)) :
    Yields context (f <$> step) done :=
  fun work => ensures_map.mpr (h work)

end Yields

variable {context : Context} {path : String} {scope : Scope}

/-- A value that is not null is never left out. -/
theorem buildValue_isSome (node : Node) {value : Value} (hvalue : value ≠ .null) :
    Yields context (buildValue path node (some value) scope) fun built => built.isSome = true := by
  have hsome : ∀ {α : Type} {step : Build α} {f : α → Value}, Yields context
      (step >>= fun a => pure (some (f a))) fun built => built.isSome = true :=
    yields_any.bind fun _ _ => yields_pure rfl
  unfold buildValue
  cases node with
  | scalar kind rules =>
    refine yields_lift.mono fun built hbuilt => ?_
    obtain ⟨_, _, rfl⟩ := map_ok_iff.mp hbuilt
    rfl
  | array rules =>
    cases value <;> first | exact absurd rfl hvalue | exact yields_fail | exact hsome
  | reference collection kind required =>
    have hbuilt : ∀ {step : Build Value}, Yields context (some <$> step) fun built =>
        built.isSome = true := yields_map (yields_any.mono fun _ _ => rfl)
    cases value <;> first | exact absurd rfl hvalue | exact hbuilt
  | document collection required =>
    cases value <;> first | exact absurd rfl hvalue | exact yields_fail | exact hsome
  | list element =>
    cases value <;> first | exact absurd rfl hvalue | exact yields_fail | exact hsome
  | nested fields =>
    cases value <;> first | exact absurd rfl hvalue | exact yields_fail | exact hsome

/-- **The declared fields that are built**: they are in the order of the schema, and those with a
value in the input are all there. -/
theorem buildDeclared_yields (fields : Fields) (input : Object) :
    Yields context (buildDeclared path fields input scope) fun built =>
      (Object.keys built).Sublist fields.names ∧ ∀ name ∈ fields.names, ∀ value,
        Object.value? input name = some value → value ≠ .null → name ∈ Object.keys built := by
  induction fields with
  | nil =>
    rw [buildDeclared]
    exact yields_pure ⟨List.Sublist.refl _, nofun⟩
  | cons field rest ih =>
    obtain ⟨first, node⟩ := field
    rw [buildDeclared]
    have hfirst : Yields context (buildField path first node input scope) fun built =>
        ∀ value, Object.value? input first = some value → value ≠ .null → built.isSome = true := by
      cases hvalue : Object.value? input first with
      | none => exact yields_any.mono fun _ _ => nofun
      | some value =>
        by_cases hnull : value = .null
        · exact yields_any.mono fun _ _ _ heq hne => absurd (Option.some.inj heq ▸ hnull) hne
        · rw [buildField]
          split
          · next other hother =>
            rw [hvalue] at hother
            cases hother
            exact (buildValue_isSome node hnull).mono fun _ h _ _ _ => h
          · next hnone =>
            rw [hvalue] at hnone
            cases hnone
    refine hfirst.bind fun built hbuilt => ih.bind fun others hothers => yields_pure ?_
    cases built with
    | none =>
      refine ⟨hothers.1.cons _, fun name hname value hvalue hnull => ?_⟩
      rcases List.mem_cons.mp hname with rfl | hin
      · cases hbuilt value hvalue hnull
      · exact hothers.2 name hin value hvalue hnull
    | some value =>
      refine ⟨hothers.1.cons_cons _, fun name hname value hvalue hnull => ?_⟩
      rcases List.mem_cons.mp hname with rfl | hin
      · exact List.mem_cons_self
      · exact List.mem_cons_of_mem _ (hothers.2 name hin value hvalue hnull)

/-- The undeclared fields pass through in the order of the input. -/
theorem passThrough_eq {fields : Fields} {reserved : List String} {strict : Bool}
    {input others : Object} (h : passThrough path fields reserved strict input = .ok others) :
    others = input.filter fun field => !fields.declares field.1 && !reserved.contains field.1 := by
  induction input generalizing others with
  | nil =>
    cases h
    rfl
  | cons entry rest ih =>
    obtain ⟨key, value⟩ := entry
    rw [passThrough] at h
    by_cases hskipped : (fields.declares key || reserved.contains key) = true
    · rw [if_pos hskipped] at h
      rw [ih h, List.filter_cons_of_neg]
      rw [← Bool.not_or, hskipped]
      simp
    · rw [if_neg hskipped] at h
      split_ifs at h
      obtain ⟨more, hmore, h⟩ := bind_ok_iff.mp h
      cases h
      rw [ih hmore, List.filter_cons_of_pos]
      rw [← Bool.not_or, Bool.of_not_eq_true hskipped]
      rfl

/-- **The fields of a new document**: those that are declared and those that pass through. -/
theorem buildFields_yields (fields : Fields) (input : Object) (reserved : List String) :
    Yields context (buildFields path fields input scope reserved) fun built =>
      ∃ declared, built = declared ++ input.filter (fun field =>
          !fields.declares field.1 && !reserved.contains field.1) ∧
        (Object.keys declared).Sublist fields.names ∧ ∀ name ∈ fields.names, ∀ value,
          Object.value? input name = some value → value ≠ .null →
            name ∈ Object.keys declared := by
  rw [buildFields]
  refine (buildDeclared_yields fields input).bind fun declared hdeclared => ?_
  refine yields_lift.bind fun others hothers => yields_pure ⟨declared, ?_, hdeclared⟩
  rw [passThrough_eq hothers]

section Documents
variable {collection : String} {tree : Tree}
  (htree : context.registry.tree? collection = some tree)
include htree

theorem tree_yields : Yields context (Build.tree collection) fun found => found = tree := by
  intro work
  unfold Ensures
  rw [tree_of_ok (Registry.tree_ok_iff.mpr htree)]

/-- **A new document is in two parts**, with what passes through behind what is declared. -/
theorem insertDocument_arranged {input : Object} (hsupplied : tree.Supplied input)
    (inject : Option Owner) :
    Yields context (insertDocument path collection input inject) fun document =>
      tree.Arranged document (tree.keysBehind input) := by
  rw [insertDocument]
  refine (tree_yields htree).bind ?_
  rintro _ rfl
  refine yields_any.bind fun id _ => (buildFields_yields _ _ _).bind ?_
  rintro _ ⟨declared, rfl, hdeclared, hgiven⟩
  refine yields_any.bind fun own _ => yields_any.bind fun _ _ => yields_pure ?_
  refine .new own.now hdeclared fun key hkey hdeclares => ?_
  obtain ⟨value, hvalue, hnull⟩ := hsupplied key hkey hdeclares
  exact hgiven key (Fields.declares_iff.mp hdeclares) value hvalue hnull

/-- **A changed document is in order.** -/
theorem change_ordered (hproper : tree.Proper) (existing : Document) (patch : Value) :
    Yields context (change collection existing patch) fun document =>
      tree.order document = document := by
  refine yields_any.bind fun patch _ => ?_
  rw [updateDocument]
  refine (tree_yields htree).bind ?_
  rintro _ rfl
  split
  · exact yields_lift.mono fun _ h => by cases h
  · refine yields_any.bind fun _ _ => yields_any.bind fun merged _ => ?_
    refine yields_any.bind fun own _ => yields_any.bind fun _ _ => ?_
    exact yields_pure (Tree.order_order hproper _)

/-- An empty patch orders the document if no time of change is kept. -/
theorem change_nothing {existing : Document} (hid : existing.id?.isSome = true)
    (hset : tree.settings.updatedAt = false) :
    change collection existing (.object []) context =
      ((fun _ => tree.order existing) <$> checkSize collection (tree.order existing)) context := by
  obtain ⟨id, hid⟩ := Option.isSome_iff_exists.mp hid
  funext work
  have hsame : lift (checkSameId "" id []) context work = (.ok (), work) := rfl
  show updateDocument "" collection existing [] context work = _
  rw [updateDocument, bind_of_ok (tree_of_ok (Registry.tree_ok_iff.mpr htree)), hid]
  dsimp only
  rw [bind_of_ok hsame, mergeFields, pure_bind, map_eq_pure_bind]
  unfold stampChanged
  rw [hset]
  rfl

end Documents

end Build

/-! ### What is in order -/

/-- **The order of the keys of what is built.** Changed documents are in order, and an empty patch
leaves what is in order as it is. A new document whose input has values for the times that are both
kept and declared is in order exactly if the times among what passes through are in their places. -/
theorem key_order {context : Context} (hregistry : context.registry.Compiled) {collection : String}
    {tree : Tree} (htree : context.registry.tree? collection = some tree) :
    (∀ document, Object.keys (tree.order document) = tree.keyOrder (Object.keys document)) ∧
    (∀ existing patch, Build.Yields context (Build.change collection existing patch) fun document =>
      tree.order document = document) ∧
    (∀ existing, existing.id?.isSome = true → tree.settings.updatedAt = false →
      tree.order existing = existing → Build.change collection existing (.object []) context =
        ((fun _ => existing) <$> Build.checkSize collection existing) context) ∧
    (∀ input, (Object.keys input).Nodup → tree.Supplied input →
      Build.Yields context (Build.create collection (.object input)) fun document =>
        (tree.order document = document ↔
          timesLast (tree.keysBehind input) = tree.keysBehind input)) := by
  have hproper : tree.Proper := hregistry.proper.tree? htree
  refine ⟨Tree.keys_order, Build.change_ordered htree hproper, ?_, ?_⟩
  · intro existing hid hset horder
    rw [Build.change_nothing htree hid hset, horder]
  · intro input honce hsupplied
    refine Build.Yields.mono ?_ fun document (h : tree.Arranged document _) =>
      h.order_eq_self_iff hproper (Tree.keysBehind_nodup honce)
    rw [Build.create, Build.inputObject, pure_bind]
    exact Build.insertDocument_arranged htree hsupplied none

/-- What is looked at while items are built in an empty store. -/
def itemContext : Context := (boxDatabase MemoryStore.backend).context ⟨0, 0⟩ noBoxes.store

/-- An item as it is built, with a field that passes through. -/
def plainItem : Document := [("id", .ofNat 1), ("x", .ofNat 1), ("z", .ofNat 2)]

/-- A new item is in order, and an empty patch leaves it as it is. -/
theorem plainItem_in_order :
    (Build.create "items" (.object [("z", .ofNat 2), ("x", .ofNat 1)]) itemContext {}).1 =
      .ok plainItem ∧
    itemTree.order plainItem = plainItem ∧
    (Build.change "items" plainItem (.object []) itemContext {}).1 = .ok plainItem := by
  have hbuilt : (Build.create "items" (.object [("z", .ofNat 2), ("x", .ofNat 1)]) itemContext
      {}).1 = .ok plainItem := by cbv
  obtain ⟨-, -, hnothing, hnew⟩ := @key_order itemContext boxes_compiled "items" itemTree rfl
  have hplain := (hnew [("z", .ofNat 2), ("x", .ofNat 1)] (by decide) (fun key hkey hdeclared => by
    cases List.mem_singleton.mp hkey; cases hdeclared) {}).of_ok (Prod.ext hbuilt rfl)
  have horder : itemTree.order plainItem = plainItem := hplain.mpr (by decide)
  refine ⟨hbuilt, horder, ?_⟩
  rw [hnothing plainItem rfl rfl horder]
  cbv

/-- An item with a time that passes through. -/
def datedItem : Document :=
  [("id", .ofNat 1), ("x", .ofNat 1), ("created_at", .string "y"), ("z", .ofNat 2)]

/-- **A time that passes through may be in the wrong place**: the next change moves it, even one
that changes nothing. -/
theorem datedItem_moves :
    (Build.create "items" (.object [("created_at", .string "y"), ("x", .ofNat 1), ("z", .ofNat 2)])
      itemContext {}).1 = .ok datedItem ∧
    itemTree.order datedItem ≠ datedItem ∧
    (Build.change "items" datedItem (.object []) itemContext {}).1 =
      .ok [("id", .ofNat 1), ("x", .ofNat 1), ("z", .ofNat 2), ("created_at", .string "y")] := by
  refine ⟨by cbv, fun hsame => ?_, by cbv⟩
  have hkeys := congrArg Object.keys hsame
  revert hkeys
  decide

end DocumentDb
