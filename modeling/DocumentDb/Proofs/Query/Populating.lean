import DocumentDb.Proofs.Query.Slots
import DocumentDb.Proofs.Text.Segments
import DocumentDb.Store.Memory

/-!
# References and their documents

On a store in memory, replacing references is a function of each document, one change at the slots
of one path after the other. The slots of different paths lie apart, so the changes do not meet.

* `populate_replaces`: what stands at the slots afterwards, and that nothing else changes.
-/

namespace DocumentDb

open Value (Step)

/-! ### Replacing references in memory -/

namespace MemoryStore

variable {store : MemoryStore} {hops others : List (String × Hop)} {position : List Step}
  {collection : String} {fields : Object}

/-- **What takes the place of a value** in a slot: the stored document that it refers to, or null if
there is none. A value that is no reference stays. -/
def resolved (store : MemoryStore) (collection : String) (value : Value) : Value :=
  match value.referenceId? with
  | none => value
  | some id =>
    match findDocument (store.holding collection).documents id with
    | some document => .object document
    | none => .null

/-- An object inside a list or a field changed; other values stay. -/
def changedInside (change : Object → Object) : Value → Value
  | .object inner => .object (change inner)
  | value => value

/-- What becomes of a value where a segment leads, given what becomes of the objects behind it. -/
def changedAt (store : MemoryStore) (change : Object → Object) : Hop → Value → Value
  | .reference collection, value => store.resolved collection value
  | .references collection, .array items => .array (items.map (store.resolved collection))
  | .into, value => changedInside change value
  | .intoEach, .array items => .array (items.map (changedInside change))
  | _, value => value

/-- **An object with the references replaced** that the hops of a plan lead to. -/
def followed (store : MemoryStore) : List (String × Hop) → Object → Object
  | [], fields => fields
  | (name, hop) :: rest, fields =>
    fields.adjust name (store.changedAt (store.followed rest) hop)

theorem resolved_plain {value : Value} (h : value.referenceId? = none) :
    store.resolved collection value = value := by
  rw [resolved, h]

theorem resolveReference_eq (store : MemoryStore) (collection : String) :
    resolveReference (backend.fetch store) collection =
      fun value => pure (store.resolved collection value) := by
  funext value
  unfold resolveReference resolved
  cases value.referenceId? with
  | none => rfl
  | some id =>
    have hfetch : backend.fetch store collection id =
        .ok (findDocument (store.holding collection).documents id) := rfl
    dsimp only
    rw [hfetch]
    cases findDocument (store.holding collection).documents id <;> rfl

/-- On a store in memory, replacing references cannot fail. -/
theorem followHops_eq (store : MemoryStore) (hops : List (String × Hop)) :
    followHops (backend.fetch store) hops = fun fields => pure (store.followed hops fields) := by
  induction hops with
  | nil => rfl
  | cons step rest ih =>
    obtain ⟨name, hop⟩ := step
    funext fields
    rw [followHops, followed, Object.adjust]
    cases Object.value? fields name with
    | none => rfl
    | some value =>
      cases hop with
      | reference collection =>
        dsimp only
        rw [resolveReference_eq]
        rfl
      | references collection =>
        cases value with
        | array items =>
          dsimp only
          rw [resolveReference_eq, List.mapM_pure]
          rfl
        | _ => rfl
      | into =>
        cases value with
        | object inner =>
          dsimp only
          rw [ih]
          rfl
        | _ => rfl
      | intoEach =>
        cases value with
        | array items =>
          dsimp only
          rw [mapM_congr (g := fun item => pure (changedInside (store.followed rest) item))
            fun item _ => ?_, List.mapM_pure]
          · rfl
          · cases item with
            | object inner => rw [ih]; rfl
            | _ => rfl
        | _ => rfl

/-! ### Positions after a path was followed -/

section Behind
variable {change : Object → Object} {f : Option Value → Option Value} {key : String}
  {rest : List Step} (hnone : f none = none)
  (h : ∀ inner, (Value.object (change inner)).at? (.key key :: rest) =
    f ((Value.object inner).at? (.key key :: rest)))
include hnone h

/-- What a change of objects does at a key it does to the objects among values, since other values
have no keys. -/
theorem at?_changedInside (value : Value) :
    (changedInside change value).at? (.key key :: rest) = f (value.at? (.key key :: rest)) := by
  cases value with
  | object inner => exact h inner
  | _ => exact hnone.symm

theorem at?_adjust_into (fields : Object) (name : String) :
    (Value.object (fields.adjust name (store.changedAt change .into))).at?
        (.key name :: .key key :: rest) =
      f ((Value.object fields).at? (.key name :: .key key :: rest)) := by
  rw [Value.at?_key, Value.at?_key, Object.value?_adjust, if_pos rfl]
  cases Object.value? fields name with
  | none => exact hnone.symm
  | some value => exact at?_changedInside hnone h value

theorem at?_adjust_each (fields : Object) (name : String) (index : Nat) :
    (Value.object (fields.adjust name (store.changedAt change .intoEach))).at?
        (.key name :: .item index :: .key key :: rest) =
      f ((Value.object fields).at? (.key name :: .item index :: .key key :: rest)) := by
  rw [Value.at?_key, Value.at?_key, Object.value?_adjust, if_pos rfl]
  cases Object.value? fields name with
  | none => exact hnone.symm
  | some value =>
    cases value with
    | array items =>
      rw [Option.map_some, Option.bind_some, Option.bind_some, changedAt, Value.at?_item,
        Value.at?_item, List.getElem?_map]
      cases items[index]? with
      | none => exact hnone.symm
      | some item => exact at?_changedInside hnone h item
    | _ => exact hnone.symm

end Behind

/-- **The slots of a path** hold the documents of their references afterwards. -/
theorem at?_followed (h : Hits hops position collection) (fields : Object) :
    (Value.object (store.followed hops fields)).at? position =
      ((Value.object fields).at? position).map (store.resolved collection) := by
  induction h generalizing fields with
  | @reference name collection rest =>
    rw [followed, Value.at?_key, Value.at?_key, Object.value?_adjust, if_pos rfl]
    cases Object.value? fields name <;> rfl
  | @references name collection rest index =>
    rw [followed, Value.at?_key, Value.at?_key, Object.value?_adjust, if_pos rfl]
    cases Object.value? fields name with
    | none => rfl
    | some value =>
      cases value with
      | array items =>
        rw [Option.map_some, Option.bind_some, Option.bind_some, changedAt, Value.at?_item,
          Value.at?_item, List.getElem?_map]
        cases items[index]? <;> rfl
      | _ => rfl
  | @into name collection rest position hrest ih =>
    obtain ⟨first, more, rfl⟩ := hrest.exists_key
    exact at?_adjust_into (f := Option.map (store.resolved collection)) rfl ih fields name
  | @each name collection rest position index hrest ih =>
    obtain ⟨first, more, rfl⟩ := hrest.exists_key
    exact at?_adjust_each (f := Option.map (store.resolved collection)) rfl ih fields name index

/-- **A path leaves the slots of others alone.** -/
theorem at?_followed_elsewhere (hparts : Parts others hops) (h : Hits hops position collection)
    (fields : Object) : (Value.object (store.followed others fields)).at? position =
      (Value.object fields).at? position := by
  induction hparts generalizing position fields with
  | @here name other hop otherHop rest otherRest hne =>
    have hkey : ∃ more, position = .key other :: more := by
      cases h <;> exact ⟨_, rfl⟩
    obtain ⟨more, rfl⟩ := hkey
    rw [followed, Value.at?_key, Value.at?_key, Object.value?_adjust, if_neg (Ne.symm hne)]
  | @into name rest otherRest _ ih =>
    cases h with
    | into h =>
      obtain ⟨first, more, rfl⟩ := h.exists_key
      exact at?_adjust_into (f := id) rfl (ih h) fields name
  | @each name rest otherRest _ ih =>
    cases h with
    | each index h =>
      obtain ⟨first, more, rfl⟩ := h.exists_key
      exact at?_adjust_each (f := id) rfl (ih h) fields name index

theorem changedInside_comm {change other : Object → Object}
    (h : ∀ inner, change (other inner) = other (change inner)) (value : Value) :
    changedInside change (changedInside other value) =
      changedInside other (changedInside change value) := by
  cases value with
  | object inner => exact congrArg Value.object (h inner)
  | _ => rfl

/-- **Two paths can be followed in any order.** -/
theorem followed_comm (h : Parts hops others) (fields : Object) :
    store.followed hops (store.followed others fields) =
      store.followed others (store.followed hops fields) := by
  induction h generalizing fields with
  | here hne =>
    rw [followed, followed, followed, followed]
    exact Object.adjust_comm (Ne.symm hne)
  | @into name rest otherRest _ ih =>
    rw [followed, followed, followed, followed, Object.adjust_adjust, Object.adjust_adjust]
    exact congrArg (fields.adjust name) (funext (changedInside_comm ih))
  | @each name rest otherRest _ ih =>
    rw [followed, followed, followed, followed, Object.adjust_adjust, Object.adjust_adjust]
    refine congrArg (fields.adjust name) (funext fun value => ?_)
    cases value with
    | array items =>
      simp only [Function.comp_apply, changedAt, List.map_map]
      exact congrArg Value.array (List.map_congr_left fun item _ => changedInside_comm ih item)
    | _ => rfl

/-- Behind one segment, values outside of the slots keep their outlines if those in the objects
there do. -/
theorem outline_changedAt {name : String} {hop : Hop} {rest : List (String × Hop)}
    {change : Object → Object} {position : List Step}
    (hchange : ∀ inner position, (∀ slot collection, Hits rest slot collection →
      ¬ slot <+: position) → ((Value.object (change inner)).at? position).map Value.outline =
        ((Value.object inner).at? position).map Value.outline)
    (h : ∀ slot collection, Hits ((name, hop) :: rest) slot collection →
      ¬ slot <+: .key name :: position) (value : Value) :
    ((store.changedAt change hop value).at? position).map Value.outline =
      (value.at? position).map Value.outline := by
  have hitems (change : Value → Value) (items : List Value) :
      Value.outline (.array (items.map change)) = Value.outline (.array items) := by
    rw [Value.outline, Value.outline, List.map_map]
    rfl
  cases hop with
  | reference collection => exact absurd (List.prefix_append _ position) (h _ _ .reference)
  | references collection =>
    cases value with
    | array items =>
      rcases position with _ | ⟨_ | index, more⟩
      · exact congrArg some (hitems _ items)
      · rfl
      · exact absurd (List.prefix_append _ more) (h _ _ (.references index))
    | _ => rfl
  | into =>
    cases value with
    | object inner =>
      refine hchange inner position fun slot collection hslot hbegins => ?_
      exact h _ _ hslot.into (List.cons_prefix_cons.mpr ⟨rfl, hbegins⟩)
    | _ => rfl
  | intoEach =>
    cases value with
    | array items =>
      rcases position with _ | ⟨_ | index, more⟩
      · exact congrArg some (hitems _ items)
      · rfl
      · rw [changedAt, Value.at?_item, Value.at?_item, List.getElem?_map]
        rcases items[index]? with _ | ⟨_ | _ | _ | _ | _ | inner⟩
        case some.object =>
          refine hchange inner more fun slot collection hslot hbegins => ?_
          exact h _ _ (hslot.each index)
            (List.cons_prefix_cons.mpr ⟨rfl, List.cons_prefix_cons.mpr ⟨rfl, hbegins⟩⟩)
        all_goals rfl
    | _ => rfl

/-- **Outside of the slots of a path** values keep their outlines. -/
theorem outline_followed (h : ∀ slot collection, Hits hops slot collection → ¬ slot <+: position)
    (fields : Object) :
    ((Value.object (store.followed hops fields)).at? position).map Value.outline =
      ((Value.object fields).at? position).map Value.outline := by
  induction hops generalizing position fields with
  | nil => rfl
  | cons first rest ih =>
    obtain ⟨name, hop⟩ := first
    rw [followed]
    rcases position with _ | ⟨key | _, more⟩
    · exact congrArg some (Value.outline_object Object.keys_adjust)
    · rw [Value.at?_key, Value.at?_key, Object.value?_adjust]
      by_cases hkey : key = name
      · subst hkey
        rw [if_pos rfl]
        cases Object.value? fields key with
        | none => rfl
        | some value => exact outline_changedAt (fun inner _ hapart => ih hapart inner) h value
      · rw [if_neg hkey]
    · rfl

end MemoryStore

/-! ### Several paths -/

section Paths
variable {registry : Registry} {store : MemoryStore} {tree : Tree} {path : String}
  {paths : List String} {documents : List Document}

/-- The plan of a path; a path that leads to no references has no hops. -/
def plan (registry : Registry) (tree : Tree) (path : String) : List (String × Hop) :=
  match planHops registry path tree.fields (Text.splitAt '.' path) with
  | .ok hops => hops
  | .error _ => []

theorem planHops_of_leads (h : Leads registry tree.fields (Text.splitAt '.' path)) :
    planHops registry path tree.fields (Text.splitAt '.' path) = .ok (plan registry tree path) ∧
      Planned registry tree.fields (Text.splitAt '.' path) (plan registry tree path) := by
  obtain ⟨hops, hplanned⟩ := leads_iff.mp h
  have hplan := (planHops_ok_iff path (Text.splitAt_ne_nil '.' path)).mpr hplanned
  rw [plan, hplan]
  exact ⟨rfl, hplanned⟩

/-- A document with the references at several paths replaced, one path after the other. -/
def populated (registry : Registry) (store : MemoryStore) (tree : Tree) (paths : List String)
    (document : Document) : Document :=
  paths.foldl (fun document path => store.followed (plan registry tree path) document) document

/-- Paths that lead to references are followed in every document. -/
theorem populate_of_leads
    (h : ∀ path ∈ paths, Leads registry tree.fields (Text.splitAt '.' path)) :
    populate registry (MemoryStore.backend.fetch store) tree paths documents =
      .ok (documents.map (populated registry store tree paths)) := by
  induction paths generalizing documents with
  | nil => exact congrArg Except.ok (List.map_id' documents).symm
  | cons path rest ih =>
    obtain ⟨hpath, hrest⟩ := List.forall_mem_cons.mp h
    have hfollow : populatePath registry (MemoryStore.backend.fetch store) tree path documents =
        .ok (documents.map (store.followed (plan registry tree path))) := by
      refine bind_ok_iff.mpr ⟨_, (planHops_of_leads hpath).1, ?_⟩
      rw [MemoryStore.followHops_eq]
      exact List.mapM_pure
    rw [populate, hfollow]
    refine (ih hrest).trans ?_
    rw [List.map_map]
    rfl

/-- **Replacing references fails** if some path does not lead to references. -/
theorem populate_error_iff :
    (∃ e, populate registry (MemoryStore.backend.fetch store) tree paths documents = .error e) ↔
      ∃ path ∈ paths, ¬ Leads registry tree.fields (Text.splitAt '.' path) := by
  constructor
  · rintro ⟨e, he⟩
    by_contra hnone
    push Not at hnone
    rw [populate_of_leads hnone] at he
    cases he
  · rintro ⟨path, hin, hpath⟩
    induction paths generalizing documents with
    | nil => cases hin
    | cons first rest ih =>
      rw [populate]
      cases hfirst :
        populatePath registry (MemoryStore.backend.fetch store) tree first documents with
      | error e => exact ⟨e, rfl⟩
      | ok next =>
        rcases List.mem_cons.mp hin with rfl | hin
        · obtain ⟨hops, hplan, -⟩ := bind_ok_iff.mp hfirst
          have hplanned := (planHops_ok_iff _ (Text.splitAt_ne_nil '.' path)).mp hplan
          exact absurd (leads_iff.mpr ⟨hops, hplanned⟩) hpath
        · exact ih hin

/-- Plans of different paths part. -/
theorem plan_parts {other : String} (h : Leads registry tree.fields (Text.splitAt '.' path))
    (hother : Leads registry tree.fields (Text.splitAt '.' other)) (hne : path ≠ other) :
    Parts (plan registry tree path) (plan registry tree other) :=
  (planHops_of_leads h).2.parts (planHops_of_leads hother).2
    fun heq => hne (Text.splitAt_injective '.' heq)

/-- **A slot is resolved once for each time** that its path is listed. -/
theorem at?_populated (hleads : ∀ path ∈ paths, Leads registry tree.fields (Text.splitAt '.' path))
    {position : List Step} {collection : String}
    (hslot : Slot registry tree.fields (Text.splitAt '.' path) position collection)
    (document : Document) :
    (Value.object (populated registry store tree paths document)).at? position =
      ((Value.object document).at? position).map
        (store.resolved collection)^[paths.count path] := by
  have hleadsPath : Leads registry tree.fields (Text.splitAt '.' path) := ⟨_, _, hslot⟩
  have hhits : Hits (plan registry tree path) position collection := by
    obtain ⟨hops, hplanned, hhits⟩ := hslot.planned
    rwa [(planHops_of_leads hleadsPath).2.unique hplanned]
  induction paths generalizing document with
  | nil => rw [List.count_nil, Function.iterate_zero, Option.map_id]; rfl
  | cons first rest ih =>
    obtain ⟨hfirst, hrest⟩ := List.forall_mem_cons.mp hleads
    refine (ih hrest _).trans ?_
    by_cases hpath : first = path
    · subst hpath
      rw [MemoryStore.at?_followed hhits, List.count_cons_self, Function.iterate_succ,
        Option.map_map]
    · rw [MemoryStore.at?_followed_elsewhere (plan_parts hfirst hleadsPath hpath) hhits,
        List.count_cons_of_ne hpath]

/-- Values outside of all slots keep their outlines. -/
theorem outline_populated
    (hleads : ∀ path ∈ paths, Leads registry tree.fields (Text.splitAt '.' path))
    {position : List Step} (hapart : ∀ path ∈ paths, ∀ slot collection,
      Slot registry tree.fields (Text.splitAt '.' path) slot collection → ¬ slot <+: position)
    (document : Document) :
    ((Value.object (populated registry store tree paths document)).at? position).map
        Value.outline =
      ((Value.object document).at? position).map Value.outline := by
  induction paths generalizing document with
  | nil => rfl
  | cons first rest ih =>
    obtain ⟨hfirst, hrest⟩ := List.forall_mem_cons.mp hleads
    obtain ⟨hfirstApart, hrestApart⟩ := List.forall_mem_cons.mp hapart
    refine (ih hrest hrestApart _).trans (MemoryStore.outline_followed ?_ document)
    exact fun slot collection hhits =>
      hfirstApart slot collection ((planHops_of_leads hfirst).2.slot hhits)

/-- **The order of paths does not matter.** -/
theorem populated_perm {others : List String}
    (hleads : ∀ path ∈ paths, Leads registry tree.fields (Text.splitAt '.' path))
    (hperm : paths.Perm others) (document : Document) :
    populated registry store tree paths document =
      populated registry store tree others document := by
  refine hperm.foldl_eq' (fun first hfirst second hsecond between => ?_) document
  by_cases heq : first = second
  · rw [heq]
  · exact MemoryStore.followed_comm
      (plan_parts (hleads second hsecond) (hleads first hfirst) (Ne.symm heq)) between

/-- **The references at paths are replaced** in a document: a slot is resolved as often as its path
is listed, which is the same as once unless the document put in place can be taken for a reference
itself; and outside of the slots everything is as before. -/
structure Replaced (registry : Registry) (store : MemoryStore) (tree : Tree) (paths : List String)
    (document result : Document) : Prop where
  slots : ∀ path ∈ paths, ∀ position collection,
    Slot registry tree.fields (Text.splitAt '.' path) position collection →
    (Value.object result).at? position = ((Value.object document).at? position).map
      (store.resolved collection)^[paths.count path]
  once : ∀ path ∈ paths, ∀ position collection value,
    Slot registry tree.fields (Text.splitAt '.' path) position collection →
    (Value.object document).at? position = some value →
    paths.count path = 1 ∨ (store.resolved collection value).referenceId? = none →
    (Value.object result).at? position = some (store.resolved collection value)
  others : ∀ position, (∀ path ∈ paths, ∀ slot collection,
      Slot registry tree.fields (Text.splitAt '.' path) slot collection → ¬ slot <+: position) →
    ((Value.object result).at? position).map Value.outline =
      ((Value.object document).at? position).map Value.outline

theorem populated_replaced
    (hleads : ∀ path ∈ paths, Leads registry tree.fields (Text.splitAt '.' path))
    (document : Document) :
    Replaced registry store tree paths document (populated registry store tree paths document) where
  slots _ _ _ _ hslot := at?_populated hleads hslot document
  once path hin position collection value hslot hvalue honce := by
    rw [at?_populated hleads hslot document, hvalue, Option.map_some]
    rcases honce with hcount | hplain
    · rw [hcount, Function.iterate_one]
    · obtain ⟨n, hn⟩ : ∃ n, paths.count path = n + 1 :=
        Nat.exists_eq_succ_of_ne_zero (List.count_pos_iff.mpr hin).ne'
      rw [hn, Function.iterate_succ_apply,
        Function.iterate_fixed (MemoryStore.resolved_plain hplain)]
  others _ hapart := outline_populated hleads hapart document

/-- **What replacing references does** with a store in memory: it fails if some path does not lead
to references, and otherwise replaces those at the paths and nothing else, in any order. -/
theorem populate_replaces (registry : Registry) (store : MemoryStore) (tree : Tree)
    (paths : List String) (documents : List Document) :
    ((∃ e, populate registry (MemoryStore.backend.fetch store) tree paths documents = .error e) ↔
      ∃ path ∈ paths, ¬ Leads registry tree.fields (Text.splitAt '.' path)) ∧
    ∀ results,
      populate registry (MemoryStore.backend.fetch store) tree paths documents = .ok results →
      List.Forall₂ (Replaced registry store tree paths) documents results ∧
      ∀ others, paths.Perm others →
        populate registry (MemoryStore.backend.fetch store) tree others documents =
          .ok results := by
  refine ⟨populate_error_iff, fun results hresults => ?_⟩
  have hleads : ∀ path ∈ paths, Leads registry tree.fields (Text.splitAt '.' path) := by
    intro path hin
    by_contra hnot
    obtain ⟨e, he⟩ := populate_error_iff.mpr ⟨path, hin, hnot⟩
    rw [hresults] at he
    cases he
  rw [populate_of_leads hleads] at hresults
  obtain rfl := Except.ok.inj hresults
  refine ⟨?_, fun others hperm => ?_⟩
  · rw [List.forall₂_map_right_iff, List.forall₂_same]
    exact fun document _ => populated_replaced hleads document
  · have hothers : ∀ path ∈ others, Leads registry tree.fields (Text.splitAt '.' path) :=
      fun path hin => hleads path (hperm.mem_iff.mpr hin)
    rw [populate_of_leads hothers]
    exact congrArg Except.ok (List.map_congr_left fun document _ =>
      (populated_perm hleads hperm document).symm)

end Paths

/-- A schema of pupils with a group. -/
def pupilTree : Tree where
  collection := "people"
  id := .standard
  fields := [("group", .reference "groups" .incr false)]
  settings := {}

/-- The first of two groups has an undeclared field with the key of references. -/
def firstGroup : Document := [("id", .ofNat 1), ("title", .string "a"), (refKey, .ofNat 2)]

/-- The store of the two groups. -/
def groupStore : MemoryStore where
  shardMax := 1000
  holdings := [{ collection := "groups", documents :=
    [firstGroup, [("id", .ofNat 2), ("title", .string "b")]] }]

/-- A pupil of the first group. -/
def thePupil : Document := [("id", .ofNat 3), ("group", reference "groups" (.number 1))]

/-- The schema of pupils only; nothing else is asked of it. -/
def pupilRegistry : Registry where
  shardMax := 1000
  trees := [pupilTree]

theorem group_slot :
    Slot pupilRegistry pupilTree.fields (Text.splitAt '.' "group") [.key "group"] "groups" := by
  have hsplit : Text.splitAt '.' "group" = ["group"] := by decide
  rw [hsplit]
  exact .reference rfl

/-- The group stands in the place of its reference. -/
theorem pupil_populated : ∃ result,
    populate pupilRegistry (MemoryStore.backend.fetch groupStore) pupilTree ["group"]
      [thePupil] = .ok [result] ∧
    (Value.object result).at? [.key "group"] = some (.object firstGroup) := by
  obtain ⟨hfails, hreplaced⟩ :=
    populate_replaces pupilRegistry groupStore pupilTree ["group"] [thePupil]
  cases hrun : populate pupilRegistry (MemoryStore.backend.fetch groupStore) pupilTree ["group"]
      [thePupil] with
  | error e =>
    obtain ⟨path, hin, hnot⟩ := hfails.mp ⟨e, hrun⟩
    rw [List.mem_singleton.mp hin] at hnot
    exact absurd ⟨_, _, group_slot⟩ hnot
  | ok results =>
    obtain ⟨hdone, -⟩ := hreplaced results hrun
    cases hdone with
    | cons hpupil hrest =>
      cases hrest
      exact ⟨_, rfl, hpupil.once "group" List.mem_cons_self _ _ _ group_slot rfl (.inl (by decide))⟩

/-- The path is listed twice, and the second time the field of the first group is followed. -/
theorem listed_twice_followed_twice : ¬ ∀ (registry : Registry) (store : MemoryStore) (tree : Tree)
    (paths : List String) (document result : Document),
    populate registry (MemoryStore.backend.fetch store) tree paths [document] = .ok [result] →
    ∀ path ∈ paths, ∀ position collection value,
      Slot registry tree.fields (Text.splitAt '.' path) position collection →
      (Value.object document).at? position = some value →
      (Value.object result).at? position = some (store.resolved collection value) := by
  intro h
  have hrun : populate pupilRegistry (MemoryStore.backend.fetch groupStore) pupilTree
      ["group", "group"] [thePupil] = .ok [[("id", .ofNat 3),
        ("group", .object [("id", .ofNat 2), ("title", .string "b")])]] := by
    rfl
  have hgroup := h _ _ _ _ _ _ hrun "group" List.mem_cons_self _ _ _ group_slot rfl
  have hfirst : some (Value.object [("id", .ofNat 2), ("title", .string "b")]) =
      some (.object firstGroup) := hgroup
  cases hfirst

end DocumentDb
