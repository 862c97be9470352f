import DocumentDb.Proofs.Document.Spending

/-!
# Where waiting documents come from

`Part.Leads` misses no document: whatever waits when a part has been built, and did not wait before,
was embedded on the way (`Part.accounts`). A part leads to parts of lower rank only
(`Part.Leads.rank_lt`), so this is by induction on the rank, with one lemma for each kind of part.
-/

namespace DocumentDb

/-! ### What steps let wait -/

namespace Build

section Steps
variable {context : Context} {work : Work} {found : PendingWrite → Prop} {α β : Type}

/-- **A step only lets wait what is found**, besides what waits already. -/
def Finds (context : Context) (found : PendingWrite → Prop) (work : Work) (step : Build α) : Prop :=
  ∀ write ∈ (step context work).2.pending, write ∈ work.pending ∨ found write

theorem Finds.bind {first : Build α} {next : α → Build β} (hfirst : Finds context found work first)
    (hnext : ∀ a after, first context work = (.ok a, after) →
      Finds context found after (next a)) : Finds context found work (first >>= next) := by
  unfold Finds at hfirst ⊢
  rw [bind_eq]
  rcases hstep : first context work with ⟨result, after⟩
  rw [hstep] at hfirst
  cases result with
  | error e => exact hfirst
  | ok a => exact fun write hwrite => (hnext a after hstep write hwrite).elim (hfirst write) .inr

theorem Finds.map {step : Build α} {f : α → β} (h : Finds context found work step) :
    Finds context found work (f <$> step) := fun write hwrite =>
  h write (pending_map ▸ hwrite)

/-- A step that adds nothing only lets wait what waits already. -/
theorem finds_of_adds {step : Build α} (hadds : Adds context 0 step)
    (happends : Appends context step) : Finds context found work step := by
  intro write hwrite
  have hsame : work.pending = (step context work).2.pending :=
    (happends work).eq_of_length_le (hadds work)
  exact .inl (hsame ▸ hwrite)

theorem finds_pure {a : α} : Finds context found work (pure a) := fun _ => .inl

theorem finds_lift {result : Except Error α} : Finds context found work (lift result) :=
  fun _ => .inl

theorem finds_mismatch {path : String} {expectation : Expectation} {value : Value} :
    Finds context found work (mismatch path expectation value : Build α) := finds_lift

theorem finds_buildFields {path : String} {fields : Fields} {input : Object} {scope : Scope}
    {reserved : List String}
    (h : Finds context found work (buildDeclared path fields input scope)) :
    Finds context found work (buildFields path fields input scope reserved) := by
  rw [buildFields]
  exact h.bind fun _ _ _ => finds_lift.bind fun _ _ _ => finds_pure

end Steps

/-- Where there is no input, nothing is let wait. -/
theorem thrifty_of_absent {context : Context} (node : Node) {value? : Option Value}
    (habsent : value? = none ∨ value? = some .null) :
    Job.Thrifty context (.value node value?) := by
  match node with
  | .nested fields =>
    refine Job.value_thrifty fun sub hsub => ?_
    cases hsub with
    | absentNested =>
      intro path scope reserved
      rw [buildFields]
      refine Adds.before ((buildDeclared_adds fun name node hfield path scope => ?_).mono ?_)
        fun _ => lift_adds.after fun _ => pure_adds
      · exact thrifty_of_absent node (.inl rfl) path scope
      · simp [Object.value?, Value.objectsOf, Value.fieldObjects]
    | nested => simp at habsent
  | .reference _ _ _ =>
    refine Job.value_thrifty fun sub hsub => ?_
    cases hsub with
    | reference =>
      obtain rfl : _ = Value.null := by simpa using habsent
      exact Job.reference_thrifty fun sub hsub => by cases hsub
  | .scalar _ _ | .array _ | .document _ _ | .list _ =>
    refine Job.value_thrifty fun sub hsub => ?_
    cases hsub <;> simp at habsent
termination_by sizeOf node
decreasing_by
  have hsmaller := List.sizeOf_lt_of_mem hfield
  simp only [Prod.mk.sizeOf_spec] at hsmaller
  simp only [Node.nested.sizeOf_spec]
  omega

end Build

/-! ### What parts let wait -/

namespace Part

section Accounts
variable {context : Context}

/-- Building a part embeds a document that waits. -/
def Brings (context : Context) (part : Part) (work : Work) (write : PendingWrite) : Prop :=
  ∃ behind, part.Embeds context write.collection write.document behind work

/-- **A part accounts for what it lets wait**: it brings all that did not wait before. -/
def Accounts (context : Context) (part : Part) (work : Work) : Prop :=
  ∀ write ∈ (part.left context work).pending,
    write ∈ work.pending ∨ part.Brings context work write

/-- All parts that a part leads to account for what they let wait. -/
def Backed (context : Context) (part : Part) (work : Work) : Prop :=
  ∀ sub next, part.Leads context work sub next → sub.Accounts context next

variable {part sub : Part} {work next : Work}

theorem Backed.accounts (h : part.Backed context work) (hleads : part.Leads context work sub next) :
    ∀ write ∈ (sub.left context next).pending,
      write ∈ next.pending ∨ part.Brings context work write :=
  fun write hwrite => (h sub next hleads write hwrite).imp_right fun ⟨behind, hembeds⟩ =>
    ⟨behind, .inside hleads hembeds⟩

end Accounts

end Part

namespace Build

section Parts
variable {context : Context} {work : Work} {path collection : String} {scope : Scope} {index : Nat}

theorem tree_taken {tree : Tree} {after : Work}
    (h : Build.tree collection context work = (.ok tree, after)) :
    context.registry.tree collection = .ok tree ∧ after = work :=
  ⟨congrArg Prod.fst h, (congrArg Prod.snd h).symm⟩

theorem lift_taken {α : Type} {result : Except Error α} {a : α} {after : Work}
    (h : lift result context work = (.ok a, after)) : result = .ok a ∧ after = work :=
  ⟨congrArg Prod.fst h, (congrArg Prod.snd h).symm⟩

theorem checkSize_finds {found : PendingWrite → Prop} {document : Document} :
    Finds context found work (do
      checkSize collection document
      pure document) :=
  (finds_of_adds checkSize_adds checkSize_appends).bind fun _ _ _ => finds_pure

theorem insert_accounts {input : Object} {inject : Option Owner}
    (h : (Part.insert path collection input inject).Backed context work) :
    (Part.insert path collection input inject).Accounts context work := by
  show Finds context _ work (insertDocument path collection input inject)
  rw [insertDocument]
  refine (finds_of_adds tree_adds tree_appends).bind fun tree after hfound => ?_
  obtain ⟨htree, rfl⟩ := tree_taken hfound
  refine (finds_of_adds newId_adds newId_appends).bind fun id taken hid => ?_
  refine (finds_buildFields (h.accounts (.inserted htree hid))).bind fun fields _ _ => ?_
  refine (finds_of_adds read_adds read_appends).bind fun _ _ _ => ?_
  exact checkSize_finds

theorem update_accounts {existing : Document} {patch : Object}
    (h : (Part.update path collection existing patch).Backed context work) :
    (Part.update path collection existing patch).Accounts context work := by
  show Finds context _ work (updateDocument path collection existing patch)
  rw [updateDocument]
  refine (finds_of_adds tree_adds tree_appends).bind fun tree after hfound => ?_
  obtain ⟨htree, rfl⟩ := tree_taken hfound
  cases hid : existing.id? with
  | none => exact finds_lift
  | some id =>
    refine finds_lift.bind fun _ after hchecked => ?_
    obtain ⟨hsame, rfl⟩ := lift_taken hchecked
    refine Finds.bind (h.accounts (.updated htree hid hsame)) fun merged _ _ => ?_
    refine (finds_of_adds read_adds read_appends).bind fun _ _ _ => ?_
    exact checkSize_finds

theorem buildField_finds {found : PendingWrite → Prop} {name : String} {node : Node}
    {input : Object} (h : ∀ value, Object.value? input name = some value →
      Finds context found work (buildValue (joinPath path name) node (some value) scope)) :
    Finds context found work (buildField path name node input scope) := by
  cases hvalue : Object.value? input name with
  | some value =>
    rw [buildField_of_some hvalue]
    exact h value hvalue
  | none =>
    have hnone : ∀ value, Object.value? input name ≠ some value := by simp [hvalue]
    refine finds_of_adds ?_ (buildField_composed _ _ _ _ _ fun _ hsome =>
      absurd hsome (hnone _)).appends
    rw [buildField]
    split
    · next hsome => exact absurd hsome (hnone _)
    · split
      · exact checkReference_adds.map
      · exact thrifty_of_absent node (.inl rfl) _ _

theorem fields_accounts {declared : Fields} {input : Object}
    (h : (Part.fields path declared input scope).Backed context work) :
    (Part.fields path declared input scope).Accounts context work := by
  show Finds context _ work (buildDeclared path declared input scope)
  cases declared with
  | nil =>
    rw [buildDeclared]
    exact finds_pure
  | cons field rest =>
    obtain ⟨name, node⟩ := field
    rw [buildDeclared]
    refine (buildField_finds fun value hvalue => h.accounts (.field hvalue)).bind
      fun built after hfirst => ?_
    exact Finds.bind (h.accounts (.otherFields hfirst)) fun _ _ _ => finds_pure

theorem merge_accounts {declared : Fields} {target patch : Object} {reserved : List String}
    (h : (Part.merge path declared target patch scope reserved).Backed context work) :
    (Part.merge path declared target patch scope reserved).Accounts context work := by
  show Finds context _ work (mergeFields path declared target patch scope reserved)
  cases patch with
  | nil =>
    rw [mergeFields]
    exact finds_pure
  | cons entry rest =>
    obtain ⟨key, value⟩ := entry
    by_cases hreserved : reserved.contains key = true
    · rw [mergeFields, if_pos hreserved]
      exact h.accounts (.mergeReserved hreserved)
    have hfree : reserved.contains key = false := Bool.eq_false_iff.mpr hreserved
    cases hnode : declared.node? key with
    | none =>
      rw [mergeFields, if_neg hreserved, hnode]
      dsimp only
      split_ifs with hstrict
      · exact finds_lift
      · exact h.accounts (.mergedUndeclared hfree hnode (Bool.eq_false_iff.mpr hstrict))
    | some node =>
      by_cases hnested : ∃ inner, node = .nested inner
      · obtain ⟨inner, rfl⟩ := hnested
        rw [mergeFields, if_neg hreserved, hnode]
        cases value with
        | object deeper =>
          refine Finds.bind (h.accounts (.mergeNested hfree hnode)) fun merged after hmerged => ?_
          exact h.accounts (.mergedNested hfree hnode hmerged)
        | _ => exact finds_mismatch
      · have hplain : ∀ inner, node ≠ .nested inner := fun inner heq => hnested ⟨inner, heq⟩
        rw [mergeFields_value hfree hnode hplain]
        refine Finds.bind (h.accounts (.mergeValue hfree hnode hplain)) fun built after hbuilt => ?_
        exact h.accounts (.mergedValue hfree hnode hplain hbuilt)

theorem value_accounts {node : Node} {raw : Value}
    (h : (Part.value path node raw scope).Backed context work) :
    (Part.value path node raw scope).Accounts context work := by
  show Finds context _ work (buildValue path node (some raw) scope)
  by_cases hnull : raw = .null
  · subst hnull
    exact finds_of_adds (thrifty_of_absent node (.inr rfl) path scope) buildValue_appends
  cases node with
  | scalar => simp only [buildValue]; exact finds_lift
  | array =>
    refine finds_of_adds ?_ buildValue_appends
    rw [buildValue]
    exact buildUntyped_adds
  | reference collection kind required =>
    rw [buildValue_reference hnull]
    exact Finds.map (h.accounts (.referenceValue hnull))
  | document collection required =>
    cases raw with
    | null => exact absurd rfl hnull
    | object input =>
      rw [buildValue]
      exact Finds.bind (h.accounts .documentValue) fun _ _ _ => finds_pure
    | _ => simp only [buildValue]; exact finds_mismatch
  | list element =>
    cases raw with
    | null => exact absurd rfl hnull
    | array items =>
      rw [buildValue]
      exact Finds.bind (h.accounts .listValue) fun _ _ _ => finds_pure
    | _ => simp only [buildValue]; exact finds_mismatch
  | nested fields =>
    cases raw with
    | null => exact absurd rfl hnull
    | object input =>
      rw [buildValue]
      exact (finds_buildFields (h.accounts .nestedValue)).bind fun _ _ _ => finds_pure
    | _ => simp only [buildValue]; exact finds_mismatch

theorem items_accounts {element : Element} {list : List Value}
    (h : (Part.items path element list scope).Backed context work) :
    (Part.items path element list scope).Accounts context work := by
  show Finds context _ work (buildItems path element list scope)
  unfold buildItems
  cases element with
  | any => exact finds_pure
  | scalar => exact finds_lift
  | reference => exact Finds.bind (h.accounts .referenceItems) fun _ _ _ => finds_pure
  | document => exact Finds.bind (h.accounts .documentItems) fun _ _ _ => finds_pure
  | object => exact h.accounts .objectItems
  | list => exact h.accounts .listItems

theorem references_accounts {list : List Value}
    (h : (Part.references path collection index list).Backed context work) :
    (Part.references path collection index list).Accounts context work := by
  show Finds context _ work (buildReferences path collection index list)
  cases list with
  | nil =>
    rw [buildReferences]
    exact finds_pure
  | cons item rest =>
    rw [buildReferences]
    refine Finds.bind (h.accounts .reference) fun first after hfirst => ?_
    exact Finds.bind (h.accounts (.otherReferences hfirst)) fun _ _ _ => finds_pure

theorem documents_accounts {list : List Value}
    (h : (Part.documents path collection index list scope).Backed context work) :
    (Part.documents path collection index list scope).Accounts context work := by
  show Finds context _ work (buildDocuments path collection index list scope)
  cases list with
  | nil =>
    rw [buildDocuments]
    exact finds_pure
  | cons item rest =>
    cases item with
    | object input =>
      rw [buildDocuments]
      refine Finds.bind (h.accounts .document) fun first after hfirst => ?_
      exact Finds.bind (h.accounts (.otherDocuments hfirst)) fun _ _ _ => finds_pure
    | _ =>
      rw [buildDocuments]
      · exact finds_mismatch
      all_goals nofun

theorem objects_accounts {declared : Fields} {list : List Value}
    (h : (Part.objects path declared index list scope).Backed context work) :
    (Part.objects path declared index list scope).Accounts context work := by
  show Finds context _ work (buildObjects path declared index list scope)
  cases list with
  | nil =>
    rw [buildObjects]
    exact finds_pure
  | cons item rest =>
    cases item with
    | object input =>
      rw [buildObjects]
      refine (finds_buildFields (h.accounts .object)).bind fun first after hfirst => ?_
      exact Finds.bind (h.accounts (.otherObjects hfirst)) fun _ _ _ => finds_pure
    | _ =>
      rw [buildObjects]
      · exact finds_mismatch
      all_goals nofun

theorem rows_accounts {element : Element} {list : List Value}
    (h : (Part.rows path element index list scope).Backed context work) :
    (Part.rows path element index list scope).Accounts context work := by
  show Finds context _ work (buildRows path element index list scope)
  cases list with
  | nil =>
    rw [buildRows]
    exact finds_pure
  | cons item rest =>
    cases item with
    | array row =>
      rw [buildRows]
      refine Finds.bind (h.accounts .row) fun first after hfirst => ?_
      exact Finds.bind (h.accounts (.otherRows hfirst)) fun _ _ _ => finds_pure
    | _ =>
      rw [buildRows]
      · exact finds_mismatch
      all_goals nofun

theorem reference_accounts {raw : Value}
    (h : (Part.reference path collection raw).Backed context work) :
    (Part.reference path collection raw).Accounts context work := by
  show Finds context _ work (buildReference path collection raw)
  unfold buildReference
  split_ifs with hreference
  · exact finds_of_adds checkReference_adds (space_appends.bind fun _ => lift_appends)
  · cases raw with
    | object input =>
      have hshape : (Value.object input).isReference = false := Bool.eq_false_iff.mpr hreference
      refine Finds.bind (h.accounts (.referenced hshape)) fun document _ _ => ?_
      split
      · exact finds_pure
      · exact finds_lift
    | _ => exact finds_mismatch

theorem finds_push {step : Build Document} {found : PendingWrite → Prop}
    (hstep : Finds context found work step)
    (hfound : ∀ document after, (do
      let document ← step
      push collection document
      pure document : Build Document) context work = (.ok document, after) →
        found ⟨collection, document⟩) :
    Finds context found work (do
      let document ← step
      push collection document
      pure document) := by
  refine hstep.bind fun document after hbuilt write hwrite => ?_
  rcases List.mem_append.mp hwrite with hin | hin
  · exact .inl hin
  · obtain rfl := List.mem_singleton.mp hin
    refine .inr (hfound document (after.push collection document) ?_)
    rw [bind_of_ok hbuilt]
    rfl

theorem embed_accounts {input : Object} {inject : Option Owner}
    (h : (Part.embed path collection input inject).Backed context work) :
    (Part.embed path collection input inject).Accounts context work := by
  show Finds context _ work (embedDocument path collection input inject)
  have hbrings : ∀ document after,
      embedDocument path collection input inject context work = (.ok document, after) →
        (Part.embed path collection input inject).Brings context work ⟨collection, document⟩ :=
    fun document after hbuilt => ⟨after, .here hbuilt⟩
  by_cases hid : Object.value? input idKey = none ∨ Object.value? input idKey = some .null
  · rw [embedDocument_unnamed hid, createEmbedded] at hbrings ⊢
    exact finds_push (h.accounts (.create hid)) hbrings
  obtain ⟨value, hvalue, hnull⟩ := named_of_not_unnamed hid
  rw [embedDocument_named hvalue hnull] at hbrings ⊢
  refine (finds_of_adds space_adds space_appends).bind fun space looked hspace => ?_
  rw [bind_of_ok hspace] at hbrings
  refine finds_lift.bind fun id after hchecked => ?_
  rw [bind_of_ok hchecked] at hbrings
  obtain ⟨hcast, rfl⟩ := lift_taken hchecked
  by_cases hused : space.contains id = true
  · rw [if_pos hused] at hbrings ⊢
    refine (finds_of_adds lookup_adds lookup_appends).bind fun stored found hlookup => ?_
    rw [bind_of_ok hlookup] at hbrings
    by_cases hsame : changesNothing input stored = true
    · rw [if_pos hsame]
      exact finds_pure
    · rw [if_neg hsame] at hbrings ⊢
      have hchanges : changesNothing input stored = false := Bool.eq_false_iff.mpr hsame
      exact finds_push (h.accounts (.change hvalue hnull hspace hcast hused hlookup hchanges))
        hbrings
  · rw [if_neg hused, createEmbedded] at hbrings ⊢
    have hunused : space.contains id = false := Bool.eq_false_iff.mpr hused
    exact finds_push (h.accounts (.createNamed hvalue hnull hspace hcast hunused)) hbrings

end Parts

end Build

/-! ### All parts account for what they let wait -/

namespace Part

open Build.Job (RankLt rankLt_of_input wellFounded_rankLt)

/-- The rank of a part: the size of its input, how far it is from the fields, and the size of its
part of the schema. -/
noncomputable def rank : Part → ℕ × ℕ × ℕ
  | .insert _ _ input _ | .update _ _ _ input => (sizeOf input, 2, 0)
  | .fields _ declared input _ => (sizeOf input, 1, sizeOf declared)
  | .merge _ _ _ patch _ _ => (sizeOf patch, 1, 0)
  | .value _ _ raw _ => (sizeOf raw, 1, 0)
  | .items _ _ list _ => (sizeOf list, 1, 0)
  | .references _ _ _ list | .documents _ _ _ list _ | .objects _ _ _ list _
  | .rows _ _ _ list _ => (sizeOf list, 0, 0)
  | .reference _ _ raw => (sizeOf raw, 0, 0)
  | .embed _ _ input _ => (sizeOf input, 3, 0)

/-- **A part leads to parts of lower rank.** -/
theorem Leads.rank_lt {context : Context} {part sub : Part} {work next : Work}
    (h : part.Leads context work sub next) : RankLt sub.rank part.rank := by
  cases h with
  | create | createNamed | change | inserted | updated =>
    exact .right _ (.left _ _ (by decide))
  | field hvalue =>
    have hsmaller := Object.sizeOf_lt_of_value?_eq_some hvalue
    exact rankLt_of_input (by omega)
  | otherFields => exact .right _ (.right _ (by simp))
  | mergeReserved | mergeNested | mergedNested | mergeValue | mergedValue | mergedUndeclared =>
    exact rankLt_of_input (by simp <;> omega)
  | referenceValue | referenceItems | documentItems | objectItems | listItems =>
    exact .right _ (.left _ _ (by decide))
  | documentValue | listValue | nestedValue | referenced => exact rankLt_of_input (by simp)
  | reference | otherReferences | document | otherDocuments | object | otherObjects | row
  | otherRows => exact rankLt_of_input (by simp <;> omega)

/-- **Every part accounts for what it lets wait.** -/
theorem accounts (context : Context) (part : Part) (work : Work) : part.Accounts context work := by
  induction part using (InvImage.wf rank wellFounded_rankLt).induction generalizing work with
  | _ part ih =>
    have hbacked : part.Backed context work := fun sub next hleads => ih sub hleads.rank_lt next
    cases part with
    | insert => exact Build.insert_accounts hbacked
    | update => exact Build.update_accounts hbacked
    | fields => exact Build.fields_accounts hbacked
    | merge => exact Build.merge_accounts hbacked
    | value => exact Build.value_accounts hbacked
    | items => exact Build.items_accounts hbacked
    | references => exact Build.references_accounts hbacked
    | documents => exact Build.documents_accounts hbacked
    | objects => exact Build.objects_accounts hbacked
    | rows => exact Build.rows_accounts hbacked
    | reference => exact Build.reference_accounts hbacked
    | embed => exact Build.embed_accounts hbacked

end Part

end DocumentDb
