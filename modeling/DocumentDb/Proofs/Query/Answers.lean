import DocumentDb.Proofs.Query.Faults
import DocumentDb.Proofs.Query.SortOrder
import DocumentDb.Proofs.Query.StableSort

/-!
# What queries answer

A query is put together by calls, and the calls alone tell its answer: which documents pass
(`QueryCall.Passes`), what is returned of them (`QueryCall.projected`), and which of two comes first
(`ComesFirst`). The answer is the one stable sort of the documents that pass, after projection
(`QueryCall.Answer`). A run returns a segment of it, and pages of any size put together are all of
it (`run_answers`).

The comparison of sorting is an order only of values of one kind (`sortOrder_laws`), so this is
asked of the values that documents are sorted by.
-/

namespace DocumentDb

/-! ### What calls ask for -/

/-- Two truth values joined by a connective. -/
def Connective.Joins : Connective → Prop → Prop → Prop
  | and, p, q => p ∧ q
  | or, p, q => p ∨ q

namespace QueryCall

/-- The predicate with which a call opens a chain. -/
def opening? : QueryCall → Option Predicate
  | filter expression => (Query.predicate expression).toOption
  | whereArray path key operator literal =>
    (Expression.ofTokens key operator literal).toOption.map fun e =>
      .itemsLeft path (·.filter e.holdsOfItem)
  | whereWith path edit => some (.itemsLeft path edit)
  | _ => none

/-- What a call joins to the last chain. -/
def link? : QueryCall → Option (Connective × Predicate)
  | join connective expression => (Query.predicate expression).toOption.map (connective, ·)
  | _ => none

/-- The links of a chain: what is joined after the call that opens it, up to the next such call. -/
def links (after : List QueryCall) : List (Connective × Predicate) :=
  (after.takeWhile (·.opening?.isNone)).filterMap link?

/-- **A document passes**: of each chain, the predicates joined from left to right hold. -/
def Passes (calls : List QueryCall) (document : Document) : Prop :=
  ∀ before call after first, calls = before ++ call :: after → call.opening? = some first →
    (links after).foldl
      (fun holds link => link.1.Joins holds (link.2.holds (.object document) = true))
      (first.holds (.object document) = true)

/-- The part of a document that is returned. -/
def projected (calls : List QueryCall) (document : Document) : Document :=
  match calls.flatMap included, calls.flatMap excluded with
  | [], [] => document
  | [], dropped => document.dropping dropped
  | kept, _ => document.keeping kept

/-- The order that a call asks for. -/
def sorting? : QueryCall → Option (String × Direction)
  | sortBy field direction => some (field, direction)
  | _ => none

/-- The number of documents that a call skips. -/
def skipped? : QueryCall → Option Nat
  | skip count => some count
  | _ => none

/-- The number of documents that a call takes. -/
def taken? : QueryCall → Option Nat
  | take count => some count
  | _ => none

/-- The order of the answer: the last one asked for. -/
def order? (calls : List QueryCall) : Option (String × Direction) :=
  (calls.filterMap sorting?).getLast?

/-- The place in the answer where the segment begins that is returned. -/
def offset (calls : List QueryCall) : Nat := ((calls.filterMap skipped?).getLast?).getD 0

/-- The length of the segment, unless it goes on to the end. -/
def limit? (calls : List QueryCall) : Option Nat := (calls.filterMap taken?).getLast?

end QueryCall

/-- The value that a document is sorted by; a missing one counts as null. -/
def sortValue (field : String) (document : Document) : Value :=
  ((Value.object document).atPath? field).getD .null

/-- **Which of two documents comes first** in an order; without one, neither does. -/
def ComesFirst : Option (String × Direction) → Document → Document → Prop
  | none, _, _ => False
  | some (field, .ascending), a, b => Precedes (sortValue field a) (sortValue field b)
  | some (field, .descending), a, b => Precedes (sortValue field b) (sortValue field a)

instance (order : Option (String × Direction)) : DecidableRel (ComesFirst order) := fun a b =>
  match order with
  | none => isFalse id
  | some (field, .ascending) => inferInstanceAs (Decidable (Precedes _ (sortValue field b)))
  | some (field, .descending) => inferInstanceAs (Decidable (Precedes _ (sortValue field a)))

/-- The part of a list from an offset on, of a given length at most. -/
def segment {α : Type} (offset : Nat) (limit? : Option Nat) (found : List α) : List α :=
  limit?.elim (found.drop offset) (found.drop offset).take

namespace QueryCall

/-- The documents that pass can be sorted: their values are of one kind, or null or missing. -/
def Sortable (calls : List QueryCall) (documents : List Document) : Prop :=
  ∀ field direction, order? calls = some (field, direction) →
    ∃ kind, ∀ document ∈ documents, Passes calls document →
      (sortValue field (projected calls document)).OfKind kind

open Classical in
/-- **The answer** to calls: what is returned of the documents that pass, in a stable sort. -/
def Answer (calls : List QueryCall) (documents found : List Document) : Prop :=
  StableSort (ComesFirst (order? calls))
    ((documents.filter (Passes calls ·)).map (projected calls)) found

end QueryCall

/-! ### Chains -/

theorem Connective.join_iff {connective : Connective} {p q : Bool} :
    connective.join p q = true ↔ connective.Joins (p = true) (q = true) := by
  cases connective with
  | and => exact Bool.and_eq_true_iff
  | or => exact Bool.or_eq_true_iff

theorem Chain.holds_iff {chain : Chain} {document : Value} : chain.holds document = true ↔
    chain.links.foldl (fun holds link => link.1.Joins holds (link.2.holds document = true))
      (chain.first.holds document = true) := by
  unfold Chain.holds
  generalize chain.first.holds document = acc
  induction chain.links generalizing acc with
  | nil => rfl
  | cons link links ih => rw [List.foldl_cons, List.foldl_cons, ih, Connective.join_iff]

namespace Query
variable {query : Query} {predicate : Except QueryFault Predicate} {connective : Connective}

theorem openChain_chains_eq : (query.openChain predicate).chains =
    query.chains ++ (predicate.toOption.map (Chain.mk · [])).toList := by
  cases predicate with
  | ok => rfl
  | error => exact (List.append_nil _).symm

theorem extendChain_chains_eq : (query.extendChain connective predicate).chains =
    predicate.toOption.elim query.chains
      fun joined => (extendLast? connective joined query.chains).getD [] := by
  cases predicate with
  | error => rfl
  | ok joined =>
    simp only [extendChain, Except.toOption, Option.elim_some]
    cases h : extendLast? connective joined query.chains with
    | none => exact extendLast?_eq_none.mp h
    | some => rfl

/-- Filters leave the order and the segment alone. -/
theorem openChain_segment : (query.openChain predicate).sort = query.sort ∧
    (query.openChain predicate).offset = query.offset ∧
    (query.openChain predicate).limit = query.limit := by
  cases predicate <;> exact ⟨rfl, rfl, rfl⟩

theorem extendChain_segment : (query.extendChain connective predicate).sort = query.sort ∧
    (query.extendChain connective predicate).offset = query.offset ∧
    (query.extendChain connective predicate).limit = query.limit := by
  cases predicate with
  | error => exact ⟨rfl, rfl, rfl⟩
  | ok predicate =>
    simp only [extendChain]
    split <;> exact ⟨rfl, rfl, rfl⟩

end Query

namespace QueryCall

section Chains
variable {calls after : List QueryCall} {call : QueryCall}

/-- The chains that calls put together. -/
def chains : List QueryCall → List Chain
  | [] => []
  | call :: after =>
    match call.opening? with
    | some first => ⟨first, links after⟩ :: chains after
    | none => chains after

theorem mem_chains {chain : Chain} : chain ∈ chains calls ↔
    ∃ before call after first, calls = before ++ call :: after ∧ call.opening? = some first ∧
      chain = ⟨first, links after⟩ := by
  induction calls with
  | nil => simp [chains]
  | cons head rest ih =>
    constructor
    · intro hin
      have hlater : chain ∈ chains rest → ∃ before call after first,
          head :: rest = before ++ call :: after ∧ call.opening? = some first ∧
            chain = ⟨first, links after⟩ := by
        intro hrest
        obtain ⟨before, call, after, first, rfl, hfirst, hchain⟩ := ih.mp hrest
        exact ⟨head :: before, call, after, first, rfl, hfirst, hchain⟩
      cases hhead : head.opening? with
      | none =>
        simp only [chains, hhead] at hin
        exact hlater hin
      | some first =>
        simp only [chains, hhead, List.mem_cons] at hin
        rcases hin with rfl | hrest
        · exact ⟨[], head, rest, first, rfl, hhead, rfl⟩
        · exact hlater hrest
    · rintro ⟨before, call, after, first, hcalls, hfirst, rfl⟩
      cases before with
      | nil =>
        obtain ⟨rfl, rfl⟩ := List.cons.inj hcalls
        simp [chains, hfirst]
      | cons other before =>
        obtain ⟨rfl, rfl⟩ := List.cons.inj hcalls
        have hrest := ih.mpr ⟨before, call, after, first, rfl, hfirst, rfl⟩
        cases hhead : head.opening? with
        | none => simpa only [chains, hhead] using hrest
        | some => simpa only [chains, hhead] using List.mem_cons_of_mem _ hrest

theorem links_cons_of_opens {first : Predicate} (hopens : call.opening? = some first) :
    links (call :: after) = [] := by
  simp [links, hopens]

theorem links_cons (hcloses : call.opening? = none) :
    links (call :: after) = call.link?.toList ++ links after := by
  cases hlink : call.link? <;> simp [links, hcloses, hlink]

theorem links_append_of_opens {first : Predicate} (hopens : call.opening? = some first) :
    links (after ++ [call]) = links after := by
  induction after with
  | nil => exact links_cons_of_opens hopens
  | cons head rest ih =>
    rw [List.cons_append]
    cases hhead : head.opening? with
    | none => rw [links_cons hhead, links_cons hhead, ih]
    | some => rw [links_cons_of_opens hhead, links_cons_of_opens hhead]

/-- A call that opens no chain joins something to the last one. -/
theorem links_append (hcloses : call.opening? = none) : links (after ++ [call]) =
    if chains after = [] then links after ++ call.link?.toList else links after := by
  induction after with
  | nil =>
    rw [List.nil_append, links_cons hcloses, chains, if_pos rfl]
    exact List.append_nil _
  | cons head rest ih =>
    rw [List.cons_append]
    cases hhead : head.opening? with
    | none =>
      rw [links_cons hhead, links_cons hhead, ih, chains, hhead]
      split
      · exact (List.append_assoc ..).symm
      · rfl
    | some =>
      rw [links_cons_of_opens hhead, links_cons_of_opens hhead, chains, hhead]
      simp

/-- What a call does to chains. -/
def extend (call : QueryCall) (chains : List Chain) : List Chain :=
  match call.opening?, call.link? with
  | some first, _ => chains ++ [⟨first, []⟩]
  | none, some (connective, joined) => (Query.extendLast? connective joined chains).getD []
  | none, none => chains

theorem chains_append : chains (calls ++ [call]) = call.extend (chains calls) := by
  cases hopening : call.opening? with
  | some first =>
    simp only [extend, hopening]
    induction calls with
    | nil => simp [chains, links, hopening]
    | cons head rest ih =>
      cases hhead : head.opening? <;> simp [chains, hhead, ih, links_append_of_opens hopening]
  | none =>
    cases hlink : call.link? with
    | none =>
      simp only [extend, hopening, hlink]
      induction calls with
      | nil => simp [chains, hopening]
      | cons head rest ih =>
        cases hhead : head.opening? <;> simp [chains, hhead, ih, links_append hopening, hlink]
    | some link =>
      simp only [extend, hopening, hlink]
      induction calls with
      | nil => simp [chains, hopening, Query.extendLast?]
      | cons head rest ih =>
        cases hhead : head.opening? with
        | none => simpa only [List.cons_append, chains, hhead] using ih
        | some first =>
          -- The head is the last chain just if no chain is opened behind it.
          simp only [List.cons_append, chains, hhead, ih, links_append hopening, hlink,
            Option.toList_some]
          cases hrest : chains rest with
          | nil => rfl
          | cons next others =>
            have hextends : Query.extendLast? link.1 link.2 (next :: others) ≠ none :=
              mt Query.extendLast?_eq_none.mp (List.cons_ne_nil next others)
            obtain ⟨extended, hextended⟩ := Option.ne_none_iff_exists'.mp hextends
            simp [Query.extendLast?, hextended]

theorem apply_extend (query : Query) : (call.apply query).chains = call.extend query.chains := by
  cases call with
  | filter expression =>
    rw [apply, Query.filter, Query.openChain_chains_eq, extend, opening?]
    cases Query.predicate expression with
    | ok => rfl
    | error => exact List.append_nil _
  | join connective expression =>
    have hchains : (apply query (join connective expression)).chains =
        (query.extendChain connective (Query.predicate expression)).chains := by
      cases connective <;> rfl
    rw [hchains, Query.extendChain_chains_eq]
    simp only [extend, opening?, link?]
    cases Query.predicate expression <;> rfl
  | whereArray path key operator literal =>
    rw [apply, Query.whereArray, Query.openChain_chains_eq, extend, opening?]
    cases Expression.ofTokens key operator literal with
    | ok => rfl
    | error => exact List.append_nil _
  | whereWith | including | excluding | sortBy | skip | take | populating => rfl

/-- **The chains of a query** are those that its calls put together. -/
theorem build_chains_eq (calls : List QueryCall) : (build calls).chains = chains calls := by
  induction calls using List.reverseRecOn with
  | nil => rfl
  | append_singleton calls call ih => rw [build_append, apply_extend, ih, chains_append]

theorem selects_iff {document : Document} :
    (build calls).selects document = true ↔ Passes calls document := by
  simp only [Query.selects, build_chains_eq, List.all_eq_true, mem_chains, Chain.holds_iff]
  constructor
  · intro h before call after first hcalls hfirst
    exact h _ ⟨before, call, after, first, hcalls, hfirst, rfl⟩
  · rintro h chain ⟨before, call, after, first, hcalls, hfirst, rfl⟩
    exact h before call after first hcalls hfirst

end Chains

/-! ### Projection, order and segment -/

section Segment
variable {calls : List QueryCall}

theorem build_project : (build calls).project = projected calls := by
  funext document
  rw [Query.project, projected, build_projections.1, build_projections.2]
  cases calls.flatMap included with
  | cons => rfl
  | nil =>
    cases calls.flatMap excluded with
    | nil => rfl
    | cons => rfl

theorem apply_segment (query : Query) (call : QueryCall) :
    (call.apply query).sort = call.sorting?.or query.sort ∧
    (call.apply query).offset = call.skipped?.getD query.offset ∧
    (call.apply query).limit = call.taken?.or query.limit := by
  cases call with
  | filter | whereArray | whereWith => exact Query.openChain_segment
  | join connective =>
    cases connective with
    | and | or => exact Query.extendChain_segment
  | including | excluding | sortBy | skip | take | populating => exact ⟨rfl, rfl, rfl⟩

/-- **The last call of a kind counts** for the order and for the segment. -/
theorem build_segment (calls : List QueryCall) : (build calls).sort = order? calls ∧
    (build calls).offset = offset calls ∧ (build calls).limit = limit? calls := by
  induction calls using List.reverseRecOn with
  | nil => exact ⟨rfl, rfl, rfl⟩
  | append_singleton calls call ih =>
    obtain ⟨hsort, hoffset, hlimit⟩ := ih
    obtain ⟨hsort', hoffset', hlimit'⟩ := apply_segment (build calls) call
    rw [build_append, hsort', hoffset', hlimit', hsort, hoffset, hlimit]
    simp only [order?, offset, limit?, List.filterMap_append, List.getLast?_append]
    refine ⟨?_, ?_, ?_⟩
    · cases hcall : call.sorting? <;> simp [hcall]
    · cases hcall : call.skipped? <;> simp [hcall]
    · cases hcall : call.taken? <;> simp [hcall]

end Segment

end QueryCall

/-! ### The order of documents -/

section Order
variable {order : Option (String × Direction)} {given : List Document}

/-- Values of one kind, null and missing ones with them, rank the documents that have them. -/
theorem ranks_comesFirst (h : ∀ field direction, order = some (field, direction) →
    ∃ kind, ∀ document ∈ given, (sortValue field document).OfKind kind) :
    Ranks (ComesFirst order) given := by
  cases order with
  | none => exact ⟨fun _ _ _ _ hfalse => hfalse.elim, fun _ _ _ _ _ _ hfalse => hfalse.elim⟩
  | some asked =>
    obtain ⟨field, direction⟩ := asked
    obtain ⟨kind, hkind⟩ := h field direction rfl
    have hbetween : ∀ a ∈ given, ∀ b ∈ given, ∀ c ∈ given,
        Precedes (sortValue field a) (sortValue field c) →
          Precedes (sortValue field a) (sortValue field b) ∨
            Precedes (sortValue field b) (sortValue field c) := by
      intro a ha b hb c hc hac
      rcases hac.or_bridges (sortValue field b) with hab | hbc | hbridges
      · exact .inl hab
      · exact .inr hbc
      · exact absurd hbridges (Value.OfKind.not_bridges (hkind a ha) (hkind b hb))
    cases direction with
    | ascending => exact ⟨fun a _ b _ => Precedes.asymm, hbetween⟩
    | descending =>
      exact ⟨fun a _ b _ => Precedes.asymm, fun a ha b hb c hc hca =>
        (hbetween c hc b hb a ha hca).symm⟩

theorem inOrder_iff {field : String} {direction : Direction} {a b : Document} :
    Query.inOrder field direction a b = true ↔ ¬ ComesFirst (some (field, direction)) b a := by
  cases direction with
  | ascending =>
    have hgt := sortOrder_gt_iff (a := (Value.object a).atPath? field)
      (b := (Value.object b).atPath? field)
    rw [ComesFirst, sortValue, sortValue, ← hgt]
    exact bne_iff_ne
  | descending =>
    have hlt := sortOrder_lt_iff (a := (Value.object a).atPath? field)
      (b := (Value.object b).atPath? field)
    rw [ComesFirst, sortValue, sortValue, ← hlt]
    exact bne_iff_ne

theorem stableSort_sorted {query : Query} (hranks : Ranks (ComesFirst query.sort) given) :
    StableSort (ComesFirst query.sort) given (query.sorted given) := by
  unfold Query.sorted
  cases hsort : query.sort with
  | none =>
    exact ⟨.refl given, List.pairwise_of_forall fun _ _ => id, fun _ _ => rfl⟩
  | some asked =>
    rw [hsort] at hranks
    exact stableSort_mergeSort hranks fun a b => inOrder_iff

end Order

/-! ### Segments and pages -/

/-- Consecutive segments of one length put together. -/
theorem flatten_segments {α : Type} (found : List α) (size count : Nat) :
    ((List.range count).map fun number => segment (number * size) (some size) found).flatten =
      found.take (count * size) := by
  induction count with
  | zero => simp
  | succ count ih =>
    rw [List.range_succ, List.map_append, List.flatten_append, ih, Nat.succ_mul, List.take_add]
    simp [segment]

namespace Query
variable {query : Query}

/-- A run returns a segment of what it has sorted. -/
theorem run_eq (hcheck : query.check = .ok ()) (documents : List Document) :
    query.run documents = .ok (segment query.offset query.limit
      (query.sorted ((documents.filter query.selects).map query.project))) := by
  have hpage (found : List Document) :
      query.page found = segment query.offset query.limit found := by
    unfold page segment
    cases query.limit <;> rfl
  rw [run, hcheck, ← hpage]
  rfl

/-- Asking for another segment changes nothing else. -/
theorem run_page (hcheck : query.check = .ok ()) (documents : List Document) (offset limit : Nat) :
    ((query.skip offset).take limit).run documents = .ok (segment offset (some limit)
      (query.sorted ((documents.filter query.selects).map query.project))) := by
  have hcheck' : ((query.skip offset).take limit).check = .ok () := hcheck
  exact run_eq hcheck' documents

end Query

/-- **What a query answers**, if it has no fault and its documents can be sorted. A document passes
if of each chain the predicates joined from left to right hold. The documents that pass, projected,
have one stable sort in the order asked for, and a run returns its segment; runs for consecutive
pages return all of it, once there are enough of them. -/
theorem run_answers (calls : List QueryCall) (documents : List Document)
    (hcheck : (QueryCall.build calls).check = .ok ())
    (hsortable : QueryCall.Sortable calls documents) :
    (∀ document, (QueryCall.build calls).selects document = true ↔
      QueryCall.Passes calls document) ∧
    ∃ found, QueryCall.Answer calls documents found ∧
      (∀ other, QueryCall.Answer calls documents other → other = found) ∧
      (QueryCall.build calls).run documents =
        .ok (segment (QueryCall.offset calls) (QueryCall.limit? calls) found) ∧
      ∀ size count, found.length ≤ count * size → ∃ pages,
        ((List.range count).mapM fun number =>
          (QueryCall.build (calls ++ [.skip (number * size), .take size])).run documents) =
            .ok pages ∧ pages.flatten = found := by
  classical
  obtain ⟨hsort, hoffset, hlimit⟩ := QueryCall.build_segment calls
  have hgiven : (documents.filter (QueryCall.build calls).selects).map
        (QueryCall.build calls).project =
      (documents.filter (QueryCall.Passes calls ·)).map (QueryCall.projected calls) := by
    rw [QueryCall.build_project]
    refine congrArg _ (List.filter_congr fun document _ => ?_)
    rw [Bool.eq_iff_iff, QueryCall.selects_iff, decide_eq_true_iff]
  have hranks : Ranks (ComesFirst (QueryCall.order? calls))
      ((documents.filter (QueryCall.Passes calls ·)).map (QueryCall.projected calls)) := by
    refine ranks_comesFirst fun field direction horder => ?_
    obtain ⟨kind, hkind⟩ := hsortable field direction horder
    refine ⟨kind, fun document hin => ?_⟩
    obtain ⟨source, hsource, rfl⟩ := List.mem_map.mp hin
    obtain ⟨hin, hpasses⟩ := List.mem_filter.mp hsource
    exact hkind source hin (of_decide_eq_true hpasses)
  have hanswer : QueryCall.Answer calls documents ((QueryCall.build calls).sorted
      ((documents.filter (QueryCall.build calls).selects).map
        (QueryCall.build calls).project)) := by
    rw [hgiven, QueryCall.Answer, ← hsort]
    rw [← hsort] at hranks
    exact stableSort_sorted hranks
  refine ⟨fun _ => QueryCall.selects_iff, _, hanswer,
    fun other hother => StableSort.unique hranks hother hanswer, ?_, fun size count henough => ?_⟩
  · rw [Query.run_eq hcheck, hoffset, hlimit]
  · have hpage (number : Nat) : (QueryCall.build
        (calls ++ [.skip (number * size), .take size])).run documents = pure
          (segment (number * size) (some size) ((QueryCall.build calls).sorted
            ((documents.filter (QueryCall.build calls).selects).map
              (QueryCall.build calls).project))) := by
      have hbuild : QueryCall.build (calls ++ [.skip (number * size), .take size]) =
          ((QueryCall.build calls).skip (number * size)).take size := by
        simp [QueryCall.build, QueryCall.apply]
      rw [hbuild]
      exact Query.run_page hcheck documents _ _
    refine ⟨_, by simp only [hpage, List.mapM_pure]; rfl, ?_⟩
    rw [flatten_segments, List.take_of_length_le henough]

/-- Calls that ask for the second oldest of some people, who need not all have an age. -/
def secondOldest : List QueryCall :=
  [.filter "age > 30", .join .or "name = Ann", .including ["age"], .sortBy "age" .descending,
    .skip 1, .take 1]

/-- People of whom two have one age and one has none. -/
def residents : List Document :=
  [[("id", .ofNat 1), ("name", .string "Ann")], [("id", .ofNat 2), ("age", .ofNat 40)],
    [("id", .ofNat 3), ("age", .ofNat 20)], [("id", .ofNat 4), ("age", .ofNat 40)]]

/-- The ages of the residents rank them, so the second oldest is a segment of the one answer. -/
theorem secondOldest_answers :
    (QueryCall.build secondOldest).check = .ok () ∧ QueryCall.Sortable secondOldest residents ∧
    ∃ found, QueryCall.Answer secondOldest residents found ∧
      (QueryCall.build secondOldest).run residents = .ok (segment 1 (some 1) found) := by
  have hcheck : (QueryCall.build secondOldest).check = .ok () := rfl
  have hsortable : QueryCall.Sortable secondOldest residents := by
    intro field direction horder
    obtain ⟨rfl, rfl⟩ : field = "age" ∧ direction = .descending := by cases horder; exact ⟨rfl, rfl⟩
    refine ⟨.number, fun document hin _ => ?_⟩
    simp only [residents, List.mem_cons, List.not_mem_nil, or_false] at hin
    rcases hin with rfl | rfl | rfl | rfl
    · exact .inl rfl
    · exact .inr rfl
    · exact .inr rfl
    · exact .inr rfl
  obtain ⟨-, found, hanswer, -, hrun, -⟩ := run_answers secondOldest residents hcheck hsortable
  exact ⟨hcheck, hsortable, found, hanswer, hrun⟩

end DocumentDb
