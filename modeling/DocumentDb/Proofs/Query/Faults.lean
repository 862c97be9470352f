import DocumentDb.Proofs.Database.Runs
import Mathlib

/-!
# Queries with a fault

A query is put together by calls. Which of them fail is told by the calls alone (`QueryCall.Fails`):
one whose expression or tokens cannot be read, and a connective where no earlier call has opened a
chain. A query only records that a call failed and drops its predicate, so it would select more
documents than were asked for.

No collection acts on such a query. Whatever is called before or after the earliest failing call,
everything that takes the query fails with the fault of that call, and so it does if both kinds of
projection were asked for; nothing is written (`broken_query_refused`). Every other query passes
the check.
-/

namespace DocumentDb

/-! ### Calls that build a query -/

/-- A call that puts something into a query. -/
inductive QueryCall where
  | filter (expression : String)
  | join (connective : Connective) (expression : String)
  | whereArray (path key operator literal : String)
  | whereWith (path : String) (edit : List Value → List Value)
  | including (fields : List String)
  | excluding (fields : List String)
  | sortBy (field : String) (direction : Direction)
  | skip (count : Nat)
  | take (count : Nat)
  | populating (paths : List String)

namespace QueryCall

/-- The query after a call. -/
def apply (query : Query) : QueryCall → Query
  | filter expression => query.filter expression
  | join .and expression => query.and expression
  | join .or expression => query.or expression
  | whereArray path key operator literal => query.whereArray path key operator literal
  | whereWith path edit => query.whereWith path edit
  | including fields => query.including fields
  | excluding fields => query.excluding fields
  | sortBy field direction => query.sortBy field direction
  | skip count => query.skip count
  | take count => query.take count
  | populating paths => query.populating paths

/-- The query that calls put together. -/
def build (calls : List QueryCall) : Query := calls.foldl apply {}

/-- An expression cannot stand in a filter: it cannot be read, or its operator is `===`. -/
inductive Unfit (expression : String) : QueryFault → Prop
  | unread {fault : QueryFault} (hparse : Expression.parse expression = .error fault) :
    Unfit expression fault
  | strict {e : Expression} (hparse : Expression.parse expression = .ok e)
    (hstrict : e.operator = .strictEq) : Unfit expression (.strictFilter expression)

/-- Three tokens are no expression: the key is empty, or there is no such operator. -/
inductive UnfitTokens (key operator : String) : QueryFault → Prop
  | noKey (hkey : Text.trim key = "") : UnfitTokens key operator .noKey
  | noOperator (hkey : Text.trim key ≠ "")
    (hoperator : Operator.ofSymbol? (Text.trim operator) = none) :
    UnfitTokens key operator (.unknownOperator (Text.trim operator))

/-- A call opens a chain. -/
inductive Opens : QueryCall → Prop
  | filter {expression : String} (hfit : ∀ fault, ¬ Unfit expression fault) :
    Opens (filter expression)
  | whereArray {path key operator literal : String}
    (hfit : ∀ fault, ¬ UnfitTokens key operator fault) :
    Opens (whereArray path key operator literal)
  | whereWith {path : String} {edit : List Value → List Value} : Opens (whereWith path edit)

/-- **A call fails** after others, with a fault. -/
inductive Fails (before : List QueryCall) : QueryCall → QueryFault → Prop
  | filter {expression : String} {fault : QueryFault} (hunfit : Unfit expression fault) :
    Fails before (filter expression) (.recorded fault)
  | join {connective : Connective} {expression : String} {fault : QueryFault}
    (hunfit : Unfit expression fault) : Fails before (join connective expression) (.recorded fault)
  | dangling {connective : Connective} {expression : String}
    (hfit : ∀ fault, ¬ Unfit expression fault) (hclosed : ∀ earlier ∈ before, ¬ earlier.Opens) :
    Fails before (join connective expression) (.dangling connective.name)
  | whereArray {path key operator literal : String} {fault : QueryFault}
    (hunfit : UnfitTokens key operator fault) :
    Fails before (whereArray path key operator literal) (.recorded fault)

/-- No call fails. -/
def Succeed (calls : List QueryCall) : Prop :=
  ∀ before call after, calls = before ++ call :: after → ∀ fault, ¬ Fails before call fault

/-- **The earliest call that fails** does so with a fault. -/
def FailsFirst (calls : List QueryCall) (fault : QueryFault) : Prop :=
  ∃ before call after, calls = before ++ call :: after ∧ Succeed before ∧ Fails before call fault

/-- Fields were given to both kinds of projection. -/
def Clash (calls : List QueryCall) : Prop :=
  (∃ fields, including fields ∈ calls ∧ fields ≠ []) ∧
    ∃ fields, excluding fields ∈ calls ∧ fields ≠ []

/-! ### What cannot be read -/

theorem predicate_error_iff {expression : String} {fault : QueryFault} :
    Query.predicate expression = .error fault ↔ Unfit expression fault := by
  unfold Query.predicate
  constructor
  · intro h
    cases hparse : Expression.parse expression with
    | error other =>
      rw [hparse] at h
      cases h
      exact .unread hparse
    | ok e =>
      simp only [hparse, bind, Except.bind] at h
      split at h
      · next hstrict => cases h; exact .strict hparse hstrict
      · cases h
  · rintro (hparse | ⟨hparse, hstrict⟩)
    · rw [hparse]; rfl
    · simp only [hparse, bind, Except.bind, hstrict, if_pos]

theorem ofTokens_error_iff {key operator : String} (literal : String) {fault : QueryFault} :
    Expression.ofTokens key operator literal = .error fault ↔ UnfitTokens key operator fault := by
  simp only [Expression.ofTokens, Operator.parse, String.isEmpty_iff]
  constructor
  · intro h
    by_cases hkey : Text.trim key = ""
    · rw [if_pos hkey] at h
      cases h
      exact .noKey hkey
    · rw [if_neg hkey] at h
      cases hoperator : Operator.ofSymbol? (Text.trim operator) with
      | none => rw [hoperator] at h; cases h; exact .noOperator hkey hoperator
      | some known => rw [hoperator] at h; cases h
  · rintro (hkey | ⟨hkey, hoperator⟩)
    · rw [if_pos hkey]
    · rw [if_neg hkey, hoperator]; rfl

theorem itemsPredicate_error_iff {path key operator literal : String} {fault : QueryFault} :
    (do pure (.itemsLeft path (·.filter (← Expression.ofTokens key operator literal).holdsOfItem)) :
      Except QueryFault Predicate) = .error fault ↔ UnfitTokens key operator fault := by
  rw [← ofTokens_error_iff literal]
  cases Expression.ofTokens key operator literal with
  | error => exact ⟨fun h => by cases h; rfl, fun h => by cases h; rfl⟩
  | ok => exact ⟨nofun, nofun⟩

end QueryCall

/-! ### Opening and extending chains -/

namespace Query

variable {query : Query} {predicate : Except QueryFault Predicate} {connective : Connective}
  {fault : QueryFault}

/-- The first fault counts. -/
theorem fail_fault (query : Query) (fault : QueryFault) :
    (query.fail fault).fault = some fault ∧ query.fault = none ∨
      (query.fail fault).fault = query.fault ∧ query.fault ≠ none := by
  cases h : query.fault <;> simp [fail, h]

theorem extendLast?_eq_none {predicate : Predicate} {chains : List Chain} :
    extendLast? connective predicate chains = none ↔ chains = [] := by
  fun_induction extendLast? connective predicate chains with
  | case1 => simp
  | case2 => simp
  | case3 chain rest hrest ih => simpa using fun h => hrest (ih.mp h)

theorem extendLast?_ne_nil {predicate : Predicate} {chains extended : List Chain}
    (h : extendLast? connective predicate chains = some extended) : extended ≠ [] := by
  match chains, h with
  | [chain], h => cases h; simp
  | chain :: next :: rest, h =>
    obtain ⟨others, -, rfl⟩ := Option.map_eq_some_iff.mp h
    simp

/-- Filters leave the projections alone. -/
theorem openChain_projections : (query.openChain predicate).included = query.included ∧
    (query.openChain predicate).excluded = query.excluded := by
  cases predicate <;> exact ⟨rfl, rfl⟩

theorem extendChain_projections :
    (query.extendChain connective predicate).included = query.included ∧
      (query.extendChain connective predicate).excluded = query.excluded := by
  cases predicate with
  | error => exact ⟨rfl, rfl⟩
  | ok predicate =>
    simp only [extendChain]
    split <;> exact ⟨rfl, rfl⟩

variable {refused : QueryFault → Prop}
  (hrefused : ∀ fault, predicate = .error fault ↔ refused fault)
include hrefused

theorem openChain_chains : (query.openChain predicate).chains = [] ↔
    query.chains = [] ∧ ¬ ∀ fault, ¬ refused fault := by
  simp only [← hrefused]
  cases predicate with
  | ok => simp [openChain]
  | error => simp [openChain, fail]

theorem openChain_fault : (query.openChain predicate).fault = some fault ↔
    query.fault = some fault ∨
      query.fault = none ∧ ∃ cause, refused cause ∧ fault = .recorded cause := by
  simp only [← hrefused]
  cases predicate with
  | ok => simp [openChain]
  | error cause =>
    rcases fail_fault query (.recorded cause) with ⟨hfail, hnone⟩ | ⟨hfail, h⟩
    · simp [openChain, hfail, hnone, eq_comm]
    · simp [openChain, hfail, h]

omit hrefused in
theorem extendChain_chains :
    (query.extendChain connective predicate).chains = [] ↔ query.chains = [] := by
  cases predicate with
  | error => rfl
  | ok predicate =>
    cases hchains : extendLast? connective predicate query.chains with
    | none => simp [extendChain, hchains, fail]
    | some extended =>
      have hopen : query.chains ≠ [] := fun h => by simp [extendLast?_eq_none.mpr h] at hchains
      simp [extendChain, hchains, hopen, extendLast?_ne_nil hchains]

theorem extendChain_fault : (query.extendChain connective predicate).fault = some fault ↔
    query.fault = some fault ∨ query.fault = none ∧
      ((∃ cause, refused cause ∧ fault = .recorded cause) ∨
        (∀ cause, ¬ refused cause) ∧ query.chains = [] ∧ fault = .dangling connective.name) := by
  simp only [← hrefused]
  cases predicate with
  | error cause =>
    rcases fail_fault query (.recorded cause) with ⟨hfail, hnone⟩ | ⟨hfail, h⟩
    · simp [extendChain, hfail, hnone, eq_comm]
    · simp [extendChain, hfail, h]
  | ok predicate =>
    cases hchains : extendLast? connective predicate query.chains with
    | none =>
      have hclosed := extendLast?_eq_none.mp hchains
      have hextend : query.extendChain connective (.ok predicate) =
          query.fail (.dangling connective.name) := by simp [extendChain, hchains]
      rw [hextend]
      rcases fail_fault query (.dangling connective.name) with ⟨hfail, hnone⟩ | ⟨hfail, h⟩
      · simp [hfail, hnone, hclosed, eq_comm]
      · simp [hfail, h]
    | some extended =>
      have hopen : query.chains ≠ [] := fun h => by simp [extendLast?_eq_none.mpr h] at hchains
      simp [extendChain, hchains, hopen]

end Query

/-! ### What a call does to a query -/

namespace QueryCall

section Apply
variable {query : Query} {before : List QueryCall} {call : QueryCall} {fault : QueryFault}

/-- A query has a chain as soon as a call has opened one. -/
theorem apply_chains : (call.apply query).chains = [] ↔ query.chains = [] ∧ ¬ call.Opens := by
  cases call with
  | filter expression =>
    rw [apply, Query.filter, Query.openChain_chains fun _ => predicate_error_iff]
    exact and_congr_right fun _ => not_congr ⟨.filter, fun | .filter hfit => hfit⟩
  | join connective expression =>
    have hsame : (apply query (join connective expression)).chains = [] ↔ query.chains = [] := by
      cases connective <;> exact Query.extendChain_chains
    rw [hsame]
    exact ⟨fun h => ⟨h, by rintro ⟨⟩⟩, And.left⟩
  | whereArray path key operator literal =>
    rw [apply, Query.whereArray, Query.openChain_chains fun _ => itemsPredicate_error_iff]
    exact and_congr_right fun _ => not_congr ⟨.whereArray, fun | .whereArray hfit => hfit⟩
  | whereWith path edit => simp [apply, Query.whereWith, Query.openChain, Opens.whereWith]
  | including | excluding | sortBy | skip | take | populating =>
    exact ⟨fun h => ⟨h, by rintro ⟨⟩⟩, And.left⟩

/-- **A call keeps the fault of a query**, and adds its own to a query without one. -/
theorem apply_fault (hopen : query.chains = [] ↔ ∀ earlier ∈ before, ¬ earlier.Opens) :
    (call.apply query).fault = some fault ↔
      query.fault = some fault ∨ query.fault = none ∧ Fails before call fault := by
  cases call with
  | filter expression =>
    rw [apply, Query.filter, Query.openChain_fault fun _ => predicate_error_iff]
    refine or_congr_right (and_congr_right fun _ => ⟨?_, ?_⟩)
    · rintro ⟨cause, hunfit, rfl⟩
      exact .filter hunfit
    · rintro ⟨hunfit⟩
      exact ⟨_, hunfit, rfl⟩
  | join connective expression =>
    have hfault : (apply query (join connective expression)).fault =
        (query.extendChain connective (Query.predicate expression)).fault := by
      cases connective <;> rfl
    rw [hfault, Query.extendChain_fault fun _ => predicate_error_iff, hopen]
    refine or_congr_right (and_congr_right fun _ => ⟨?_, ?_⟩)
    · rintro (⟨cause, hunfit, rfl⟩ | ⟨hfit, hclosed, rfl⟩)
      · exact .join hunfit
      · exact .dangling hfit hclosed
    · rintro (_ | hunfit | ⟨hfit, hclosed⟩)
      · exact .inl ⟨_, hunfit, rfl⟩
      · exact .inr ⟨hfit, hclosed, rfl⟩
  | whereArray path key operator literal =>
    rw [apply, Query.whereArray, Query.openChain_fault fun _ => itemsPredicate_error_iff]
    refine or_congr_right (and_congr_right fun _ => ⟨?_, ?_⟩)
    · rintro ⟨cause, hunfit, rfl⟩
      exact .whereArray hunfit
    · rintro (_ | _ | _ | hunfit)
      exact ⟨_, hunfit, rfl⟩
  | whereWith | including | excluding | sortBy | skip | take | populating =>
    exact ⟨.inl, fun h => h.resolve_right fun ⟨_, hfails⟩ => nomatch hfails⟩

/-- A query is without a fault after a call that does not fail, if it was so before. -/
theorem apply_fault_none (hopen : query.chains = [] ↔ ∀ earlier ∈ before, ¬ earlier.Opens) :
    (call.apply query).fault = none ↔
      query.fault = none ∧ ∀ fault, ¬ Fails before call fault := by
  have hfault (fault : QueryFault) : (call.apply query).fault = some fault ↔
      query.fault = some fault ∨ query.fault = none ∧ Fails before call fault := apply_fault hopen
  cases h : query.fault with
  | none => simp [Option.eq_none_iff_forall_ne_some, hfault, h]
  | some fault => simp [(hfault fault).mpr (.inl h)]

/-- The fields that a call gives to the projection that keeps fields. -/
def included : QueryCall → List String
  | including fields => fields
  | _ => []

/-- The fields that a call gives to the projection that drops fields. -/
def excluded : QueryCall → List String
  | excluding fields => fields
  | _ => []

theorem apply_projections : (call.apply query).included = query.included ++ call.included ∧
    (call.apply query).excluded = query.excluded ++ call.excluded := by
  cases call with
  | filter | whereArray | whereWith =>
    simp only [included, excluded, List.append_nil]
    exact Query.openChain_projections
  | join connective =>
    simp only [included, excluded, List.append_nil]
    cases connective <;> exact Query.extendChain_projections
  | including fields | excluding fields =>
    simp [apply, included, excluded, Query.including, Query.excluding]
  | sortBy | skip | take | populating =>
    simp [apply, included, excluded, Query.sortBy, Query.skip, Query.take, Query.populating]

end Apply

/-! ### What calls do to a query -/

section Build
variable {calls before after : List QueryCall} {call next : QueryCall} {fault : QueryFault}

theorem build_append : build (calls ++ [call]) = call.apply (build calls) := by
  simp [build]

theorem build_chains : (build calls).chains = [] ↔ ∀ call ∈ calls, ¬ call.Opens := by
  induction calls using List.reverseRecOn with
  | nil => simp [build]
  | append_singleton calls call ih =>
    rw [build_append, apply_chains, ih]
    simp [or_imp, forall_and]

/-- A call among others and a last one is the last one or among the others. -/
theorem append_singleton_eq_iff : calls ++ [call] = before ++ next :: after ↔
    (calls = before ∧ call = next ∧ after = []) ∨
      ∃ later, calls = before ++ next :: later ∧ after = later ++ [call] := by
  rcases List.eq_nil_or_concat' after with rfl | ⟨later, last, rfl⟩
  · simp [List.append_singleton_inj]
  · rw [← List.cons_append, ← List.append_assoc, List.append_singleton_inj]
    constructor
    · rintro ⟨hcalls, rfl⟩
      exact .inr ⟨later, hcalls, rfl⟩
    · rintro (⟨-, -, h⟩ | ⟨later', hcalls, h⟩)
      · simp at h
      · obtain ⟨rfl, rfl⟩ := List.append_singleton_inj.mp h
        exact ⟨hcalls, rfl⟩

theorem succeed_append :
    Succeed (calls ++ [call]) ↔ Succeed calls ∧ ∀ fault, ¬ Fails calls call fault := by
  constructor
  · refine fun h => ⟨fun before next after hcalls => ?_, h calls call [] rfl⟩
    exact h before next (after ++ [call]) (append_singleton_eq_iff.mpr (.inr ⟨after, hcalls, rfl⟩))
  · rintro ⟨hcalls, hcall⟩ before next after heq
    rcases append_singleton_eq_iff.mp heq with ⟨rfl, rfl, rfl⟩ | ⟨later, hbefore, -⟩
    · exact hcall
    · exact hcalls before next later hbefore

theorem failsFirst_append : FailsFirst (calls ++ [call]) fault ↔
    FailsFirst calls fault ∨ Succeed calls ∧ Fails calls call fault := by
  constructor
  · rintro ⟨before, next, after, heq, hbefore, hfails⟩
    rcases append_singleton_eq_iff.mp heq with ⟨rfl, rfl, rfl⟩ | ⟨later, hcalls, -⟩
    · exact .inr ⟨hbefore, hfails⟩
    · exact .inl ⟨before, next, later, hcalls, hbefore, hfails⟩
  · rintro (⟨before, next, after, rfl, hbefore, hfails⟩ | ⟨hcalls, hfails⟩)
    · exact ⟨before, next, after ++ [call], by simp, hbefore, hfails⟩
    · exact ⟨calls, call, [], rfl, hcalls, hfails⟩

/-- **The fault of a query is that of the earliest failing call.** -/
theorem build_fault : ((build calls).fault = none ↔ Succeed calls) ∧
    ∀ fault, (build calls).fault = some fault ↔ FailsFirst calls fault := by
  induction calls using List.reverseRecOn with
  | nil => simp [build, Succeed, FailsFirst]
  | append_singleton calls call ih =>
    obtain ⟨hnone, hsome⟩ := ih
    refine ⟨?_, fun fault => ?_⟩
    · rw [build_append, apply_fault_none build_chains, hnone, succeed_append]
    · rw [build_append, apply_fault build_chains, hnone, hsome, failsFirst_append]

theorem build_projections : (build calls).included = calls.flatMap included ∧
    (build calls).excluded = calls.flatMap excluded := by
  induction calls using List.reverseRecOn with
  | nil => simp [build]
  | append_singleton calls call ih => simp [build_append, apply_projections, ih]

/-- Calls give fields to a projection if and only if a call of its kind does. -/
theorem flatMap_ne_nil_iff {given : QueryCall → List String} (kind : List String → QueryCall)
    (hkind : ∀ fields, given (kind fields) = fields)
    (hother : ∀ call, given call ≠ [] → call = kind (given call)) :
    calls.flatMap given ≠ [] ↔ ∃ fields, kind fields ∈ calls ∧ fields ≠ [] := by
  rw [ne_eq, List.flatMap_eq_nil_iff, not_forall]
  constructor
  · rintro ⟨call, hgiven⟩
    obtain ⟨hin, hgiven⟩ := Classical.not_imp.mp hgiven
    exact ⟨given call, hother call hgiven ▸ hin, hgiven⟩
  · rintro ⟨fields, hin, hfields⟩
    exact ⟨kind fields, fun h => hfields (hkind fields ▸ h hin)⟩

theorem clash_iff : Clash calls ↔ (build calls).included ≠ [] ∧ (build calls).excluded ≠ [] := by
  rw [build_projections.1, build_projections.2,
    flatMap_ne_nil_iff including (fun _ => rfl) (by rintro ⟨⟩ h <;> simp_all [included]),
    flatMap_ne_nil_iff excluding (fun _ => rfl) (by rintro ⟨⟩ h <;> simp_all [excluded])]
  rfl

/-- **What the check finds**: the fault of the earliest failing call, or else that both kinds of
projection were given fields, or else nothing. -/
theorem build_check (calls : List QueryCall) :
    (∀ fault, FailsFirst calls fault → (build calls).check = .error (.query fault)) ∧
    (Succeed calls → Clash calls → (build calls).check = .error (.query .bothProjections)) ∧
    (Succeed calls → ¬ Clash calls → (build calls).check = .ok ()) := by
  refine ⟨fun fault hfails => ?_, fun hsucceed hclash => ?_, fun hsucceed hclash => ?_⟩
  · simp [Query.check, Query.fault?, (build_fault.2 fault).mpr hfails]
  · obtain ⟨hincluded, hexcluded⟩ := clash_iff.mp hclash
    simp [Query.check, Query.fault?, build_fault.1.mpr hsucceed, hincluded, hexcluded]
  · rw [clash_iff, not_and_or, not_ne_iff, not_ne_iff] at hclash
    rcases hclash with h | h <;>
      simp [Query.check, Query.fault?, build_fault.1.mpr hsucceed, h]

end Build

end QueryCall

/-! ### Collections and queries with a fault -/

namespace Collection

variable {σ : Type}

/-- **A collection refuses a query** with a fault: whatever takes the query fails and, where it
could write, leaves everything as it was. -/
structure Refuses (collection : Collection σ) (query : Query) (fault : QueryFault) : Prop where
  check : query.check = .error (.query fault)
  find : ∀ store, collection.find query store = .error (.query fault)
  findOne : ∀ store, collection.findOne query store = .error (.query fault)
  count : ∀ store, collection.count query store = .error (.query fault)
  updateMany : ∀ now patch running,
    collection.updateMany now query patch running = (.error (.query fault), running)
  deleteMany : ∀ running, collection.deleteMany query running = (.error (.query fault), running)

variable {collection : Collection σ} {query : Query} {fault : QueryFault}

/-- Where the documents can be read, a query that does not pass the check is refused. -/
theorem refuses_of_check (hall : ∀ store, ∃ found, collection.documents store = .ok found)
    (hcheck : query.check = .error (.query fault)) : collection.Refuses query fault := by
  have hselected store : collection.selected query store = .error (.query fault) := by
    rw [selected, hcheck]; rfl
  have hfind store : collection.find query store = .error (.query fault) := by
    obtain ⟨found, hfound⟩ := hall store
    simp only [find, hfound, Query.run, hcheck]; rfl
  have hlook running : Operation.look (collection.selected query) running =
      (.error (.query fault), running) := by
    rw [Operation.look, hselected]
  refine ⟨hcheck, hfind, fun store => ?_, fun store => ?_, fun now patch running => ?_,
    fun running => ?_⟩
  · rw [findOne, hfind]; rfl
  · rw [count, hselected]; rfl
  · rw [updateMany, step_bind, hlook]
  · rw [deleteMany, step_bind, hlook]

end Collection

/-- **A broken query never acts.** If some call fails, every use of the query is refused with the
fault of the earliest failing call; if none fails but both projections were given fields, with
that; all other queries pass the check. -/
theorem broken_query_refused {σ : Type} (collection : Collection σ) {view : σ → MemoryStore}
    {faults : Prop} (hbackend : collection.database.backend.ActsLike view faults)
    (calls : List QueryCall) :
    (¬ QueryCall.Succeed calls → ∃ fault, QueryCall.FailsFirst calls fault ∧
      collection.Refuses (QueryCall.build calls) fault) ∧
    (QueryCall.Succeed calls → QueryCall.Clash calls →
      collection.Refuses (QueryCall.build calls) .bothProjections) ∧
    (QueryCall.Succeed calls → ¬ QueryCall.Clash calls →
      (QueryCall.build calls).check = .ok ()) := by
  obtain ⟨hfails, hclash, hok⟩ := QueryCall.build_check calls
  have hall store : ∃ found, collection.documents store = .ok found := ⟨_, hbackend.all store _⟩
  refine ⟨fun hnot => ?_, fun hsucceed h => ?_, hok⟩
  · obtain ⟨fault, hfault⟩ := Option.ne_none_iff_exists'.mp (mt QueryCall.build_fault.1.mp hnot)
    have hfirst := (QueryCall.build_fault.2 fault).mp hfault
    exact ⟨fault, hfirst, Collection.refuses_of_check hall (hfails fault hfirst)⟩
  · exact Collection.refuses_of_check hall (hclash hsucceed h)

/-- Calls of which two fail: `and` joins nothing, and the last expression has no value. -/
def loose : List QueryCall :=
  [.sortBy "x" .ascending, .join .and "x = 1", .filter "y >", .excluding ["y"]]

/-- Calls of which none fails, though both projections were asked for. -/
def torn : List QueryCall := [.including ["x"], .filter "x = 1", .excluding [], .excluding ["y"]]

/-- The query for items is refused for its dangling `and`, or for both projections, or runs. -/
theorem loose_refused :
    (Collection.mk (boxDatabase MemoryStore.backend) itemTree).Refuses (QueryCall.build loose)
      (.dangling "and") ∧
    (Collection.mk (boxDatabase MemoryStore.backend) itemTree).Refuses (QueryCall.build torn)
      .bothProjections ∧
    (QueryCall.build [.filter "x = 1", .join .or "y > 2"]).check = .ok () := by
  have hbroken := broken_query_refused ⟨boxDatabase MemoryStore.backend, itemTree⟩
    MemoryStore.backend_actsLike
  refine ⟨?_, ?_, ?_⟩
  · have hfault : (QueryCall.build loose).fault = some (.dangling "and") := rfl
    obtain ⟨fault, hfirst, hrefuses⟩ := (hbroken loose).1 fun hsucceed => by
      rw [QueryCall.build_fault.1.mpr hsucceed] at hfault
      cases hfault
    rw [(QueryCall.build_fault.2 fault).mpr hfirst] at hfault
    cases hfault
    exact hrefuses
  · refine (hbroken torn).2.1 (QueryCall.build_fault.1.mp rfl) (QueryCall.clash_iff.mpr ?_)
    exact ⟨List.cons_ne_nil _ _, List.cons_ne_nil _ _⟩
  · refine (hbroken _).2.2 (QueryCall.build_fault.1.mp rfl) fun hclash => ?_
    exact (QueryCall.clash_iff.mp hclash).1 rfl

end DocumentDb
