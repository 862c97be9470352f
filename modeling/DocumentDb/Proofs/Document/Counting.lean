import DocumentDb.Proofs.Document.Composition
import DocumentDb.Proofs.Document.Soundness
import Mathlib

/-!
# Counted ids

A collection with numbers as ids hands them out by a counter. Calls ask for the next number or for a
given one, in any order, and some of them fail. Whatever a call takes changes the account of the
space in one way (`IdSpace.Account.take`): one more id was returned, and the counter is still the
greatest of the number it began with and the numbers that were returned.

* `calls_counted`: after any calls, the ids that were returned, what the next call answers, and that
  a call that fails changes nothing.
-/

namespace DocumentDb

/-! ### Calls for ids -/

/-- A call for an id of a collection. -/
inductive IdCall where
  /-- A new id is asked for. -/
  | generate
  /-- The id that a value stands for is asked for; errors name the field of the value. -/
  | claim (field : String) (value : Value)

/-- A call for an id as a step of work. -/
def IdCall.make (collection : String) : IdCall → Build DocId
  | generate => Build.generateId collection
  | claim field value => Build.claimId collection field value

/-- The answers to calls that are made one after the other, whether they fail or not, and the work
after the last of them. -/
def Work.answers (context : Context) (collection : String) :
    List IdCall → Work → List (Except Error DocId) × Work
  | [], work => ([], work)
  | call :: rest, work =>
    let (answer, middle) := call.make collection context work
    let (others, after) := answers context collection rest middle
    (answer :: others, after)

/-- The ids that calls returned, in the order of the calls. -/
def Work.returned (context : Context) (collection : String) (calls : List IdCall) (work : Work) :
    List DocId :=
  (work.answers context collection calls).1.filterMap Except.toOption

/-- What calls return is what the first returns and then what the others return after it. -/
theorem returned_cons {context : Context} {collection : String} {call : IdCall}
    {work middle : Work} {answer : Except Error DocId}
    (hcall : call.make collection context work = (answer, middle)) (rest : List IdCall) :
    work.returned context collection (call :: rest) =
        answer.toOption.toList ++ middle.returned context collection rest ∧
      (work.answers context collection (call :: rest)).2 =
        (middle.answers context collection rest).2 := by
  unfold Work.returned
  rw [Work.answers, hcall]
  cases answer <;> exact ⟨rfl, rfl⟩

/-! ### Calls in a space -/

section Space
variable {context : Context} {collection : String} {work : Work} {space : IdSpace} {most : Nat}

/-- A claim, as work. -/
theorem make_claim (hspace : work.space? collection = some space) (field : String)
    (value : Value) :
    (IdCall.claim field value).make collection context work =
      match space.claim field value with
      | .ok (id, after) => (.ok id, work.put after)
      | .error e => (.error e, work) := by
  rw [IdCall.make, Build.claimId, Build.bind_of_ok (Build.space_of_looked hspace)]
  have hlift : (Build.lift (space.claim field value) : Build (DocId × IdSpace)) context work =
      (space.claim field value, work) := rfl
  rw [Build.bind_eq, hlift]
  rcases space.claim field value with e | ⟨id, after⟩ <;> rfl

/-- What can be claimed is the value of an admitted id that is not in use. -/
theorem make_claim_ok_iff (hspace : work.space? collection = some space) {field : String}
    {value : Value} {id : DocId} :
    ((IdCall.claim field value).make collection context work).1 = .ok id ↔
      value = id.toValue ∧ space.rule.Admits id ∧ id ∉ space.ids := by
  have hclaims : ((IdCall.claim field value).make collection context work).1 = .ok id ↔
      ∃ after, space.claim field value = .ok (id, after) := by
    rw [make_claim hspace]
    rcases space.claim field value with e | ⟨own, after⟩ <;> simp
  rw [hclaims]
  constructor
  · rintro ⟨after, hclaim⟩
    obtain ⟨hvalue, htakes⟩ := IdSpace.claim_ok hclaim
    exact ⟨hvalue, htakes.admits, htakes.unused⟩
  · rintro ⟨hvalue, hadmits, hunused⟩
    exact ⟨_, IdSpace.claim_ok_iff.mpr ⟨hvalue, hadmits, hunused, rfl⟩⟩

/-- A call for a new id, as work on a numbered space. -/
theorem make_generate (hspace : work.space? collection = some space)
    (hrule : space.rule = .incr most) (hnumbered : space.Numbered) :
    IdCall.generate.make collection context work =
      if space.count + 1 ≤ most then
        (.ok (.number (space.count + 1)), work.put (space.claimed (.number (space.count + 1))))
      else (.error (.capacity (.idsExhausted space.collection most)), work) := by
  have hgenerate : space.generate context.source work.drawn =
      (space.generateNumber most, work.drawn) := by
    rw [IdSpace.generate, hrule]
  have hread : (read : Build Context) context work = (.ok context, work) := rfl
  have hget : (get : Build Work) context work = (.ok work, work) := rfl
  rw [IdCall.make, Build.generateId, Build.bind_of_ok (Build.space_of_looked hspace),
    Build.bind_of_ok hread, Build.bind_of_ok hget, hgenerate, IdSpace.generateNumber_eq hnumbered]
  split_ifs <;> rfl

/-- **A call either takes an unused id or fails and changes nothing.** -/
theorem make_cases (context : Context) (hspace : work.space? collection = some space)
    (hrule : space.rule = .incr most) (hnumbered : space.Numbered) (call : IdCall) :
    (∃ id after, call.make collection context work = (.ok id, work.put after) ∧
        space.Takes id after) ∨
      ∃ e, call.make collection context work = (.error e, work) := by
  cases call with
  | generate =>
    rw [make_generate hspace hrule hnumbered]
    split_ifs with hmost
    · refine Or.inl ⟨_, _, rfl, ?_, fun hin => ?_, rfl⟩
      · rw [hrule]
        exact ⟨Nat.succ_pos _, hmost⟩
      · have := hnumbered _ hin
        omega
    · exact Or.inr ⟨_, rfl⟩
  | claim field value =>
    rw [make_claim hspace]
    rcases hclaim : space.claim field value with e | ⟨id, after⟩
    · exact Or.inr ⟨e, rfl⟩
    · exact Or.inl ⟨id, after, rfl, (IdSpace.claim_ok hclaim).2⟩

end Space

/-! ### The account of a space -/

/-- **The account of a space**: what it became since it was `initial` by returning ids. -/
structure IdSpace.Account (initial : IdSpace) (returned : List DocId) (space : IdSpace) :
    Prop where
  collection : space.collection = initial.collection
  rule : space.rule = initial.rule
  ids : ∀ id, id ∈ space.ids ↔ id ∈ returned ∨ id ∈ initial.ids
  /-- The counter is the greatest number of all. -/
  count : IsGreatest {n | n = initial.count ∨ DocId.number n ∈ returned} space.count
  admits : ∀ id ∈ returned, initial.rule.Admits id
  fresh : ∀ id ∈ returned, id ∉ initial.ids
  once : returned.Nodup

namespace IdSpace.Account
variable {initial space after : IdSpace} {returned : List DocId} {id : DocId}

theorem refl (initial : IdSpace) : initial.Account [] initial where
  collection := rfl
  rule := rfl
  ids id := by simp
  count := by simp [isGreatest_singleton]
  admits id h := by cases h
  fresh id h := by cases h
  once := List.nodup_nil

/-- The numbers in use stay at most the counter. -/
theorem numbered (h : initial.Account returned space) (hinitial : initial.Numbered) :
    space.Numbered := by
  intro n hn
  rcases (h.ids _).mp hn with hreturned | hin
  · exact h.count.2 (Or.inr hreturned)
  · exact Nat.le_trans (hinitial n hin) (h.count.2 (Or.inl rfl))

/-- Taking an id keeps the counter the greatest number of all. -/
theorem count_take (h : initial.Account returned space) (id : DocId) :
    IsGreatest {n | n = initial.count ∨ DocId.number n ∈ returned ++ [id]}
      (space.claimed id).count := by
  cases id with
  | text s =>
    have hsame : {n | n = initial.count ∨ DocId.number n ∈ returned ++ [.text s]} =
        {n | n = initial.count ∨ DocId.number n ∈ returned} := by
      ext n
      simp
    rw [hsame]
    exact h.count
  | number m =>
    have hinsert : {n | n = initial.count ∨ DocId.number n ∈ returned ++ [.number m]} =
        insert m {n | n = initial.count ∨ DocId.number n ∈ returned} := by
      ext n
      simp only [List.mem_append, List.mem_singleton, DocId.number.injEq, Set.mem_ofPred_eq,
        Set.mem_insert_iff]
      tauto
    rw [hinsert]
    have hmax := h.count.insert m
    rwa [max_comm] at hmax

/-- **One more id is taken.** -/
theorem take (h : initial.Account returned space) (htakes : space.Takes id after) :
    initial.Account (returned ++ [id]) after := by
  obtain ⟨hadmits, hunused, rfl⟩ := htakes
  have hnew : id ∉ returned ∧ id ∉ initial.ids := not_or.mp fun hin => hunused ((h.ids id).mpr hin)
  refine ⟨?_, ?_, fun other => ?_, h.count_take id, fun other hin => ?_, fun other hin => ?_, ?_⟩
  · rw [claimed_collection, h.collection]
  · rw [claimed_rule, h.rule]
  · rw [claimed_ids, List.mem_cons, h.ids other, List.mem_append, List.mem_singleton]
    tauto
  · rcases List.mem_append.mp hin with hold | hlast
    · exact h.admits other hold
    · rw [List.mem_singleton.mp hlast, ← h.rule]
      exact hadmits
  · rcases List.mem_append.mp hin with hold | hlast
    · exact h.fresh other hold
    · rw [List.mem_singleton.mp hlast]
      exact hnew.2
  · rw [← List.concat_eq_append]
    exact h.once.concat hnew.1

end IdSpace.Account

/-! ### Runs of calls -/

/-- **What a counter promises** after it returned ids. -/
structure IdSpace.Promises (context : Context) (collection : String) (most : Nat)
    (initial : IdSpace) (returned : List DocId) (work : Work) : Prop where
  /-- No id was returned twice. -/
  once : returned.Nodup
  /-- Only positive numbers up to the maximum were returned, and none that was in use at first. -/
  numbers : ∀ id ∈ returned, id ∉ initial.ids ∧ ∃ n, id = .number n ∧ 0 < n ∧ n ≤ most
  /-- The next number is one more than the greatest of the counter at first and all numbers that
  were returned. There is none only if it exceeds the maximum. -/
  generates : ∃ top, IsGreatest {n | n = initial.count ∨ DocId.number n ∈ returned} top ∧
    (IdCall.generate.make collection context work).1 =
      if top + 1 ≤ most then .ok (.number (top + 1))
      else .error (.capacity (.idsExhausted collection most))
  /-- Positive integers up to the maximum can be claimed that were neither in use at first nor
  returned, and nothing else. -/
  claims : ∀ field value id, ((IdCall.claim field value).make collection context work).1 = .ok id ↔
    ∃ n, value = .ofNat n ∧ id = .number n ∧ 0 < n ∧ n ≤ most ∧ id ∉ initial.ids ∧ id ∉ returned
  /-- A call that fails changes nothing. -/
  fails : ∀ (call : IdCall) (e : Error) (after : Work),
    call.make collection context work = (.error e, after) → after = work

section Counted
variable {context : Context} {collection : String} {work : Work} {initial : IdSpace} {most : Nat}

/-- **Calls one after the other keep the account.** -/
theorem answers_account (hrule : initial.rule = .incr most) (hnumbered : initial.Numbered)
    (calls : List IdCall) {space : IdSpace} {returned : List DocId}
    (hspace : work.space? collection = some space) (haccount : initial.Account returned space) :
    ∃ after, (work.answers context collection calls).2.space? collection = some after ∧
      initial.Account (returned ++ work.returned context collection calls) after := by
  induction calls generalizing work space returned with
  | nil =>
    refine ⟨space, hspace, ?_⟩
    rw [Work.returned, Work.answers, List.filterMap_nil, List.append_nil]
    exact haccount
  | cons call rest ih =>
    have hnumbered' := haccount.numbered hnumbered
    rcases make_cases context hspace (haccount.rule.trans hrule) hnumbered' call with
      ⟨id, taken, hcall, htakes⟩ | ⟨e, hcall⟩
    · obtain ⟨hreturned, hafter⟩ := returned_cons hcall rest
      have htaken : taken.collection = collection := by
        rw [htakes.after_eq, IdSpace.claimed_collection]
        exact (Work.space?_some hspace).2
      have hput : (work.put taken).space? collection = some taken := by
        rw [Work.space?_put, if_pos htaken]
      rw [hreturned, hafter, ← List.append_assoc]
      exact ih hput (haccount.take htakes)
    · obtain ⟨hreturned, hafter⟩ := returned_cons hcall rest
      rw [hreturned, hafter]
      exact ih hspace haccount

/-- The promises follow from the account. -/
theorem IdSpace.Account.promises {returned : List DocId} {space : IdSpace}
    (haccount : initial.Account returned space) (hspace : work.space? collection = some space)
    (hrule : initial.rule = .incr most) (hnumbered : initial.Numbered) :
    initial.Promises context collection most returned work := by
  have hrule' : space.rule = .incr most := haccount.rule.trans hrule
  have hnumbered' := haccount.numbered hnumbered
  have hcollection := (Work.space?_some hspace).2
  refine ⟨haccount.once, fun id hin => ⟨haccount.fresh id hin, ?_⟩,
    ⟨space.count, haccount.count, ?_⟩, fun field value id => ?_, fun call e after hfails => ?_⟩
  · exact IdRule.admits_incr_iff.mp (hrule ▸ haccount.admits id hin)
  · rw [make_generate hspace hrule' hnumbered', hcollection]
    split_ifs <;> rfl
  · rw [make_claim_ok_iff hspace, hrule', IdRule.admits_incr_iff, haccount.ids, not_or]
    constructor
    · rintro ⟨hvalue, ⟨n, rfl, hpositive, hmost⟩, hreturned, hinitial⟩
      exact ⟨n, hvalue, rfl, hpositive, hmost, hinitial, hreturned⟩
    · rintro ⟨n, hvalue, rfl, hpositive, hmost, hinitial, hreturned⟩
      exact ⟨hvalue, ⟨n, rfl, hpositive, hmost⟩, hreturned, hinitial⟩
  · rcases make_cases context hspace hrule' hnumbered' call with
      ⟨id, taken, hcall, -⟩ | ⟨e', hcall⟩
    · rw [hcall] at hfails
      cases hfails
    · rw [hcall] at hfails
      exact (Prod.mk.inj hfails).2.symm

/-- **Numbers are handed out in order and once.** -/
theorem calls_counted (hspace : work.space? collection = some initial)
    (hrule : initial.rule = .incr most) (hnumbered : initial.Numbered) (calls : List IdCall) :
    initial.Promises context collection most (work.returned context collection calls)
      (work.answers context collection calls).2 := by
  obtain ⟨space, hlooked, haccount⟩ :=
    answers_account hrule hnumbered calls hspace (.refl initial)
  rw [List.nil_append] at haccount
  exact haccount.promises hlooked hrule hnumbered

end Counted

/-! ### Six tickets -/

/-- A store with two tickets. -/
def ticketStore : MemoryStore where
  shardMax := 1000
  holdings := [⟨"tickets", [[("id", .ofNat 1)], [("id", .ofNat 3)]], 3⟩]

/-- What is looked at while tickets are numbered. -/
def ticketContext : Context where
  registry := { shardMax := 1000, trees := [⟨"tickets", .incr 6, [], {}⟩] }
  now := ⟨0, 0⟩
  source := IdSource.ofBytes .empty
  state := MemoryStore.backend.state ticketStore
  fetch := MemoryStore.backend.fetch ticketStore

/-- The numbers of the stored tickets. -/
def ticketSpace : IdSpace where
  collection := "tickets"
  rule := .incr 6
  count := 3
  recorded := 3
  ids := [.number 1, .number 3]
  shardMax := 1000

/-- The work that has looked at them. -/
def ticketWork : Work where
  spaces := [ticketSpace]

/-- Calls for tickets, among them one for a ticket that is given away and one when the last number
is reached. -/
def ticketCalls : List IdCall :=
  [.generate, .claim "id" (.ofNat 2), .claim "id" (.ofNat 4), .claim "id" (.ofNat 6), .generate,
    .claim "id" (.ofNat 5)]

/-- Four of the calls get a ticket, and then none is left. -/
theorem tickets_counted :
    Build.space "tickets" ticketContext {} = (.ok ticketSpace, ticketWork) ∧
    ticketSpace.Numbered ∧
    ticketWork.returned ticketContext "tickets" ticketCalls =
      [.number 4, .number 2, .number 6, .number 5] ∧
    ticketSpace.Promises ticketContext "tickets" 6 [.number 4, .number 2, .number 6, .number 5]
      (ticketWork.answers ticketContext "tickets" ticketCalls).2 := by
  have hnumbered : ticketSpace.Numbered := by
    intro n hn
    simp only [ticketSpace, List.mem_cons, DocId.number.injEq, List.not_mem_nil, or_false] at hn
    rcases hn with rfl | rfl <;> decide
  have hreturned : ticketWork.returned ticketContext "tickets" ticketCalls =
      [.number 4, .number 2, .number 6, .number 5] := by cbv
  have hpromises : ticketSpace.Promises ticketContext "tickets" 6
      (ticketWork.returned ticketContext "tickets" ticketCalls)
      (ticketWork.answers ticketContext "tickets" ticketCalls).2 :=
    calls_counted rfl rfl hnumbered ticketCalls
  rw [hreturned] at hpromises
  exact ⟨rfl, hnumbered, hreturned, hpromises⟩

end DocumentDb
