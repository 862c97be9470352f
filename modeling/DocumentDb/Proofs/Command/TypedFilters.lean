import DocumentDb.Command.Request
import DocumentDb.Proofs.Command.Lines
import DocumentDb.Proofs.Query.Faults

/-!
# Filters as they were typed

A filter joins those before it, so the filters of a search have to be taken in the order in which
they were typed. The arguments keep the values of every option apart, each with its place; sorting
the values of the three options by their places brings back the order of the line, whatever the
places are, if they grow along the line.

* `orderedFilters_typed`: the merged values are the typed ones in their order.
* `filters_as_typed`: the query of a search is built by the calls that its line asks for.
-/

namespace DocumentDb.Command

/-! ### Merging by places -/

section Merging
variable {typed : List (Nat × Join × String)}

/-- The places of the values of an option. -/
def placesOf (typed : List (Nat × Join × String)) (join : Join) : List Nat :=
  (typed.filter (·.2.1 = join)).map (·.1)

/-- The values of an option. -/
def groupOf (typed : List (Nat × Join × String)) (join : Join) : Join × List String :=
  (join, (typed.filter (·.2.1 = join)).map (·.2.2))

/-- Values and places of one option are put together again. -/
theorem placed_eq {join : Join} {chosen : List (Nat × Join × String)}
    (h : ∀ filter ∈ chosen, filter.2.1 = join) :
    placed (chosen.map (·.1)) join (chosen.map (·.2.2)) = chosen := by
  refine List.ext_getElem? fun n => ?_
  rw [placed, List.getElem?_map, List.getElem?_zipIdx, List.getElem?_map]
  cases hn : chosen[n]? with
  | none => rfl
  | some filter =>
    have hjoin : filter.2.1 = join := h filter (List.mem_of_getElem? hn)
    have hplace : (chosen.map (·.1))[0 + n]? = some filter.1 := by
      rw [Nat.zero_add, List.getElem?_map, hn, Option.map_some]
    simp only [Option.map_some, hplace, Option.getD_some, ← hjoin]

/-- Every filter is in the group of its option. -/
theorem groups_perm (typed : List (Nat × Join × String)) :
    (typed.filter (·.2.1 = Join.opens) ++ (typed.filter (·.2.1 = Join.and) ++
      typed.filter (·.2.1 = Join.or))).Perm typed := by
  induction typed with
  | nil => exact .nil
  | cons filter rest ih =>
    obtain ⟨place, join, value⟩ := filter
    cases join with
    | opens => simpa using ih
    | and =>
      refine List.Perm.trans ?_ (ih.cons _)
      simp
    | or =>
      rw [← List.append_assoc] at ih ⊢
      refine List.Perm.trans ?_ (ih.cons _)
      exact List.perm_middle

/-- **The typed order is restored**: the values of the three options, sorted by their places, are
the typed filters, if the places grow along the line. -/
theorem orderedFilters_typed (hplaces : (typed.map (·.1)).Pairwise (· < ·)) :
    orderedFilters (placesOf typed)
      [groupOf typed .opens, groupOf typed .and, groupOf typed .or] = typed.map (·.2) := by
  have hgroup : ∀ join, placed (placesOf typed join) join (groupOf typed join).2 =
      typed.filter (·.2.1 = join) := fun join =>
    placed_eq fun filter hin => of_decide_eq_true (List.mem_filter.mp hin).2
  have hsorted : typed.Pairwise (fun first second => first.1 ≤ second.1) :=
    (List.pairwise_map.mp hplaces).imp Nat.le_of_lt
  have hdistinct : ∀ first ∈ typed, ∀ second ∈ typed, first.1 = second.1 → first = second :=
    fun first hfirst second hsecond =>
      List.inj_on_of_nodup_map (hplaces.imp Nat.ne_of_lt) hfirst hsecond
  have hperm : ([groupOf typed .opens, groupOf typed .and, groupOf typed .or].flatMap
      fun group => placed (placesOf typed group.1) group.1 group.2).Perm typed := by
    have hgroups := groups_perm typed
    simp only [← hgroup] at hgroups
    simpa [groupOf] using hgroups
  unfold orderedFilters
  dsimp only
  -- both lists are sorted by places, of which no two are the same
  refine congrArg (List.map (·.2)) (List.Perm.eq_of_pairwise ?_ ?_ hsorted
    ((List.mergeSort_perm _ _).trans hperm))
  · intro first second hfirst hsecond hle hge
    have hin : first ∈ typed := ((List.mergeSort_perm _ _).trans hperm).subset hfirst
    exact hdistinct first hin second hsecond (Nat.le_antisymm hle hge)
  · refine (List.pairwise_mergeSort ?_ ?_ _).imp fun h => of_decide_eq_true h
    · intro first second third hfirst hsecond
      exact decide_eq_true
        (Nat.le_trans (of_decide_eq_true hfirst) (of_decide_eq_true hsecond))
    · intro first second
      simpa using Nat.le_total first.1 second.1

end Merging

/-! ### Options that filter -/

/-- How the filters of an option join those before them. -/
def Join.ofOption? (name : String) : Option Join :=
  [Join.opens, .and, .or].find? fun join => join.option = name

theorem Join.ofOption?_eq_some_iff {name : String} {join : Join} :
    Join.ofOption? name = some join ↔ name = join.option := by
  constructor
  · intro h
    simpa [eq_comm] using List.find?_some h
  · rintro rfl
    cases join <;> rfl

/-- The filter that an option is. -/
def filter? (option : String × String) : Option (Join × String) :=
  (Join.ofOption? option.1).map fun join => (join, option.2)

/-- The filters among options, each with its place. -/
def typedFilters (options : List (String × String)) : List (Nat × Join × String) :=
  options.zipIdx.filterMap fun (option, place) => (filter? option).map fun filter => (place, filter)

/-- The filters of one option, each with its place. -/
theorem typedFilters_filter (options : List (String × String)) (join : Join) :
    (typedFilters options).filter (·.2.1 = join) =
      options.zipIdx.filterMap fun (option, place) =>
        if option.1 = join.option then some (place, join, option.2) else none := by
  unfold typedFilters
  rw [List.filter_filterMap]
  refine List.filterMap_congr fun (option, place) _ => ?_
  unfold filter?
  dsimp only
  by_cases hname : option.1 = join.option
  · rw [Join.ofOption?_eq_some_iff.mpr hname, if_pos hname]
    simp
  · rw [if_neg hname]
    cases hother : Join.ofOption? option.1 with
    | none => rfl
    | some other =>
      have hne : other ≠ join := fun heq => hname (heq ▸ Join.ofOption?_eq_some_iff.mp hother)
      simp [hne]

section Options
variable (given : Arguments)

theorem places_typedFilters : ((typedFilters given.options).map (·.1)).Pairwise (· < ·) := by
  have hsorted : (given.options.zipIdx.map Prod.snd).Pairwise (· < ·) := by
    rw [List.zipIdx_map_snd]
    exact List.pairwise_lt_range' 1
  unfold typedFilters
  rw [List.map_filterMap, List.pairwise_filterMap]
  refine (List.pairwise_map.mp hsorted).imp fun hlt place hplace other hother => ?_
  simp only [Option.map_map, Option.map_eq_some_iff, Function.comp_apply] at hplace hother
  obtain ⟨_, -, rfl⟩ := hplace
  obtain ⟨_, -, rfl⟩ := hother
  exact hlt

theorem places_eq (join : Join) :
    given.places join.option = placesOf (typedFilters given.options) join := by
  rw [placesOf, typedFilters_filter, List.map_filterMap]
  refine List.filterMap_congr fun (option, place) _ => ?_
  dsimp only
  split_ifs <;> rfl

theorem group_eq (join : Join) :
    (join, given.all join.option) = groupOf (typedFilters given.options) join := by
  have hall : given.all join.option = given.options.zipIdx.filterMap fun (option, _) =>
      if option.1 = join.option then some option.2 else none := by
    have hoptions := List.zipIdx_map_fst 0 given.options
    conv_lhs => rw [Arguments.all, ← hoptions, List.filterMap_map]
    rfl
  rw [groupOf, typedFilters_filter, List.map_filterMap, hall]
  refine congrArg (Prod.mk join) (List.filterMap_congr fun (option, place) _ => ?_)
  dsimp only
  split_ifs <;> rfl

/-- **The filters of a search** are those among the options, in their order. -/
theorem filters_of_searchOf {search : Search} (h : searchOf given = .ok search) :
    search.filters = given.options.filterMap filter? := by
  have htyped : (typedFilters given.options).map (·.2) = given.options.filterMap filter? := by
    have hoptions := List.zipIdx_map_fst 0 given.options
    conv_rhs => rw [← hoptions, List.filterMap_map]
    rw [typedFilters, List.map_filterMap]
    refine List.filterMap_congr fun (option, place) _ => ?_
    simp
  have hplaces : (fun join : Join => given.places join.option) =
      placesOf (typedFilters given.options) := funext (places_eq given)
  unfold searchOf at h
  split at h
  · cases h
  obtain rfl := Except.ok.inj h
  dsimp only
  rw [hplaces, group_eq, group_eq, group_eq, orderedFilters_typed (places_typedFilters given),
    htyped]

end Options

/-! ### Queries of searches -/

/-- The call that a filter asks for. -/
def Join.call : Join → String → QueryCall
  | opens, expression => .filter expression
  | and, expression => .join .and expression
  | or, expression => .join .or expression

namespace Search

/-- The calls behind the filters. -/
def furtherCalls (search : Search) : List QueryCall :=
  [.including search.included, .excluding search.excluded] ++
    (search.sort.map fun (field, direction) => QueryCall.sortBy field direction).toList ++
    (search.offset.map .skip).toList ++ (search.limit.map .take).toList ++
    [.populating search.populate]

/-- **The query of a search** is built by calls, those of its filters first. -/
theorem query_eq (search : Search) : search.query =
    QueryCall.build (search.filters.map (fun filter => filter.1.call filter.2) ++
      search.furtherCalls) := by
  have hfilters : search.filters.foldl addFilter {} =
      QueryCall.build (search.filters.map fun filter => filter.1.call filter.2) := by
    rw [QueryCall.build, List.foldl_map]
    refine List.foldl_ext _ _ _ fun query filter _ => ?_
    obtain ⟨join, expression⟩ := filter
    cases join <;> rfl
  unfold query
  rw [hfilters, QueryCall.build, QueryCall.build, List.foldl_append]
  unfold furtherCalls
  cases search.sort <;> cases search.offset <;> cases search.limit <;> rfl

end Search

/-- The fault of a connective in front of all other filters. -/
def looseFault (connective : Connective) (expression : String) : QueryFault :=
  match Query.predicate expression with
  | .ok _ => .dangling connective.name
  | .error cause => .recorded cause

/-- **A query that begins with a connective has a fault**, whatever is called later. -/
theorem check_loose (connective : Connective) (expression : String) (later : List QueryCall) :
    (QueryCall.build (.join connective expression :: later)).check =
      .error (.query (looseFault connective expression)) := by
  have hfails : QueryCall.Fails [] (.join connective expression)
      (looseFault connective expression) := by
    unfold looseFault
    cases hpredicate : Query.predicate expression with
    | ok predicate =>
      refine .dangling (fun fault hunfit => ?_) nofun
      rw [QueryCall.predicate_error_iff.mpr hunfit] at hpredicate
      cases hpredicate
    | error cause => exact .join (QueryCall.predicate_error_iff.mp hpredicate)
  have hnone : QueryCall.Succeed [] := by
    rintro before call after hnil
    simp at hnil
  exact (QueryCall.build_check _).1 _ ⟨[], _, later, rfl, hnone, hfails⟩

/-! ### Lines that ask for a search -/

/-- The arguments of a search. -/
def findForm : Form := ⟨1, searchOptions, false⟩

theorem findForm_regular : findForm.Regular := by
  unfold Form.Regular findForm
  decide

/-- The call that an entry asks for, if it is a filter. -/
def Entry.filterCall? (entry : Entry) : Option QueryCall :=
  (entry.option?.bind filter?).map fun filter => filter.1.call filter.2

/-- Only one command asks for a search. -/
theorem requestOf_find_iff {command collection : String} {given : Arguments} {search : Search} :
    requestOf command given = .ok (.find collection search) ↔
      command = "find" ∧ given.values = [collection] ∧ searchOf given = .ok search := by
  constructor
  · intro h
    unfold requestOf at h
    split at h
    case h_2 name hvalues =>
      obtain ⟨found, hfound, h⟩ := bind_ok_iff.mp h
      cases h
      exact ⟨rfl, hvalues, hfound⟩
    case h_8 =>
      obtain ⟨choice, -, h⟩ := bind_ok_iff.mp h
      cases h
    all_goals cases h
  · rintro ⟨rfl, hvalues, hsearch⟩
    unfold requestOf
    rw [hvalues]
    exact bind_ok_iff.mpr ⟨search, hsearch, rfl⟩

/-- **A line that asks for a search** has options in front, the command and its arguments. -/
theorem read_find_iff {texts : List String} {collection : String} {search : Search} :
    (∃ invocation, Invocation.read texts = .ok invocation ∧
      invocation.request = .find collection search) ↔
    ∃ given arguments found, Arguments.read frontForm texts = .ok given ∧
      given.rest = "find" :: arguments ∧ Arguments.read findForm arguments = .ok found ∧
      found.values = [collection] ∧ searchOf found = .ok search := by
  have hform : formOf? "find" = some findForm := rfl
  constructor
  · rintro ⟨invocation, h, hfind⟩
    obtain ⟨given, hgiven, h⟩ := bind_ok_iff.mp h
    obtain ⟨request, hrequest, h⟩ := bind_ok_iff.mp h
    cases h
    obtain rfl : request = .find collection search := hfind
    cases hrest : given.rest with
    | nil =>
      rw [hrest] at hrequest
      cases hrequest
    | cons command arguments =>
      rw [hrest, Request.read] at hrequest
      split at hrequest
      · next form hcommand =>
        obtain ⟨found, hfound, hrequest⟩ := bind_ok_iff.mp hrequest
        obtain ⟨rfl, hvalues, hsearch⟩ := requestOf_find_iff.mp hrequest
        obtain rfl : form = findForm := Option.some.inj (hcommand.symm.trans hform)
        exact ⟨given, arguments, found, hgiven, hrest, hfound, hvalues, hsearch⟩
      · split_ifs at hrequest
  · rintro ⟨given, arguments, found, hgiven, hrest, hfound, hvalues, hsearch⟩
    have hrequest : Request.read given.rest = .ok (.find collection search) := by
      rw [hrest, Request.read, hform]
      exact bind_ok_iff.mpr ⟨found, hfound, requestOf_find_iff.mpr ⟨rfl, hvalues, hsearch⟩⟩
    exact ⟨_, bind_ok_iff.mpr ⟨given, hgiven, bind_ok_iff.mpr ⟨_, hrequest, rfl⟩⟩, rfl⟩

/-- The entry is a filter. -/
def Entry.IsFilter (entry : Entry) : Prop := ∃ (join : Join) (text : String),
  entry = .option join.option text

/-- Any number of filters may be given, in any order. -/
theorem addAll_filters {entries : List Entry} (h : ∀ entry ∈ entries, entry.IsFilter)
    (given : Arguments) : addAll findForm entries given =
      .ok { given with options := given.options ++ entries.filterMap Entry.option? } := by
  induction entries generalizing given with
  | nil =>
    rw [List.filterMap_nil, List.append_nil]
    rfl
  | cons entry rest ih =>
    obtain ⟨⟨join, text, rfl⟩, hrest⟩ := List.forall_mem_cons.mp h
    have hadd : Entry.addTo findForm given (.option join.option text) =
        .ok { given with options := given.options ++ [(join.option, text)] } := by
      cases join <;> simp [Entry.addTo, Form.option?, findForm, searchOptions, Join.option,
        Arguments.withOption]
    rw [addAll, hadd]
    refine (ih hrest _).trans ?_
    rw [List.append_assoc]
    rfl

/-- **A line with filters in any order is read**: with any number of filters in front of the name of
the collection and behind it, it asks for a search. -/
theorem read_filters {before after : List Entry} {collection : String} {arguments : List String}
    (h : ∀ entry ∈ before ++ after, entry.IsFilter)
    (hwritten : Written findForm (before ++ .value collection :: after) arguments) :
    ∃ invocation search, Invocation.read ("find" :: arguments) = .ok invocation ∧
      invocation.request = .find collection search := by
  have hbefore := addAll_filters (fun entry hin => h entry (List.mem_append_left _ hin)) {}
  have hadd : addAll findForm (before ++ .value collection :: after) {} = .ok {
      values := [collection]
      options := (before ++ after).filterMap Entry.option? } := by
    rw [addAll_append, hbefore, List.filterMap_append]
    exact addAll_filters (fun entry hin => h entry (List.mem_append_right _ hin)) _
  have hother : ∀ name, (∀ join : Join, join.option ≠ name) →
      ((before ++ after).filterMap Entry.option?).any (fun option => option.1 == name) = false := by
    intro name hname
    refine List.any_eq_false.mpr fun option hin => ?_
    obtain ⟨entry, hentry, hoption⟩ := List.mem_filterMap.mp hin
    obtain ⟨join, text, rfl⟩ := h entry hentry
    cases hoption
    simpa using hname join
  have hgiven : Arguments.read frontForm ("find" :: arguments) =
      .ok { rest := "find" :: arguments } := by
    have hplain : PlainText "find" := by
      unfold PlainText
      decide
    rw [Arguments.read, Arguments.readOnto, (Shaped.plain hplain).ofText_eq]
    rfl
  obtain ⟨search, hsearch⟩ : ∃ search, searchOf {
      values := [collection]
      options := (before ++ after).filterMap Entry.option? } = .ok search := by
    have hinclude := hother "include" (by rintro (_ | _ | _) <;> decide)
    have hdesc := hother "desc" (by rintro (_ | _ | _) <;> decide)
    unfold searchOf Arguments.has
    rw [if_neg (by simp only [hinclude, hdesc, Bool.false_and, Bool.or_self, Bool.false_eq_true,
      not_false_eq_true])]
    exact ⟨_, rfl⟩
  have hfound := (read_iff findForm_regular rfl).mpr ⟨_, hwritten, hadd⟩
  obtain ⟨invocation, hread⟩ := read_find_iff.mpr ⟨_, _, _, hgiven, rfl, hfound, rfl, hsearch⟩
  exact ⟨invocation, search, hread⟩

/-- **Filters are folded as they were typed.** The values of the three options are merged into the
typed order, if their places grow along the line; and a line that asks for a search is written from
options, the command and its arguments, and however these are written, its query is built by the
calls of the typed filters in their order, those of the other options behind them. A line whose
first filter is a connective has a query that is refused. A line with any filters in any order
around the name of a collection is read. -/
theorem filters_as_typed :
    (∀ typed : List (Nat × Join × String), (typed.map (·.1)).Pairwise (· < ·) →
      orderedFilters (placesOf typed) [groupOf typed .opens, groupOf typed .and, groupOf typed .or] =
        typed.map (·.2)) ∧
    (∀ texts invocation collection search, Invocation.read texts = .ok invocation →
      invocation.request = .find collection search →
      ∃ front options arguments, texts = front ++ "find" :: arguments ∧
        Written frontForm options front ∧ (∀ text, Entry.value text ∉ options) ∧
        (∃ entries, Written findForm entries arguments) ∧
        ∀ entries, Written findForm entries arguments →
          search.query =
            QueryCall.build (entries.filterMap Entry.filterCall? ++ search.furtherCalls) ∧
          ∀ connective expression later,
            entries.filterMap Entry.filterCall? = .join connective expression :: later →
            search.query.check = .error (.query (looseFault connective expression))) ∧
    ∀ before after collection arguments, (∀ entry ∈ before ++ after, entry.IsFilter) →
      Written findForm (before ++ .value collection :: after) arguments →
      ∃ invocation search, Invocation.read ("find" :: arguments) = .ok invocation ∧
        invocation.request = .find collection search := by
  refine ⟨fun typed => orderedFilters_typed, fun texts invocation collection search h hfind => ?_,
    fun before after collection arguments => read_filters⟩
  obtain ⟨given, arguments, found, hgiven, hrest, hfound, -, hsearch⟩ :=
    read_find_iff.mp ⟨invocation, h, hfind⟩
  obtain ⟨entries, hwritten, -⟩ := (read_iff findForm_regular rfl).mp hfound
  cases reads_of_readOnto hgiven with
  | all _ hadd =>
    rw [(addAll_ok hadd).2] at hrest
    cases hrest
  | @leading options front rest word next _ hfront hoptions _ =>
    cases hrest
    refine ⟨front, options, arguments, rfl, hfront, hoptions, ⟨entries, hwritten⟩,
      fun entries hwritten => ?_⟩
    have hadd : addAll findForm entries {} = .ok found :=
      (hwritten.readOnto_eq findForm_regular rfl {}).symm.trans hfound
    have hcalls : search.filters.map (fun filter => filter.1.call filter.2) =
        entries.filterMap Entry.filterCall? := by
      rw [filters_of_searchOf found hsearch, (addAll_ok hadd).1, List.nil_append,
        List.filterMap_filterMap, List.map_filterMap]
      rfl
    have hquery := search.query_eq
    rw [hcalls] at hquery
    refine ⟨hquery, fun connective expression later hfirst => ?_⟩
    rw [hquery, hfirst, List.cons_append]
    exact check_loose connective expression _

/-- The arguments of a search, of whose filters `--or` stands in front of `--where`. -/
def mixedArguments : List String := ["--or", "x = 1", "people", "--where=y > 2", "--and", "z = 3"]

/-- What stands there. -/
def mixedEntries : List Entry :=
  [.option "or" "x = 1", .value "people", .option "where" "y > 2", .option "and" "z = 3"]

theorem written_mixedEntries : Written findForm mixedEntries mixedArguments := by
  have htexts : mixedArguments = ["--" ++ "or", "x = 1", "people",
      "--" ++ ("where" ++ "=" ++ "y > 2"), "--" ++ "and", "z = 3"] := by decide +kernel
  have htakes : ∀ join : Join, findForm.Takes join.option true := by
    rintro (_ | _ | _) <;> exact ⟨_, rfl, rfl⟩
  have hplain : ∀ text ∈ ["x = 1", "people", "z = 3"], PlainText text := by
    unfold PlainText
    decide
  rw [htexts]
  refine .detached (htakes .or) (hplain _ (by decide)) (.value (hplain _ (by decide)) ?_)
  exact .attached (htakes .opens) (.detached (htakes .and) (hplain _ (by decide)) .nil)

/-- The filters of the line are folded in their order, so the query begins with `or`. -/
theorem mixedArguments_folded : ∃ invocation search,
    Invocation.read ("find" :: mixedArguments) = .ok invocation ∧
    invocation.request = .find "people" search ∧
    search.query = QueryCall.build
      ([.join .or "x = 1", .filter "y > 2", .join .and "z = 3"] ++ search.furtherCalls) ∧
    search.query.check = .error (.query (.dangling "or")) ∧
    orderedFilters (placesOf [(4, .opens, "y > 2"), (6, .and, "z = 3"), (7, .opens, "x = 1")])
      [(.opens, ["y > 2", "x = 1"]), (.and, ["z = 3"]), (.or, [])] =
      [(.opens, "y > 2"), (.and, "z = 3"), (.opens, "x = 1")] := by
  obtain ⟨hmerged, hlines, hread⟩ := filters_as_typed
  have hfilters : ∀ entry ∈ [Entry.option "or" "x = 1"] ++
      [.option "where" "y > 2", .option "and" "z = 3"], entry.IsFilter := by
    simp only [List.cons_append, List.nil_append, List.forall_mem_cons]
    exact ⟨⟨.or, _, rfl⟩, ⟨.opens, _, rfl⟩, ⟨.and, _, rfl⟩, nofun⟩
  obtain ⟨invocation, search, hread, hfind⟩ := hread _ _ _ _ hfilters written_mixedEntries
  obtain ⟨front, options, arguments, hline, -, -, -, hentries⟩ := hlines _ _ _ _ hread hfind
  have hmixed : "find" ∉ mixedArguments := by decide
  obtain rfl : arguments = mixedArguments := by
    rcases front with _ | ⟨first, front⟩
    · exact (List.cons.inj hline).2.symm
    · rw [(List.cons.inj hline).2] at hmixed
      exact absurd (List.mem_append_right _ List.mem_cons_self) hmixed
  have hcalls : mixedEntries.filterMap Entry.filterCall? =
      [.join .or "x = 1", .filter "y > 2", .join .and "z = 3"] := rfl
  obtain ⟨hquery, hcheck⟩ := hentries _ written_mixedEntries
  rw [hcalls] at hquery hcheck
  exact ⟨invocation, search, hread, hfind, hquery, hcheck _ _ _ rfl, hmerged _ (by decide)⟩

end DocumentDb.Command
