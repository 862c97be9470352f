import DocumentDb.Proofs.Json.Positions
import DocumentDb.Proofs.Outcome
import DocumentDb.Query.Populate

/-!
# Slots of references

A path leads through a schema to the slots of references: the positions in documents at which a
reference may stand (`Slot`). What is planned of a path, segment by segment, leads to these slots
and no others; and since no path leads through a reference, the plans of two paths part at some key.

* `Slot.planned`, `Planned.slot`: a path has a plan if it leads to slots, and to those of its plan.
* `Planned.parts`: the plans of different paths part.
-/

namespace DocumentDb

open Value (Step)

/-! ### Slots -/

/-- **A path leads to slots** of references to documents of a collection: from given fields through
nested objects, embedded documents, and lists of both. -/
inductive Slot (registry : Registry) : Fields → List String → List Step → String → Prop
  | reference {fields : Fields} {name collection : String} {kind : IdKind} {required : Bool}
    (hnode : fields.node? name = some (.reference collection kind required)) :
    Slot registry fields [name] [.key name] collection
  | references {fields : Fields} {name collection : String} {kind : IdKind}
    (hnode : fields.node? name = some (.list (.reference collection kind))) (index : Nat) :
    Slot registry fields [name] [.key name, .item index] collection
  | nested {fields inner : Fields} {name collection : String} {rest : List String}
    {position : List Step} (hnode : fields.node? name = some (.nested inner))
    (hrest : Slot registry inner rest position collection) :
    Slot registry fields (name :: rest) (.key name :: position) collection
  | document {fields : Fields} {name holder collection : String} {required : Bool} {tree : Tree}
    {rest : List String} {position : List Step}
    (hnode : fields.node? name = some (.document holder required))
    (htree : registry.tree? holder = some tree)
    (hrest : Slot registry tree.fields rest position collection) :
    Slot registry fields (name :: rest) (.key name :: position) collection
  | objects {fields inner : Fields} {name collection : String} {rest : List String}
    {position : List Step} (hnode : fields.node? name = some (.list (.object inner))) (index : Nat)
    (hrest : Slot registry inner rest position collection) :
    Slot registry fields (name :: rest) (.key name :: .item index :: position) collection
  | documents {fields : Fields} {name holder collection : String} {tree : Tree}
    {rest : List String} {position : List Step}
    (hnode : fields.node? name = some (.list (.document holder)))
    (htree : registry.tree? holder = some tree) (index : Nat)
    (hrest : Slot registry tree.fields rest position collection) :
    Slot registry fields (name :: rest) (.key name :: .item index :: position) collection

/-- **A path leads to references.** -/
def Leads (registry : Registry) (fields : Fields) (segments : List String) : Prop :=
  ∃ position collection, Slot registry fields segments position collection

/-! ### Planned paths -/

/-- The segments of a path, with where each of them leads. -/
inductive Planned (registry : Registry) : Fields → List String → List (String × Hop) → Prop
  | last {fields : Fields} {name : String} {hop : Hop}
    (hhop : (fields.node? name).bind Hop.last? = some hop) :
    Planned registry fields [name] [(name, hop)]
  | next {fields inner : Fields} {name : String} {hop : Hop} {rest : List String}
    {hops : List (String × Hop)}
    (hhop : (fields.node? name).bind (Hop.next? registry) = some (hop, .ok inner))
    (hrest : Planned registry inner rest hops) :
    Planned registry fields (name :: rest) ((name, hop) :: hops)

section Plans
variable {registry : Registry} {fields : Fields} {segments : List String}
  {hops : List (String × Hop)}

theorem Planned.ne_nil (h : Planned registry fields segments hops) : segments ≠ [] := by
  cases h <;> exact List.cons_ne_nil _ _

/-- The plan of a path is what is computed of it. -/
theorem planHops_ok_iff (path : String) (hne : segments ≠ []) :
    planHops registry path fields segments = .ok hops ↔
      Planned registry fields segments hops := by
  induction segments generalizing fields hops with
  | nil => exact absurd rfl hne
  | cons name rest ih =>
    cases rest with
    | nil =>
      rw [planHops]
      constructor
      · intro h
        split at h
        · next hop hhop =>
          cases h
          exact .last hhop
        · cases h
      · intro h
        cases h with
        | last hhop => rw [hhop]; rfl
        | next _ hrest => exact absurd rfl hrest.ne_nil
    | cons second rest =>
      rw [planHops]
      · constructor
        · intro h
          split at h
          · next hop inner hhop =>
            obtain ⟨declared, rfl, hplan⟩ := bind_ok_iff.mp h
            obtain ⟨others, hothers, hdone⟩ := bind_ok_iff.mp hplan
            cases hdone
            exact .next hhop ((ih (List.cons_ne_nil _ _)).mp hothers)
          · cases h
        · intro h
          cases h with
          | next hhop hrest =>
            rw [hhop]
            refine bind_ok_iff.mpr ⟨_, rfl, ?_⟩
            exact bind_ok_iff.mpr ⟨_, (ih (List.cons_ne_nil _ _)).mpr hrest, rfl⟩
      · rintro ⟨⟩

end Plans

/-! ### Slots of plans -/

/-- The positions that the hops of a plan lead to. -/
inductive Hits : List (String × Hop) → List Step → String → Prop
  | reference {name collection : String} {rest : List (String × Hop)} :
    Hits ((name, .reference collection) :: rest) [.key name] collection
  | references {name collection : String} {rest : List (String × Hop)} (index : Nat) :
    Hits ((name, .references collection) :: rest) [.key name, .item index] collection
  | into {name collection : String} {rest : List (String × Hop)} {position : List Step}
    (h : Hits rest position collection) :
    Hits ((name, .into) :: rest) (.key name :: position) collection
  | each {name collection : String} {rest : List (String × Hop)} {position : List Step}
    (index : Nat) (h : Hits rest position collection) :
    Hits ((name, .intoEach) :: rest) (.key name :: .item index :: position) collection

section Slots
variable {registry : Registry} {fields inner : Fields} {segments rest : List String}
  {hops : List (String × Hop)} {position : List Step} {collection name : String} {node : Node}
  {hop : Hop}

theorem Hits.exists_key (h : Hits hops position collection) :
    ∃ name rest, position = .key name :: rest := by
  cases h <;> exact ⟨_, _, rfl⟩

/-- Where the last segment of a path leads, to a reference or to a list of references. -/
theorem last?_cases (h : Hop.last? node = some hop) :
    (∃ collection kind required, node = .reference collection kind required ∧
      hop = .reference collection) ∨
    ∃ collection kind, node = .list (.reference collection kind) ∧
      hop = .references collection := by
  unfold Hop.last? at h
  split at h
  · cases h
    exact .inl ⟨_, _, _, rfl, rfl⟩
  · cases h
    exact .inr ⟨_, _, rfl, rfl⟩
  · cases h

/-- Where an earlier segment leads: into one object or into those of a list, which are declared
there or are documents. -/
theorem next?_cases (h : Hop.next? registry node = some (hop, .ok inner)) :
    hop = .into ∧ (node = .nested inner ∨
      ∃ holder required tree, node = .document holder required ∧
        registry.tree? holder = some tree ∧ inner = tree.fields) ∨
    hop = .intoEach ∧ (node = .list (.object inner) ∨
      ∃ holder tree, node = .list (.document holder) ∧
        registry.tree? holder = some tree ∧ inner = tree.fields) := by
  have htree {holder : String} (h : (registry.tree holder).map (·.fields) = .ok inner) :
      ∃ tree, registry.tree? holder = some tree ∧ inner = tree.fields := by
    obtain ⟨tree, htree, rfl⟩ := map_ok_iff.mp h
    unfold Registry.tree at htree
    split at htree
    · next found hfound =>
      cases htree
      exact ⟨_, hfound, rfl⟩
    · cases htree
  unfold Hop.next? at h
  split at h
  · cases h
    exact .inl ⟨rfl, .inl rfl⟩
  · next holder required =>
    obtain ⟨rfl, hfields⟩ := Prod.mk.inj (Option.some.inj h)
    obtain ⟨tree, hfound, rfl⟩ := htree hfields
    exact .inl ⟨rfl, .inr ⟨_, _, _, rfl, hfound, rfl⟩⟩
  · cases h
    exact .inr ⟨rfl, .inl rfl⟩
  · next holder =>
    obtain ⟨rfl, hfields⟩ := Prod.mk.inj (Option.some.inj h)
    obtain ⟨tree, hfound, rfl⟩ := htree hfields
    exact .inr ⟨rfl, .inr ⟨_, _, rfl, hfound, rfl⟩⟩
  · cases h

/-- A path that leads to slots has a plan, whose hops lead to the same slots. -/
theorem Slot.planned (h : Slot registry fields segments position collection) :
    ∃ hops, Planned registry fields segments hops ∧ Hits hops position collection := by
  have htree {holder : String} {tree : Tree} (h : registry.tree? holder = some tree) :
      (registry.tree holder).map (·.fields) = .ok tree.fields := by
    rw [Registry.tree, h]
    rfl
  induction h with
  | reference hnode => exact ⟨_, .last (by rw [hnode]; rfl), .reference⟩
  | references hnode index => exact ⟨_, .last (by rw [hnode]; rfl), .references index⟩
  | nested hnode _ ih =>
    obtain ⟨hops, hplanned, hhits⟩ := ih
    exact ⟨_, .next (by rw [hnode]; rfl) hplanned, hhits.into⟩
  | document hnode hholder _ ih =>
    obtain ⟨hops, hplanned, hhits⟩ := ih
    refine ⟨_, .next ?_ hplanned, hhits.into⟩
    rw [hnode, Option.bind_some, Hop.next?, htree hholder]
  | objects hnode index _ ih =>
    obtain ⟨hops, hplanned, hhits⟩ := ih
    exact ⟨_, .next (by rw [hnode]; rfl) hplanned, hhits.each index⟩
  | documents hnode hholder index _ ih =>
    obtain ⟨hops, hplanned, hhits⟩ := ih
    refine ⟨_, .next ?_ hplanned, hhits.each index⟩
    rw [hnode, Option.bind_some, Hop.next?, htree hholder]

/-- The hops of a plan lead to slots of its path. -/
theorem Planned.slot (hplanned : Planned registry fields segments hops)
    (h : Hits hops position collection) : Slot registry fields segments position collection := by
  induction hplanned generalizing position with
  | last hhop =>
    obtain ⟨node, hnode, hhop⟩ := Option.bind_eq_some_iff.mp hhop
    rcases last?_cases hhop with ⟨_, _, _, rfl, rfl⟩ | ⟨_, _, rfl, rfl⟩
    · cases h
      exact .reference hnode
    · cases h
      exact .references hnode _
  | next hhop _ ih =>
    obtain ⟨node, hnode, hhop⟩ := Option.bind_eq_some_iff.mp hhop
    rcases next?_cases hhop with ⟨rfl, rfl | ⟨_, _, _, rfl, htree, rfl⟩⟩ |
      ⟨rfl, rfl | ⟨_, _, rfl, htree, rfl⟩⟩
    · cases h with
      | into h => exact .nested hnode (ih h)
    · cases h with
      | into h => exact .document hnode htree (ih h)
    · cases h with
      | each index h => exact .objects hnode index (ih h)
    · cases h with
      | each index h => exact .documents hnode htree index (ih h)

/-- The hops of a plan lead somewhere. -/
theorem Planned.exists_hits (h : Planned registry fields segments hops) :
    ∃ position collection, Hits hops position collection := by
  induction h with
  | last hhop =>
    obtain ⟨node, -, hhop⟩ := Option.bind_eq_some_iff.mp hhop
    rcases last?_cases hhop with ⟨_, _, _, -, rfl⟩ | ⟨_, _, -, rfl⟩
    · exact ⟨_, _, .reference⟩
    · exact ⟨_, _, .references 0⟩
  | next hhop _ ih =>
    obtain ⟨node, -, hhop⟩ := Option.bind_eq_some_iff.mp hhop
    obtain ⟨position, collection, h⟩ := ih
    rcases next?_cases hhop with ⟨rfl, -⟩ | ⟨rfl, -⟩
    · exact ⟨_, _, h.into⟩
    · exact ⟨_, _, h.each 0⟩

/-- A path leads to references if it has a plan. -/
theorem leads_iff :
    Leads registry fields segments ↔ ∃ hops, Planned registry fields segments hops := by
  constructor
  · rintro ⟨position, collection, h⟩
    obtain ⟨hops, hplanned, -⟩ := h.planned
    exact ⟨hops, hplanned⟩
  · rintro ⟨hops, hplanned⟩
    obtain ⟨position, collection, h⟩ := hplanned.exists_hits
    exact ⟨position, collection, hplanned.slot h⟩

/-- A path has one plan. -/
theorem Planned.unique {others : List (String × Hop)}
    (h : Planned registry fields segments hops) (hother : Planned registry fields segments others) :
    hops = others := by
  have hplan := (planHops_ok_iff "" h.ne_nil).mpr h
  rw [(planHops_ok_iff "" hother.ne_nil).mpr hother] at hplan
  cases hplan
  rfl

end Slots

/-! ### Plans that part -/

/-- **Two plans part**: they go together up to some segment, and on by different keys. -/
inductive Parts : List (String × Hop) → List (String × Hop) → Prop
  | here {name other : String} {hop otherHop : Hop} {rest otherRest : List (String × Hop)}
    (hne : name ≠ other) : Parts ((name, hop) :: rest) ((other, otherHop) :: otherRest)
  | into {name : String} {rest otherRest : List (String × Hop)} (h : Parts rest otherRest) :
    Parts ((name, .into) :: rest) ((name, .into) :: otherRest)
  | each {name : String} {rest otherRest : List (String × Hop)} (h : Parts rest otherRest) :
    Parts ((name, .intoEach) :: rest) ((name, .intoEach) :: otherRest)

/-- **Plans of different paths part**, since no path leads through a reference. -/
theorem Planned.parts {registry : Registry} {fields : Fields} {segments others : List String}
    {hops otherHops : List (String × Hop)} (h : Planned registry fields segments hops)
    (hother : Planned registry fields others otherHops) (hne : segments ≠ others) :
    Parts hops otherHops := by
  -- what ends a path does not lead on
  have hends {node : Node} {hop next : Hop} {inner : Fields} (hlast : Hop.last? node = some hop)
      (hnext : Hop.next? registry node = some (next, .ok inner)) : False := by
    rcases last?_cases hlast with ⟨_, _, _, rfl, -⟩ | ⟨_, _, rfl, -⟩ <;> cases hnext
  induction h generalizing others otherHops with
  | @last fields name hop hhop =>
    cases hother with
    | @last _ other _ hotherHop =>
      exact .here fun heq => hne (by rw [heq])
    | @next _ _ other _ _ _ hotherHop hrest =>
      refine .here ?_
      rintro rfl
      obtain ⟨node, hnode, hlast⟩ := Option.bind_eq_some_iff.mp hhop
      rw [hnode] at hotherHop
      exact hends hlast hotherHop
  | @next fields inner name hop rest hops hhop hrest ih =>
    cases hother with
    | @last _ other _ hotherHop =>
      refine .here ?_
      rintro rfl
      obtain ⟨node, hnode, hlast⟩ := Option.bind_eq_some_iff.mp hotherHop
      rw [hnode] at hhop
      exact hends hlast hhop
    | @next _ otherInner other otherHop otherRest otherHops hotherHop hotherRest =>
      by_cases hname : name = other
      · subst hname
        rw [hhop] at hotherHop
        cases hotherHop
        have hparts := ih hotherRest fun heq => hne (by rw [heq])
        obtain ⟨node, -, hnext⟩ := Option.bind_eq_some_iff.mp hhop
        rcases next?_cases hnext with ⟨rfl, -⟩ | ⟨rfl, -⟩
        · exact .into hparts
        · exact .each hparts
      · exact .here hname

end DocumentDb
