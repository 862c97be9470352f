import DocumentDb.Proofs.Database.Current
import DocumentDb.Proofs.Database.Runs
import DocumentDb.Proofs.Database.Upkeep
import DocumentDb.Proofs.Document.References
import Mathlib

/-!
# Removals from lists of references

A removal writes the references that stay in the list, and these go through the builder again, which
checks each of them against the documents that are stored now. So a reference that was left behind
when its document was removed holds up the removal of any other one from its list until it is
removed itself (`removal_outcome`).

For a list that the document has nothing else can hold up a removal: the references have the form of
their list (`Reaches.wellFormed`), and the document gets no longer.
-/

namespace DocumentDb

/-! ### What values name -/

/-- **A value names an id**: by itself, as an object with it, or as a reference to it. -/
inductive Value.Names (id : DocId) : Value → Prop
  | raw : Names id id.toValue
  | object {fields : Object} (hplain : (Value.object fields).referenceId? = none)
    (hid : fields.id? = some id) : Names id (.object fields)
  | reference {value : Value} (hid : value.referenceId? = some id) : Names id value

/-- The items of a list of references without those by given ids. -/
def Listing.without (ids : List DocId) (items : List Value) : List Value :=
  items.filter fun item => ∀ id ∈ item.referenceId?, id ∉ ids

/-- The id that is read off a value is the one that the value names. -/
theorem namedId?_eq_some_iff {value : Value} {id : DocId}
    (hid : DocId.ofValue? id.toValue = some id) : namedId? value = some id ↔ value.Names id := by
  unfold namedId?
  constructor
  · intro h
    cases hreference : value.referenceId? with
    | some own =>
      rw [hreference] at h
      cases h
      exact .reference hreference
    | none =>
      rw [hreference] at h
      have hown : DocId.ofIdOrObject? value = some id := h
      by_cases hobject : ∃ fields, value = .object fields
      · obtain ⟨fields, rfl⟩ := hobject
        exact .object hreference hown
      · have hraw : DocId.ofIdOrObject? value = DocId.ofValue? value := by
          cases value with
          | object fields => exact absurd ⟨fields, rfl⟩ hobject
          | _ => rfl
        exact DocId.eq_toValue (hraw ▸ hown) ▸ .raw
  · rintro (⟨⟩ | ⟨hplain, hown⟩ | hreference)
    · cases id with
      | number n => exact hid
      | text s => exact hid
    · rw [hplain]
      exact hown
    · rw [hreference]
      rfl

section Writing
variable {σ : Type} {database : Database σ} {view : σ → MemoryStore} {faults : Prop}
  {running : Running σ} (hbackend : database.backend.ActsLike view faults)
  (hregistry : database.registry.Proper) (hsource : database.source.Exact)
include hbackend hregistry hsource

variable {collection : Collection σ} (hcollection : collection.database = database)
  {now : Instant} {id : DocId} {existing : Document} {path name target : String}
  {rest : List String} {kind : IdKind} {items : List Value}
include hcollection

end Writing

/-- The list of references of a document that has its form. -/
theorem Object.WellFormed.items {registry : Registry} {collection path name target : String}
    {rest : List String} {kind : IdKind} {tree : Tree} {document : Document}
    (h : Object.WellFormed registry collection document)
    (htree : registry.tree? collection = some tree) (hpath : Text.splitAt '.' path = name :: rest)
    (hfollow : tree.fields.follow? (name :: rest) = some (.list (.reference target kind)))
    (hname : name ∉ tree.managedKeys) : ∃ current, Listing.items document path = .ok current ∧
      Refers registry target current ∧ (document.follow? (name :: rest) = none ∨
        document.follow? (name :: rest) = some (.array current)) := by
  have hrefers : document.RefersAt registry target (Text.splitAt '.' path) := by
    rw [hpath]
    exact h.lists tree htree name rest target kind hfollow hname
  obtain ⟨current, hlists, hcurrent, hform⟩ := Object.HoldsAt.items hrefers refers_nil
  unfold Object.ListsAt at hlists
  rw [hpath] at hlists
  exact ⟨current, hcurrent, hform, hlists.imp_left And.left⟩

section Removals
variable {σ : Type}

variable {database : Database σ} {view : σ → MemoryStore} {running : Running σ}
  {collection : Collection σ} {path target : String} {kind : IdKind} {id : DocId}
  {document : Document}

end Removals

/-! ### Books on shelves -/

/-- A schema by which shelves refer to books. They keep the time at which they were made, although
they declare a list under its key. -/
def libraryDefinitions : List Definition :=
  [⟨"books", {}, [("title", .string "String")]⟩,
    ⟨"shelves", { createdAt := true },
      [("books", .array [.object [("$ref", .string "books")]]),
        ("wants", .array [.object [("$ref", .string "books")]]),
        ("created_at", .array [.object [("$ref", .string "books")]])]⟩]

/-- The compiled schema of books. -/
def bookTree : Tree where
  collection := "books"
  id := .standard
  fields := [("title", .scalar .string {})]
  settings := {}

/-- The compiled schema of shelves. -/
def shelfTree : Tree where
  collection := "shelves"
  id := .standard
  fields := [("books", .list (.reference "books" .incr)),
    ("wants", .list (.reference "books" .incr)),
    ("created_at", .list (.reference "books" .incr))]
  settings := { createdAt := true }

theorem library_compiled :
    Registry.Compiled { shardMax := 124, trees := [bookTree, shelfTree] } := by
  refine ⟨124, libraryDefinitions, rfl, fun definition hin => ?_⟩
  simp only [libraryDefinitions, List.mem_cons, List.not_mem_nil, or_false] at hin
  rcases hin with rfl | rfl
  · simp [Value.keysOnce_object_iff, Value.KeysOnce.string, Object.keys]
  · simp [Value.keysOnce_object_iff, Value.keysOnce_array_iff, Value.KeysOnce.string, Object.keys]

/-- A database of books on shelves. -/
def libraryDatabase : Database MemoryStore where
  registry := { shardMax := 124, trees := [bookTree, shelfTree] }
  backend := MemoryStore.backend
  source := IdSource.ofBytes .empty

/-- The books of the database. -/
def books : Collection MemoryStore := ⟨libraryDatabase, bookTree⟩

/-- The shelves of the database. -/
def shelves : Collection MemoryStore := ⟨libraryDatabase, shelfTree⟩

/-- A store in memory without books and shelves. -/
def noBooks : Running MemoryStore where
  store := { shardMax := 124 }

/-- The state after two books were inserted. -/
def twoBooks : Running MemoryStore :=
  (books.perform ⟨0, 0⟩ (.insertMany
    [.object [("title", .string "a")], .object [("title", .string "b")]]) noBooks).2

/-- The shelf of both books as it is stored. -/
def theShelf : Document :=
  [("id", .ofNat 1),
    ("books", .array [reference "books" (.number 1), reference "books" (.number 2)]),
    ("created_at", .string "1970-01-01T00:00:00.000Z")]

end DocumentDb
