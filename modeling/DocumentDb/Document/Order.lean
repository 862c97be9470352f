import DocumentDb.Schema.Tree

/-!
# Order of fields and of list items

The fields of a stored document have a canonical order, and lists of references and documents hold
each id once.
-/

namespace DocumentDb

/-- The key of the time of creation. -/
def createdKey : String := "created_at"

/-- The key of the time of the last change. -/
def updatedKey : String := "updated_at"

namespace Tree

/-- The keys that documents keep by themselves. -/
def managedKeys (tree : Tree) : List String :=
  idKey :: ((if tree.settings.createdAt then [createdKey] else [])
    ++ (if tree.settings.updatedAt then [updatedKey] else []))

/-- The fields of a document that have one of several keys, in the order of these keys. -/
def pick (document : Document) (keys : List String) : Object :=
  keys.filterMap fun key => (Object.value? document key).map fun value => (key, value)

/-- The declared keys, the id first. -/
def keys (tree : Tree) : List String := idKey :: tree.fields.map (·.1)

/-- The document with its id first, then the declared fields in their order, the others, and the
times. -/
def order (tree : Tree) (document : Document) : Document :=
  let others := document.filter fun field =>
    !tree.declares field.1 && field.1 ≠ createdKey && field.1 ≠ updatedKey
  Object.putAll (pick document tree.keys ++ others) (pick document [createdKey, updatedKey])

end Tree

/-- The last item with the key of the first one, in a list given by its first item and the rest. -/
def lastWithKey {α κ : Type} [DecidableEq κ] (key : α → Option κ) (item : α) (rest : List α) : α :=
  (rest.reverse.find? fun other => key other == key item).getD item

/-- Each key once: the last item of a key stands where the first one stood. Items without a key
stay. -/
def collapse {α κ : Type} [DecidableEq κ] (key : α → Option κ) : List α → List α
  | [] => []
  | item :: rest =>
    if (key item).isNone then item :: collapse key rest
    else
      lastWithKey key item rest :: collapse key (rest.filter fun other => key other != key item)
termination_by items => items.length
decreasing_by
  · simp_wf
  · simp_wf
    have := List.length_filter_le (fun other => key other != key item) rest
    omega

end DocumentDb
