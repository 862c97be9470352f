import DocumentDb.Proofs.Database.Conformity
import DocumentDb.Proofs.Database.Removals
import DocumentDb.Proofs.Document.Collapsing
import DocumentDb.Proofs.Document.TidyLists

/-!
# Stored lists hold each id once

A list of references or of documents is collapsed whenever it is written. So in every state that
calls lead to, whether they succeed or fail, every item of such a list has an id of its own,
wherever in a stored document the list stands (`stored_lists_hold_ids_once`).
-/

namespace DocumentDb

/-- What stands inside a value that is tidy to any depth is so itself. -/
theorem Occurs.tidy {registry : Registry} {node inner : Node} {value found : Value}
    (h : Occurs registry node value inner found)
    (htidy : ∀ depth, Tidy (Object.TidyTo registry depth) node value) (depth : Nat) :
    Tidy (Object.TidyTo registry depth) inner found := by
  induction h generalizing depth with
  | here => exact htidy depth
  | field hnode hvalue _ ih =>
    exact ih (fun depth => (htidy depth).fields _ _ hnode _ hvalue) depth
  | item hitem _ ih =>
    refine ih (fun depth => ?_) depth
    cases htidy depth with
    | list hitems => exact hitems _ hitem
  | embedded htree hnode hvalue _ ih =>
    -- The copy is tidy down to one level less.
    refine ih (fun depth => ?_) depth
    cases htidy (depth + 1) with
    | document hdocument => exact hdocument.2 _ htree _ _ hnode _ hvalue

/-- **Lists hold each id once.** Whatever is collapsed, by whatever key, has each key once and loses
nothing else, and is left alone when it is collapsed again. And in every state that calls lead to,
the items of lists of references and of documents have ids of their own. -/
theorem stored_lists_hold_ids_once {σ : Type} {database : Database σ} {view : σ → MemoryStore}
    {faults : Prop} (hregistry : database.registry.Compiled) (hsource : database.source.Exact)
    (hbackend : database.backend.ActsLike view faults) {empty : σ}
    (hempty : ∀ name, (view empty).documents name = []) {running : Running σ}
    (hreaches : database.Reaches (fun _ => True) { store := empty } running) :
    (∀ (α κ : Type) [DecidableEq κ] (key : α → Option κ) (items : List α),
      Collapses key items (collapse key items) ∧
        collapse key (collapse key items) = collapse key items) ∧
    ∀ name, ∀ document ∈ (view running.store).documents name, ∀ required element items idOf,
      Occurs database.registry (.document name required) (.object document) (.list element)
        (.array items) →
      element.idOf? = some idOf → OwnIds idOf items := by
  refine ⟨fun α κ _ key items => ⟨collapse_collapses key items,
    collapse_eq_self (nodup_collapse items)⟩, ?_⟩
  intro name document hin required element items idOf hoccurs hid
  have htidy : ∀ depth, Object.TidyTo database.registry depth name document := by
    intro depth
    have hholds : (view running.store).Holds (view empty).shardMax
        (Object.TidyTo database.registry depth) :=
      Reaches.holds hbackend hempty (fun _ _ hlimit hfetched =>
        tidyTo_vetting hlimit hregistry.proper hsource depth hfetched) hreaches
    exact (hholds.each name document hin).2
  cases hoccurs.tidy (fun depth => .document (htidy depth)) 0 with
  | list _ hids => exact hids idOf hid

/-- The state after a shelf was inserted that names the first of two books twice. -/
def crammedShelf : Running MemoryStore :=
  (shelves.perform ⟨0, 0⟩ (.insert (.object [("books", .array [reference "books" (.number 1),
    reference "books" (.number 2), reference "books" (.number 1)])])) twoBooks).2

set_option maxRecDepth 2000 in
/-- Each of the two books is stored on the shelf once. -/
theorem crammedShelf_tidy : theShelf ∈ crammedShelf.store.documents "shelves" ∧
    OwnIds Value.referenceId? [reference "books" (.number 1), reference "books" (.number 2)] := by
  have hbooks : libraryDatabase.collection "books" = .ok books := rfl
  have hshelves : libraryDatabase.collection "shelves" = .ok shelves := rfl
  have htwo : libraryDatabase.Reaches (fun _ => True) noBooks twoBooks :=
    .single (.call hbooks trivial)
  have hreaches : libraryDatabase.Reaches (fun _ => True) noBooks crammedShelf :=
    htwo.tail (.call hshelves trivial)
  have hstored : crammedShelf.store.documents "shelves" = [theShelf] := by cbv
  have hin : theShelf ∈ crammedShelf.store.documents "shelves" :=
    hstored ▸ List.mem_singleton_self theShelf
  have hnode : shelfTree.fields.node? "books" = some (.list (.reference "books" .incr)) := rfl
  have hoccurs : Occurs libraryDatabase.registry (.document "shelves" false) (.object theShelf)
      (.list (.reference "books" .incr))
      (.array [reference "books" (.number 1), reference "books" (.number 2)]) :=
    .embedded rfl hnode rfl .here
  exact ⟨hin, (stored_lists_hold_ids_once library_compiled (IdSource.ofBytes_exact _)
    MemoryStore.backend_actsLike (fun _ => rfl) hreaches).2 "shelves" theShelf hin false
      (.reference "books" .incr) _ _ hoccurs rfl⟩

end DocumentDb
