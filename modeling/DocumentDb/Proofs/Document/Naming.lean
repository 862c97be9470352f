import DocumentDb.Proofs.Document.Keeping

/-!
# Ids that input names

An object of the input that stands for a document names the id that it has, if any. Which objects
stand for documents depends on the schema: the input itself, values of embedded documents and of
references, and items of lists of these, at any depth.
-/

namespace DocumentDb

/-- The collection of the documents that a node embeds or refers to. -/
def Node.target? : Node → Option String
  | reference collection _ _ => some collection
  | document collection _ => some collection
  | _ => none

/-- **The input for a node names the id of a document.** -/
inductive Names (registry : Registry) : Node → Value → String → DocId → Prop
  | own {node : Node} {collection : String} {input : Object} {id : DocId}
    (htarget : node.target? = some collection)
    (hid : Object.value? input idKey = some id.toValue) :
    Names registry node (.object input) collection id
  | inside {node : Node} {target collection : String} {tree : Tree} {input : Object} {id : DocId}
    (htarget : node.target? = some target) (htree : registry.tree? target = some tree)
    (h : Names registry (.nested tree.fields) (.object input) collection id) :
    Names registry node (.object input) collection id
  | field {fields : Fields} {name collection : String} {node : Node} {input : Object}
    {value : Value} {id : DocId} (hfield : (name, node) ∈ fields) (hvalue : (name, value) ∈ input)
    (h : Names registry node value collection id) :
    Names registry (.nested fields) (.object input) collection id
  | item {element : Element} {items : List Value} {item : Value} {collection : String} {id : DocId}
    (hitem : item ∈ items) (h : Names registry element.asNode item collection id) :
    Names registry (.list element) (.array items) collection id

/-- All ids that the input for a node names are named on the ground. -/
def Ground.Permits (ground : Ground) (node : Node) (value : Value) : Prop :=
  ∀ collection id, Names ground.context.registry node value collection id →
    ground.named collection id

section Permits
variable {ground : Ground} {fields : Fields} {input : Object} {collection : String}

namespace Ground.Permits

theorem own {node : Node} {id : DocId} (h : ground.Permits node (.object input))
    (htarget : node.target? = some collection)
    (hid : Object.value? input idKey = some id.toValue) : ground.named collection id :=
  h collection id (.own htarget hid)

theorem inside {node : Node} {tree : Tree} (h : ground.Permits node (.object input))
    (htarget : node.target? = some collection)
    (htree : ground.context.registry.tree? collection = some tree) :
    ground.Permits (.nested tree.fields) (.object input) :=
  fun other id hnames => h other id (.inside htarget htree hnames)

theorem field {name : String} {node : Node} {value : Value}
    (h : ground.Permits (.nested fields) (.object input)) (hfield : (name, node) ∈ fields)
    (hvalue : (name, value) ∈ input) : ground.Permits node value :=
  fun other id hnames => h other id (.field hfield hvalue hnames)

theorem item {element : Element} {items : List Value} (h : ground.Permits (.list element)
    (.array items)) : ∀ item ∈ items, ground.Permits element.asNode item :=
  fun _ hitem other id hnames => h other id (.item hitem hnames)

/-- What a document of a collection names does not depend on the node it stands for. -/
theorem retarget {node : Node} {value : Value} (h : ground.Permits node value)
    (htarget : node.target? = some collection) :
    ground.Permits (.document collection false) value := by
  intro other id hnames
  cases hnames with
  | own hown hid => cases hown; exact h _ id (.own htarget hid)
  | inside hown htree hnames => cases hown; exact h _ id (.inside htarget htree hnames)

/-- A nested object names the ids that its fields name. -/
theorem of_fields (h : ∀ name node value, (name, node) ∈ fields → (name, value) ∈ input →
    ground.Permits node value) : ground.Permits (.nested fields) (.object input) := by
  intro other id hnames
  cases hnames with
  | own htarget _ => cases htarget
  | inside htarget _ _ => cases htarget
  | field hfield hvalue hnames => exact h _ _ _ hfield hvalue other id hnames

theorem nothing : ground.Permits (.nested fields) (.object []) :=
  of_fields fun _ _ _ _ hvalue => by cases hvalue

theorem fewer_fields {field : String × Node}
    (h : ground.Permits (.nested (field :: fields)) (.object input)) :
    ground.Permits (.nested fields) (.object input) :=
  of_fields fun _ _ _ hfield hvalue => h.field (List.mem_cons_of_mem _ hfield) hvalue

theorem less_input {entry : String × Value}
    (h : ground.Permits (.nested fields) (.object (entry :: input))) :
    ground.Permits (.nested fields) (.object input) :=
  of_fields fun _ _ _ hfield hvalue => h.field hfield (List.mem_cons_of_mem _ hvalue)

end Ground.Permits

end Permits

end DocumentDb
