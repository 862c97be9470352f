import DocumentDb.Error
import DocumentDb.Schema.Rules
import DocumentDb.Text.Segment

/-!
# Compiled schemas

The schema of a collection says what its ids are and what each declared field holds. Declarations
name other collections and do not contain their schemas, so a schema is a finite tree even where
collections refer to each other.
-/

namespace DocumentDb

mutual

/-- What a declared field holds. -/
inductive Node where
  | scalar (kind : ScalarKind) (rules : Rules)
  /-- A reference to a document of a collection with ids of a kind. -/
  | reference (collection : String) (kind : IdKind) (required : Bool)
  /-- A list of any items. -/
  | array (rules : Rules)
  /-- A list of items of one kind. -/
  | list (element : Element)
  /-- A copy of a document that is stored in a collection of its own. -/
  | document (collection : String) (required : Bool)
  | nested (fields : List (String × Node))

/-- What the items of a list are. -/
inductive Element where
  | any
  | scalar (kind : ScalarKind) (rules : Rules)
  | reference (collection : String) (kind : IdKind)
  | document (collection : String)
  | object (fields : List (String × Node))
  | list (inner : Element)

end

instance : Inhabited Node := ⟨.array {}⟩

instance : Inhabited Element := ⟨.any⟩

/-- Declared fields in the order of their declaration. -/
abbrev Fields := List (String × Node)

namespace Node

/-- Whether the field must be present and not null. -/
def isRequired : Node → Bool
  | scalar _ rules => rules.required
  | array rules => rules.required
  | reference _ _ required => required
  | document _ required => required
  | list _ => false
  | nested _ => false

/-- The elements of a list field. -/
def element? : Node → Option Element
  | array _ => some .any
  | list element => some element
  | _ => none

end Node

namespace Element

/-- The kind of a list with these elements. -/
def listName : Element → String
  | any => "untyped list"
  | scalar _ _ => "scalar list"
  | reference _ _ => "reference list"
  | document _ => "document list"
  | object _ => "object list"
  | list _ => "list of lists"

end Element

namespace Fields

/-- The declaration of a field. -/
def node? (fields : Fields) (name : String) : Option Node :=
  match fields with
  | [] => none
  | (key, node) :: rest => if key = name then some node else node? rest name

/-- Whether a field is declared. -/
def declares (fields : Fields) (name : String) : Bool := (node? fields name).isSome

/-- The declaration behind several segments, the first ones leading through nested objects. -/
def follow? (fields : Fields) : List String → Option Node
  | [] => none
  | [name] => node? fields name
  | name :: rest =>
    match node? fields name with
    | some (.nested inner) => follow? inner rest
    | _ => none

end Fields

/-- The largest integer that every reader of JSON keeps exactly. -/
def maxSafeId : Nat := 9007199254740991

/-- How the ids of a collection are made. -/
inductive IdRule where
  /-- Numbers from one up to a maximum. -/
  | incr (most : Nat)
  /-- Texts with a length between two bounds. -/
  | uid (least most : Nat)
deriving DecidableEq, Repr, Inhabited

namespace IdRule

/-- The rule of a collection that declares no id. -/
def standard : IdRule := incr maxSafeId

/-- The kind of the ids. -/
def kind : IdRule → IdKind
  | incr _ => .incr
  | uid _ _ => .uid

/-- The largest number of the counter. -/
def counterMax : IdRule → Nat
  | incr most => most
  | uid _ _ => maxSafeId

end IdRule

/-- The settings of a collection. -/
structure Settings where
  /-- Whether undeclared fields are refused. -/
  strict : Bool := false
  /-- Whether documents keep the time of their creation. -/
  createdAt : Bool := false
  /-- Whether documents keep the time of their last change. -/
  updatedAt : Bool := false
deriving DecidableEq, Repr, Inhabited

/-- The compiled schema of a collection. -/
structure Tree where
  collection : String
  id : IdRule
  /-- The declared fields but the id. -/
  fields : Fields
  settings : Settings
deriving Inhabited

/-- What a path into a schema leads to. -/
inductive Declared where
  | id (rule : IdRule)
  | field (node : Node)

namespace Tree

/-- What is declared at a dotted path. -/
def at? (tree : Tree) (path : String) : Option Declared :=
  match Text.splitAt '.' path with
  | first :: rest =>
    if first = idKey then if rest.isEmpty then some (.id tree.id) else none
    else (tree.fields.follow? (first :: rest)).map .field
  | [] => none

/-- Whether the schema declares a field at the top level; the id is always declared. -/
def declares (tree : Tree) (name : String) : Bool := name = idKey || tree.fields.declares name

/-- The elements of the list field at a dotted path. -/
def element (tree : Tree) (path : String) : Except Error Element :=
  match tree.at? path with
  | some (.field node) => match node.element? with
    | some element => .ok element
    | none => .error (.mismatch path .notArrayField)
  | some (.id _) => .error (.mismatch path .notArrayField)
  | none => .error (.violation path .undeclared)

end Tree

end DocumentDb
