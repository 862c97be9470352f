import DocumentDb.Calendar.Instant
import DocumentDb.Document.Id
import DocumentDb.Json.Printer

/-!
# Errors

What can go wrong, as causes. `message` gives the words of a cause and `Error.message` the whole
text with its heading. Failures of the file system and of the formats of stored files have no words
of their own.
-/

namespace DocumentDb

/-- A number of a message. -/
def Finite.brief (x : Finite) : String := x.text .message

/-- How a value breaks a rule. -/
inductive Violation where
  | required
  | requiredForUpdate
  | nullId
  | immutableId (id : DocId) (value : Value)
  | undeclared
  | tooShort (least length : Nat)
  | tooLong (most length : Nat)
  | tooFewItems (least count : Nat)
  | tooManyItems (most count : Nat)
  | below (least : Finite) (value : Number)
  | above (most : Finite) (value : Number)
  | notAfter (bound value : Instant)
  | notBefore (bound value : Instant)
  | notListed (value : Value) (allowed : List Value)
  /-- The text of a value, as it is shown, does not match a pattern. -/
  | noMatch (shown pattern : String)
  | notAnyOf (value : Value)
  | wrongTarget (collection expected : String)
  | generatedInUse (id : Nat) (collection : String)
  | noUnusedId (collection : String)
  | duplicateId (id : DocId) (collection : String)
  | idTooLarge (id most : Nat)
  | idLength (least most length : Nat)
  | noValidId
  | updateWithout (key : String)
  | emptyUpdate
  | matchedIdChanges

namespace Violation

/-- The words of a violation. -/
def message : Violation → String
  | required => "is required"
  | requiredForUpdate => "is required to update a document"
  | nullId => "cannot be null"
  | immutableId id value => s!"is immutable, cannot change {id.label} to {value.text}"
  | undeclared => "is not declared in the schema"
  | tooShort least length => s!"must be at least {least} characters long, got {length}"
  | tooLong most length => s!"must be at most {most} characters long, got {length}"
  | tooFewItems least count => s!"must hold at least {least} items, got {count}"
  | tooManyItems most count => s!"must hold at most {most} items, got {count}"
  | below least value => s!"must be >= {least.brief}, got {value.text}"
  | above most value => s!"must be <= {most.brief}, got {value.text}"
  | notAfter bound value => s!"must be after {bound.text}, got {value.text}"
  | notBefore bound value => s!"must be before {bound.text}, got {value.text}"
  | notListed value allowed =>
    value.text ++ " is not one of [" ++ ", ".intercalate (Value.itemTexts allowed) ++ "]"
  | noMatch shown pattern => s!"{shown} does not match pattern '{pattern}'"
  | notAnyOf value => s!"{value.text} is not accepted by anyOf"
  | wrongTarget collection expected => s!"reference points at '{collection}', expected '{expected}'"
  | generatedInUse id collection => s!"generated id {id} is already in use in '{collection}'"
  | noUnusedId collection => s!"could not generate an unused id for '{collection}'"
  | duplicateId id collection => s!"duplicate id {id.label} in '{collection}'"
  | idTooLarge id most => s!"id {id} exceeds the maximum of {most}"
  | idLength least most length => s!"id length must be within {least}..={most}, got {length}"
  | noValidId => "document has no valid id"
  | updateWithout key => s!"update object has no '{key}'"
  | emptyUpdate => "update object is empty"
  | matchedIdChanges => "the id of a matched document cannot change"

end Violation

/-- What a field takes. -/
inductive Expectation where
  /-- A value of a named type. -/
  | type (name : String)
  | array
  | object
  | document
  | updateObject
  | reference
  | documentOf (collection : String)
  | embedded (collection : String)
  | referenceOrObject (collection : String)
  | jsonObject
  | jsonArray
  | numberId
  | textId

namespace Expectation

/-- The words of an expectation. -/
def message : Expectation → String
  | type name => name
  | array => "an array"
  | object => "an object"
  | document => "a document object"
  | updateObject => "an update object"
  | reference => "a reference object"
  | documentOf collection => s!"a '{collection}' document"
  | embedded collection => s!"an object for an embedded '{collection}' document"
  | referenceOrObject collection =>
    s!"a reference or an object to create a '{collection}' document"
  | jsonObject => "a JSON object"
  | jsonArray => "a JSON array"
  | numberId => "a positive integer id"
  | textId => "a string id"

/-- How a value that is not as expected is described: by its text where a document was asked for on
the command line, by its content where an id was, else by its kind. -/
def describe (expectation : Expectation) (value : Value) : String :=
  match expectation, value with
  | jsonObject, value | jsonArray, value => value.text
  | numberId, .number n | textId, .number n => n.text
  | numberId, .string s | textId, .string s => s!"'{s}'"
  | _, value => value.kindName

end Expectation

/-- How a value has the wrong shape. -/
inductive Mismatch where
  | expected (expectation : Expectation) (value : Value)
  | noDate (text : String)
  | referenceKeys (keys : List String)
  | referenceCollection
  | notArrayField

namespace Mismatch

/-- The words of a mismatch. -/
def message : Mismatch → String
  | expected expectation value =>
    s!"expected {expectation.message}, got {expectation.describe value}"
  | noDate text => s!"'{text}' is not a valid date"
  | referenceKeys keys =>
    "a reference must be exactly \x7bcollection, $ref\x7d, got keys [" ++ ", ".intercalate keys
      ++ "]"
  | referenceCollection => "reference 'collection' must be a collection name"
  | notArrayField => "is not an array field"

end Mismatch

/-- What exceeds a capacity. -/
inductive Overflow where
  | idsExhausted (collection : String) (most : Nat)
  | documentSize (size limit shard : Nat)
  | shardSize (size shard : Nat)

namespace Overflow

/-- The words of an overflow. -/
def message : Overflow → String
  | idsExhausted collection most => s!"id space of '{collection}' is exhausted (max {most})"
  | documentSize size limit shard =>
    s!"document size {size} bytes exceeds the {limit} bytes a shard of {shard} bytes can hold"
  | shardSize size shard =>
    s!"document of {size} bytes does not fit in a shard of {shard} bytes"

end Overflow

/-- What is wrong with a query or with the choice of array elements. -/
inductive QueryFault where
  | unknownOperator (token : String)
  | malformed (text : String)
  | noValue (text : String)
  | noKey
  | strictFilter (text : String)
  /-- A connective, by its name, that stands before any filter. -/
  | dangling (connective : String)
  /-- The fault of an expression, as a query under construction keeps it. -/
  | recorded (fault : QueryFault)
  | bothProjections
  | notReference (path : String)
  | emptyMatcher
  | matcherOperator (operator : String)
  | referenceMatcher (path : String)
  | documentKey (path key : String)
  | documentItem (path : String)
  | documentId (path : String)
  | undeclaredKey (path key : String)
  | objectItem (path : String)
  | keyOfItems (path kind key : String)
  | fieldOfItems (path kind : String)
  | replacements (path : String) (count : Nat)
  | notId (path : String)

namespace QueryFault

/-- The words of a fault. -/
def message : QueryFault → String
  | unknownOperator token => s!"unknown operator '{token}'"
  | malformed text => s!"malformed expression '{text}'"
  | noValue text => s!"expression '{text}' has no value"
  | noKey => "array filter needs a key or '$item'"
  | strictFilter text => s!"'===' is not a valid filter operator in '{text}'"
  | dangling connective => s!"'{connective}' must follow a 'where' filter"
  | recorded fault => "Query error: " ++ fault.message
  | bothProjections => "'include' and 'exclude' cannot be combined"
  | notReference path => s!"'{path}' does not address a reference field"
  | emptyMatcher => "array matcher is empty"
  | matcherOperator operator => s!"'{operator}' is not a valid pathExpr operator"
  | referenceMatcher path =>
    s!"the reference list '{path}' can only be updated with '$item === <id>'"
  | documentKey path key => s!"elements of '{path}' are matched by '{idKey}', not '{key}'"
  | documentItem path => s!"'$item' cannot match the documents of '{path}'"
  | documentId path => s!"match the documents of '{path}' by '{idKey}' with a single-path key"
  | undeclaredKey path key => s!"'{key}' is not a declared field of the elements of '{path}'"
  | objectItem path =>
    s!"'$item' cannot match the objects of '{path}'; compare one of their fields"
  | keyOfItems path kind key =>
    s!"'{path}' is a {kind}; match its elements with '$item' instead of '{key}'"
  | fieldOfItems path kind => s!"'{path}' is a {kind}; match its elements with '$item'"
  | replacements path count => s!"updating '{path}' takes exactly one replacement, got {count}"
  | notId path => s!"'{path}' elements must be matched by an id"

end QueryFault

mutual

/-- What is wrong with a declaration. -/
inductive SchemaFault where
  | notFound (directory : String)
  | typeName (value : Value)
  | unsupported (declaration : Value)
  | unsupportedElement (declaration : Value)
  | unknownType (name : String)
  | onlyForIds (marker : String)
  | manyElements
  | notElement (marker : String)
  | noSchemaName
  | noRefTarget
  | badRefType (name : String)
  | badRefCollection (value : Value)
  | refTypeDiffers (collection : String)
  | unknownCollection (collection : String)
  | badId
  | badIdType (name : String)
  | badIdMax
  | badIdLengths (least most : Nat)
  | tooDeep
  | unknownOption (key path : String)
  | unknownTypeOption (key type path : String)
  | notFlag (key : String) (value : Value)
  | notCount (key : String)
  | notNumber (key : String) (value : Value)
  | notDate (key : String) (value : Value)
  | notList (key : String)
  | notPattern
  | badPattern
  | twoCases
  | lengthsCross
  | listedType (value : Value) (type : String)
  | badDefault (cause : Error)

/-- Why an operation fails. -/
inductive Error where
  /-- A value of a field breaks a rule. -/
  | violation (field : String) (cause : Violation)
  /-- A value of a field has the wrong shape. -/
  | mismatch (field : String) (cause : Mismatch)
  | unknownCollection (name : String)
  /-- There is no document, or no element, of an id. -/
  | notFound (collection id : String)
  | schema (field : String) (fault : SchemaFault)
  | capacity (cause : Overflow)
  | query (fault : QueryFault)
  /-- A file cannot be read or written. -/
  | file
  /-- A text is no YAML or does not describe a schema. -/
  | yaml
  /-- A text is no JSON or is not what was asked for. -/
  | json
  /-- The name of a collection makes no file pattern. -/
  | wildcard

end

instance : Inhabited Error := ⟨.file⟩

mutual

/-- The words of a fault. -/
def SchemaFault.message : SchemaFault → String
  | .notFound directory => s!"not found in {directory}"
  | .typeName value => s!"'type' must be a type name, got {value.text}"
  | .unsupported declaration => s!"unsupported field declaration {declaration.text}"
  | .unsupportedElement declaration =>
    s!"unsupported array element declaration {declaration.text}"
  | .unknownType name => s!"unknown type '{name}'"
  | .onlyForIds marker => s!"'{marker}' is only valid on the 'id' field"
  | .manyElements => "array declarations take exactly one element type"
  | .notElement marker => s!"'{marker}' cannot be used as an array element"
  | .noSchemaName => "'schema' must name a collection"
  | .noRefTarget => "'$ref' must be a collection or id type"
  | .badRefType name => s!"'{name}' is not a valid reference id type"
  | .badRefCollection value => s!"'collection' must be a collection name, got {value.text}"
  | .refTypeDiffers collection =>
    s!"reference id type does not match the id of collection '{collection}'"
  | .unknownCollection collection => s!"unknown collection '{collection}'"
  | .badId => "id must be declared as $incr or $uid"
  | .badIdType name => s!"id must be declared as $incr or $uid, got '{name}'"
  | .badIdMax => "'max' must be a positive integer"
  | .badIdLengths least most => s!"invalid $uid length bounds {least}..{most}"
  | .tooDeep => "references and embedded documents are only supported one array level deep"
  | .unknownOption key path => s!"unknown option '{key}' for field '{path}'"
  | .unknownTypeOption key type path => s!"unknown option '{key}' for {type} field '{path}'"
  | .notFlag key value => s!"'{key}' must be true or false, got {value.text}"
  | .notCount key => s!"'{key}' must be a non-negative integer"
  | .notNumber key value => s!"'{key}' must be a number, got {value.text}"
  | .notDate key value => s!"'{key}' must be an ISO date, got {value.text}"
  | .notList key => s!"'{key}' must be a list"
  | .notPattern => "'validate' must be a pattern"
  | .badPattern => "invalid 'validate' pattern"
  | .twoCases => "'lowercase' and 'capitalize' cannot be combined"
  | .lengthsCross => "'minLength' is greater than 'maxLength'"
  | .listedType value type => s!"enum value {value.text} is not a {type}"
  | .badDefault cause => "invalid default: " ++ cause.message

/-- The whole text of an error. -/
def Error.message : Error → String
  | .violation field cause => s!"Validation error at '{field}': {cause.message}"
  | .mismatch field cause => s!"Type error at '{field}': {cause.message}"
  | .unknownCollection name => s!"Collection '{name}' not found in schema"
  | .notFound collection id => s!"Document not found: {collection}/{id}"
  | .schema field fault => s!"Schema error at '{field}': " ++ fault.message
  | .capacity cause => s!"Capacity exceeded: {cause.message}"
  | .query fault => s!"Query error: {fault.message}"
  | .file => "IO error"
  | .yaml => "YAML error"
  | .json => "JSON error"
  | .wildcard => "Glob error"

end

end DocumentDb
