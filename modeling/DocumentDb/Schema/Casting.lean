import DocumentDb.Calendar.Reader
import DocumentDb.Error
import DocumentDb.Schema.Rules
import DocumentDb.Text.Case

/-!
# Casting single values

A value is cast to the type of its field and checked against the rules. Casting changes strings
whose rules ask for it and brings dates to their stored form; all other values stay as they are. The
first broken rule is the error.
-/

namespace DocumentDb

/-- Whether a value is of a type. -/
def ValueType.holds (type : ValueType) (value : Value) : Bool :=
  match type, value with
  | .string, .string _ => true
  | .number, .number _ => true
  | .boolean, .bool _ => true
  | .date, .string text => (Calendar.readInstant? text).isSome
  | .array, .array _ => true
  | .object, .object _ => true
  | _, _ => false

/-- Whether an entry of `anyOf` accepts a value. -/
def Choice.accepts (choice : Choice) (value : Value) : Bool :=
  match choice with
  | .type wanted => wanted.holds value
  | .value expected => Value.same expected value

namespace Rules

/-- Fail with the violation of a bound, if there is one and it is exceeded. -/
def check {α : Type} (field : String) (bound : Option α) (exceeded : α → Bool)
    (violation : α → Violation) : Except Error Unit :=
  match bound with
  | some bound => if exceeded bound then .error (.violation field (violation bound)) else .ok ()
  | none => .ok ()

/-- The value is one of the listed ones, if there is a list. -/
def checkListed (field : String) (rules : Rules) (value : Value) : Except Error Unit :=
  check field rules.listed (fun listed => !listed.any (Value.same · value)) (.notListed value)

/-- The value is accepted by `anyOf`, if there is one. -/
def checkChoices (field : String) (rules : Rules) (value : Value) : Except Error Unit :=
  check field rules.choices (fun choices => !choices.any (·.accepts value))
    fun _ => .notAnyOf value

/-- The text matches the pattern, if there is one; `shown` stands for it in the message. -/
def checkPattern (field : String) (rules : Rules) (text shown : String) : Except Error Unit :=
  check field rules.pattern (fun pattern => !pattern.matchesText text)
    fun pattern => .noMatch shown pattern.source

/-- The text as it is stored: trimmed, then in small letters or with a capital at its start. -/
def transform (rules : Rules) (text : String) : String :=
  let text := if rules.trim then Text.trim text else text
  if rules.lowercase then Text.lower text
  else if rules.capitalize then Text.capitalize text
  else text

/-- Cast a text. -/
def castString (field : String) (rules : Rules) (raw : String) : Except Error Value := do
  let text := rules.transform raw
  let length := text.length
  check field rules.minLength (length < ·) (.tooShort · length)
  check field rules.maxLength (· < length) (.tooLong · length)
  let value := Value.string text
  checkListed field rules value
  checkPattern field rules text value.text
  pure value

/-- Cast a number; bounds compare it as a double. -/
def castNumber (field : String) (rules : Rules) (n : Number) : Except Error Value := do
  let x := n.toFinite
  check field rules.least (fun least => x.order least == .lt) (.below · n)
  check field rules.most (fun most => x.order most == .gt) (.above · n)
  checkListed field rules (.number n)
  checkPattern field rules n.text n.text
  pure (.number n)

/-- Cast the text of a date. -/
def castDate (field : String) (rules : Rules) (text : String) : Except Error Value :=
  match Calendar.readInstant? text with
  | none => .error (.mismatch field (.noDate text))
  | some t => do
    check field rules.startsAfter (fun bound => !bound.before t) (.notAfter · t)
    check field rules.startsBefore (fun bound => !t.before bound) (.notBefore · t)
    pure (.string t.text)

/-- The field must be present and not null. -/
def missing {α : Type} (field : String) : Except Error α := .error (.violation field .required)

/-- Cast a value that is present. A null is kept unless the field is required. -/
def cast (field : String) (kind : ScalarKind) (rules : Rules) (value : Value) :
    Except Error Value :=
  match kind, value with
  | .any, .null => if rules.required then missing field else do
    rules.checkChoices field .null
    pure .null
  | _, .null => if rules.required then missing field else pure .null
  | .string, .string text => rules.castString field text
  | .number, .number n => rules.castNumber field n
  | .boolean, .bool b => pure (.bool b)
  | .date, .string text => rules.castDate field text
  | .any, value => do
    rules.checkChoices field value
    pure value
  | kind, value => .error (.mismatch field (.expected (.type kind.name) value))

/-- Cast the value of a field that may be absent; then its default counts. -/
def castField (field : String) (kind : ScalarKind) (rules : Rules) (value? : Option Value) :
    Except Error (Option Value) :=
  match value? with
  | some value => (rules.cast field kind value).map some
  | none =>
    match rules.fallback with
    | some value => (rules.cast field kind value).map some
    | none => if rules.required then missing field else pure none

/-- Every item of a list is one of the listed values. -/
def checkEachListed (field : String) (rules : Rules) : List Value → Except Error Unit
  | [] => pure ()
  | item :: rest => do
    rules.checkListed field item
    rules.checkEachListed field rest

/-- The rules of a list hold for its items. -/
def checkItems (field : String) (rules : Rules) (items : List Value) : Except Error Unit := do
  let count := items.length
  check field rules.minLength (count < ·) (.tooFewItems · count)
  check field rules.maxLength (· < count) (.tooManyItems · count)
  rules.checkEachListed field items

end Rules

end DocumentDb
