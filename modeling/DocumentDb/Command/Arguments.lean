import DocumentDb.Text.Segment

/-!
# Arguments of a command line

Arguments are options and plain values. An option begins with two hyphens, and its value stands
behind an equality sign or is the next argument; a value that is an argument of its own does not
begin with a hyphen, unless it is a single one. Behind two hyphens alone all arguments are values.
The first mistake ends the reading, and so does the wish for help.
-/

namespace DocumentDb.Command

/-- Why arguments are read no further. -/
inductive Stop where
  | misuse
  | help
  | version
deriving DecidableEq, Repr, Inhabited

/-- An option that may be given. -/
structure OptionForm where
  name : String
  takesValue : Bool := true
  /-- Whether it may be given more than once. -/
  repeats : Bool := false
  /-- Which values it takes. -/
  accepts : String → Bool := fun _ => true

/-- Which arguments may be given. -/
structure Form where
  /-- The number of values at most. -/
  values : Nat
  options : List OptionForm
  /-- Whether the first value is a word that begins arguments of another form. -/
  leads : Bool := false

/-- The arguments that were given. -/
structure Arguments where
  values : List String := []
  /-- The options with their values in the order in which they were given. -/
  options : List (String × String) := []
  /-- What begins with a leading word. -/
  rest : List String := []
deriving DecidableEq, Repr, Inhabited

/-- What an argument is by its shape. -/
inductive Shape where
  | separator
  | long (name : String) (value : Option String)
  | short (letter : Char)
  | plain

namespace Shape

/-- The name and the value of a text with an equality sign between them. -/
def splitPair? (text : String) : Option (String × String) :=
  let cs := text.toList
  match cs.dropWhile (· ≠ '=') with
  | [] => none
  | _ :: value => some (String.ofList (cs.takeWhile (· ≠ '=')), String.ofList value)

/-- The shape of an argument. -/
def ofText (text : String) : Shape :=
  match text.toList with
  | ['-', '-'] => separator
  | '-' :: '-' :: name =>
    match splitPair? (String.ofList name) with
    | some (name, value) => long name (some value)
    | none => long (String.ofList name) none
  | '-' :: letter :: _ => short letter
  | _ => plain

/-- Whether an argument stands for nothing but itself. -/
def isPlain : Shape → Bool
  | plain => true
  | _ => false

end Shape

namespace Form

/-- The option of a name. -/
def option? (form : Form) (name : String) : Option OptionForm :=
  form.options.find? (·.name == name)

end Form

namespace Arguments

/-- Whether an option was given. -/
def has (given : Arguments) (name : String) : Bool := given.options.any (·.1 == name)

/-- The values of an option. -/
def all (given : Arguments) (name : String) : List String :=
  given.options.filterMap fun option => if option.1 = name then some option.2 else none

/-- The places of an option among all that were given, one for each of its values. -/
def places (given : Arguments) (name : String) : List Nat :=
  given.options.zipIdx.filterMap fun (option, place) =>
    if option.1 = name then some place else none

/-- The value of an option that is given once at most. -/
def one? (given : Arguments) (name : String) : Option String := (given.all name).head?

/-- Add an option. -/
def withOption (given : Arguments) (form : OptionForm) (value : String) : Except Stop Arguments :=
  if given.has form.name && !form.repeats then .error .misuse
  else if form.accepts value then
    .ok { given with options := given.options ++ [(form.name, value)] }
  else .error .misuse

/-- Add a value. -/
def withValue (given : Arguments) (form : Form) (value : String) : Except Stop Arguments :=
  if given.values.length < form.values then
    .ok { given with values := given.values ++ [value] }
  else .error .misuse

/-- Add values. -/
def withValues (form : Form) : List String → Arguments → Except Stop Arguments
  | [], given => .ok given
  | value :: rest, given => do withValues form rest (← given.withValue form value)

/-- Read arguments behind those that were given already. -/
def readOnto (form : Form) : List String → Arguments → Except Stop Arguments
  | [], given => .ok given
  | text :: rest, given =>
    match Shape.ofText text with
    | .separator => withValues form rest given
    | .short letter =>
      if letter = 'h' then .error .help
      else if form.leads && letter = 'V' then .error .version
      else .error .misuse
    | .plain =>
      if form.leads then .ok { given with rest := text :: rest }
      else do readOnto form rest (← given.withValue form text)
    | .long name value? =>
      if name = "help" && value?.isNone then .error .help
      else if form.leads && name = "version" && value?.isNone then .error .version
      else
        match form.option? name with
        | none => .error .misuse
        | some option =>
          match option.takesValue, value? with
          | false, some _ => .error .misuse
          | false, none => do readOnto form rest (← given.withOption option "")
          | true, some value => do readOnto form rest (← given.withOption option value)
          | true, none =>
            match rest with
            | [] => .error .misuse
            | value :: rest =>
              if (Shape.ofText value).isPlain then do
                readOnto form rest (← given.withOption option value)
              else .error .misuse

/-- Read arguments. -/
def read (form : Form) (texts : List String) : Except Stop Arguments := readOnto form texts {}

end Arguments

end DocumentDb.Command
