import DocumentDb.Yaml.Token

/-!
# YAML documents

A document is a tree of scalars, sequences and mappings. Scalars keep whether they were plain,
because only plain ones can stand for something else than text. An absent node is an empty plain
scalar. A text holds one document; an alias stands for the node of its anchor.
-/

namespace DocumentDb.Yaml

/-- A node of a document. -/
inductive Node where
  | scalar (plain : Bool) (text : String)
  | sequence (items : List Node)
  | mapping (entries : List (Node × Node))
deriving Repr, Inhabited

namespace Node

/-- The node that stands where nothing is written. -/
def absent : Node := scalar true ""

/-- What is left to read, and the nodes of the anchors so far. -/
structure Input where
  tokens : List Token
  anchors : List (String × Node)

/-- A reader of a part of a document. -/
abbrev Reader (α : Type) := StateT Input Option α

/-- Refuse the text. -/
def refuse {α : Type} : Reader α := fun _ => none

/-- The next token, which stays. -/
def peek? : Reader (Option Token) := do pure (← get).tokens.head?

/-- Pass over one token. -/
def skip : Reader Unit := modify fun s => { s with tokens := s.tokens.tail }

/-- Whether the next token is one of several; there may be none. -/
def isNext (tokens : List Token) : Reader Bool := do
  match ← peek? with
  | some token => pure (tokens.contains token)
  | none => pure false

mutual

/-- A node. `block` says that block collections may begin here, `flush` that the items of a sequence
may stand at the column of the key around. -/
def readNode : Nat → Bool → Bool → Reader Node
  | 0, _, _ => refuse
  | fuel + 1, block, flush => do
    match ← peek? with
    | some (.alias name) =>
      skip
      match (← get).anchors.lookup name with
      | some node => pure node
      | none => refuse
    | some (.anchor name) =>
      skip
      let node ← match ← readContent fuel block flush with
        | some node => pure node
        | none => pure absent
      modify fun s => { s with anchors := (name, node) :: s.anchors }
      pure node
    | _ => match ← readContent fuel block flush with
      | some node => pure node
      | none => refuse

/-- The content of a node, if one begins here. -/
def readContent : Nat → Bool → Bool → Reader (Option Node)
  | 0, _, _ => refuse
  | fuel + 1, block, flush => do
    match ← peek? with
    | some (.scalar plain text) =>
      skip
      pure (some (scalar plain text))
    | some .flowSequenceStart =>
      skip
      pure (some (sequence (← readFlowItems fuel true)))
    | some .flowMappingStart =>
      skip
      pure (some (mapping (← readFlowEntries fuel true)))
    | some .item =>
      if flush then pure (some (sequence (← readFlushItems fuel))) else pure none
    | some .sequenceStart =>
      if block then
        skip
        pure (some (sequence (← readItems fuel)))
      else pure none
    | some .mappingStart =>
      if block then
        skip
        pure (some (mapping (← readEntries fuel)))
      else pure none
    | _ => pure none

/-- A node, or nothing before one of the tokens that end it. -/
def readOptional : Nat → Bool → Bool → List Token → Reader Node
  | 0, _, _, _ => refuse
  | fuel + 1, block, flush, ends => do
    if ← isNext ends then pure absent else readNode fuel block flush

/-- The items of a block sequence. -/
def readItems : Nat → Reader (List Node)
  | 0 => refuse
  | fuel + 1 => do
    match ← peek? with
    | some .item =>
      skip
      let item ← readOptional fuel true false [.item, .blockEnd]
      pure (item :: (← readItems fuel))
    | some .blockEnd =>
      skip
      pure []
    | _ => refuse

/-- The items of a block sequence at the column of the key around. -/
def readFlushItems : Nat → Reader (List Node)
  | 0 => refuse
  | fuel + 1 => do
    match ← peek? with
    | some .item =>
      skip
      let item ← readOptional fuel true false [.item, .key, .value, .blockEnd]
      pure (item :: (← readFlushItems fuel))
    | _ => pure []

/-- The entries of a block mapping. -/
def readEntries : Nat → Reader (List (Node × Node))
  | 0 => refuse
  | fuel + 1 => do
    match ← peek? with
    | some .key =>
      skip
      let key ← readOptional fuel true true [.key, .value, .blockEnd]
      let value ←
        if ← isNext [.value] then do
          skip
          readOptional fuel true true [.key, .value, .blockEnd]
        else pure absent
      pure ((key, value) :: (← readEntries fuel))
    | some .blockEnd =>
      skip
      pure []
    | _ => refuse

/-- The items of a flow sequence; all but the first follow a comma. An item with a colon is a
mapping of one entry. -/
def readFlowItems : Nat → Bool → Reader (List Node)
  | 0, _ => refuse
  | fuel + 1, first => do
    if ← isNext [.flowSequenceEnd] then
      skip
      pure []
    else
      if !first then
        if ← isNext [.comma] then skip else refuse
      if ← isNext [.flowSequenceEnd] then
        skip
        pure []
      else if ← isNext [.key] then
        skip
        let key ←
          if ← isNext [.value, .comma, .flowSequenceEnd] then do
            skip
            pure absent
          else readNode fuel false false
        let value ←
          if ← isNext [.value] then do
            skip
            readOptional fuel false false [.comma, .flowSequenceEnd]
          else pure absent
        pure (mapping [(key, value)] :: (← readFlowItems fuel false))
      else
        let item ← readNode fuel false false
        pure (item :: (← readFlowItems fuel false))

/-- The entries of a flow mapping; all but the first follow a comma. -/
def readFlowEntries : Nat → Bool → Reader (List (Node × Node))
  | 0, _ => refuse
  | fuel + 1, first => do
    if ← isNext [.flowMappingEnd] then
      skip
      pure []
    else
      if !first then
        if ← isNext [.comma] then skip else refuse
      if ← isNext [.flowMappingEnd] then
        skip
        pure []
      else if ← isNext [.key] then
        skip
        let key ← readOptional fuel false false [.value, .comma, .flowMappingEnd]
        let value ←
          if ← isNext [.value] then do
            skip
            readOptional fuel false false [.comma, .flowMappingEnd]
          else pure absent
        pure ((key, value) :: (← readFlowEntries fuel false))
      else
        let key ← readNode fuel false false
        pure ((key, absent) :: (← readFlowEntries fuel false))

end

/-- The document that the tokens of a text hold. -/
def ofTokens? (tokens : List Token) : Option Node := do
  let fuel := 3 * tokens.length + 3
  let node : Reader Node := do
    match ← peek? with
    | none => pure absent
    | some token =>
      if token = .version || token = .documentStart then
        if token = .version then skip
        if !(← isNext [.documentStart]) then refuse
        skip
        match ← peek? with
        | none => pure absent
        | some _ => readOptional fuel true false [.version, .documentStart, .documentEnd]
      else readNode fuel true false
  let (document, s) ← node.run ⟨tokens, []⟩
  if (s.tokens.dropWhile (· = .documentEnd)).isEmpty then pure document else none

/-- The document of a text. -/
def read? (text : String) : Option Node := (Token.scan? text).bind ofTokens?

end Node

end DocumentDb.Yaml
