import HealthCheck.Fields
import HealthCheck.Yaml.Node

/-!
# Documents from tokens

Builds the one document of a text from its tokens, by recursive descent with one function per kind
of collection. A collection in block style ends with a token of its own, but for a sequence at the
column of the key it belongs to, which ends where no further item follows.

Names of anchors share slots: a name takes the slot whose number is the number of names known before
it, also when it was known itself.
-/

namespace HealthCheck.Yaml

/-! ## Reading from tokens -/

/-- How far the building of a document is. -/
structure Composition where
  /-- The tokens that are left. -/
  tokens : List Token
  /-- What the handles of tags stand for. -/
  handles : Fields Text := []
  /-- The slot of every name of an anchor. -/
  slots : Fields Nat := []
  /-- How many anchors have been read. -/
  anchors : Nat := 0
  anchored : List Anchored := []

/-- A step that reads tokens and may fail. -/
abbrev Compose (α : Type) := StateT Composition Option α

namespace Compose

/-- The next token. -/
def peek : Compose (Option Token) := do return (← get).tokens.head?

/-- Moves past the next token. -/
def advance : Compose Unit := modify fun s => { s with tokens := s.tokens.tail }

/-- Moves past the next token and returns it. -/
def next : Compose (Option Token) := do
  let t ← peek
  advance
  return t

/-- The next token is one of the given. -/
def isAt (ts : List Token) : Compose Bool := do return (← peek).any (· ∈ ts)

/-- Moves past the next token if it is the given one; the flag tells whether it was. -/
def accept (t : Token) : Compose Bool := do
  if ← isAt [t] then
    advance
    return true
  else return false

/-- Moves past the next token, which has to be the given one. -/
def expect (t : Token) : Compose Unit := do
  if ← accept t then return () else failure

/-! ## Properties of nodes -/

/-- The full tag for a handle and a suffix. Without a handle, the suffix is the tag. -/
def fullTag (handle suffix : Text) : Compose Text := do
  if handle = [] then return suffix
  else
    match Fields.get? handle (← get).handles with
    | some start => return start ++ suffix
    | none => failure

/-- Reads a tag, if there is one. -/
def tag? : Compose (Option Text) := do
  match ← peek with
  | some (.tag handle suffix) =>
    advance
    return some (← fullTag handle suffix)
  | _ => return none

/-- Reads an anchor, if there is one. -/
def anchor? : Compose (Option Text) := do
  match ← peek with
  | some (.anchor name) =>
    advance
    return some name
  | _ => return none

/-- Reads the anchor and the tag of a node, in either order. -/
def properties : Compose (Option Text × Option Text) := do
  match ← anchor? with
  | some name => return (some name, ← tag?)
  | none =>
    match ← tag? with
    | some tag => return (← anchor?, some tag)
    | none => return (none, none)

/-- Takes a slot for the name of an anchor; the result tells the slot and the order. -/
def define (name : Text) : Compose (Nat × Nat) := do
  let s ← get
  let slot := s.slots.length
  set { s with slots := Fields.insert name slot s.slots, anchors := s.anchors + 1 }
  return (slot, s.anchors)

/-- Reads a node with its properties, given how to read its content from its tag and whether it has
any property. -/
def withProperties (content : Option Text → Bool → Compose Node) : Compose Node := do
  let (name, tag) ← properties
  match name with
  | some name =>
    let (slot, order) ← define name
    -- The name is known inside of its own node, which may refer to itself.
    let node ← content tag true
    modify fun s => { s with anchored := ⟨slot, order, node⟩ :: s.anchored }
    return node
  | none => content tag tag.isSome

/-! ## Nodes -/

/-- What ends the value of a block entry without a value. -/
def blockBounds : List Token := [.key, .value, .blockEnd]

/-- A node, or the empty node before one of the given tokens. -/
def orEmpty (bounds : List Token) (node : Compose Node) : Compose Node := do
  if ← isAt bounds then return .empty else node

/-- The value behind a colon; without a colon it is empty. -/
def valueOr (bounds : List Token) (node : Compose Node) : Compose Node := do
  if ← accept .value then orEmpty bounds node else return .empty

/-- Moves to the next item of a flow collection, past the comma before every item but the first. The
flag tells whether there is an item; where there is none, the end of the collection is passed. -/
def flowItem (first : Bool) (stop : Token) : Compose Bool := do
  if ← accept stop then return false
  else
    if !first then expect .flowEntry
    if first then return true
    else
      if ← accept stop then return false else return true

mutual

/-- Reads a node. -/
def node : (fuel : Nat) → (block indentless : Bool) → Compose Node
  | 0, _, _ => failure
  | fuel + 1, block, indentless => do
    match ← peek with
    | some (.aliasOf name) =>
      advance
      match Fields.get? name (← get).slots with
      | some slot => return .aliasOf slot
      | none => failure
    | _ => withProperties (content fuel block indentless)

/-- Reads the content of a node with the given tag. -/
def content :
    (fuel : Nat) → (block indentless : Bool) → Option Text → (proper : Bool) → Compose Node
  | 0, _, _, _, _ => failure
  | fuel + 1, block, indentless, tag, proper => do
    let t ← peek
    match t with
    | some (.scalar style text) =>
      advance
      return .scalar (if tag = some ['!'] then none else tag) style text
    | some .flowSequenceStart =>
      advance
      return .sequence tag (← flowItems fuel true)
    | some .flowMappingStart =>
      advance
      return .mapping tag (← flowEntries fuel true)
    | _ =>
      if indentless ∧ t = some .blockEntry then return .sequence tag (← indentlessItems fuel)
      else if block ∧ t = some .blockSequenceStart then
        advance
        return .sequence tag (← blockItems fuel)
      else if block ∧ t = some .blockMappingStart then
        advance
        return .mapping tag (← blockEntries fuel)
      -- An anchor or a tag alone makes an empty scalar.
      else if proper then return .scalar tag .plain []
      else failure

/-- Reads the items of a block sequence and its end. -/
def blockItems : (fuel : Nat) → Compose (List Node)
  | 0 => failure
  | fuel + 1 => do
    match ← next with
    | some .blockEntry =>
      let item ← orEmpty [.blockEntry, .blockEnd] (node fuel true false)
      return item :: (← blockItems fuel)
    | some .blockEnd => return []
    | _ => failure

/-- Reads the items of a sequence at the column of its key. -/
def indentlessItems : (fuel : Nat) → Compose (List Node)
  | 0 => failure
  | fuel + 1 => do
    if ← accept .blockEntry then
      let item ← orEmpty (.blockEntry :: blockBounds) (node fuel true false)
      return item :: (← indentlessItems fuel)
    else return []

/-- Reads the entries of a block mapping and its end. -/
def blockEntries : (fuel : Nat) → Compose (List (Node × Node))
  | 0 => failure
  | fuel + 1 => do
    match ← next with
    | some .key =>
      let key ← orEmpty blockBounds (node fuel true true)
      let value ← valueOr blockBounds (node fuel true true)
      return (key, value) :: (← blockEntries fuel)
    | some .blockEnd => return []
    | _ => failure

/-- Reads the items of a flow sequence and its end. An item with a colon is a mapping of one entry;
where its key is missing, the token in the place of the key is passed over. -/
def flowItems : (fuel : Nat) → (first : Bool) → Compose (List Node)
  | 0, _ => failure
  | fuel + 1, first => do
    if ← flowItem first .flowSequenceEnd then
      if ← accept .key then
        let missing ← isAt [.value, .flowEntry, .flowSequenceEnd]
        if missing then advance
        let key ← if missing then pure .empty else node fuel false false
        let value ← valueOr [.flowEntry, .flowSequenceEnd] (node fuel false false)
        return .mapping none [(key, value)] :: (← flowItems fuel false)
      else
        let item ← node fuel false false
        return item :: (← flowItems fuel false)
    else return []

/-- Reads the entries of a flow mapping and its end. A key without a colon has an empty value. -/
def flowEntries : (fuel : Nat) → (first : Bool) → Compose (List (Node × Node))
  | 0, _ => failure
  | fuel + 1, first => do
    if ← flowItem first .flowMappingEnd then
      if ← accept .key then
        let key ← orEmpty [.value, .flowEntry, .flowMappingEnd] (node fuel false false)
        let value ← valueOr [.flowEntry, .flowMappingEnd] (node fuel false false)
        return (key, value) :: (← flowEntries fuel false)
      else
        let key ← node fuel false false
        return (key, .empty) :: (← flowEntries fuel false)
    else return []

end

/-! ## Documents -/

/-- The handles that every document knows. -/
def standardHandles : Fields Text :=
  [(['!'], ['!']), ("!!".toList, "tag:yaml.org,2002:".toList)]

/-- Reads directives: at most one version, which has to be known, and at most one definition of
every handle. -/
def directives : (fuel : Nat) → (versioned : Bool) → Compose Unit
  | 0, _ => return ()
  | fuel + 1, versioned => do
    match ← peek with
    | some (.version major minor) =>
      -- Versions 1.1 and 1.2 are known.
      if versioned ∨ major ≠ 1 ∨ (minor ≠ 1 ∧ minor ≠ 2) then failure
      advance
      directives fuel true
    | some (.tagDirective handle start) =>
      if (Fields.get? handle (← get).handles).isSome then failure
      modify fun s => { s with handles := s.handles ++ [(handle, start)] }
      advance
      directives fuel versioned
    | _ => return ()

/-- Adds the standard handles that are not defined. -/
def addStandardHandles : Compose Unit :=
  modify fun s =>
    let missing := standardHandles.filter fun h => (Fields.get? h.1 s.handles).isNone
    { s with handles := s.handles ++ missing }

/-- Reads the root of a document behind its directives. -/
def root (fuel : Nat) (explicit : Bool) : Compose Node := do
  if explicit then
    expect .documentStart
    match ← peek with
    | none => return .empty
    | some .documentStart => return .empty
    | some .documentEnd => return .empty
    | some (.version _ _) => return .empty
    | some (.tagDirective _ _) => return .empty
    | some _ => node fuel true false
  else node fuel true false

/-- Reads the only document of a text and whatever ends it. A text without any document counts as
empty. -/
def document (fuel : Nat) : Compose Node := do
  let explicit ← match ← peek with
    | none => return .empty
    | some .documentStart => pure true
    | some (.version _ _) => pure true
    | some (.tagDirective _ _) => pure true
    | some _ => pure false
  directives fuel false
  addStandardHandles
  let root ← root fuel explicit
  if (← get).tokens.all (· == .documentEnd) then return root else failure

end Compose

/-- The document that tokens make up. A node, its content and its items take fuel each. -/
def Document.ofTokens? (tokens : List Token) : Option Document :=
  ((Compose.document (3 * tokens.length + 3)).run { tokens }).map fun (root, s) =>
    ⟨root, s.anchored⟩

end HealthCheck.Yaml
