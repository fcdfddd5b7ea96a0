import HealthCheck.Fields
import HealthCheck.Yaml.Document
import HealthCheck.Yaml.Schema

/-!
# Values of a shape

Reads the value of a document where its shape is known. The shape decides what a scalar denotes: a
text takes any scalar as it is written, so that `12` and `~` are texts where a text is asked for.
A collection may be left out: an empty plain scalar has no items and no fields.

Collections may be nested to a depth of 128, aliases included, and a document may follow at most a
hundred aliases for each of its nodes.
-/

namespace HealthCheck.Yaml

/-- What kind of value is asked for. -/
inductive Shape where
  /-- Whatever is written. -/
  | any
  | text
  | flag
  | natural
  | optionalText
  | list (item : Shape)
  /-- Values under any keys. -/
  | mapping (value : Shape)
  /-- Values under some keys; others do not count. A sequence gives the values in order. -/
  | record (fields : List (Text × Shape))

/-- Reading with a count of the aliases that have been followed. -/
abbrev Follow (α : Type) := StateT Nat Option α

/-! ## Scalars -/

/-- A standard tag. -/
def standardTag (name : String) : Text := "tag:yaml.org,2002:".toList ++ name.toList

/-- The tag is local to its document. -/
def isLocalTag (tag : Option Text) : Bool := tag.any (·.head? == some '!')

/-- The value of a scalar that is written plainly, or literally with the tag of what is asked. -/
def typedScalar {α : Type} (kind : String) (read : Text → Option α) (tag : Option Text)
    (style : Style) (t : Text) : Option α :=
  if style = .plain ∨ (style = .literal ∧ tag = some (standardTag kind)) then read t else none

/-- The value of a scalar with a tag; a tag that is not known makes it a text. -/
def taggedScalar (tag t : Text) : Option Json :=
  if tag = standardTag "bool" then (Schema.flag? t).map .bool
  else if tag = standardTag "int" then (Schema.ofInteger? t).join
  else if tag = standardTag "float" then (Schema.float? t).map Schema.ofReading
  else if tag = standardTag "null" then (if Schema.isNull t then some .null else none)
  else some (.string t)

/-- The value of a scalar where any value may stand. -/
def anyScalar (tag : Option Text) (style : Style) (t : Text) : Option Json :=
  match tag with
  | some tag => if isLocalTag tag then none else taggedScalar tag t
  | none => if style = .plain then Schema.plain? t else some (.string t)

/-- The value of a scalar where a text may be missing. -/
def optionalScalar (tag : Option Text) (style : Style) (t : Text) : Option Json :=
  if style ≠ .plain then some (.string t)
  else
    match tag with
    | some tag =>
      if tag = standardTag "null" then (if Schema.isNull t then some .null else none)
      else some (.string t)
    | none => some (if t = [] ∨ Schema.isNull t then .null else .string t)

/-- What stands for a collection that is left out. -/
def leftOut (empty : Json) (style : Style) (t : Text) : Option Json :=
  if style = .plain ∧ t = [] then some empty else none

/-- The value of a scalar. -/
def Shape.ofScalar (shape : Shape) (tag : Option Text) (style : Style) (t : Text) : Option Json :=
  match shape with
  | any => anyScalar tag style t
  | text => some (.string t)
  | flag => (typedScalar "bool" Schema.flag? tag style t).map .bool
  | natural => (typedScalar "int" (Schema.natural? UInt64.size) tag style t).map fun n => .int n
  | optionalText => optionalScalar tag style t
  | list _ => leftOut (.array []) style t
  | mapping _ => leftOut (.object []) style t
  | record _ => leftOut (.object []) style t

/-! ## Collections -/

/-- Follows an alias. -/
def Document.follow (d : Document) : Node → Follow Node
  | .aliasOf slot => do
    let followed ← get
    if 100 * d.root.size ≤ followed then failure
    else
      set (followed + 1)
      (d.target? slot).elim failure pure
  | n => pure n

/-- The text of a key. -/
def Document.key (d : Document) (n : Node) : Follow Text := do
  match ← d.follow n with
  | .scalar _ _ t => return t
  | _ => failure

/-- Reads the entries of a mapping with any keys; of two with one key the last counts, in the place
of the first. -/
def Document.entries (d : Document) (read : Node → Follow Json) (entries : List (Node × Node)) :
    Follow Json := do
  let fields ← entries.mapM fun (k, v) => do return (← d.key k, ← read v)
  return .object (Fields.ofList fields)

/-- Reads the entries of a record; a known key may not occur twice. -/
def Document.fields (d : Document) (read : Shape → Node → Follow Json)
    (shapes : List (Text × Shape)) (entries : List (Node × Node)) : Follow Json := do
  let fields ← entries.mapM fun (k, v) => do
    let key ← d.key k
    match Fields.get? key shapes with
    | some shape => return [(key, ← read shape v)]
    | none => return []
  let fields := fields.flatten
  if (Fields.keys fields).Nodup then return .object fields else failure

/-- Reads the items of a sequence that gives a record in order. -/
def positional (read : Shape → Node → Follow Json) (shapes : List (Text × Shape))
    (items : List Node) : Follow Json := do
  if shapes.length < items.length then failure
  else return .array (← (shapes.zip items).mapM fun (s, n) => read s.2 n)

/-- Reads the value of a node, in which collections may be nested to the given depth. -/
def Document.read (d : Document) : (depth : Nat) → Shape → Node → Follow Json
  | 0, shape, n => do
    match ← d.follow n with
    | .scalar tag style t => (shape.ofScalar tag style t).elim failure pure
    -- No depth is left for a collection.
    | _ => failure
  | depth + 1, shape, n => do
    match ← d.follow n with
    | .scalar tag style t => (shape.ofScalar tag style t).elim failure pure
    | .sequence tag items =>
      match shape with
      | .any =>
        if isLocalTag tag then failure else return .array (← items.mapM (d.read depth .any))
      | .list item => return .array (← items.mapM (d.read depth item))
      | .record shapes => positional (d.read depth) shapes items
      | _ => failure
    | .mapping tag entries =>
      match shape with
      | .any => if isLocalTag tag then failure else d.entries (d.read depth .any) entries
      | .mapping value => d.entries (d.read depth value) entries
      | .record shapes => d.fields (d.read depth) shapes entries
      | _ => failure
    -- An anchored node is never an alias itself.
    | .aliasOf _ => failure

/-- The value of a document. -/
def Document.value? (d : Document) (shape : Shape) : Option Json :=
  ((d.read 128 shape d.root).run 0).map (·.1)

end HealthCheck.Yaml
