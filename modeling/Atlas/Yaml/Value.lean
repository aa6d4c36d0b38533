import Atlas.Yaml.Node
import Atlas.Yaml.Plain

/-!
# YAML values

The value of a document: its nodes with aliases followed, plain texts understood and tags applied
(`Value.read?`). Mappings keep the order of the text and may not have one key twice. What is nested
too deep, or follows aliases too often, has no value.
-/

namespace Atlas.Yaml

inductive Value where
  | null
  | bool (value : Bool)
  | number (value : Number)
  | text (value : String)
  | sequence (items : List Value)
  | mapping (entries : List (Value × Value))
  /-- A value with a tag of the document's own. -/
  | tagged (tag : String) (value : Value)
  deriving Repr, Inhabited

namespace Value

/-! ## Equality -/

/-- Numbers are equal if both are integers or both are not, and have one value. -/
def sameNumber : Number → Number → Bool
  | .int m, .int n => m == n
  | .float x, .float y =>
    (x.isNan && y.isNan) || (!x.isNan && (x == y || (x.bits <<< 1 == 0 && y.bits <<< 1 == 0)))
  | _, _ => false

mutual

/-- Values are equal if they have one kind and equal parts. The order of a mapping says nothing. -/
def same : Value → Value → Bool
  | .null, .null => true
  | .bool a, .bool b => a == b
  | .number a, .number b => sameNumber a b
  | .text a, .text b => a == b
  | .sequence as, .sequence bs => sameItems as bs
  | .mapping as, .mapping bs => as.length == bs.length && sameEntries as bs
  | .tagged s a, .tagged t b => s == t && same a b
  | _, _ => false

/-- Equal lists. -/
def sameItems : List Value → List Value → Bool
  | [], [] => true
  | a :: as, b :: bs => same a b && sameItems as bs
  | _, _ => false

/-- Whether every entry has an equal one in `bs`. -/
def sameEntries : List (Value × Value) → List (Value × Value) → Bool
  | [], _ => true
  | (k, v) :: as, bs => bs.any (fun (l, w) => same k l && same v w) && sameEntries as bs

end

instance : BEq Value := ⟨same⟩

/-! ## Reading -/

/-- The start of the tags that the format itself knows. -/
def coreTag (name : String) : String := "tag:yaml.org,2002:" ++ name

/-- The tag of a value of the document's own kind. -/
def ownTag? (tag : Option String) : Option String :=
  match tag.map String.toList with
  | some ['!'] => some "!"
  | some ('!' :: r) => some (String.ofList r)
  | _ => none

/-- What a plain text stands for, as a value. -/
def ofPlain? (s : String) : Option Value :=
  match Plain.meaning s with
  | .null => some .null
  | .bool b => some (.bool b)
  | .number n => some (.number n)
  | .tooLarge => none
  | .text => some (.text s)

/-- A text that a core tag says to be of some kind; none if it is not. -/
def ofCoreTag? (tag s : String) : Option Value :=
  if tag = coreTag "bool" then (Plain.bool? s).map .bool
  else if tag = coreTag "int" then
    match (Plain.int? s.toList).bind Plain.ofInt? with
    | some (.number n) => some (.number n)
    | _ => none
  else if tag = coreTag "float" then (Plain.float? s).map fun x => .number (.float x)
  else if tag = coreTag "null" then if Plain.isNull s then some .null else none
  else some (.text s)

/-- The value of a text without its tag. -/
def ofText? (style : ScalarStyle) (s : String) : Option Value :=
  if style = .plain then ofPlain? s else some (.text s)

/-- The value of a text. -/
def ofScalar? (tag : Option String) (style : ScalarStyle) (s : String) : Option Value :=
  match ownTag? tag with
  | some t => (ofText? style s).map (.tagged t)
  | none =>
    match tag with
    | some t => ofCoreTag? t s
    | none => ofText? style s

/-- A value with its tag, if that is one of the document's own. -/
def withTag (tag : Option String) (v : Value) : Value :=
  match ownTag? tag with
  | some t => .tagged t v
  | none => v

/-- A mapping, if no key stands in it twice. -/
def ofEntries? : List (Value × Value) → List (Value × Value) → Option Value
  | done, [] => some (.mapping done.reverse)
  | done, (k, v) :: r =>
    if done.any fun (l, _) => k == l then none else ofEntries? ((k, v) :: done) r

/-- A computation that may follow only so many aliases. -/
abbrev Following := StateT Nat Option

/-- The node that an alias stands for; any other node stands for itself. -/
def follow (d : Document) : Node → Following Node
  | .reference id => do
    let n ← get
    if n = 0 then failure
    set (n - 1)
    match d.target? id with
    | some node => return node
    | none => failure
  | node => return node

/-- The value of a node whose collections are nested at most `depth` deep. -/
def ofNode (d : Document) : Nat → Node → Following Value
  | depth, node => do
    match ← follow d node, depth with
    | .scalar tag style s, _ => (ofScalar? tag style s : Option Value)
    | .sequence tag items, depth + 1 =>
      return withTag tag (.sequence (← items.mapM fun i => ofNode d depth i))
    | .mapping tag entries, depth + 1 =>
      let es ← entries.mapM fun (k, v) => do return (← ofNode d depth k, ← ofNode d depth v)
      return withTag tag (← (ofEntries? [] es : Option Value))
    | _, _ => failure

/-- How deep collections may be nested. -/
def maxDepth : Nat := 128

/-- The value of a document; an empty text stands for nothing. -/
def ofDocument? (d : Document) : Option Value :=
  match d.root with
  | none => some .null
  | some root => ((ofNode d maxDepth root).run (100 * d.size)).map Prod.fst

/-- The value of a text. -/
def read? (s : String) : Option Value := do ofDocument? (← Document.read? s)

/-! ## Parts -/

/-- The value under its tags. -/
def untagged : Value → Value
  | .tagged _ v => untagged v
  | v => v

/-- The value of a key in a mapping. -/
def lookup? (entries : List (Value × Value)) (key : String) : Option Value :=
  (entries.find? fun (k, _) => k == .text key).map Prod.snd

/-- The entries of a mapping, which may be tagged. -/
def entries? (v : Value) : Option (List (Value × Value)) :=
  match v.untagged with
  | .mapping es => some es
  | _ => none

/-- The items of a sequence, which may be tagged. -/
def items? (v : Value) : Option (List Value) :=
  match v.untagged with
  | .sequence is => some is
  | _ => none

/-- The value of a key, in a mapping that may be tagged. -/
def get? (v : Value) (key : String) : Option Value := do lookup? (← v.entries?) key

/-- How a number with a point is written. -/
def layout : Binary64.Layout := ⟨"e", ".nan", ".inf", "-.inf"⟩

/-- The text of a number. -/
def numberText : Number → String
  | .int n => toString n
  | .float x => x.text layout

mutual

/-- A tree of plain data as a value. -/
def ofData : Data → Value
  | .null => .null
  | .bool b => .bool b
  | .number n => .number n
  | .text s => .text s
  | .list items => .sequence (ofDataItems items)
  | .record members => .mapping (ofDataMembers members)

/-- `ofData` of every item. -/
def ofDataItems : List Data → List Value
  | [] => []
  | d :: ds => ofData d :: ofDataItems ds

/-- `ofData` of every member. -/
def ofDataMembers : List (String × Data) → List (Value × Value)
  | [] => []
  | (n, d) :: ds => (.text n, ofData d) :: ofDataMembers ds

end

end Value

end Atlas.Yaml
