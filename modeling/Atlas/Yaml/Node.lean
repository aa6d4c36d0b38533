import Atlas.Yaml.Token

/-!
# The nodes of a YAML document

`Document.read?` makes the tree of nodes of a text that holds at most one document. The grammar is
read by recursive descent over the tokens: a node, and the items of the four kinds of collections.
An alias keeps the number of the anchor that it names; `Document.target?` finds the node behind it.
-/

namespace Atlas.Yaml

/-- A node as written: nothing is resolved yet but the handle of a tag. -/
inductive Node where
  | scalar (tag : Option String) (style : ScalarStyle) (text : String)
  | sequence (tag : Option String) (items : List Node)
  | mapping (tag : Option String) (entries : List (Node × Node))
  | reference (anchor : Nat)
  deriving Repr, Inhabited

/-- A node that is left out. -/
def Node.empty : Node := .scalar none .plain ""

/-- A document: its root, none in an empty text, and the nodes that its anchors stand at. -/
structure Document where
  root : Option Node
  anchored : List (Nat × Node)
  /-- How many nodes are begun and ended, which bounds how often aliases are followed. -/
  size : Nat

/-- The node that an alias stands for. -/
def Document.target? (d : Document) (anchor : Nat) : Option Node := d.anchored.lookup anchor

/-! ## Anchors -/

/-- What is known about anchors and tags while a document is read. -/
structure Names where
  /-- The handles that directives define. -/
  handles : List (List Char × List Char)
  /-- The number that a name stands for now, the latest first. -/
  anchors : List (List Char × Nat)
  /-- How many different names there are. -/
  count : Nat
  /-- For a number, the anchored node that was begun last, the latest first. -/
  begun : List (Nat × Nat)
  /-- How many anchored nodes were begun. -/
  serial : Nat
  /-- The anchored nodes that are complete, by the order in which they were begun. -/
  complete : List (Nat × Node)
  /-- How many nodes were begun and ended. -/
  events : Nat

namespace Names

/-- The handles that need no directive. -/
def standardHandles : List (List Char × List Char) :=
  [(['!'], ['!']), (['!', '!'], "tag:yaml.org,2002:".toList)]

/-- No names yet. -/
def start (handles : List (List Char × List Char)) : Names :=
  ⟨handles ++ standardHandles, [], 0, [], 0, [], 0⟩

/-- Begins an anchored node. Its anchor gets the number of different names known so far. -/
def beginAnchor (n : Names) (name : List Char) : Names :=
  let known := (n.anchors.lookup name).isSome
  { n with
    anchors := (name, n.count) :: n.anchors
    count := if known then n.count else n.count + 1
    begun := (n.count, n.serial) :: n.begun
    serial := n.serial + 1 }

/-- Begins a node that may be anchored. -/
def beginNode (n : Names) : Option (List Char) → Names
  | some name => n.beginAnchor name
  | none => n

/-- Ends a node that was begun in the state `before`. -/
def endNode (n before : Names) (anchor : Option (List Char)) (events : Nat) (node : Node) : Names :=
  let n := { n with events := n.events + events }
  if anchor.isSome then { n with complete := (before.serial, node) :: n.complete } else n

/-- The node behind each number: of several, the one that was begun last. -/
def anchored (n : Names) : List (Nat × Node) :=
  n.begun.filterMap fun (id, serial) => (n.complete.lookup serial).map fun node => (id, node)

/-- The text of a tag with its handle resolved. -/
def tag? (n : Names) (t : TagText) : Option String :=
  if t.handle.isEmpty then some (String.ofList t.suffix)
  else (n.handles.lookup t.handle).map fun p => String.ofList (p ++ t.suffix)

end Names

/-! ## Nodes -/

/-- What is left to read, with the names so far. -/
structure Rest where
  tokens : List Token
  names : Names

/-- The anchor and the tag before a node, in either order. -/
def properties? (r : Rest) : Option (Option (List Char) × Option String × List Token) :=
  match r.tokens with
  | .anchor a :: .tag t :: ts => (r.names.tag? t).map fun t => (some a, some t, ts)
  | .tag t :: .anchor a :: ts => (r.names.tag? t).map fun t => (some a, some t, ts)
  | .anchor a :: ts => some (some a, none, ts)
  | .tag t :: ts => (r.names.tag? t).map fun t => (none, some t, ts)
  | ts => some (none, none, ts)

/-- The tag of a text; the tag that only says it is no plain text says nothing. -/
def scalarTag : Option String → Option String
  | some t => if t = "!" then none else some t
  | none => none

/-- Whether the next token is one of these. -/
def nextIs (ts : List Token) (among : List Token) : Bool := ts.head?.any among.contains

mutual

/-- Reads a node. In a block, collections may be blocks too, and where `compact` is set, the items
of a sequence may stand at the column of the key before. -/
def readNode : Nat → Bool → Bool → Rest → Option (Node × Rest)
  | 0, _, _, _ => none
  | fuel + 1, block, compact, r =>
    match r.tokens with
    | .reference name :: ts =>
      (r.names.anchors.lookup name).map fun id =>
        (.reference id, ⟨ts, { r.names with events := r.names.events + 1 }⟩)
    | _ => do
      let (anchor, tag, ts) ← properties? r
      let names := r.names.beginNode anchor
      let finish (events : Nat) (node : Node) (r' : Rest) : Node × Rest :=
        (node, ⟨r'.tokens, r'.names.endNode r.names anchor events node⟩)
      match ts with
      | .scalar style text :: ts =>
        return finish 1 (.scalar (scalarTag tag) style (String.ofList text)) ⟨ts, names⟩
      | .flowSequenceStart :: ts =>
        let (items, r') ← readFlowItems fuel true ⟨ts, names⟩
        return finish 2 (.sequence tag items) r'
      | .flowMappingStart :: ts =>
        let (entries, r') ← readFlowEntries fuel true ⟨ts, names⟩
        return finish 2 (.mapping tag entries) r'
      | t :: ts' =>
        if compact && t = .blockEntry then
          let (items, r') ← readCompactItems fuel ⟨ts, names⟩
          return finish 2 (.sequence tag items) r'
        else if block && t = .blockSequenceStart then
          let (items, r') ← readBlockItems fuel ⟨ts', names⟩
          return finish 2 (.sequence tag items) r'
        else if block && t = .blockMappingStart then
          let (entries, r') ← readBlockEntries fuel ⟨ts', names⟩
          return finish 2 (.mapping tag entries) r'
        else if anchor.isSome || tag.isSome then
          return finish 1 (.scalar (scalarTag tag) .plain "") ⟨ts, names⟩
        else none
      | [] =>
        if anchor.isSome || tag.isSome then
          return finish 1 (.scalar (scalarTag tag) .plain "") ⟨[], names⟩
        else none

/-- Reads a node unless one of the tokens `stops` comes next, in whose place it is left out. -/
def readOptional : Nat → Bool → Bool → List Token → Rest → Option (Node × Rest)
  | 0, _, _, _, _ => none
  | fuel + 1, block, compact, stops, r =>
    if nextIs r.tokens stops then
      some (.empty, ⟨r.tokens, { r.names with events := r.names.events + 1 }⟩)
    else readNode fuel block compact r

/-- Reads the items of a sequence that is a block, up to the end of the block. -/
def readBlockItems : Nat → Rest → Option (List Node × Rest)
  | 0, _ => none
  | fuel + 1, r =>
    match r.tokens with
    | .blockEntry :: ts => do
      let (item, r) ← readOptional fuel true false [.blockEntry, .blockEnd] ⟨ts, r.names⟩
      let (items, r) ← readBlockItems fuel r
      return (item :: items, r)
    | .blockEnd :: ts => some ([], ⟨ts, r.names⟩)
    | _ => none

/-- Reads the items of a sequence that stands at the column of its key. -/
def readCompactItems : Nat → Rest → Option (List Node × Rest)
  | 0, _ => none
  | fuel + 1, r =>
    match r.tokens with
    | .blockEntry :: ts => do
      let (item, r) ← readOptional fuel true false [.blockEntry, .key, .value, .blockEnd]
        ⟨ts, r.names⟩
      let (items, r) ← readCompactItems fuel r
      return (item :: items, r)
    | _ => some ([], r)

/-- Reads the entries of a mapping that is a block, up to the end of the block. -/
def readBlockEntries : Nat → Rest → Option (List (Node × Node) × Rest)
  | 0, _ => none
  | fuel + 1, r =>
    match r.tokens with
    | .key :: ts => do
      let stops := [.key, .value, .blockEnd]
      let (key, r) ← readOptional fuel true true stops ⟨ts, r.names⟩
      let (value, r) ← readValue fuel true stops r
      let (entries, r) ← readBlockEntries fuel r
      return ((key, value) :: entries, r)
    | .blockEnd :: ts => some ([], ⟨ts, r.names⟩)
    | _ => none

/-- Reads the value of an entry, which may be left out with its colon. -/
def readValue : Nat → Bool → List Token → Rest → Option (Node × Rest)
  | 0, _, _, _ => none
  | fuel + 1, block, stops, r =>
    match r.tokens with
    | .value :: ts => readOptional fuel block block stops ⟨ts, r.names⟩
    | _ => some (.empty, ⟨r.tokens, { r.names with events := r.names.events + 1 }⟩)

/-- Reads the items of a sequence in brackets. An item may be an entry of a mapping of its own. -/
def readFlowItems : Nat → Bool → Rest → Option (List Node × Rest)
  | 0, _, _ => none
  | fuel + 1, first, r =>
    if nextIs r.tokens [.flowSequenceEnd] then some ([], ⟨r.tokens.drop 1, r.names⟩)
    else do
      let ts ← if first then some r.tokens else match r.tokens with
        | .flowEntry :: ts => some ts
        | _ => none
      match ts with
      | .flowSequenceEnd :: ts => return ([], ⟨ts, r.names⟩)
      | .key :: ts =>
        let names := { r.names with events := r.names.events + 2 }
        -- a key that is left out takes the token after it along
        let (key, r) ← if nextIs ts [.value, .flowEntry, .flowSequenceEnd]
          then some (Node.empty, Rest.mk (ts.drop 1) { names with events := names.events + 1 })
          else readNode fuel false false ⟨ts, names⟩
        let (value, r) ← readValue fuel false [.flowEntry, .flowSequenceEnd] r
        let (items, r) ← readFlowItems fuel false r
        return (.mapping none [(key, value)] :: items, r)
      | ts =>
        let (item, r) ← readNode fuel false false ⟨ts, r.names⟩
        let (items, r) ← readFlowItems fuel false r
        return (item :: items, r)

/-- Reads the entries of a mapping in braces. A key may stand alone. -/
def readFlowEntries : Nat → Bool → Rest → Option (List (Node × Node) × Rest)
  | 0, _, _ => none
  | fuel + 1, first, r =>
    if nextIs r.tokens [.flowMappingEnd] then some ([], ⟨r.tokens.drop 1, r.names⟩)
    else do
      let ts ← if first then some r.tokens else match r.tokens with
        | .flowEntry :: ts => some ts
        | _ => none
      let stops := [.flowEntry, .flowMappingEnd]
      match ts with
      | .flowMappingEnd :: ts => return ([], ⟨ts, r.names⟩)
      | .key :: ts =>
        let (key, r) ← readOptional fuel false false (.value :: stops) ⟨ts, r.names⟩
        let (value, r) ← readValue fuel false stops r
        let (entries, r) ← readFlowEntries fuel false r
        return ((key, value) :: entries, r)
      | ts =>
        let (key, r) ← readNode fuel false false ⟨ts, r.names⟩
        let names := { r.names with events := r.names.events + 1 }
        let (entries, r) ← readFlowEntries fuel false ⟨r.tokens, names⟩
        return ((key, .empty) :: entries, r)

end

/-! ## Documents -/

/-- Reads the directives before a document: the version at most once, each handle at most once. -/
def readDirectives (version : Bool) (handles : List (List Char × List Char)) :
    List Token → Option (List (List Char × List Char) × List Token)
  | .version major minor :: ts =>
    if version ∨ major ≠ 1 ∨ (minor ≠ 1 ∧ minor ≠ 2) then none else readDirectives true handles ts
  | .tagHandle h p :: ts =>
    if (handles.lookup h).isSome then none else readDirectives version ((h, p) :: handles) ts
  | ts => some (handles, ts)

/-- Whether a document that begins so has no node. -/
def isEmptyDocument : List Token → Bool
  | [] => true
  | .version _ _ :: _ => true
  | .tagHandle _ _ :: _ => true
  | .documentStart :: _ => true
  | .documentEnd :: _ => true
  | _ => false

/-- Reads the one document of a text. -/
def readDocument? (ts : List Token) : Option Document := do
  if ts.isEmpty then return ⟨none, [], 1⟩
  let fuel := 4 * ts.length + 4
  let explicit := isEmptyDocument ts && ts.head? != some .documentEnd
  let (handles, ts) ← if explicit then readDirectives false [] ts else some ([], ts)
  let ts ← if explicit then match ts with
    | .documentStart :: ts => some ts
    | _ => none
    else some ts
  let names := Names.start handles
  let (root, r) ← if explicit && isEmptyDocument ts
    then some (Node.empty, Rest.mk ts { names with events := 1 })
    else readNode fuel true false ⟨ts, names⟩
  -- nothing but marks of the document's end may follow
  if r.tokens.any fun t => t != .documentEnd then none
  return ⟨some root, r.names.anchored, r.names.events⟩

/-- The document of a text; none where the text is not well formed or holds several. -/
def Document.read? (s : String) : Option Document := do
  readDocument? (← Token.scan? s.toList)

end Atlas.Yaml
