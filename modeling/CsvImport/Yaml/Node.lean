import CsvImport.Table
import CsvImport.Yaml.Token

/-!
# YAML documents

A document is a tree of nodes.  An anchor gives a node a number, and an alias
stands for the node with its number; nodes may contain themselves that way.
-/

namespace CsvImport

namespace Yaml

inductive Node where
  | scalar (tag : Option String) (style : ScalarStyle) (text : String)
  | sequence (tag : Option String) (items : List Node)
  | mapping (tag : Option String) (members : List (Node × Node))
  | alias (number : Nat)
deriving Inhabited

/-- A node that an anchor names. -/
structure Anchored where
  /-- How many anchors stand before this one. -/
  order : Nat
  /-- The number that aliases know the node by. -/
  number : Nat
  node : Node
deriving Inhabited

/-- A document: its root and the nodes that anchors name. -/
structure Document where
  root : Node
  anchored : List Anchored
deriving Inhabited

namespace Document

/-- The node that the last anchor of a number names. -/
def target? (doc : Document) (number : Nat) : Option Node :=
  let same := doc.anchored.filter fun entry => entry.number == number
  let last := same.foldl (fun best entry => max best entry.order) 0
  (same.find? fun entry => entry.order == last).map (·.node)

/-- The node itself, or the one that it is an alias of. -/
def resolve? (doc : Document) : Node → Option Node
  | .alias number => doc.target? number
  | node => some node

end Document

/-! ## From tokens to nodes -/

def Node.empty : Node := .scalar none .plain ""

abbrev TagHandles := List (String × String)

def standardHandles : TagHandles := [("!", "!"), ("!!", "tag:yaml.org,2002:")]

def expandTag? (handles : TagHandles) (handle suffix : String) : Option String :=
  if handle.isEmpty then some suffix
  else (handles.lookup handle).map (· ++ suffix)

structure Parse where
  tokens : List Token
  handles : TagHandles := standardHandles
  /-- The numbers of anchor names. -/
  numbers : Table String Nat := []
  /-- How many anchors were met. -/
  anchors : Nat := 0
  anchored : List Anchored := []
deriving Inhabited

namespace Parse

def head? (parse : Parse) : Option Token :=
  parse.tokens.head?

def skip (parse : Parse) : Parse :=
  { parse with tokens := parse.tokens.tail }

def isAt (parse : Parse) (tokens : List Token) : Bool :=
  match parse.head? with
  | some token => tokens.contains token
  | none => false

/-- What stands before the content of a node: a tag and an anchor, in any order. -/
structure Properties where
  /-- Whether there is any. -/
  present : Bool := false
  tag : Option String := none
  /-- The order and the number of the anchor. -/
  anchor : Option (Nat × Nat) := none

/--
Note an anchor.  A name that was met before gets a number again, which is how
many names there are.
-/
def noteAnchor (parse : Parse) (name : String) : (Nat × Nat) × Parse :=
  let number := parse.numbers.length
  ((parse.anchors, number),
    { parse with numbers := parse.numbers.put name number, anchors := parse.anchors + 1 })

def properties? (parse : Parse) : Option (Properties × Parse) :=
  match parse.tokens with
  | .anchor name :: .tag handle suffix :: rest => do
      let tag ← expandTag? parse.handles handle suffix
      let (anchor, after) := noteAnchor { parse with tokens := rest } name
      return ({ present := true, tag := some tag, anchor := some anchor }, after)
  | .tag handle suffix :: .anchor name :: rest => do
      let tag ← expandTag? parse.handles handle suffix
      let (anchor, after) := noteAnchor { parse with tokens := rest } name
      return ({ present := true, tag := some tag, anchor := some anchor }, after)
  | .anchor name :: rest =>
      let (anchor, after) := noteAnchor { parse with tokens := rest } name
      some ({ present := true, anchor := some anchor }, after)
  | .tag handle suffix :: rest => do
      let tag ← expandTag? parse.handles handle suffix
      return ({ present := true, tag := some tag }, { parse with tokens := rest })
  | _ => some ({}, parse)

def keep (parse : Parse) (anchor : Option (Nat × Nat)) (node : Node) : Parse :=
  match anchor with
  | none => parse
  | some (order, number) =>
      { parse with anchored := ⟨order, number, node⟩ :: parse.anchored }

def scalarNode (tag : Option String) (style : ScalarStyle) (text : String) : Node :=
  .scalar (if tag == some "!" then none else tag) style text

mutual

/--
A node.  In a block it may be a block collection; `indentless` allows a sequence
at the column of the mapping around it.
-/
def node? (fuel : Nat) (block indentless : Bool) (parse : Parse) : Option (Node × Parse) :=
  match fuel with
  | 0 => none
  | fuel + 1 =>
      match parse.head? with
      | some (.alias name) => do
          let number ← parse.numbers.lookup name
          return (.alias number, parse.skip)
      | _ => do
          let (given, start) ← parse.properties?
          let (node, after) ← content? fuel block indentless given start
          return (node, after.keep given.anchor node)

def content? (fuel : Nat) (block indentless : Bool) (given : Properties) (parse : Parse) :
    Option (Node × Parse) :=
  match fuel with
  | 0 => none
  | fuel + 1 =>
      let sequence (items : List Node × Parse) : Node × Parse :=
        (.sequence given.tag items.1, items.2)
      let mapping (members : List (Node × Node) × Parse) : Node × Parse :=
        (.mapping given.tag members.1, members.2)
      match parse.head?, block, indentless with
      | some .blockEntry, _, true => (indentlessItems? fuel parse).map sequence
      | some (.scalar style text), _, _ => some (scalarNode given.tag style text, parse.skip)
      | some .flowSequenceStart, _, _ => (flowItems? fuel true parse.skip).map sequence
      | some .flowMappingStart, _, _ => (flowMembers? fuel true parse.skip).map mapping
      | some .blockSequenceStart, true, _ => (blockItems? fuel parse.skip).map sequence
      | some .blockMappingStart, true, _ => (blockMembers? fuel parse.skip).map mapping
      | _, _, _ =>
          if given.present then some (scalarNode given.tag .plain "", parse) else none

/-- A node, or an empty scalar if one of the given tokens comes first. -/
def nodeBefore? (fuel : Nat) (block indentless : Bool) (ends : List Token) (parse : Parse) :
    Option (Node × Parse) :=
  match fuel with
  | 0 => none
  | fuel + 1 =>
      if parse.isAt ends then some (.empty, parse) else node? fuel block indentless parse

def blockItems? (fuel : Nat) (parse : Parse) : Option (List Node × Parse) :=
  match fuel with
  | 0 => none
  | fuel + 1 =>
      match parse.head? with
      | some .blockEntry => do
          let (item, after) ←
            nodeBefore? fuel true false [.blockEntry, .blockEnd] parse.skip
          let (more, last) ← blockItems? fuel after
          return (item :: more, last)
      | some .blockEnd => some ([], parse.skip)
      | _ => none

/-- The items of a sequence without an end of its own. -/
def indentlessItems? (fuel : Nat) (parse : Parse) : Option (List Node × Parse) :=
  match fuel with
  | 0 => none
  | fuel + 1 =>
      match parse.head? with
      | some .blockEntry => do
          let (item, after) ←
            nodeBefore? fuel true false [.blockEntry, .key, .value, .blockEnd] parse.skip
          let (more, last) ← indentlessItems? fuel after
          return (item :: more, last)
      | _ => some ([], parse)

def blockMembers? (fuel : Nat) (parse : Parse) : Option (List (Node × Node) × Parse) :=
  match fuel with
  | 0 => none
  | fuel + 1 =>
      match parse.head? with
      | some .key => do
          let (key, behind) ← nodeBefore? fuel true true [.key, .value, .blockEnd] parse.skip
          let (value, after) ←
            if behind.isAt [.value] then
              nodeBefore? fuel true true [.key, .value, .blockEnd] behind.skip
            else some (.empty, behind)
          let (more, last) ← blockMembers? fuel after
          return ((key, value) :: more, last)
      | some .blockEnd => some ([], parse.skip)
      | _ => none

def flowItems? (fuel : Nat) (first : Bool) (parse : Parse) : Option (List Node × Parse) :=
  match fuel with
  | 0 => none
  | fuel + 1 =>
      if parse.isAt [.flowSequenceEnd] then some ([], parse.skip)
      else if !first && !parse.isAt [.flowEntry] then none
      else
        let start := if first then parse else parse.skip
        match start.head? with
        | some .flowSequenceEnd => some ([], start.skip)
        | some .key => do
            let (item, after) ← flowPair? fuel start.skip
            let (more, last) ← flowItems? fuel false after
            return (item :: more, last)
        | _ => do
            let (item, after) ← node? fuel false false start
            let (more, last) ← flowItems? fuel false after
            return (item :: more, last)

/--
A mapping of one member inside a flow sequence.  Where the key is missing, the
token in its place is passed over.
-/
def flowPair? (fuel : Nat) (parse : Parse) : Option (Node × Parse) :=
  match fuel with
  | 0 => none
  | fuel + 1 => do
      let (key, behind) ←
        if parse.isAt [.value, .flowEntry, .flowSequenceEnd] then some (.empty, parse.skip)
        else node? fuel false false parse
      let (value, after) ←
        if behind.isAt [.value] then
          nodeBefore? fuel false false [.flowEntry, .flowSequenceEnd] behind.skip
        else some (.empty, behind)
      return (.mapping none [(key, value)], after)

def flowMembers? (fuel : Nat) (first : Bool) (parse : Parse) :
    Option (List (Node × Node) × Parse) :=
  match fuel with
  | 0 => none
  | fuel + 1 =>
      if parse.isAt [.flowMappingEnd] then some ([], parse.skip)
      else if !first && !parse.isAt [.flowEntry] then none
      else
        let start := if first then parse else parse.skip
        match start.head? with
        | some .flowMappingEnd => some ([], start.skip)
        | some .key => do
            let (key, behind) ←
              nodeBefore? fuel false false [.value, .flowEntry, .flowMappingEnd] start.skip
            let (value, after) ←
              if behind.isAt [.value] then
                nodeBefore? fuel false false [.flowEntry, .flowMappingEnd] behind.skip
              else some (.empty, behind)
            let (more, last) ← flowMembers? fuel false after
            return ((key, value) :: more, last)
        | _ => do
            let (key, after) ← node? fuel false false start
            let (more, last) ← flowMembers? fuel false after
            return ((key, .empty) :: more, last)

end

/--
Read the directives before a document: at most one version, which is 1.1 or 1.2, and
no handle twice.
-/
def directives? (versioned : Bool) (handles : TagHandles) :
    List Token → Option (TagHandles × List Token)
  | .version major minor :: rest =>
      if !versioned && major == 1 && (minor == 1 || minor == 2) then
        directives? true handles rest
      else none
  | .tagHandle handle expansion :: rest =>
      if (handles.lookup handle).isSome then none
      else directives? versioned ((handle, expansion) :: handles) rest
  | rest => some (handles, rest)

def announces : Token → Bool
  | .version .. | .tagHandle .. | .documentStart => true
  | _ => false

def start? (tokens : List Token) : Option Parse :=
  match tokens with
  | [] => none
  | token :: _ =>
      if announces token then do
        let (handles, rest) ← directives? false [] tokens
        match rest with
        | .documentStart :: content =>
            return { tokens := content, handles := handles ++ standardHandles }
        | _ => none
      else some { tokens }

end Parse

/-- The document that tokens write, if they write exactly one. -/
def Document.ofTokens? (tokens : List Token) : Option Document := do
  let start ← Parse.start? tokens
  let bare := match start.tokens with
    | [] => true
    | token :: _ => token == .documentEnd || Parse.announces token
  let announced := (tokens.head?.map Parse.announces).getD false
  let (root, last) ←
    if bare && announced then some (Node.empty, start)
    else start.node? (4 * start.tokens.length + 4) true false
  if last.tokens.all (· == .documentEnd) then return { root, anchored := last.anchored }
  else none

def Document.ofText? (text : String) : Option Document := do
  Document.ofTokens? (← Token.ofText? text)

end Yaml

end CsvImport
