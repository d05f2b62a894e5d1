import CaseIntake.Yaml.Node
import CaseIntake.Yaml.Token.Lexer

/-!
# From tokens to a document

A text holds documents, of which only the first is read. Missing keys and values are empty scalars.
Where a loop goes on, some tokens have been taken.
-/

namespace CaseIntake
namespace Yaml

/-- The beginnings that tag handles stand for. -/
abbrev Shorthands := List (List Char × TagText)

def standardShorthands : Shorthands :=
  [(['!'], TagText.ofAscii ['!']),
    (['!', '!'], TagText.ofAscii "tag:yaml.org,2002:".toList)]

/-- What was read, and what is left. -/
structure Parsed (α : Type) where
  value : α
  rest : List Token
  anchors : Anchors

namespace Parsed

def map {α β : Type} (f : α → β) (p : Parsed α) : Parsed β :=
  ⟨f p.value, p.rest, p.anchors⟩

end Parsed

/-- The full tag of a handle and a suffix. -/
def expandTag (sh : Shorthands) (handle : List Char) (suffix : TagText) : Option TagText :=
  if handle.isEmpty then some suffix else (sh.lookup handle).map (· ++ suffix)

/-- An anchor and a tag in either order, and how many tokens they take up. -/
structure Prelude where
  anchor : Option (List Char)
  tag : Option TagText
  width : Nat

def readPrelude (sh : Shorthands) (ts : List Token) : Option Prelude :=
  match ts with
  | ⟨.anchor name, _⟩ :: ⟨.tag handle suffix, _⟩ :: _ =>
    (expandTag sh handle suffix).map fun tag => ⟨some name, some tag, 2⟩
  | ⟨.tag handle suffix, _⟩ :: ⟨.anchor name, _⟩ :: _ =>
    (expandTag sh handle suffix).map fun tag => ⟨some name, some tag, 2⟩
  | ⟨.anchor name, _⟩ :: _ => some ⟨some name, none, 1⟩
  | ⟨.tag handle suffix, _⟩ :: _ => (expandTag sh handle suffix).map fun tag => ⟨none, some tag, 1⟩
  | _ => some ⟨none, none, 0⟩

def Anchors.declare? (a : Anchors) : Option (List Char) → Option Nat × Anchors
  | none => (none, a)
  | some name =>
    let (id, a) := a.declare name
    (some id, a)

def startMark : List Token → Mark
  | [] => .start
  | t :: _ => t.mark

/-- An empty place right before the next token. -/
def emptyAt (ts : List Token) (as : Anchors) : Parsed Node :=
  ⟨.emptyScalar ⟨startMark ts, none, none⟩, ts, as⟩

/-- An empty place right after an indicator of one character. -/
def emptyAfter (indicator : Mark) (ts : List Token) (as : Anchors) : Parsed Node :=
  ⟨.emptyScalar ⟨indicator.after ' ', none, none⟩, ts, as⟩

/-- Whether the next token is one of those that leave a place empty. -/
def nextIs (p : Symbol → Bool) : List Token → Bool
  | [] => false
  | t :: _ => p t.symbol

def endsBlockItem : Symbol → Bool
  | .blockEntry | .blockEnd => true
  | _ => false

def endsIndentlessItem : Symbol → Bool
  | .blockEntry | .key | .value | .blockEnd => true
  | _ => false

def endsBlockPart : Symbol → Bool
  | .key | .value | .blockEnd => true
  | _ => false

def endsFlowItemKey : Symbol → Bool
  | .value | .flowEntry | .flowSequenceEnd => true
  | _ => false

def endsFlowItemValue : Symbol → Bool
  | .flowEntry | .flowSequenceEnd => true
  | _ => false

def endsFlowKey : Symbol → Bool
  | .value | .flowEntry | .flowMappingEnd => true
  | _ => false

def endsFlowValue : Symbol → Bool
  | .flowEntry | .flowMappingEnd => true
  | _ => false

mutual

/-- One node. Block collections are read only where `block` allows them, and `indentless` allows a
sequence whose entries are not indented. -/
def readNode (sh : Shorthands) (block indentless : Bool) (ts : List Token) (as : Anchors) :
    Option (Parsed Node) :=
  match readPrelude sh ts with
  | none => none
  | some pre =>
    let (anchor, as) :=
      match ts with
      | ⟨.alias name, _⟩ :: _ => (as.find? name, as)
      | _ => as.declare? pre.anchor
    let p : Properties := ⟨startMark ts, anchor, pre.tag⟩
    let empty : Option (Parsed Node) :=
      if pre.width = 0 then none else some ⟨.emptyScalar p, ts.drop pre.width, as⟩
    match _rest : ts.drop pre.width with
    | [] => empty
    | t :: rest =>
      have : rest.length < ts.length := by
        have := congrArg List.length _rest
        simp only [List.length_drop, List.length_cons] at this
        omega
      match t.symbol with
      | .alias _ =>
        if pre.width = 0 then anchor.map fun id => ⟨.alias t.mark id, rest, as⟩ else empty
      | .scalar text => some ⟨.scalar p text, rest, as⟩
      | .flowSequenceStart => (readFlowItems sh true rest as).map (·.map (.sequence p))
      | .flowMappingStart => (readFlowEntries sh true rest as).map (·.map (.mapping p))
      | .blockSequenceStart =>
        if block then (readBlockItems sh rest as).map (·.map (.sequence p)) else empty
      | .blockMappingStart =>
        if block then (readBlockEntries sh rest as).map (·.map (.mapping p)) else empty
      | .blockEntry =>
        if indentless then (readIndentlessItems sh (t :: rest) as).map (·.map (.sequence p))
        else empty
      | _ => empty
termination_by 4 * ts.length + 1

/-- The items of a block sequence after its start. -/
def readBlockItems (sh : Shorthands) (ts : List Token) (as : Anchors) :
    Option (Parsed (List Node)) :=
  match ts with
  | ⟨.blockEnd, _⟩ :: rest => some ⟨[], rest, as⟩
  | ⟨.blockEntry, mark⟩ :: rest =>
    let item :=
      if nextIs endsBlockItem rest then some (emptyAfter mark rest as)
      else readNode sh true false rest as
    match item with
    | none => none
    | some item =>
      if _shorter : item.rest.length ≤ rest.length then
        (readBlockItems sh item.rest item.anchors).map (·.map (item.value :: ·))
      else none
  | _ => none
termination_by 4 * ts.length + 0

/-- The items of a sequence whose entries stand at the indentation of the mapping around it. -/
def readIndentlessItems (sh : Shorthands) (ts : List Token) (as : Anchors) :
    Option (Parsed (List Node)) :=
  match ts with
  | ⟨.blockEntry, mark⟩ :: rest =>
    let item :=
      if nextIs endsIndentlessItem rest then some (emptyAfter mark rest as)
      else readNode sh true false rest as
    match item with
    | none => none
    | some item =>
      if _shorter : item.rest.length ≤ rest.length then
        (readIndentlessItems sh item.rest item.anchors).map (·.map (item.value :: ·))
      else none
  | ts => some ⟨[], ts, as⟩
termination_by 4 * ts.length + 0

/-- The entries of a block mapping after its start. -/
def readBlockEntries (sh : Shorthands) (ts : List Token) (as : Anchors) :
    Option (Parsed (List (Node × Node))) :=
  match ts with
  | ⟨.blockEnd, _⟩ :: rest => some ⟨[], rest, as⟩
  | ⟨.key, mark⟩ :: rest =>
    let key :=
      if nextIs endsBlockPart rest then some (emptyAfter mark rest as)
      else readNode sh true true rest as
    match key with
    | none => none
    | some key =>
      let value :=
        match key.rest with
        | ⟨.value, mark⟩ :: after =>
          if nextIs endsBlockPart after then some (emptyAfter mark after key.anchors)
          else if _shorter : after.length ≤ rest.length then readNode sh true true after key.anchors
          else none
        | rest => some (emptyAt rest key.anchors)
      match value with
      | none => none
      | some value =>
        if _shorter : value.rest.length ≤ rest.length then
          (readBlockEntries sh value.rest value.anchors).map
            (·.map ((key.value, value.value) :: ·))
        else none
  | _ => none
termination_by 4 * ts.length + 0

/-- One item of a flow sequence: a node, or a key and a value that form a mapping by themselves. An
empty key takes the place of the token after the key's mark. -/
def readFlowItem (sh : Shorthands) (ts : List Token) (as : Anchors) : Option (Parsed Node) :=
  match ts with
  | ⟨.key, mark⟩ :: rest =>
    let key :=
      if nextIs endsFlowItemKey rest then
        some { emptyAt rest as with rest := rest.drop 1 }
      else readNode sh false false rest as
    match key with
    | none => none
    | some key =>
      let value :=
        match key.rest with
        | ⟨.value, _⟩ :: after =>
          if nextIs endsFlowItemValue after then some (emptyAt after key.anchors)
          else if _shorter : after.length ≤ rest.length then
            readNode sh false false after key.anchors
          else none
        | rest => some (emptyAt rest key.anchors)
      value.map fun value =>
        value.map fun v => .mapping ⟨mark, none, none⟩ [(key.value, v)]
  | ts => readNode sh false false ts as
termination_by 4 * ts.length + 2

/-- The items of a flow sequence, with commas between them. -/
def readFlowItems (sh : Shorthands) (first : Bool) (ts : List Token) (as : Anchors) :
    Option (Parsed (List Node)) :=
  match ts with
  | ⟨.flowSequenceEnd, _⟩ :: rest => some ⟨[], rest, as⟩
  | ts =>
    let items :=
      match first, ts with
      | true, ts => some ts
      | false, ⟨.flowEntry, _⟩ :: rest => some rest
      | false, _ => none
    match items with
    | none => none
    | some items =>
      if nextIs (· = .flowSequenceEnd) items then some ⟨[], items.drop 1, as⟩
      else if _shorter : items.length ≤ ts.length then
        match readFlowItem sh items as with
        | none => none
        | some item =>
          if _shorter : item.rest.length < ts.length then
            (readFlowItems sh false item.rest item.anchors).map (·.map (item.value :: ·))
          else none
      else none
termination_by 4 * ts.length + 3

/-- The entries of a flow mapping, with commas between them. -/
def readFlowEntries (sh : Shorthands) (first : Bool) (ts : List Token) (as : Anchors) :
    Option (Parsed (List (Node × Node))) :=
  match ts with
  | ⟨.flowMappingEnd, _⟩ :: rest => some ⟨[], rest, as⟩
  | ts =>
    let entries :=
      match first, ts with
      | true, ts => some ts
      | false, ⟨.flowEntry, _⟩ :: rest => some rest
      | false, _ => none
    match entries with
    | none => none
    | some entries =>
      if nextIs (· = .flowMappingEnd) entries then some ⟨[], entries.drop 1, as⟩
      else if _shorter : entries.length ≤ ts.length then
        match readFlowEntry sh entries as with
        | none => none
        | some entry =>
          if _shorter : entry.rest.length < ts.length then
            (readFlowEntries sh false entry.rest entry.anchors).map (·.map (entry.value :: ·))
          else none
      else none
termination_by 4 * ts.length + 3

/-- One entry of a flow mapping. Without a key mark it is a key alone. -/
def readFlowEntry (sh : Shorthands) (ts : List Token) (as : Anchors) :
    Option (Parsed (Node × Node)) :=
  match ts with
  | ⟨.key, _⟩ :: rest =>
    let key :=
      if nextIs endsFlowKey rest then some (emptyAt rest as) else readNode sh false false rest as
    match key with
    | none => none
    | some key =>
      let value :=
        match key.rest with
        | ⟨.value, _⟩ :: after =>
          if nextIs endsFlowValue after then some (emptyAt after key.anchors)
          else if _shorter : after.length ≤ rest.length then
            readNode sh false false after key.anchors
          else none
        | rest => some (emptyAt rest key.anchors)
      value.map fun value => value.map fun v => (key.value, v)
  | ts =>
    (readNode sh false false ts as).map fun key =>
      (emptyAt key.rest key.anchors).map fun v => (key.value, v)
termination_by 4 * ts.length + 2

end

/-- The directives before a document, and the tokens after them. -/
def readDirectives (versioned : Bool) (sh : Shorthands) :
    List Token → Option (Shorthands × List Token)
  | ⟨.version major minor, _⟩ :: rest =>
    if versioned || major ≠ 1 || (minor ≠ 1 && minor ≠ 2) then none
    else readDirectives true sh rest
  | ⟨.tagShorthand handle expansion, _⟩ :: rest =>
    if (sh.lookup handle).isSome then none
    else readDirectives versioned (sh ++ [(handle, expansion)]) rest
  | ts => some (sh, ts)

def isDirective : Symbol → Bool
  | .version _ _ | .tagShorthand _ _ => true
  | _ => false

/-- A document after its start mark, which may be empty. -/
def readContent (sh : Shorthands) (ts : List Token) : Option (Parsed Node) :=
  if ts.isEmpty || nextIs (fun s => isDirective s || s = .documentStart || s = .documentEnd) ts then
    some (emptyAt ts .empty)
  else readNode sh true false ts .empty

/-- The first document. It needs a start mark only after directives. -/
def readDocument (ts : List Token) : Option (Parsed Node) :=
  if nextIs (fun s => isDirective s || s = .documentStart) ts then
    match readDirectives false [] ts with
    | some (sh, ⟨.documentStart, _⟩ :: rest) => readContent (sh ++ standardShorthands) rest
    | _ => none
  else readNode standardShorthands true false ts .empty

structure FirstDocument where
  root : Node
  /-- Whether nothing but end marks follows the document. -/
  isOnly : Bool

/-- The first document of a text; a text without a document is an empty scalar. -/
def firstDocument? (s : String) : Option FirstDocument :=
  match tokens? s with
  | none => none
  | some [] => some ⟨.emptyScalar ⟨.start, none, none⟩, true⟩
  | some ts => (readDocument ts).map fun d => ⟨d.value, d.rest.all (·.symbol = .documentEnd)⟩

/-- The document of a text that holds one document or none. -/
def document? (s : String) : Option Node :=
  match firstDocument? s with
  | some d => if d.isOnly then some d.root else none
  | none => none

end Yaml
end CaseIntake
