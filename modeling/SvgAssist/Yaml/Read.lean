import SvgAssist.Yaml.Node
import SvgAssist.Yaml.Stream

/-!
# Reading YAML

The first document of a YAML text as a tree. Tokens are asked for one at a time, so a problem in the
text is only reported if the structure before it is sound.
-/

namespace SvgAssist.Yaml

/-- A text that is being read: its tokens, the tag handles in force, the number of the node that
each anchor names, latest first, the nodes of those that are complete, and the next number. -/
structure Reading where
  stream : Stream
  handles : List (Text × Text)
  anchors : List (Text × Nat)
  anchored : List (Nat × Node)
  nextNumber : Nat

abbrev Reader (α : Type) := StateT Reading (Except SyntaxError) α

namespace Reader

def peek : Reader Token := do
  let r ← get
  let (token, stream) ← r.stream.peek
  set { r with stream := stream }
  return token

def skip : Reader Unit := modify fun r => { r with stream := r.stream.next }

def fail {α : Type} (context place : Mark) (problem : Problem) : Reader α :=
  throw (structureError context place problem)

/-- A part of the structure is complete. Trouble that was met in looking ahead shows now. -/
def complete : Reader Unit := do
  let c := (← get).stream.cursor
  match c.trouble with
  | some problem => if c.spoilt then throw ⟨problem, 0⟩
  | none => return

def close : Reader Unit := do
  skip
  complete

def newNumber : Reader Nat := do
  let r ← get
  set { r with nextNumber := r.nextNumber + 1 }
  return r.nextNumber

end Reader

open Reader

structure Properties where
  anchor : Option Text
  tag : Option TagName
  tagMark : Mark

def properties : Reader Properties := do
  let first ← peek
  match first.kind with
  | .anchor name =>
    skip
    let second ← peek
    match second.kind with
    | .tag tag => skip; return ⟨some name, some tag, second.start⟩
    | _ => return ⟨some name, none, first.start⟩
  | .tag tag =>
    skip
    let second ← peek
    match second.kind with
    | .anchor name => skip; return ⟨some name, some tag, first.start⟩
    | _ => return ⟨none, some tag, first.start⟩
  | _ => return ⟨none, none, first.start⟩

def expandTag (start : Mark) (p : Properties) : Reader Text := do
  match p.tag with
  | none => return []
  | some name =>
    if name.handle = [] then return name.suffix
    else
      let expanded := match (← get).handles.find? fun (handle, _) => handle == name.handle with
        | some (_, replacement) => replacement ++ name.suffix
        | none => []
      if expanded = [] then fail start p.tagMark .undefinedHandle else return expanded

/-- Gives a node's anchor a number. It names the node from here on, also inside of it. -/
def openAnchor : Option Text → Reader (Option Nat)
  | none => return none
  | some name => do
    let number ← newNumber
    modify fun r => { r with anchors := (name, number) :: r.anchors }
    return some number

def closeAnchor (number : Option Nat) (node : Node) : Reader Node := do
  match number with
  | none => return node
  | some n =>
    modify fun r => { r with anchored := (n, node) :: r.anchored }
    return node

def aliasNode (name : Text) (start : Mark) : Reader Node := do
  match (← get).anchors.find? fun (known, _) => known == name with
  | some (_, target) => return .reference name target (← newNumber) (start.line + 1)
  | none => throw ⟨.unknownAnchor name, 0⟩

def emptyNode (mark : Mark) : Reader Node := do
  complete
  return .scalar nullTag [] (mark.line + 1)

mutual

/-- A node. `block` allows block collections, `indentless` a block sequence that is not indented.
Every level takes a token, which bounds `fuel`, here and below. -/
def node (block indentless : Bool) : Nat → Reader Node
  | 0 => emptyNode ⟨0, 0, 0⟩
  | fuel + 1 => do
    let first ← peek
    match first.kind with
    | .reference name => close; aliasNode name first.start
    | _ =>
      let start := first.start
      let line := start.line + 1
      let p ← properties
      let token ← peek
      let tag ← expandTag start p
      let collection (default : Text) (make : Text → Reader Node) : Reader Node := do
        complete
        let number ← openAnchor p.anchor
        closeAnchor number (← make (nodeTag tag default))
      match token.kind with
      | .scalar text plain =>
        close
        let number ← openAnchor p.anchor
        closeAnchor number (.scalar (scalarTag tag text plain) text line)
      | .flowSequenceStart => collection seqTag fun tag => do
        skip
        return .sequence tag (← flowSequence token.start true [] fuel) line
      | .flowMappingStart => collection mapTag fun tag => do
        skip
        return .mapping tag (← flowMapping token.start true [] fuel) line
      | kind =>
        if indentless && kind = .blockEntry then
          collection seqTag fun tag => do return .sequence tag (← indentlessSequence [] fuel) line
        else if block && kind = .blockSequenceStart then collection seqTag fun tag => do
          skip
          return .sequence tag (← blockSequence token.start [] fuel) line
        else if block && kind = .blockMappingStart then collection mapTag fun tag => do
          skip
          return .mapping tag (← blockMapping token.start [] fuel) line
        else if p.anchor.isSome || tag ≠ [] then
          complete
          let number ← openAnchor p.anchor
          closeAnchor number (.scalar (scalarTag tag [] true) [] line)
        else fail start token.start .nodeContent

def blockSequence (start : Mark) (items : List Node) : Nat → Reader (List Node)
  | 0 => return items.reverse
  | fuel + 1 => do
    let token ← peek
    match token.kind with
    | .blockEntry =>
      skip
      let next ← peek
      if next.kind = .blockEntry || next.kind = .blockEnd then
        let item ← emptyNode token.stop
        blockSequence start (item :: items) fuel
      else
        let item ← node true false fuel
        blockSequence start (item :: items) fuel
    | .blockEnd => close; return items.reverse
    | _ => fail start token.start .expectedEntry

def indentlessSequence (items : List Node) : Nat → Reader (List Node)
  | 0 => return items.reverse
  | fuel + 1 => do
    let token ← peek
    match token.kind with
    | .blockEntry =>
      skip
      let next ← peek
      if next.kind = .blockEntry || next.kind = .key || next.kind = .value ||
          next.kind = .blockEnd then
        let item ← emptyNode token.stop
        indentlessSequence (item :: items) fuel
      else
        let item ← node true false fuel
        indentlessSequence (item :: items) fuel
    | _ => complete; return items.reverse

def blockPart (mark : Mark) : Nat → Reader Node
  | 0 => emptyNode mark
  | fuel + 1 => do
    let next ← peek
    if next.kind = .key || next.kind = .value || next.kind = .blockEnd then emptyNode mark
    else node true true fuel

def blockMapping (start : Mark) (entries : List (Node × Node)) : Nat → Reader (List (Node × Node))
  | 0 => return entries.reverse
  | fuel + 1 => do
    let token ← peek
    match token.kind with
    | .key =>
      skip
      let key ← blockPart token.stop fuel
      let colon ← peek
      let value ←
        if colon.kind = .value then do
          skip
          blockPart colon.stop fuel
        else emptyNode colon.start
      blockMapping start ((key, value) :: entries) fuel
    | .blockEnd => close; return entries.reverse
    | _ => fail start token.start .expectedKey

/-- A key and a value that are an entry of a flow sequence, as a mapping. A missing key takes the
token in its place. -/
def flowPair (line : Nat) : Nat → Reader Node
  | 0 => emptyNode ⟨0, 0, 0⟩
  | fuel + 1 => do
    let first ← peek
    let key ←
      if first.kind = .value || first.kind = .flowEntry || first.kind = .flowSequenceEnd then do
        skip
        emptyNode first.stop
      else node false false fuel
    let colon ← peek
    let value ←
      if colon.kind = .value then do
        skip
        let next ← peek
        if next.kind = .flowEntry || next.kind = .flowSequenceEnd then emptyNode colon.start
        else node false false fuel
      else emptyNode colon.start
    return .mapping mapTag [(key, value)] line

def flowSequence (start : Mark) (first : Bool) (items : List Node) : Nat → Reader (List Node)
  | 0 => return items.reverse
  | fuel + 1 => do
    let token ← peek
    if token.kind = .flowSequenceEnd then
      close
      return items.reverse
    else if !first && token.kind ≠ .flowEntry then fail start token.start .expectedCommaOrBracket
    else
      if !first then skip
      let token ← peek
      if token.kind = .flowSequenceEnd then
        close
        return items.reverse
      else if token.kind = .key then
        close
        let item ← flowPair (token.start.line + 1) fuel
        flowSequence start false (item :: items) fuel
      else
        let item ← node false false fuel
        flowSequence start false (item :: items) fuel

def flowMapping (start : Mark) (first : Bool) (entries : List (Node × Node)) :
    Nat → Reader (List (Node × Node))
  | 0 => return entries.reverse
  | fuel + 1 => do
    let token ← peek
    if token.kind = .flowMappingEnd then
      close
      return entries.reverse
    else if !first && token.kind ≠ .flowEntry then fail start token.start .expectedCommaOrBrace
    else
      if !first then skip
      let token ← peek
      if token.kind = .flowMappingEnd then
        close
        return entries.reverse
      else if token.kind = .key then
        skip
        let next ← peek
        let key ←
          if next.kind = .value || next.kind = .flowEntry || next.kind = .flowMappingEnd then
            emptyNode next.start
          else node false false fuel
        let colon ← peek
        let value ←
          if colon.kind = .value then do
            skip
            let next ← peek
            if next.kind = .flowEntry || next.kind = .flowMappingEnd then
              emptyNode next.start
            else node false false fuel
          else emptyNode colon.start
        flowMapping start false ((key, value) :: entries) fuel
      else
        let key ← node false false fuel
        let next ← peek
        let value ← emptyNode next.start
        flowMapping start false ((key, value) :: entries) fuel

end

def standardHandles : List (Text × Text) := [(utf8 "!", utf8 "!"), (utf8 "!!", longTag)]

def directives (version : Bool) : Nat → Reader Unit
  | 0 => return
  | fuel + 1 => do
    let token ← peek
    match token.kind with
    | .version major minor =>
      if version then fail ⟨0, 0, 0⟩ token.start .duplicateVersion
      else if major ≠ 1 || minor ≠ 1 then fail ⟨0, 0, 0⟩ token.start .incompatibleVersion
      else
        skip
        directives true fuel
    | .tagHandle handle replacement =>
      if (← get).handles.any (·.1 == handle) then fail ⟨0, 0, 0⟩ token.start .duplicateHandle
      else
        modify fun r => { r with handles := r.handles ++ [(handle, replacement)] }
        skip
        directives version fuel
    | _ => modify fun r => { r with handles := r.handles ++ standardHandles }

def firstDocument (fuel : Nat) : Reader (Option Node) := do
  skip
  let token ← peek
  match token.kind with
  | .streamEnd => return none
  | .version _ _ | .tagHandle _ _ | .documentStart =>
    directives false fuel
    let marker ← peek
    if marker.kind ≠ .documentStart then fail ⟨0, 0, 0⟩ marker.start .documentStart
    else
      close
      let first ← peek
      let root ← match first.kind with
        | .version _ _ | .tagHandle _ _ | .documentStart | .documentEnd | .streamEnd =>
          emptyNode first.start
        | _ => node true false fuel
      discard peek
      complete
      return some root
  | _ =>
    modify fun r => { r with handles := standardHandles }
    complete
    let root ← node true false fuel
    discard peek
    complete
    return some root

def read (text : Text) : Except SyntaxError Document := do
  let source := decode (if text = [] then [Byte.newline] else text)
  let stream := Stream.start source
  let fuel := 8 * stream.cursor.size + 64
  let (_, stream) ← stream.peek
  let (root, r) ← (firstDocument fuel).run ⟨stream, [], [], [], 0⟩
  return .ofRoot root r.anchored

end SvgAssist.Yaml
