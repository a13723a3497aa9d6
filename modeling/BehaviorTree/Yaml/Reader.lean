import BehaviorTree.Yaml.Basic
import BehaviorTree.Yaml.Token

namespace BehaviorTree.Yaml

/-!
# Reading YAML

The value that the tokens of a file make.  A file holds one document, or nothing.  An anchor gives a
name to the value after it, and a reference stands for the value that had its name last; of a value
that it stands in itself, nothing can be said there but that it is around.
-/

/-! ### Anchors -/

/-- The named values of a document, the first one first. -/
abbrev Anchors := List (String × Yaml)

namespace Anchors

/-- The value that had a name last. -/
def find? (as : Anchors) (name : String) : Option Yaml :=
  (as.reverse.lookup name)

/-- Begins a value, which may have a name. -/
def start (as : Anchors) : Option String → Anchors
  | some name => as ++ [(name, .around)]
  | none => as

/-- Ends a value, which may have a name and began after the first `index` ones. -/
def finish (as : Anchors) (index : Nat) (y : Yaml) : Option String → Anchors
  | some name => as.set index (name, y)
  | none => as

end Anchors

/-! ### Tags -/

/-- What the handles of a document stand for. -/
abbrev Handles := List (String × String)

/-- The handles that need no directive. -/
def standardHandles : Handles := [("!", "!"), ("!!", standardTags)]

/-- The handles that directives make.  No two say the same thing, and the version is 1.1 or 1.2. -/
def handles? (ds : List Directive) : Option Handles := do
  let versions := ds.filterMap fun | .version major minor => some (major, minor) | _ => none
  let handles := ds.filterMap fun | .handle name expansion => some (name, expansion) | _ => none
  if versions.length ≤ 1 && versions.all (fun v => v = (1, 1) || v = (1, 2)) &&
      (handles.map Prod.fst).Nodup then
    return handles ++ standardHandles
  else none

/-- What a tag stands for. -/
def Tag.expand? (handles : Handles) (t : Tag) : Option String :=
  if t.handle.isEmpty then some t.suffix else (handles.lookup t.handle).map (· ++ t.suffix)

/-! ### Values -/

/-- What stands before a value. -/
structure Properties where
  anchor : Option String := none
  tag : Option String := none

/-- Whether nothing stands before a value. -/
def Properties.isEmpty (p : Properties) : Bool := p.anchor.isNone && p.tag.isNone

/-- A part of a document, the values named up to its end, and what follows it. -/
structure Part (α : Type) where
  value : α
  anchors : Anchors
  rest : List Token

/-- A part with another value. -/
def Part.map {α β : Type} (f : α → β) (p : Part α) : Part β := { p with value := f p.value }

/-- A value with a name, which began with the anchors `as`. -/
def Part.named (as : Anchors) (name : Option String) (p : Part Yaml) : Part Yaml :=
  { p with anchors := p.anchors.finish as.length p.value name }

/-- A scalar with what stands before it. -/
def scalarPart (s : Scalar) (p : Properties) (as : Anchors) (rest : List Token) : Part Yaml :=
  let y := .scalar { s with tag := p.tag }
  ⟨y, (as.start p.anchor).finish as.length y p.anchor, rest⟩

/-- Where an item of a block ends before it begins. -/
def endsItem : Token → Bool
  | .item | .blockEnd => true
  | _ => false

/-- Where a key or a value of a block ends before it begins. -/
def endsEntry : Token → Bool
  | .key | .value | .blockEnd => true
  | _ => false

/-- Where an item of a list in a map of a block ends before it begins. -/
def endsInnerItem (t : Token) : Bool := endsItem t || endsEntry t

/-- Where an item or a value between brackets ends before it begins. -/
def endsFlowPart : Token → Bool
  | .comma | .flowListEnd | .flowMapEnd => true
  | _ => false

/-- Where a key between brackets ends before it begins. -/
def endsFlowKey : Token → Bool
  | .value => true
  | t => endsFlowPart t

mutual

/-- A value with the properties `p`.  In a block it can be a block, and below a key it can be a list
    whose items stand at the margin of the key. -/
def node (handles : Handles) (inBlock belowKey : Bool) (p : Properties) (as : Anchors)
    (ts : List Token) : Option (Part Yaml) :=
  match ts with
  | .anchor name :: ts =>
    if p.anchor.isSome then none
    else node handles inBlock belowKey { p with anchor := some name } as ts
  | .tag t :: ts =>
    if p.tag.isSome then none
    else
      (t.expand? handles).bind fun tag =>
        node handles inBlock belowKey { p with tag := some tag } as ts
  | .reference name :: ts => if p.isEmpty then (as.find? name).map (⟨·, as, ts⟩) else none
  | .scalar s :: ts => some (scalarPart s p as ts)
  | .flowListStart :: ts =>
    (flowItems handles true (as.start p.anchor) ts).map fun r => (r.map .list).named as p.anchor
  | .flowMapStart :: ts =>
    (flowEntries handles true (as.start p.anchor) ts).map fun r =>
      (r.map .map).named as p.anchor
  | ts =>
    match inBlock, belowKey, ts with
    | true, _, .blockList :: ts =>
      (items handles (as.start p.anchor) ts).map fun r => (r.map .list).named as p.anchor
    | true, _, .blockMap :: ts =>
      (entries handles (as.start p.anchor) ts).map fun r => (r.map .map).named as p.anchor
    | _, true, .item :: ts =>
      (innerItems handles (as.start p.anchor) ts).map fun r => (r.map .list).named as p.anchor
    | _, _, ts => if p.isEmpty then none else some (scalarPart .nothing p as ts)
termination_by 4 * ts.length
decreasing_by all_goals simp only [List.length_cons]; omega

/-- A value, or none where one of some tokens stands. -/
def optional (handles : Handles) (inBlock belowKey : Bool) (ends : Token → Bool) (as : Anchors)
    (ts : List Token) : Option (Part Yaml) :=
  if ts.head?.any ends then some ⟨.nothing, as, ts⟩
  else node handles inBlock belowKey {} as ts
termination_by 4 * ts.length + 1
decreasing_by all_goals omega

/-- The value of an entry whose key is read. -/
def entryValue (handles : Handles) (inBlock : Bool) (ends : Token → Bool) (as : Anchors)
    (ts : List Token) : Option (Part Yaml) :=
  match ts with
  | .value :: ts => optional handles inBlock inBlock ends as ts
  | ts => some ⟨.nothing, as, ts⟩
termination_by 4 * ts.length + 2
decreasing_by all_goals simp only [List.length_cons]; omega

/-- The items of a block up to its end. -/
def items (handles : Handles) (as : Anchors) (ts : List Token) : Option (Part (List Yaml)) :=
  match ts with
  | .item :: ts => do
    let first ← optional handles true false endsItem as ts
    if _ : first.rest.length ≤ ts.length then
      let more ← items handles first.anchors first.rest
      return more.map (first.value :: ·)
    else none
  | .blockEnd :: ts => some ⟨[], as, ts⟩
  | _ => none
termination_by 4 * ts.length
decreasing_by all_goals simp only [List.length_cons]; omega

/-- The items of a list at the margin of a map, of which the first mark is read. -/
def innerItems (handles : Handles) (as : Anchors) (ts : List Token) :
    Option (Part (List Yaml)) := do
  let first ← optional handles true false endsInnerItem as ts
  match first.rest with
  | .item :: rest =>
    if _ : rest.length < ts.length then
      let more ← innerItems handles first.anchors rest
      return more.map (first.value :: ·)
    else none
  | rest => return ⟨[first.value], first.anchors, rest⟩
termination_by 4 * ts.length + 2
decreasing_by all_goals omega

/-- The entries of a block up to its end. -/
def entries (handles : Handles) (as : Anchors) (ts : List Token) :
    Option (Part (List (Yaml × Yaml))) :=
  match ts with
  | .key :: ts => do
    let key ← optional handles true true endsEntry as ts
    if _ : key.rest.length ≤ ts.length then
      let value ← entryValue handles true endsEntry key.anchors key.rest
      if _ : value.rest.length ≤ ts.length then
        let more ← entries handles value.anchors value.rest
        return more.map ((key.value, value.value) :: ·)
      else none
    else none
  | .blockEnd :: ts => some ⟨[], as, ts⟩
  | _ => none
termination_by 4 * ts.length
decreasing_by all_goals simp only [List.length_cons]; omega

/-- The items of a list up to its closing bracket.  An item can be a map of one entry without
    braces. -/
def flowItems (handles : Handles) (isFirst : Bool) (as : Anchors) (ts : List Token) :
    Option (Part (List Yaml)) :=
  match isFirst, ts with
  | _, .flowListEnd :: ts => some ⟨[], as, ts⟩
  | false, .comma :: ts => flowItems handles true as ts
  | false, _ => none
  | true, .key :: ts => do
    let key ←
      match ts with
      | .value :: rest | .comma :: rest | .flowListEnd :: rest => some ⟨.nothing, as, rest⟩
      | ts => node handles false false {} as ts
    if _ : key.rest.length ≤ ts.length then
      let value ← entryValue handles false endsFlowPart key.anchors key.rest
      if _ : value.rest.length ≤ ts.length then
        let more ← flowItems handles false value.anchors value.rest
        return more.map (.map [(key.value, value.value)] :: ·)
      else none
    else none
  | true, ts => do
    let first ← node handles false false {} as ts
    if _ : first.rest.length < ts.length then
      let more ← flowItems handles false first.anchors first.rest
      return more.map (first.value :: ·)
    else none
termination_by 4 * ts.length + 1
decreasing_by
  any_goals simp only [List.length_cons]
  all_goals omega

/-- The entries of a map up to its closing brace.  A key alone has no value. -/
def flowEntries (handles : Handles) (isFirst : Bool) (as : Anchors) (ts : List Token) :
    Option (Part (List (Yaml × Yaml))) :=
  match isFirst, ts with
  | _, .flowMapEnd :: ts => some ⟨[], as, ts⟩
  | false, .comma :: ts => flowEntries handles true as ts
  | false, _ => none
  | true, .key :: ts => do
    let key ← optional handles false false endsFlowKey as ts
    if _ : key.rest.length ≤ ts.length then
      let value ← entryValue handles false endsFlowPart key.anchors key.rest
      if _ : value.rest.length ≤ ts.length then
        let more ← flowEntries handles false value.anchors value.rest
        return more.map ((key.value, value.value) :: ·)
      else none
    else none
  | true, ts => do
    let key ← node handles false false {} as ts
    if _ : key.rest.length < ts.length then
      let more ← flowEntries handles false key.anchors key.rest
      return more.map ((key.value, .nothing) :: ·)
    else none
termination_by 4 * ts.length + 1
decreasing_by
  any_goals simp only [List.length_cons]
  all_goals omega

end

/-! ### Documents -/

/-- Whether a token says something about a document, and is no part of one. -/
def isAboutDocument : Token → Bool
  | .directive _ | .documentStart | .documentEnd => true
  | _ => false

/-- The directives that come first. -/
def leadingDirectives : List Token → List Directive
  | .directive d :: ts => d :: leadingDirectives ts
  | _ => []

/-- The document that tokens begin with. -/
def firstDocument (ts : List Token) : Option (Part Yaml) :=
  let ds := leadingDirectives ts
  match ds, ts.drop ds.length with
  | ds, .documentStart :: ts => do
    let handles ← handles? ds
    if ts.head?.all isAboutDocument then return ⟨.nothing, [], ts⟩
    else node handles true false {} [] ts
  | [], [] => some ⟨.nothing, [], []⟩
  | [], ts => node standardHandles true false {} [] ts
  | _, _ => none

/-- The value that a file holds. -/
def read? (source : String) : Option Yaml := do
  let document ← (tokens? source).bind firstDocument
  if document.rest.all fun | .documentEnd => true | _ => false then some document.value else none

end BehaviorTree.Yaml
