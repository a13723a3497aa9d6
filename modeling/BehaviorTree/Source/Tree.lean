import BehaviorTree.File
import BehaviorTree.Source.Declaration

namespace BehaviorTree.Source

/-!
# Trees from tokens

The grammar of a tree file, in which anything may stand before the tree and after it:

    file     = anything, tree, anything
    tree     = "tree" name "{" node "}"
    node     = word name "{" (property | node)* "}"
    property = name ":" (text | number | name | word)

A node that is wrong is reported and left out, and its parent goes on after it.  Where a node goes
wrong before its block is open, its block is skipped if one follows; where it goes wrong inside, the
rest of its block is skipped.  Only a wrong root leaves no tree.

Every step returns the tokens that it left, and they are never more than it was given, which is why
the recursion ends.
-/

/-! ### Skipping -/

/-- What follows the brace that closes the current block, with `inner` more blocks open in it. -/
def skipBlock : Nat → List Token → List Token
  | _, [] => []
  | inner, t :: ts =>
    match t.kind with
    | .leftBrace => skipBlock (inner + 1) ts
    | .rightBrace =>
      match inner with
      | 0 => ts
      | inner + 1 => skipBlock inner ts
    | _ => skipBlock inner ts

/-- What follows the next block, or what begins with the brace that closes the block around. -/
def skipNode : List Token → List Token
  | [] => []
  | t :: ts =>
    match t.kind with
    | .rightBrace => t :: ts
    | .leftBrace => skipBlock 0 ts
    | _ => skipNode ts

theorem length_skipBlock_le (inner : Nat) (ts : List Token) :
    (skipBlock inner ts).length ≤ ts.length := by
  fun_induction skipBlock inner ts <;> simp_all <;> omega

theorem length_skipNode_le (ts : List Token) : (skipNode ts).length ≤ ts.length := by
  fun_induction skipNode ts with
  | case1 => simp
  | case2 => simp
  | case3 t ts =>
    have := length_skipBlock_le 0 ts
    simp only [List.length_cons]; omega
  | case4 t ts _ _ ih => simp only [List.length_cons]; omega

/-! ### Parts of a node -/

/-- What follows the word of a node. -/
inductive Opening where
  /-- A name and a block, of which the opening brace is read. -/
  | block (name : String) (body : List Token)
  /-- A name without a block. -/
  | bare (name : String) (rest : List Token)
  /-- No name. -/
  | nameless

/-- Reads the name and the brace after the word of a node. -/
def opening : List Token → Opening
  | ⟨.identifier, _, name⟩ :: ⟨.leftBrace, _, _⟩ :: body => .block name body
  | ⟨.identifier, _, name⟩ :: rest => .bare name rest
  | _ => .nameless

theorem length_of_opening_block {ts body : List Token} {name : String}
    (h : opening ts = .block name body) : body.length < ts.length := by
  unfold opening at h
  split at h
  · obtain ⟨-, rfl⟩ := by simpa using h
    simp only [List.length_cons]; omega
  · exact absurd h nofun
  · exact absurd h nofun

theorem length_of_opening_bare {ts rest : List Token} {name : String}
    (h : opening ts = .bare name rest) : rest.length < ts.length := by
  unfold opening at h
  split at h
  · exact absurd h nofun
  · obtain ⟨-, rfl⟩ := by simpa using h
    simp
  · exact absurd h nofun

/-- What comes next in a block. -/
inductive Item where
  /-- The input is at its end. -/
  | ended
  /-- The block is closed. -/
  | close (rest : List Token)
  /-- A property, of which the key and the colon are read. -/
  | property (key : String) (rest : List Token)
  /-- A node. -/
  | child (first : Token) (rest : List Token)
  /-- A token that can begin neither. -/
  | stray (first : Token)

/-- Reads what comes next in a block. -/
def item : List Token → Item
  | [] => .ended
  | ⟨.rightBrace, _, _⟩ :: ts => .close ts
  | ⟨.identifier, _, key⟩ :: ⟨.colon, _, _⟩ :: ts => .property key ts
  | ⟨.identifier, line, text⟩ :: ts => .child ⟨.identifier, line, text⟩ ts
  | ⟨.keyword k, line, text⟩ :: ts => .child ⟨.keyword k, line, text⟩ ts
  | t :: _ => .stray t

theorem length_of_item_close {ts rest : List Token} (h : item ts = .close rest) :
    rest.length < ts.length := by
  unfold item at h
  split at h <;> simp_all

theorem length_of_item_property {ts rest : List Token} {key : String}
    (h : item ts = .property key rest) : rest.length < ts.length := by
  unfold item at h
  split at h
  case h_3 => obtain ⟨-, rfl⟩ := by simpa using h
              simp only [List.length_cons]; omega
  all_goals exact absurd h nofun

theorem length_of_item_child {ts rest : List Token} {t : Token} (h : item ts = .child t rest) :
    rest.length < ts.length := by
  unfold item at h
  split at h <;> simp_all

/-- The value of a property, and what follows it; or what is wrong with it. -/
def propertyValue (key : String) : List Token → Except Diagnostic (PropertyValue × List Token)
  | [] => .error { fault := .valueMissing key }
  | t :: ts =>
    match t.kind with
    | .text | .identifier | .keyword _ => .ok (.text t.text, ts)
    | .number =>
      match Decimal.readFloat? t.text.toList with
      | some x => .ok (.number x, ts)
      | none => .error { fault := .numberMalformed key t.text, line := some t.line }
    | found => .error { fault := .valueExpected key found, line := some t.line }

theorem length_of_propertyValue {key : String} {ts rest : List Token} {v : PropertyValue}
    (h : propertyValue key ts = .ok (v, rest)) : rest.length < ts.length := by
  unfold propertyValue at h
  split at h
  · exact absurd h nofun
  · split at h
    · simp_all
    · simp_all
    · simp_all
    · split at h <;> simp_all
    · exact absurd h nofun

/-! ### Nodes -/

/-- The result of reading a part of at most `bound` tokens: what it gave, the tokens after it, and
    the site. -/
structure Step (α η : Type) (bound : Nat) where
  value : α
  rest : List Token
  site : Site η
  length_le : rest.length ≤ bound

variable {β η : Type} [Behavior β η]

mutual

/-- Reads the node that begins with the token `t`.  It gives no node when something about it is
    wrong, which is reported then. -/
def node (r : Registry β η) (t : Token) (ts : List Token) (s : Site η) :
    Step (Option (Node β)) η ts.length :=
  match t.kind with
  | .keyword (.node word) =>
    match h : opening ts with
    | .block name body =>
      have hlt := length_of_opening_block h
      let step := items r { word, name, line := t.line, properties := [], children := [] } body s
      have hle : step.rest.length ≤ ts.length :=
        Nat.le_of_lt (Nat.lt_of_le_of_lt step.length_le hlt)
      match step.value with
      | none => ⟨none, step.rest, step.site, hle⟩
      | some d =>
        let (n, s) := d.build r step.site
        ⟨n, step.rest, s, hle⟩
    | .bare name rest =>
      ⟨none, skipNode rest,
        s.report { fault := .braceMissing, line := some t.line, node := some name },
        Nat.le_trans (length_skipNode_le rest) (Nat.le_of_lt (length_of_opening_bare h))⟩
    | .nameless =>
      ⟨none, skipNode ts, s.report { fault := .nameMissing word, line := some t.line },
        length_skipNode_le ts⟩
  | .identifier =>
    ⟨none, skipNode ts, s.report { fault := .wordUnknown t.text, line := some t.line },
      length_skipNode_le ts⟩
  | found =>
    ⟨none, skipNode ts, s.report { fault := .wordExpected found, line := some t.line },
      length_skipNode_le ts⟩
termination_by ts.length

/-- Reads the items of a block up to its closing brace and adds them to a declaration.  It gives
    no declaration when the block itself is wrong. -/
def items (r : Registry β η) (d : Declaration β) (ts : List Token) (s : Site η) :
    Step (Option (Declaration β)) η ts.length :=
  match h : item ts with
  | .ended =>
    ⟨none, [], s.report { fault := .inputEnded, line := some d.line, node := some d.name },
      Nat.zero_le _⟩
  | .close rest => ⟨some d, rest, s, Nat.le_of_lt (length_of_item_close h)⟩
  | .property key rest =>
    have hlt := length_of_item_property h
    match hv : propertyValue key rest with
    | .error wrong =>
      ⟨none, skipBlock 0 rest, s.report wrong,
        Nat.le_trans (length_skipBlock_le 0 rest) (Nat.le_of_lt hlt)⟩
    | .ok (v, rest') =>
      have hlt' := length_of_propertyValue hv
      let step := items r { d with properties := d.properties ++ [(key, v)] } rest' s
      ⟨step.value, step.rest, step.site, by have := step.length_le; omega⟩
  | .child t rest =>
    have hlt := length_of_item_child h
    let child := node r t rest s
    have hchild : child.rest.length < ts.length := Nat.lt_of_le_of_lt child.length_le hlt
    let step :=
      items r { d with children := d.children ++ child.value.toList } child.rest child.site
    ⟨step.value, step.rest, step.site, by have := step.length_le; omega⟩
  | .stray t =>
    ⟨none, skipBlock 0 ts,
      s.report { fault := .unexpected t.kind, line := some t.line, node := some d.name },
      length_skipBlock_le 0 ts⟩
termination_by ts.length

end

/-! ### Trees -/

/-- What reading a tree file gives: a tree or a failure, everything that was found wrong and the count
    of it, the event of a success, and the workshop. -/
structure Reading (β η : Type) where
  result : Except Failure (Node β)
  diagnostics : List Diagnostic
  /-- The number of problems. -/
  errors : Nat
  events : List Event
  shop : Workshop η

/-- Ends a reading with a failure, which is reported last. -/
def fail (failure : Failure) (s : Site η) : Reading β η :=
  let s := s.report failure.diagnostic
  { result := .error failure
    diagnostics := s.diagnostics
    errors := s.errors
    events := []
    shop := s.shop }

/-- Ends a reading with a tree, which gets its name as a property. -/
def finish (tree : String) (root : Node β) (s : Site η) : Reading β η :=
  let (root, host) := root.setProperty "treeName" (.text tree) s.shop.host
  { result := .ok root
    diagnostics := s.diagnostics
    errors := s.errors
    events := [.treeParsed tree s.errors]
    shop := { s.shop with host } }

/-- Reads the block of a tree after its opening brace. -/
def treeBody (r : Registry β η) (line : Nat) (tree : String) (s : Site η) :
    List Token → Reading β η
  | [] => fail (.malformed line (.treeEmpty tree)) s
  | t :: ts =>
    if t.kind = .rightBrace then fail (.malformed line (.treeEmpty tree)) s
    else
      let step := node r t ts s
      match step.value with
      | none => fail (.malformed line (.rootInvalid tree)) step.site
      | some root =>
        match step.rest with
        | [] => fail (.malformed line (.treeOpen tree)) step.site
        | t :: _ =>
          if t.kind = .rightBrace then finish tree root step.site
          else fail (.malformed t.line (.treeOpen tree)) step.site

/-- Reads what follows the word `tree`. -/
def treeAfter (r : Registry β η) (line : Nat) (ts : List Token) (s : Site η) : Reading β η :=
  match opening ts with
  | .block tree body => treeBody r line tree s body
  | .bare tree _ => fail (.malformed line (.treeBraceMissing tree)) s
  | .nameless => fail (.malformed line .treeNameMissing) s

/-- Reads the first tree among tokens. -/
def readTokens (r : Registry β η) (ts : List Token) (shop : Workshop η) : Reading β η :=
  match ts.dropWhile (·.kind ≠ .keyword .tree) with
  | [] => fail .treeMissing { shop }
  | t :: ts => treeAfter r t.line ts { shop }

/-- Reads the first tree in the text of a file. -/
def read (r : Registry β η) (source : String) (shop : Workshop η) : Reading β η :=
  readTokens r (scan source) shop

/-! ### Files -/

/-- Reads the first tree of a file, whose text was found or not. -/
def readContent (r : Registry β η) (path : String) (content : Except FileError String)
    (shop : Workshop η) : Reading β η :=
  match content with
  | .ok source => read r source shop
  | .error e => fail (.unreadable path e.message) { shop }

end BehaviorTree.Source
