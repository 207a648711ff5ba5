import Curly.Yaml.Token

namespace Curly.Yaml

structure Properties where
  anchor : Option Nat := none
  tag : Option Octets := none
deriving DecidableEq, Repr

inductive Node where
  | aliasOf (number : Nat)
  | scalar (p : Properties) (style : Style) (s : Text)
  | list (p : Properties) (items : List Node)
  | map (p : Properties) (entries : List (Node × Node))
deriving Repr, Inhabited

namespace Node

abbrev empty : Node := .scalar {} .plain []

def anchorOf (p : Properties) (n : Node) : List (Nat × Node) :=
  (p.anchor.map (·, n)).toList

mutual

def anchored : Node → List (Nat × Node)
  | aliasOf _ => []
  | scalar p style s => anchorOf p (scalar p style s)
  | list p items => anchorOf p (list p items) ++ anchoredItems items
  | map p entries => anchorOf p (map p entries) ++ anchoredEntries entries

def anchoredItems : List Node → List (Nat × Node)
  | [] => []
  | n :: rest => n.anchored ++ anchoredItems rest

def anchoredEntries : List (Node × Node) → List (Nat × Node)
  | [] => []
  | (k, v) :: rest => k.anchored ++ v.anchored ++ anchoredEntries rest

end

/-- A node of a document. An alias is the last node with its number. -/
def resolve (root : Node) : Node → Node
  | aliasOf number => ((root.anchored.filter (·.1 = number)).getLast?.map (·.2)).getD empty
  | n => n

end Node

abbrev Reader (α : Type) := List Token → Option (α × List Token)

def readProperties? (handles : Handles) : Reader Properties
  | .anchor n :: .tag handle suffix :: ts => do
    some ({ anchor := some n, tag := some (← handles.tag? handle suffix) }, ts)
  | .tag handle suffix :: .anchor n :: ts => do
    some ({ anchor := some n, tag := some (← handles.tag? handle suffix) }, ts)
  | .anchor n :: ts => some ({ anchor := some n }, ts)
  | .tag handle suffix :: ts => do some ({ tag := some (← handles.tag? handle suffix) }, ts)
  | ts => some ({}, ts)

/-- A scalar. The tag that is a lone sign says nothing about it. -/
def Node.ofScalar (p : Properties) (style : Style) (s : Text) : Node :=
  .scalar { p with tag := p.tag.filter (· ≠ octets ['!']) } style s

mutual

/-- A node. Where `items` allows it, the items of a list need no block of their own. -/
def readNode? (handles : Handles) (items : Bool) : (fuel : Nat) → Reader Node
  | 0, _ => none
  | _ + 1, .aliasOf n :: ts => some (.aliasOf n, ts)
  | fuel + 1, ts => do
    let (p, ts) ← readProperties? handles ts
    let list (r : Option (List Node × List Token)) : Option (Node × List Token) :=
      r.map fun (ns, rest) => (.list p ns, rest)
    let map (r : Option (List (Node × Node) × List Token)) : Option (Node × List Token) :=
      r.map fun (es, rest) => (.map p es, rest)
    match ts with
    | .scalar style s :: ts => some (.ofScalar p style s, ts)
    | .openList :: ts => list (readFlowItems? handles fuel ts)
    | .openMap :: ts => map (readFlowEntries? handles fuel ts)
    | .blockList :: ts => list (readItems? handles fuel ts)
    | .blockMap :: ts => map (readEntries? handles fuel ts)
    | ts =>
      if items && ts.head? = some .item then list (readBareItems? handles fuel ts)
      else if p = {} then none
      else some (.scalar p .plain [], ts)

def readOptional? (handles : Handles) (ends : List Token) (items : Bool) :
    (fuel : Nat) → Reader Node
  | 0, _ => none
  | fuel + 1, ts =>
    if ts.head?.any (· ∈ ends) then some (.empty, ts) else readNode? handles items fuel ts

def readValue? (handles : Handles) (ends : List Token) (items : Bool) :
    (fuel : Nat) → Reader Node
  | 0, _ => none
  | fuel + 1, .value :: ts => readOptional? handles ends items fuel ts
  | _, ts => some (.empty, ts)

def readItems? (handles : Handles) : (fuel : Nat) → Reader (List Node)
  | 0, _ => none
  | _ + 1, .blockEnd :: ts => some ([], ts)
  | fuel + 1, .item :: ts => do
    let (n, ts) ← readOptional? handles [.item, .blockEnd] false fuel ts
    let (ns, ts) ← readItems? handles fuel ts
    some (n :: ns, ts)
  | _, _ => none

/-- Items at the column of the map that they belong to. -/
def readBareItems? (handles : Handles) : (fuel : Nat) → Reader (List Node)
  | 0, _ => none
  | fuel + 1, .item :: ts => do
    let (n, ts) ← readOptional? handles [.item, .key, .value, .blockEnd] false fuel ts
    let (ns, ts) ← readBareItems? handles fuel ts
    some (n :: ns, ts)
  | _, ts => some ([], ts)

def readEntries? (handles : Handles) : (fuel : Nat) → Reader (List (Node × Node))
  | 0, _ => none
  | _ + 1, .blockEnd :: ts => some ([], ts)
  | fuel + 1, .key :: ts => do
    let ends := [.key, .value, .blockEnd]
    let (k, ts) ← readOptional? handles ends true fuel ts
    let (v, ts) ← readValue? handles ends true fuel ts
    let (es, ts) ← readEntries? handles fuel ts
    some ((k, v) :: es, ts)
  | _, _ => none

/-- The items of a flow collection, where one of them may come. An item may be a single entry. Where
its key is left out, the token behind the question mark is passed over. -/
def readFlowItems? (handles : Handles) : (fuel : Nat) → Reader (List Node)
  | 0, _ => none
  | _ + 1, .closeList :: ts => some ([], ts)
  | fuel + 1, ts => do
    let ends := [.comma, .closeList]
    let (n, ts) ←
      match ts with
      | .key :: ts => do
        let (k, ts') ← readOptional? handles (.value :: ends) false fuel ts
        let ts := if ts'.length = ts.length then ts.tail else ts'
        let (v, ts) ← readValue? handles ends false fuel ts
        some (.map {} [(k, v)], ts)
      | ts => readNode? handles false fuel ts
    match ts with
    | .comma :: ts => (readFlowItems? handles fuel ts).map fun (ns, rest) => (n :: ns, rest)
    | .closeList :: ts => some ([n], ts)
    | _ => none

/-- The entries of a flow collection, where one of them may come. A node without a mark is a key
without value. -/
def readFlowEntries? (handles : Handles) : (fuel : Nat) → Reader (List (Node × Node))
  | 0, _ => none
  | _ + 1, .closeMap :: ts => some ([], ts)
  | fuel + 1, ts => do
    let ends := [.comma, .closeMap]
    let (e, ts) ←
      match ts with
      | .key :: ts => do
        let (k, ts) ← readOptional? handles (.value :: ends) false fuel ts
        let (v, ts) ← readValue? handles ends false fuel ts
        some ((k, v), ts)
      | ts => (readNode? handles false fuel ts).map fun (k, rest) => ((k, .empty), rest)
    match ts with
    | .comma :: ts => (readFlowEntries? handles fuel ts).map fun (es, rest) => (e :: es, rest)
    | .closeMap :: ts => some ([e], ts)
    | _ => none

end

def Token.directive? : Token → Option Directive
  | directive d => some d
  | _ => none

/-- The root of a document, and the tokens behind it. Directives need a marker behind them. -/
def readRoot? (ts : List Token) : Option (Node × List Token) :=
  let ds := ts.takeWhile (·.directive?.isSome)
  match ts.drop ds.length with
  | .documentStart :: ts => do
    let handles ← Handles.ofDirectives? (ds.filterMap Token.directive?)
    match ts with
    | [] | .documentStart :: _ | .documentEnd :: _ | .directive _ :: _ => some (.empty, ts)
    | ts => readNode? handles false (3 * ts.length + 3) ts
  | ts => do
    let handles ← Handles.ofDirectives? []
    match ds, ts with
    | [], [] => some (.empty, [])
    | [], ts => readNode? handles false (3 * ts.length + 3) ts
    | _ :: _, _ => none

def read? (s : Text) : Option Node := do
  let (root, ts) ← readRoot? (← tokens? s)
  if ts.all (· = .documentEnd) then some root else none

end Curly.Yaml
