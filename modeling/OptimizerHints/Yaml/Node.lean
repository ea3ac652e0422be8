import OptimizerHints.Yaml.Token

namespace OptimizerHints.Yaml

inductive Node where
  | scalar (text : String) (plain : Bool)
  | sequence (items : List Node)
  | mapping (entries : List (Node × Node))
  | tooDeep
  deriving Inhabited

namespace Node

def absent : Node := scalar "" true

def depthLimit : Nat := 128

def atDepth (depth : Nat) (n : Node) : Node := if depth < depthLimit then n else tooDeep

def startsWith (stops : List Token) (ts : List Token) : Bool := ts.head?.all stops.contains

mutual

def take? : Nat → Nat → Bool → Bool → List Token → Option (Node × List Token)
  | 0, _, _, _, _ => none
  | fuel + 1, depth, block, entry, ts =>
    match ts with
    | .scalar text plain :: ts => some (scalar text plain, ts)
    | .flowSequenceStart :: ts => do
      let (items, ts) ← takeFlowItems? fuel (depth + 1) true ts
      some (atDepth depth (sequence items), ts)
    | .flowMappingStart :: ts => do
      let (entries, ts) ← takeFlowEntries? fuel (depth + 1) true ts
      some (atDepth depth (mapping entries), ts)
    | .blockEntry :: _ =>
      if entry then do
        let (items, ts) ← takeLooseItems? fuel (depth + 1) ts
        some (atDepth depth (sequence items), ts)
      else none
    | .blockSequenceStart :: ts =>
      if block then do
        let (items, ts) ← takeBlockItems? fuel (depth + 1) ts
        some (atDepth depth (sequence items), ts)
      else none
    | .blockMappingStart :: ts =>
      if block then do
        let (entries, ts) ← takeBlockEntries? fuel (depth + 1) ts
        some (atDepth depth (mapping entries), ts)
      else none
    | _ => none

def takeUnless? : Nat → Nat → Bool → Bool → List Token → List Token → Option (Node × List Token)
  | 0, _, _, _, _, _ => none
  | fuel + 1, depth, block, entry, stops, ts =>
    if startsWith stops ts then some (absent, ts) else take? fuel depth block entry ts

def takeBlockItems? : Nat → Nat → List Token → Option (List Node × List Token)
  | 0, _, _ => none
  | fuel + 1, depth, ts =>
    match ts with
    | .blockEntry :: ts => do
      let (item, ts) ← takeUnless? fuel depth true false [.blockEntry, .blockEnd] ts
      let (items, ts) ← takeBlockItems? fuel depth ts
      some (item :: items, ts)
    | .blockEnd :: ts => some ([], ts)
    | _ => none

def takeLooseItems? : Nat → Nat → List Token → Option (List Node × List Token)
  | 0, _, _ => none
  | fuel + 1, depth, ts =>
    match ts with
    | .blockEntry :: ts => do
      let (item, ts) ← takeUnless? fuel depth true false [.blockEntry, .key, .value, .blockEnd] ts
      let (items, ts) ← takeLooseItems? fuel depth ts
      some (item :: items, ts)
    | ts => some ([], ts)

def takeValue? : Nat → Nat → Bool → List Token → List Token → Option (Node × List Token)
  | 0, _, _, _, _ => none
  | fuel + 1, depth, block, stops, ts =>
    match ts with
    | .value :: ts => takeUnless? fuel depth block block stops ts
    | ts => some (absent, ts)

def takeBlockEntries? : Nat → Nat → List Token → Option (List (Node × Node) × List Token)
  | 0, _, _ => none
  | fuel + 1, depth, ts =>
    match ts with
    | .key :: ts => do
      let (key, ts) ← takeUnless? fuel depth true true [.key, .value, .blockEnd] ts
      let (value, ts) ← takeValue? fuel depth true [.key, .value, .blockEnd] ts
      let (entries, ts) ← takeBlockEntries? fuel depth ts
      some ((key, value) :: entries, ts)
    | .blockEnd :: ts => some ([], ts)
    | _ => none

def takeFlowItems? : Nat → Nat → Bool → List Token → Option (List Node × List Token)
  | 0, _, _, _ => none
  | fuel + 1, depth, first, ts =>
    match ts with
    | .flowSequenceEnd :: ts => some ([], ts)
    | ts => do
      let ts ← if first then some ts else match ts with
        | .flowEntry :: ts => some ts
        | _ => none
      match ts with
      | .flowSequenceEnd :: ts => some ([], ts)
      | .key :: ts =>
        let (key, ts) ← takeUnless? fuel (depth + 1) false false [.value, .flowEntry, .flowSequenceEnd] ts
        let (value, ts) ← takeValue? fuel (depth + 1) false [.flowEntry, .flowSequenceEnd] ts
        let (items, ts) ← takeFlowItems? fuel depth false ts
        some (atDepth depth (mapping [(key, value)]) :: items, ts)
      | ts =>
        let (item, ts) ← take? fuel depth false false ts
        let (items, ts) ← takeFlowItems? fuel depth false ts
        some (item :: items, ts)

def takeFlowEntries? : Nat → Nat → Bool → List Token → Option (List (Node × Node) × List Token)
  | 0, _, _, _ => none
  | fuel + 1, depth, first, ts =>
    match ts with
    | .flowMappingEnd :: ts => some ([], ts)
    | ts => do
      let ts ← if first then some ts else match ts with
        | .flowEntry :: ts => some ts
        | _ => none
      match ts with
      | .flowMappingEnd :: ts => some ([], ts)
      | .key :: ts =>
        let (key, ts) ← takeUnless? fuel depth false false [.value, .flowEntry, .flowMappingEnd] ts
        let (value, ts) ← takeValue? fuel depth false [.flowEntry, .flowMappingEnd] ts
        let (entries, ts) ← takeFlowEntries? fuel depth false ts
        some ((key, value) :: entries, ts)
      | ts =>
        let (key, ts) ← take? fuel depth false false ts
        let (entries, ts) ← takeFlowEntries? fuel depth false ts
        some ((key, absent) :: entries, ts)

end

def takeDocuments? : Nat → Bool → List Token → Option (List Node)
  | 0, _, _ => none
  | fuel + 1, first, ts =>
    match if first then ts else ts.dropWhile (· == .documentEnd) with
    | [] => some []
    | ts => do
      let (root, ts) ← match ts with
        | .documentStart :: ts => takeUnless? fuel 0 true false [.documentStart, .documentEnd] ts
        | ts => if first then take? fuel 0 true false ts else none
      return root :: (← takeDocuments? fuel false ts)

def read? (s : String) : Option (Option Node) := do
  let ts ← tokens? s
  match ← takeDocuments? (4 * ts.length + 8) true ts with
  | [] => some none
  | [root] => some (some root)
  | _ => none

end Node

end OptimizerHints.Yaml
