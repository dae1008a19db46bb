import PhraseChart.Symbol
import PhraseChart.Tree.Basic

namespace PhraseChart

/-- How a symbol was found: a token stands for itself, a rule joins what its right-hand side was
derived by. -/
inductive Derivation where
  | word (token : String)
  | node (head : String) (parts : List Derivation)
deriving Repr

namespace Derivation

theorem ind {motive : Derivation → Prop} (word : ∀ token, motive (.word token))
    (node : ∀ head parts, (∀ d ∈ parts, motive d) → motive (.node head parts)) : ∀ d, motive d
  | .word token => word token
  | .node head parts => node head parts fun d _ => ind word node d

mutual

protected def decEq : (d e : Derivation) → Decidable (d = e)
  | .word v, .word w =>
    if h : v = w then isTrue (by rw [h]) else isFalse fun e => h (by simpa using e)
  | .word _, .node _ _ => isFalse nofun
  | .node _ _, .word _ => isFalse nofun
  | .node g ds, .node h es =>
    if hg : g = h then
      match Derivation.decEqAll ds es with
      | isTrue hs => isTrue (by rw [hg, hs])
      | isFalse hs => isFalse fun e => hs (by simp at e; exact e.2)
    else isFalse fun e => hg (by simp at e; exact e.1)

/-- Parts shared by both sides are not looked into. -/
protected def decEqAll : (ds es : List Derivation) → Decidable (ds = es)
  | [], [] => isTrue rfl
  | [], _ :: _ => isFalse nofun
  | _ :: _, [] => isFalse nofun
  | d :: ds, e :: es =>
    match withPtrEqDecEq d e fun _ => Derivation.decEq d e with
    | isTrue h =>
      match Derivation.decEqAll ds es with
      | isTrue hs => isTrue (by rw [h, hs])
      | isFalse hs => isFalse fun e => hs (List.cons.inj e).2
    | isFalse h => isFalse fun e => h (List.cons.inj e).1

end

instance : DecidableEq Derivation := Derivation.decEq

/-- The symbol at the root. -/
def root : Derivation → Symbol
  | word token => .terminal token
  | node head _ => .nonterminal head

/-- The heads from the root down as long as nodes have one part, and the head of the node where
that ends. All of them cover the same tokens. -/
def chain : Derivation → List String
  | word _ => []
  | node head [part] => head :: part.chain
  | node head _ => [head]

@[simp] theorem chain_node_singleton (head : String) (d : Derivation) :
    (node head [d]).chain = head :: d.chain := rfl

mutual

/-- How many tokens are covered. -/
def width : Derivation → Nat
  | word _ => 1
  | node _ parts => widthAll parts

def widthAll : List Derivation → Nat
  | [] => 0
  | d :: ds => d.width + widthAll ds

end

mutual

/-- Nested brackets on one line. -/
def text : Derivation → String
  | word token => token
  | node head parts => "(" ++ head ++ textAll parts ++ ")"

def textAll : List Derivation → String
  | [] => ""
  | d :: ds => " " ++ d.text ++ textAll ds

end

instance : ToString Derivation := ⟨text⟩

mutual

/-- The tree of a derivation whose first token has this position, and the position after it. The
positions are not bounded here. -/
def placed (position : Nat) : Derivation → Tree × Nat
  | word token => (.leaf token ⟨position, position + 1⟩, position + 1)
  | node head parts =>
    let (children, stop) := placedAll position parts
    (.branch head ⟨position, stop⟩ children, stop)

def placedAll (position : Nat) : List Derivation → List Tree × Nat
  | [] => ([], position)
  | d :: ds =>
    let (tree, middle) := d.placed position
    let (trees, stop) := placedAll middle ds
    (tree :: trees, stop)

end

def toTree (d : Derivation) (start : Nat) : Tree := (d.placed start).1

/-- The next position, if it still fits in a machine word. -/
def next? (position : UInt64) : Option UInt64 :=
  if position.toNat + 1 < UInt64.size then some (position + 1) else none

mutual

/-- The same with a counter of machine size, which must not run over. -/
def placed? (position : UInt64) : Derivation → Option (Tree × UInt64)
  | word token => do
    let stop ← next? position
    return (.leaf token ⟨(stop - 1).toNat, stop.toNat⟩, stop)
  | node head parts => do
    let (children, stop) ← placedAll? position parts
    return (.branch head ⟨position.toNat, stop.toNat⟩ children, stop)

def placedAll? (position : UInt64) : List Derivation → Option (List Tree × UInt64)
  | [] => some ([], position)
  | d :: ds => do
    let (tree, middle) ← d.placed? position
    let (trees, stop) ← placedAll? middle ds
    return (tree :: trees, stop)

end

/-- The tree at a start of machine size, if all its positions are of that size. -/
def toTree? (d : Derivation) (start : UInt64) : Option Tree := (d.placed? start).map Prod.fst

end Derivation

end PhraseChart
