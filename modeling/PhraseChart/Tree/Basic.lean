import PhraseChart.Span

namespace PhraseChart

/-- A parse tree whose leaves hold words and whose branches hold names, each with the stretch of
tokens it covers. -/
inductive Tree where
  | leaf (word : String) (span : Span)
  | branch (name : String) (span : Span) (children : List Tree)
deriving Repr

namespace Tree

theorem ind {motive : Tree → Prop} (leaf : ∀ word span, motive (.leaf word span))
    (branch : ∀ name span children, (∀ c ∈ children, motive c) →
      motive (.branch name span children)) : ∀ t, motive t
  | .leaf word span => leaf word span
  | .branch name span children => branch name span children fun c _ => ind leaf branch c

mutual

protected def decEq : (s t : Tree) → Decidable (s = t)
  | .leaf v i, .leaf w j =>
    if h : v = w ∧ i = j then isTrue (by rw [h.1, h.2])
    else isFalse fun e => h (by simpa using e)
  | .leaf _ _, .branch _ _ _ => isFalse nofun
  | .branch _ _ _, .leaf _ _ => isFalse nofun
  | .branch m i cs, .branch n j ds =>
    if h : m = n ∧ i = j then
      match Tree.decEqAll cs ds with
      | isTrue hc => isTrue (by rw [h.1, h.2, hc])
      | isFalse hc => isFalse fun e => hc (by simp at e; exact e.2.2)
    else isFalse fun e => h (by simp at e; exact ⟨e.1, e.2.1⟩)

protected def decEqAll : (ss ts : List Tree) → Decidable (ss = ts)
  | [], [] => isTrue rfl
  | [], _ :: _ => isFalse nofun
  | _ :: _, [] => isFalse nofun
  | s :: ss, t :: ts =>
    match Tree.decEq s t with
    | isTrue h =>
      match Tree.decEqAll ss ts with
      | isTrue hs => isTrue (by rw [h, hs])
      | isFalse hs => isFalse fun e => hs (List.cons.inj e).2
    | isFalse h => isFalse fun e => h (List.cons.inj e).1

end

instance : DecidableEq Tree := Tree.decEq

def span : Tree → Span
  | leaf _ span => span
  | branch _ span _ => span

def isLeaf : Tree → Bool
  | leaf _ _ => true
  | branch _ _ _ => false

mutual

/-- The words at the leaves, left to right. -/
def leaves : Tree → List String
  | leaf word _ => [word]
  | branch _ _ children => leavesAll children

def leavesAll : List Tree → List String
  | [] => []
  | t :: ts => t.leaves ++ leavesAll ts

end

mutual

/-- The first branch with this name, looked for from the root down and from left to right. -/
def findBranch (wanted : String) : Tree → Option Tree
  | leaf _ _ => none
  | branch name span children =>
    if name = wanted then some (branch name span children) else findAmong wanted children

def findAmong (wanted : String) : List Tree → Option Tree
  | [] => none
  | t :: ts => (t.findBranch wanted).or (findAmong wanted ts)

end

end Tree

end PhraseChart
