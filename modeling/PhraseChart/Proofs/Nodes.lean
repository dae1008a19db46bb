import PhraseChart.Proofs.Placement

namespace PhraseChart

namespace Span

/-- The spans follow one another without gap or overlap between these positions. -/
def Tile (start : Nat) : List Span → Nat → Prop
  | [], stop => start = stop
  | s :: rest, stop => s.start = start ∧ s.start ≤ s.stop ∧ Tile s.stop rest stop

def shift (s : Span) (distance : Nat) : Span := ⟨s.start + distance, s.stop + distance⟩

end Span

namespace Tree

def children : Tree → List Tree
  | leaf _ _ => []
  | branch _ _ children => children

/-- The node that is reached by this way down. -/
def at? (t : Tree) : List Nat → Option Tree
  | [] => some t
  | n :: path => t.children[n]?.bind fun child => child.at? path

mutual

/-- The leaves from left to right, each word with its span. -/
def words : Tree → List (String × Span)
  | leaf word span => [(word, span)]
  | branch _ _ children => wordsAll children

def wordsAll : List Tree → List (String × Span)
  | [] => []
  | t :: ts => t.words ++ wordsAll ts

end

mutual

/-- The tree with every span moved on by the distance. -/
def shift (distance : Nat) : Tree → Tree
  | leaf word span => .leaf word (span.shift distance)
  | branch name span children => .branch name (span.shift distance) (shiftAll distance children)

def shiftAll (distance : Nat) : List Tree → List Tree
  | [] => []
  | t :: ts => t.shift distance :: shiftAll distance ts

end

end Tree

namespace Derivation

def parts : Derivation → List Derivation
  | word _ => []
  | node _ parts => parts

/-- The part that is reached by this way down. -/
def at? (d : Derivation) : List Nat → Option Derivation
  | [] => some d
  | n :: path => d.parts[n]?.bind fun part => part.at? path

theorem at?_cons_of_part {d e : Derivation} {n : Nat} (path : List Nat) (h : d.parts[n]? = some e) :
    d.at? (n :: path) = e.at? path := by
  rw [at?, h, Option.bind_some]

theorem children_toTree (d : Derivation) (start : Nat) :
    (d.toTree start).children = toTrees d.parts start := by
  cases d with
  | word token => rfl
  | node head parts =>
    rw [toTree_node]
    rfl

theorem getElem?_toTrees (ds : List Derivation) (start n : Nat) :
    (toTrees ds start)[n]? = ds[n]?.map fun d => d.toTree (start + widthAll (ds.take n)) := by
  induction ds generalizing start n with
  | nil => simp [toTrees_nil]
  | cons d ds ih =>
    rw [toTrees_cons]
    cases n with
    | zero => rfl
    | succ n =>
      rw [List.getElem?_cons_succ, List.getElem?_cons_succ, ih, List.take_succ_cons, widthAll,
        Nat.add_assoc]

/-- A step down in the tree of a derivation leads to the tree of a part, behind the parts to the
left of it. -/
theorem at?_toTree_cons {d : Derivation} {start n : Nat} {path : List Nat} {t : Tree}
    (h : (d.toTree start).at? (n :: path) = some t) :
    ∃ e, d.parts[n]? = some e ∧
      (e.toTree (start + widthAll (d.parts.take n))).at? path = some t := by
  rw [Tree.at?, children_toTree, getElem?_toTrees] at h
  cases hpart : d.parts[n]? with
  | none => simp [hpart] at h
  | some e => exact ⟨e, rfl, by simpa [hpart] using h⟩

/-- Below every node stands the tree of a part. -/
theorem exists_eq_toTree_of_at? {d : Derivation} {start : Nat} {path : List Nat} {t : Tree}
    (h : (d.toTree start).at? path = some t) :
    ∃ e k, d.at? path = some e ∧ t = e.toTree k := by
  induction path generalizing d start with
  | nil => exact ⟨d, start, rfl, (Option.some.inj h).symm⟩
  | cons n path ih =>
    obtain ⟨e, hpart, h⟩ := at?_toTree_cons h
    obtain ⟨e', k, hat, ht⟩ := ih h
    exact ⟨e', k, (at?_cons_of_part path hpart).trans hat, ht⟩

theorem tile_toTrees (ds : List Derivation) (start : Nat) :
    Span.Tile start ((toTrees ds start).map Tree.span) (start + widthAll ds) := by
  induction ds generalizing start with
  | nil => rfl
  | cons d ds ih =>
    rw [toTrees_cons, List.map_cons, span_toTree, widthAll, ← Nat.add_assoc]
    exact ⟨rfl, Nat.le_add_right _ _, ih _⟩

/-- The children of a branch share out its span. -/
theorem tile_of_at? {d : Derivation} {start : Nat} {path : List Nat} {name : String} {span : Span}
    {children : List Tree} (h : (d.toTree start).at? path = some (.branch name span children)) :
    Span.Tile span.start (children.map Tree.span) span.stop := by
  obtain ⟨e, k, -, he⟩ := exists_eq_toTree_of_at? h
  cases e with
  | word token => cases he
  | node head parts =>
    rw [toTree_node, Tree.branch.injEq] at he
    obtain ⟨-, rfl, rfl⟩ := he
    exact tile_toTrees parts k

mutual

theorem words_toTree (start : Nat) : ∀ d : Derivation,
    (d.toTree start).words = (d.tokens.zipIdx start).map fun t => (t.1, ⟨t.2, t.2 + 1⟩)
  | word _ => rfl
  | node head parts => by
    rw [toTree_node, Tree.words, wordsAll_toTrees start parts, tokens]

theorem wordsAll_toTrees (start : Nat) : ∀ ds : List Derivation,
    Tree.wordsAll (toTrees ds start) =
      ((tokensAll ds).zipIdx start).map fun t => (t.1, ⟨t.2, t.2 + 1⟩)
  | [] => rfl
  | d :: ds => by
    rw [toTrees_cons, Tree.wordsAll, words_toTree start d, wordsAll_toTrees _ ds, tokensAll,
      List.zipIdx_append, List.map_append, length_tokens]

end

mutual

theorem toTree_add (start distance : Nat) : ∀ d : Derivation,
    d.toTree (start + distance) = (d.toTree start).shift distance
  | word _ => by
    rw [toTree, placed, toTree, placed, Tree.shift, Span.shift, Nat.add_right_comm]
  | node head parts => by
    rw [toTree_node, toTree_node, Tree.shift, toTrees_add start distance parts, Span.shift,
      Nat.add_right_comm]

theorem toTrees_add (start distance : Nat) : ∀ ds : List Derivation,
    toTrees ds (start + distance) = Tree.shiftAll distance (toTrees ds start)
  | [] => rfl
  | d :: ds => by
    rw [toTrees_cons, toTrees_cons, Tree.shiftAll, toTree_add start distance d,
      Nat.add_right_comm, toTrees_add _ distance ds]

end

/-- There is a tree as long as its positions fit in a machine word. It covers as many positions as
the derivation has tokens. The children of each branch share out its span, the leaves are the tokens
with one position each, and the brackets are those of the derivation. Another start moves the spans
and nothing else, and no other derivation has this tree. -/
theorem toTree_lays_out (d : Derivation) (start : UInt64) :
    (d.toTree? start = none ↔ UInt64.size ≤ start.toNat + d.width) ∧
    (start.toNat + d.width < UInt64.size → ∃ tree, d.toTree? start = some tree ∧
      tree.span = ⟨start.toNat, start.toNat + d.width⟩ ∧
      (∀ path name span children, tree.at? path = some (.branch name span children) →
        Span.Tile span.start (children.map Tree.span) span.stop) ∧
      tree.leaves = d.tokens ∧
      (∀ i, tree.words[i]? = d.tokens[i]?.map fun token =>
        (token, Span.mk (start.toNat + i) (start.toNat + i + 1))) ∧
      tree.bracketed = d.text ∧
      (∀ distance : UInt64, start.toNat + distance.toNat + d.width < UInt64.size →
        d.toTree? (start + distance) = some (tree.shift distance.toNat)) ∧
      ∀ e : Derivation, e.toTree? start = some tree → d = e) := by
  rw [toTree?_eq]
  refine ⟨?_, fun h => ⟨d.toTree start.toNat, if_pos h, span_toTree d _,
    fun _ _ _ _ => tile_of_at?, leaves_toTree _ d, fun i => ?_, bracketed_toTree _ d,
    fun distance hdistance => ?_, fun e he => ?_⟩⟩
  · rw [ite_eq_right_iff, imp_iff_not (Option.some_ne_none _)]
    exact Nat.not_lt
  · rw [words_toTree, List.getElem?_map, List.getElem?_zipIdx, Option.map_map]
    rfl
  · have hsum : (start + distance).toNat = start.toNat + distance.toNat := by
      rw [UInt64.toNat_add]
      exact Nat.mod_eq_of_lt (Nat.lt_of_le_of_lt (Nat.le_add_right _ _) hdistance)
    rw [toTree?_eq, hsum, if_pos hdistance, toTree_add]
  · rw [toTree?_eq] at he
    split at he
    · exact toTree_injective _ (Option.some.inj he).symm
    · cases he

/-- Parts of different sizes, with one that has no token. -/
def uneven : Derivation :=
  .node "S" [.node "E" [], .node "N" [.word "a", .word "b"], .node "U" [.node "V" [.word "c"]]]

/-- Its three tokens may have the last positions that there are, and none behind these. -/
theorem toTree_lays_out_uneven :
    uneven.toTree? 3 = some (.branch "S" ⟨3, 6⟩ [.branch "E" ⟨3, 3⟩ [],
        .branch "N" ⟨3, 5⟩ [.leaf "a" ⟨3, 4⟩, .leaf "b" ⟨4, 5⟩],
        .branch "U" ⟨5, 6⟩ [.branch "V" ⟨5, 6⟩ [.leaf "c" ⟨5, 6⟩]]]) ∧
      Span.Tile 3 [⟨3, 3⟩, ⟨3, 5⟩, ⟨5, 6⟩] 6 ∧ Span.Tile 3 [] 3 ∧
      (Derivation.node "S" uneven.parts.reverse).toTree? 3 ≠ uneven.toTree? 3 ∧
      (∃ tree, uneven.toTree? 0xfffffffffffffffc = some tree ∧
        tree.span = ⟨0xfffffffffffffffc, 0xffffffffffffffff⟩) ∧
      uneven.toTree? 0xfffffffffffffffd = none := by
  have hfirst : (3 : UInt64).toNat + uneven.width < UInt64.size := by decide
  have hlast : (0xfffffffffffffffc : UInt64).toNat + uneven.width < UInt64.size := by decide
  have hbehind : UInt64.size ≤ (0xfffffffffffffffd : UInt64).toNat + uneven.width := by decide
  have htree : uneven.toTree? 3 = some (.branch "S" ⟨3, 6⟩ [.branch "E" ⟨3, 3⟩ [],
      .branch "N" ⟨3, 5⟩ [.leaf "a" ⟨3, 4⟩, .leaf "b" ⟨4, 5⟩],
      .branch "U" ⟨5, 6⟩ [.branch "V" ⟨5, 6⟩ [.leaf "c" ⟨5, 6⟩]]]) := by decide
  obtain ⟨tree, hsome, -, htile, -, -, -, -, hinj⟩ := (toTree_lays_out uneven 3).2 hfirst
  obtain rfl := Option.some.inj (hsome.symm.trans htree)
  refine ⟨htree, htile [] _ _ _ rfl, htile [0] _ _ _ rfl, fun h => ?_, ?_,
    (toTree_lays_out uneven _).1.2 hbehind⟩
  · exact absurd (hinj _ (h.trans htree)) (by decide)
  · obtain ⟨tree, hsome, hspan, -⟩ := (toTree_lays_out uneven _).2 hlast
    exact ⟨tree, hsome, hspan⟩

end Derivation

end PhraseChart
