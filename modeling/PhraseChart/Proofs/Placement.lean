import PhraseChart.Proofs.Derivations

namespace PhraseChart

namespace Tree

/-- The symbol at the root: the word of a leaf, the name of a branch. -/
def root : Tree → Symbol
  | leaf word _ => .terminal word
  | branch name _ _ => .nonterminal name

mutual

/-- The derivation that is left when the spans are dropped. -/
def derivation : Tree → Derivation
  | leaf word _ => .word word
  | branch name _ children => .node name (derivations children)

def derivations : List Tree → List Derivation
  | [] => []
  | t :: ts => t.derivation :: derivations ts

end

/-- The condition holds at every branch; it reads the name and the children of the branch. -/
inductive Everywhere (P : String → List Tree → Prop) : Tree → Prop
  | leaf (word : String) (span : Span) : Everywhere P (leaf word span)
  | branch {name : String} {span : Span} {children : List Tree} (here : P name children)
      (below : ∀ t ∈ children, Everywhere P t) : Everywhere P (branch name span children)

end Tree

namespace Derivation

/-- The trees of derivations whose tokens follow one another. -/
def toTrees (ds : List Derivation) (start : Nat) : List Tree := (placedAll start ds).1

mutual

theorem placed_snd (start : Nat) : ∀ d : Derivation, (d.placed start).2 = start + d.width
  | word _ => rfl
  | node _ parts => placedAll_snd start parts

theorem placedAll_snd (start : Nat) :
    ∀ ds : List Derivation, (placedAll start ds).2 = start + widthAll ds
  | [] => rfl
  | d :: ds => by
    rw [widthAll, ← Nat.add_assoc, ← placed_snd start d, ← placedAll_snd _ ds]
    rfl

end

theorem toTree_node (head : String) (parts : List Derivation) (start : Nat) :
    (node head parts).toTree start =
      .branch head ⟨start, start + widthAll parts⟩ (toTrees parts start) := by
  rw [← placedAll_snd]
  rfl

theorem toTrees_nil (start : Nat) : toTrees [] start = [] := rfl

theorem toTrees_cons (d : Derivation) (ds : List Derivation) (start : Nat) :
    toTrees (d :: ds) start = d.toTree start :: toTrees ds (start + d.width) := by
  rw [← placed_snd]
  rfl

theorem toNat_of_next? {position next : UInt64} (h : next? position = some next) :
    next.toNat = position.toNat + 1 := by
  unfold next? at h
  split at h
  · rename_i hsize
    rw [← Option.some.inj h, UInt64.toNat_add, UInt64.toNat_one]
    exact Nat.mod_eq_of_lt hsize
  · cases h

mutual

/-- Positions that fit in a machine word are counted as they are without a bound. -/
theorem placed?_eq_some (start : UInt64) : ∀ d : Derivation,
    start.toNat + d.width < UInt64.size →
      ∃ stop, d.placed? start = some (d.toTree start.toNat, stop) ∧
        stop.toNat = start.toNat + d.width
  | word token, h => by
    have hnext : next? start = some (start + 1) := if_pos h
    have hstop := toNat_of_next? hnext
    have hback : start + 1 - 1 = start := UInt64.add_sub_cancel start 1
    refine ⟨start + 1, ?_, hstop⟩
    rw [placed?, hnext, toTree, placed, ← hstop, Option.bind_eq_bind, Option.bind_some, hback]
    rfl
  | node head parts, h => by
    obtain ⟨stop, hparts, hstop⟩ := placedAll?_eq_some start parts h
    refine ⟨stop, ?_, hstop⟩
    rw [placed?, hparts, toTree_node, ← hstop]
    rfl

theorem placedAll?_eq_some (start : UInt64) : ∀ ds : List Derivation,
    start.toNat + widthAll ds < UInt64.size →
      ∃ stop, placedAll? start ds = some (toTrees ds start.toNat, stop) ∧
        stop.toNat = start.toNat + widthAll ds
  | [], _ => ⟨start, rfl, rfl⟩
  | d :: ds, h => by
    rw [widthAll, ← Nat.add_assoc] at h
    obtain ⟨middle, hfirst, hmiddle⟩ :=
      placed?_eq_some start d (Nat.lt_of_le_of_lt (Nat.le_add_right _ _) h)
    rw [← hmiddle] at h
    obtain ⟨stop, hrest, hstop⟩ := placedAll?_eq_some middle ds h
    refine ⟨stop, ?_, ?_⟩
    · rw [placedAll?, hfirst, Option.bind_eq_bind, Option.bind_some]
      dsimp only
      rw [hrest, toTrees_cons, hmiddle]
      rfl
    · rw [hstop, hmiddle, widthAll, Nat.add_assoc]

end

mutual

/-- The counter runs over as soon as one position does not fit. -/
theorem placed?_eq_none (start : UInt64) : ∀ d : Derivation,
    UInt64.size ≤ start.toNat + d.width → d.placed? start = none
  | word token, h => by
    have hnext : next? start = none := if_neg (Nat.not_lt.2 h)
    rw [placed?, hnext]
    rfl
  | node head parts, h => by
    rw [placed?, placedAll?_eq_none start parts h]
    rfl

theorem placedAll?_eq_none (start : UInt64) : ∀ ds : List Derivation,
    UInt64.size ≤ start.toNat + widthAll ds → placedAll? start ds = none
  | [], h => absurd start.toNat_lt_size (Nat.not_lt.2 h)
  | d :: ds, h => by
    rw [widthAll, ← Nat.add_assoc] at h
    rw [placedAll?]
    by_cases hfits : start.toNat + d.width < UInt64.size
    · obtain ⟨middle, hfirst, hmiddle⟩ := placed?_eq_some start d hfits
      rw [← hmiddle] at h
      rw [hfirst, Option.bind_eq_bind, Option.bind_some]
      dsimp only
      rw [placedAll?_eq_none middle ds h]
      rfl
    · rw [placed?_eq_none start d (Nat.not_lt.1 hfits)]
      rfl

end

theorem toTree?_eq (d : Derivation) (start : UInt64) :
    d.toTree? start =
      if start.toNat + d.width < UInt64.size then some (d.toTree start.toNat) else none := by
  unfold toTree?
  split
  · rename_i h
    obtain ⟨stop, hplaced, -⟩ := placed?_eq_some start d h
    rw [hplaced]
    rfl
  · rename_i h
    rw [placed?_eq_none start d (Nat.not_lt.1 h)]
    rfl

theorem span_toTree (d : Derivation) (start : Nat) :
    (d.toTree start).span = ⟨start, start + d.width⟩ := by
  cases d with
  | word token => rfl
  | node head parts =>
    rw [toTree_node]
    rfl

theorem root_toTree (d : Derivation) (start : Nat) : (d.toTree start).root = d.root := by
  cases d with
  | word token => rfl
  | node head parts =>
    rw [toTree_node]
    rfl

theorem map_root_toTrees (ds : List Derivation) (start : Nat) :
    (toTrees ds start).map Tree.root = ds.map root := by
  induction ds generalizing start with
  | nil => rfl
  | cons d ds ih => rw [toTrees_cons, List.map_cons, List.map_cons, root_toTree, ih]

theorem length_toTrees (ds : List Derivation) (start : Nat) :
    (toTrees ds start).length = ds.length := by
  have h := congrArg List.length (map_root_toTrees ds start)
  rwa [List.length_map, List.length_map] at h

theorem mem_toTrees {ds : List Derivation} {start : Nat} {t : Tree} (h : t ∈ toTrees ds start) :
    ∃ d ∈ ds, ∃ k, t = d.toTree k := by
  induction ds generalizing start with
  | nil => simp [toTrees_nil] at h
  | cons d ds ih =>
    rw [toTrees_cons, List.mem_cons] at h
    rcases h with rfl | h
    · exact ⟨d, List.mem_cons_self, start, rfl⟩
    · obtain ⟨e, he, k, rfl⟩ := ih h
      exact ⟨e, List.mem_cons_of_mem _ he, k, rfl⟩

mutual

theorem length_tokens : ∀ d : Derivation, d.tokens.length = d.width
  | word _ => rfl
  | node _ parts => length_tokensAll parts

theorem length_tokensAll : ∀ ds : List Derivation, (tokensAll ds).length = widthAll ds
  | [] => rfl
  | d :: ds => by
    rw [tokensAll, List.length_append, length_tokens d, length_tokensAll ds, widthAll]

end

mutual

theorem leaves_toTree (start : Nat) : ∀ d : Derivation, (d.toTree start).leaves = d.tokens
  | word _ => rfl
  | node head parts => by
    rw [toTree_node]
    exact leavesAll_toTrees start parts

theorem leavesAll_toTrees (start : Nat) :
    ∀ ds : List Derivation, Tree.leavesAll (toTrees ds start) = tokensAll ds
  | [] => rfl
  | d :: ds => by
    rw [toTrees_cons, Tree.leavesAll, leaves_toTree start d, leavesAll_toTrees _ ds, tokensAll]

end

mutual

/-- The brackets of a tree are those of the derivation, wherever it starts. -/
theorem bracketed_toTree (start : Nat) : ∀ d : Derivation, (d.toTree start).bracketed = d.text
  | word _ => rfl
  | node head parts => by
    rw [toTree_node, Tree.bracketed, bracketedAll_toTrees start parts, text]

theorem bracketedAll_toTrees (start : Nat) :
    ∀ ds : List Derivation, Tree.bracketedAll (toTrees ds start) = textAll ds
  | [] => rfl
  | d :: ds => by
    rw [toTrees_cons, Tree.bracketedAll, bracketed_toTree start d, bracketedAll_toTrees _ ds,
      textAll]

end

mutual

theorem derivation_toTree (start : Nat) : ∀ d : Derivation, (d.toTree start).derivation = d
  | word _ => rfl
  | node head parts => by
    rw [toTree_node, Tree.derivation, derivations_toTrees start parts]

theorem derivations_toTrees (start : Nat) :
    ∀ ds : List Derivation, Tree.derivations (toTrees ds start) = ds
  | [] => rfl
  | d :: ds => by
    rw [toTrees_cons, Tree.derivations, derivation_toTree start d, derivations_toTrees _ ds]

end

theorem toTree_injective (start : Nat) : Function.Injective fun d : Derivation => d.toTree start :=
  Function.LeftInverse.injective (g := Tree.derivation) (derivation_toTree start)

/-- What holds at the nodes of a derivation holds at the branches of its tree. -/
theorem Everywhere.toTree {P : String → List Derivation → Prop} {Q : String → List Tree → Prop}
    (hpq : ∀ head parts start, P head parts → Q head (toTrees parts start)) {d : Derivation}
    (h : d.Everywhere P) (start : Nat) : (d.toTree start).Everywhere Q := by
  induction h generalizing start with
  | word token => exact .leaf token _
  | node here _ ih =>
    rw [toTree_node]
    refine .branch (hpq _ _ _ here) fun t ht => ?_
    obtain ⟨d, hd, k, rfl⟩ := mem_toTrees ht
    exact ih d hd k

end Derivation

end PhraseChart
