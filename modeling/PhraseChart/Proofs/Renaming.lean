import Mathlib.Data.Set.Function
import PhraseChart.Proofs.Agreement

namespace PhraseChart
open FirstOccurrences

/-- New names and new words for old ones. -/
structure Renaming where
  name : String → String
  word : String → String

namespace Renaming

def symbol (ρ : Renaming) : Symbol → Symbol
  | .terminal word => .terminal (ρ.word word)
  | .nonterminal name => .nonterminal (ρ.name name)

def rule (ρ : Renaming) (r : Rule) : Rule := ⟨ρ.name r.head, r.body.map ρ.symbol⟩

def grammar (ρ : Renaming) (g : Grammar) : Grammar := ⟨ρ.name g.start, g.rules.map ρ.rule⟩

mutual

def derivation (ρ : Renaming) : Derivation → Derivation
  | .word token => .word (ρ.word token)
  | .node head parts => .node (ρ.name head) (ρ.derivations parts)

def derivations (ρ : Renaming) : List Derivation → List Derivation
  | [] => []
  | d :: ds => ρ.derivation d :: ρ.derivations ds

end

def label (ρ : Renaming) (l : Label) : Label := ⟨ρ.symbol l.symbol, ρ.derivation l.derivation⟩

mutual

/-- The spans stay as they are. -/
def tree (ρ : Renaming) : Tree → Tree
  | .leaf word span => .leaf (ρ.word word) span
  | .branch name span children => .branch (ρ.name name) span (ρ.trees children)

def trees (ρ : Renaming) : List Tree → List Tree
  | [] => []
  | t :: ts => ρ.tree t :: ρ.trees ts

end

def verdict (ρ : Renaming) : Verdict → Verdict
  | .parsed tree labelCount analyses => .parsed (ρ.tree tree) labelCount analyses
  | .noParse => .noParse

end Renaming

/-- The name stands in the grammar: as the start symbol, as a head or in a body. -/
def Grammar.HasName (g : Grammar) (name : String) : Prop :=
  name = g.start ∨ ∃ r ∈ g.rules, r.head = name ∨ .nonterminal name ∈ r.body

def Grammar.HasWord (g : Grammar) (word : String) : Prop := ∃ r ∈ g.rules, .terminal word ∈ r.body

/-- The symbol stands in the grammar or among the tokens. -/
def Symbol.Known (g : Grammar) (tokens : List String) : Symbol → Prop
  | terminal word => g.HasWord word ∨ word ∈ tokens
  | nonterminal name => g.HasName name

namespace Renaming

/-- Different names of the grammar, and different words of the grammar or among the tokens, stay
different. -/
structure Faithful (ρ : Renaming) (g : Grammar) (tokens : List String) : Prop where
  name : Set.InjOn ρ.name {name | g.HasName name}
  word : Set.InjOn ρ.word {word | g.HasWord word ∨ word ∈ tokens}

/-- The old names and words come back from the new ones. -/
structure Undoes (σ ρ : Renaming) (g : Grammar) (tokens : List String) : Prop where
  name : ∀ name, g.HasName name → σ.name (ρ.name name) = name
  word : ∀ word, g.HasWord word ∨ word ∈ tokens → σ.word (ρ.word word) = word

theorem Faithful.exists_undoes {ρ : Renaming} {g : Grammar} {tokens : List String}
    (h : ρ.Faithful g tokens) : ∃ σ : Renaming, σ.Undoes ρ g tokens :=
  ⟨⟨Function.invFunOn ρ.name _, Function.invFunOn ρ.word _⟩,
    fun _ hname => h.name.leftInvOn_invFunOn hname, fun _ hword => h.word.leftInvOn_invFunOn hword⟩

section Shape

variable (ρ : Renaming)

theorem chain_derivation (d : Derivation) :
    (ρ.derivation d).chain = d.chain.map ρ.name := by
  induction d using Derivation.ind with
  | word token => rfl
  | node head parts ih =>
    match parts, ih with
    | [], _ => rfl
    | [d], ih => exact congrArg (ρ.name head :: ·) (ih d List.mem_cons_self)
    | _ :: _ :: _, _ => rfl

mutual

theorem width_derivation : ∀ d : Derivation, (ρ.derivation d).width = d.width
  | .word _ => rfl
  | .node _ parts => widthAll_derivations parts

theorem widthAll_derivations :
    ∀ ds : List Derivation, Derivation.widthAll (ρ.derivations ds) = Derivation.widthAll ds
  | [] => rfl
  | d :: ds => by
    rw [derivations, Derivation.widthAll, Derivation.widthAll, width_derivation d,
      widthAll_derivations ds]

end

mutual

theorem toTree_derivation (start : Nat) :
    ∀ d : Derivation, (ρ.derivation d).toTree start = ρ.tree (d.toTree start)
  | .word _ => rfl
  | .node head parts => by
    rw [derivation, Derivation.toTree_node, Derivation.toTree_node, tree, widthAll_derivations,
      toTrees_derivations start parts]

theorem toTrees_derivations (start : Nat) :
    ∀ ds : List Derivation, Derivation.toTrees (ρ.derivations ds) start =
      ρ.trees (Derivation.toTrees ds start)
  | [] => rfl
  | d :: ds => by
    rw [derivations, Derivation.toTrees_cons, Derivation.toTrees_cons, trees, width_derivation,
      toTree_derivation start d, toTrees_derivations _ ds]

end

theorem narrow_of_mem_grammar {g : Grammar} (hg : ∀ r ∈ g.rules, r.Narrow) :
    ∀ r ∈ (ρ.grammar g).rules, r.Narrow := by
  intro r' hr'
  obtain ⟨r, hr, rfl⟩ := List.mem_map.1 hr'
  simpa [Rule.Narrow, Rule.arity, rule] using hg r hr

end Shape

variable {g : Grammar} {tokens u : List String}

theorem hasName_head {head : String} {body : List Symbol} (h : ⟨head, body⟩ ∈ g.rules) :
    g.HasName head := .inr ⟨_, h, .inl rfl⟩

theorem known_of_mem_body {r : Rule} (hr : r ∈ g.rules) {x : Symbol} (hx : x ∈ r.body) :
    x.Known g tokens := by
  cases x with
  | terminal word => exact .inl ⟨r, hr, hx⟩
  | nonterminal name => exact .inr ⟨r, hr, .inr hx⟩

/-- A derivation that follows the rules is made of known symbols, if its tokens are. -/
theorem known_root {d : Derivation} (hf : d.Follows g.rules) (ht : d.tokens ⊆ tokens) :
    d.root.Known g tokens := by
  cases hf with
  | word token => exact .inr (ht List.mem_cons_self)
  | node here _ => exact hasName_head here

theorem hasName_of_mem_chain {d : Derivation} (hf : d.Follows g.rules) (ha : d.Acyclic)
    {head : String} (hd : head ∈ d.chain) : g.HasName head := by
  obtain ⟨e, hroot, -, he, -⟩ := Derivation.exists_root_of_mem_chain hd hf ha
  have hknown : e.root.Known g e.tokens := known_root he (List.Subset.refl _)
  rw [hroot] at hknown
  exact hknown

namespace Undoes

variable {σ ρ : Renaming}

mutual

theorem derivation (h : σ.Undoes ρ g tokens) : ∀ d : Derivation, d.Follows g.rules →
    d.tokens ⊆ tokens → σ.derivation (ρ.derivation d) = d
  | .word token, _, ht => congrArg Derivation.word (h.word token (.inr (ht List.mem_cons_self)))
  | .node head parts, hf, ht => by
    obtain ⟨here, below⟩ := Derivation.everywhere_node_iff.1 hf
    rw [Renaming.derivation, Renaming.derivation, h.name head (hasName_head here),
      h.derivations parts below ht]

theorem derivations (h : σ.Undoes ρ g tokens) : ∀ ds : List Derivation,
    (∀ d ∈ ds, d.Follows g.rules) → Derivation.tokensAll ds ⊆ tokens →
      σ.derivations (ρ.derivations ds) = ds
  | [], _, _ => rfl
  | d :: ds, hf, ht => by
    obtain ⟨hd, hds⟩ := List.append_subset.1 ht
    rw [Renaming.derivations, Renaming.derivations,
      h.derivation d (hf d List.mem_cons_self) hd,
      h.derivations ds (fun e he => hf e (List.mem_cons_of_mem _ he)) hds]

end

variable (h : σ.Undoes ρ g tokens)
include h

theorem symbol {x : Symbol} (hx : x.Known g tokens) : σ.symbol (ρ.symbol x) = x := by
  cases x with
  | terminal word => exact congrArg Symbol.terminal (h.word word hx)
  | nonterminal name => exact congrArg Symbol.nonterminal (h.name name hx)

theorem symbol_inj {x y : Symbol} (hx : x.Known g tokens) (hy : y.Known g tokens)
    (he : ρ.symbol x = ρ.symbol y) : x = y := by
  rw [← h.symbol hx, he, h.symbol hy]

theorem name_inj {m n : String} (hm : g.HasName m) (hn : g.HasName n)
    (he : ρ.name m = ρ.name n) : m = n := by
  rw [← h.name m hm, he, h.name n hn]

theorem map_symbol {xs : List Symbol} (hxs : ∀ x ∈ xs, x.Known g tokens) :
    (xs.map ρ.symbol).map σ.symbol = xs := by
  rw [List.map_map]
  exact (List.map_congr_left fun x hx => h.symbol (hxs x hx)).trans (List.map_id xs)

end Undoes

end Renaming

end PhraseChart
