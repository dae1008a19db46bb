import Mathlib.Data.Finset.Card
import Mathlib.Data.Finset.Union
import PhraseChart.Proofs.Enumeration

namespace PhraseChart

namespace Index

/-- The heads of the unary rules. -/
def unaryHeads (ix : Index) : Finset String :=
  (ix.unary.entries.map Prod.fst).toFinset.biUnion fun x => (ix.unaryParents x).toFinset

theorem mem_unaryHeads {ix : Index} {p : String} :
    p ∈ ix.unaryHeads ↔ ∃ x, p ∈ ix.unaryParents x := by
  simp only [unaryHeads, Finset.mem_biUnion, List.mem_toFinset]
  constructor
  · rintro ⟨x, -, hp⟩
    exact ⟨x, hp⟩
  · rintro ⟨x, hp⟩
    refine ⟨x, ?_, hp⟩
    -- a symbol that is no key has no parents
    by_contra hx
    have hnone : ix.unary.entries.lookup x = none := by
      rw [List.lookup_eq_none_iff]
      intro e he
      have hne : x ≠ e.1 := by
        rintro rfl
        exact hx (List.mem_map_of_mem he)
      simpa using hne
    simp [unaryParents, ParentTable.parents, hnone] at hp

/-- The heads can be put on a symbol one after the other by unary rules. -/
def Climbs (ix : Index) : Symbol → List String → Prop
  | _, [] => True
  | x, p :: ps => p ∈ ix.unaryParents x ∧ ix.Climbs (.nonterminal p) ps

end Index

/-- The label under these heads, the first of them next to it. -/
def Label.under (l : Label) (heads : List String) : Label :=
  heads.foldl (fun m p => .ofRule p [m.derivation]) l

theorem Derivation.card_sdiff_chain_lt {heads : Finset String} {p : String} {d : Derivation}
    (hp : p ∈ heads) (hc : p ∉ d.chain) :
    (heads \ (node p [d]).chain.toFinset).card < (heads \ d.chain.toFinset).card := by
  rw [chain_node_singleton, List.toFinset_cons, Finset.sdiff_insert]
  apply Finset.card_erase_lt_of_mem
  rw [Finset.mem_sdiff, List.mem_toFinset]
  exact ⟨hp, hc⟩

namespace Index

variable {ix : Index} {l m : Label} {p : String} {heads : List String}

/-- Unary rules put the heads on the label without repeating any, nor one that is on its chain. -/
structure Ascent (ix : Index) (l : Label) (heads : List String) : Prop where
  climbs : ix.Climbs l.symbol heads
  nodup : heads.Nodup
  off_chain : ∀ p ∈ heads, p ∉ l.derivation.chain

theorem Ascent.nil (ix : Index) (l : Label) : ix.Ascent l [] :=
  ⟨trivial, List.nodup_nil, fun _ hp => absurd hp List.not_mem_nil⟩

theorem ascent_cons_iff : ix.Ascent l (p :: heads) ↔
    (p ∈ ix.unaryParents l.symbol ∧ p ∉ l.derivation.chain) ∧
      ix.Ascent (.ofRule p [l.derivation]) heads := by
  have hchain : (Label.ofRule p [l.derivation]).derivation.chain = p :: l.derivation.chain := rfl
  constructor
  · rintro ⟨⟨hp, hclimbs⟩, hnodup, hoff⟩
    obtain ⟨hnew, hnodup⟩ := List.nodup_cons.1 hnodup
    obtain ⟨hc, hoff⟩ := List.forall_mem_cons.1 hoff
    refine ⟨⟨hp, hc⟩, hclimbs, hnodup, fun q hq => ?_⟩
    rw [hchain, List.mem_cons, not_or]
    exact ⟨fun e => hnew (e ▸ hq), hoff q hq⟩
  · rintro ⟨⟨hp, hc⟩, hclimbs, hnodup, hoff⟩
    simp only [hchain, List.mem_cons, not_or] at hoff
    refine ⟨⟨hp, hclimbs⟩, List.nodup_cons.2 ⟨fun h => (hoff p h).1 rfl, hnodup⟩, ?_⟩
    exact List.forall_mem_cons.2 ⟨hc, fun q hq => (hoff q hq).2⟩

/-- The closure of a label has the label under all heads that lead up from it. -/
theorem mem_closure_iff_under :
    m ∈ ix.closure l ↔ ∃ heads, ix.Ascent l heads ∧ m = l.under heads := by
  constructor
  · intro h
    induction mem_closure_iff.1 h using Relation.ReflTransGen.head_induction_on with
    | refl => exact ⟨[], .nil ix m, rfl⟩
    | head hw hm ih =>
      obtain ⟨p, hp, hc, rfl⟩ := mem_wraps.1 hw
      obtain ⟨heads, hheads, hunder⟩ := ih (mem_closure_iff.2 hm)
      exact ⟨p :: heads, ascent_cons_iff.2 ⟨⟨hp, hc⟩, hheads⟩, hunder⟩
  · rintro ⟨heads, hheads, rfl⟩
    induction heads generalizing l with
    | nil => exact self_mem_closure ix l
    | cons p heads ih =>
      obtain ⟨⟨hp, hc⟩, hheads⟩ := ascent_cons_iff.1 hheads
      exact closure_subset_closure
        (mem_closure_iff.2 (.single (mem_wraps.2 ⟨p, hp, hc, rfl⟩))) (ih hheads)

end Index

namespace Cell

variable {ix : Index}

/-- A change that appends labels of this kind. -/
def Gains (kind : Label → Prop) (c c' : Cell) : Prop :=
  ∃ new, c'.labels = c.labels ++ new ∧ ∀ m ∈ new, kind m

theorem Gains.of_labels_eq {kind : Label → Prop} {c c' : Cell} (h : c'.labels = c.labels) :
    Gains kind c c' := ⟨[], by simp [h]⟩

theorem Gains.foldl {β : Type} {kind : Label → Prop} {f : Cell → β → Cell} {bs : List β}
    (h : ∀ b ∈ bs, ∀ c, Gains kind c (f c b)) (c : Cell) : Gains kind c (bs.foldl f c) := by
  induction bs generalizing c with
  | nil => exact .of_labels_eq rfl
  | cons b bs ih =>
    obtain ⟨new, hnew, hkind⟩ := h b List.mem_cons_self c
    obtain ⟨new', hnew', hkind'⟩ := ih (fun d hd => h d (List.mem_cons_of_mem _ hd)) (f c b)
    refine ⟨new ++ new', ?_, List.forall_mem_append.2 ⟨hkind, hkind'⟩⟩
    rw [List.foldl_cons, hnew', hnew, List.append_assoc]

/-- After a new label come only labels that unary rules make of it. -/
theorem gains_add (ix : Index) {c : Cell} {l : Label} (h : l ∉ c) :
    Gains (fun m => ∃ w ∈ ix.wraps l, m ∈ ix.closure w) (c.push l) (c.add ix l) := by
  rw [add_of_not_mem h]
  apply Gains.foldl
  intro p hp d
  by_cases hc : p ∈ l.derivation.chain
  · rw [addParent, if_pos hc]
    exact .of_labels_eq rfl
  · rw [addParent, if_neg hc]
    have hw : Label.ofRule p [l.derivation] ∈ ix.wraps l := Index.mem_wraps.2 ⟨p, hp, hc, rfl⟩
    by_cases hm : Label.ofRule p [l.derivation] ∈ d.note (.unary p l.symbol)
    · rw [add_of_mem hm]
      exact .of_labels_eq rfl
    · obtain ⟨more, hmore, hkind⟩ := gains_add ix hm
      refine ⟨.ofRule p [l.derivation] :: more, by simpa using hmore, ?_⟩
      rw [List.forall_mem_cons]
      refine ⟨⟨_, hw, Index.self_mem_closure _ _⟩, fun m hin => ⟨_, hw, ?_⟩⟩
      obtain ⟨w, hwraps, hclosure⟩ := hkind m hin
      exact Index.closure_subset_closure (Index.mem_closure_iff.2 (.single hwraps)) hclosure
termination_by (ix.openHeads l.derivation).length
decreasing_by exact Index.length_openHeads_lt hp hc

end Cell

/-- A cell with the set of all labels it has seen; the set is asked whether a label is new. -/
structure MarkedCell where
  cell : Cell
  seen : Finset Label
deriving DecidableEq

namespace MarkedCell

def push (c : MarkedCell) (l : Label) : MarkedCell := ⟨c.cell.push l, insert l c.seen⟩

def note (c : MarkedCell) (s : Step) : MarkedCell := ⟨c.cell.note s, c.seen⟩

/-- Adds a label with room for this many calls inside one another, the first one counted; there is
no result when a further call would be needed. -/
def addWithin (ix : Index) : Nat → MarkedCell → Label → Option MarkedCell
  | 0, _, _ => none
  | depth + 1, c, l =>
    if l ∈ c.seen then some c
    else
      (ix.unaryParents l.symbol).foldlM
        (fun c p =>
          if p ∈ l.derivation.chain then some (c.note (.unaryCycle p l.symbol))
          else addWithin ix depth (c.note (.unary p l.symbol)) (.ofRule p [l.derivation]))
        (c.push l)

end MarkedCell

namespace Cell

variable {ix : Index}

/-- The cell with just its labels seen. -/
def marked (c : Cell) : MarkedCell := ⟨c, c.labels.toFinset⟩

theorem marked_push (c : Cell) (l : Label) : (c.push l).marked = c.marked.push l := by
  rw [marked, MarkedCell.push, labels_push, List.toFinset_append, Finset.union_comm]
  rfl

theorem marked_note (c : Cell) (s : Step) : (c.note s).marked = c.marked.note s := rfl

theorem mem_seen_marked {c : Cell} {l : Label} : l ∈ c.marked.seen ↔ l ∈ c := by
  rw [marked, List.mem_toFinset, mem_iff]

/-- Changes that never fail follow one another without failing. -/
theorem foldlM_marked {β : Type} {f : MarkedCell → β → Option MarkedCell} {g : Cell → β → Cell}
    {bs : List β} (h : ∀ b ∈ bs, ∀ c : Cell, f c.marked b = some (g c b).marked) (c : Cell) :
    bs.foldlM f c.marked = some (bs.foldl g c).marked := by
  induction bs generalizing c with
  | nil => rfl
  | cons b bs ih =>
    rw [List.foldlM_cons, h b List.mem_cons_self, List.foldl_cons]
    exact ih (fun d hd => h d (List.mem_cons_of_mem _ hd)) (g c b)

/-- By induction on the room: each call inside another has one head less to put on. -/
theorem addWithin_marked {depth : Nat} {c : Cell} {l : Label}
    (h : (ix.unaryHeads \ l.derivation.chain.toFinset).card < depth) :
    c.marked.addWithin ix depth l = some (c.add ix l).marked := by
  induction depth generalizing c l with
  | zero => exact absurd h (Nat.not_lt_zero _)
  | succ depth ih =>
    rw [MarkedCell.addWithin]
    by_cases hl : l ∈ c
    · rw [if_pos (mem_seen_marked.2 hl), add_of_mem hl]
    · rw [if_neg (mt mem_seen_marked.1 hl), add_of_not_mem hl, ← marked_push]
      apply foldlM_marked
      intro p hp d
      unfold addParent
      split
      · rw [marked_note]
      · rename_i hc
        rw [← marked_note]
        apply ih
        have hlt := Derivation.card_sdiff_chain_lt (Index.mem_unaryHeads.2 ⟨_, hp⟩) hc
        exact Nat.lt_of_lt_of_le hlt (Nat.le_of_lt_succ h)

/-- Adding a label comes to an end inside as many calls as there are unary heads off its chain, and
one more. What comes after a new label is this label under one or more heads, each a unary parent
of what is below it, without repetition and none on the chain of the label. -/
theorem add_ends_in_depth (ix : Index) (c : Cell) (l : Label) :
    (∀ p, p ∈ ix.unaryHeads ↔ ∃ x, p ∈ ix.unaryParents x) ∧
    (∀ depth, 1 + (ix.unaryHeads \ l.derivation.chain.toFinset).card ≤ depth →
      c.marked.addWithin ix depth l = some (c.add ix l).marked) ∧
    ((l ∈ c ∧ c.add ix l = c) ∨
      (l ∉ c ∧ ∃ more, (c.add ix l).labels = c.labels ++ l :: more ∧
        ∀ m ∈ more, ∃ heads : List String, heads ≠ [] ∧ ix.Climbs l.symbol heads ∧ heads.Nodup ∧
          (∀ p ∈ heads, p ∉ l.derivation.chain) ∧ m = l.under heads)) := by
  refine ⟨fun p => Index.mem_unaryHeads, fun depth h => addWithin_marked (by omega), ?_⟩
  by_cases hl : l ∈ c
  · exact .inl ⟨hl, add_of_mem hl⟩
  obtain ⟨more, hmore, hkind⟩ := gains_add ix hl
  refine .inr ⟨hl, more, by simpa using hmore, fun m hm => ?_⟩
  obtain ⟨w, hw, hclosure⟩ := hkind m hm
  obtain ⟨p, hp, hc, rfl⟩ := Index.mem_wraps.1 hw
  obtain ⟨heads, hheads, hunder⟩ := Index.mem_closure_iff_under.1 hclosure
  obtain ⟨hclimbs, hnodup, hoff⟩ := Index.ascent_cons_iff.2 ⟨⟨hp, hc⟩, hheads⟩
  exact ⟨p :: heads, List.cons_ne_nil _ _, hclimbs, hnodup, hoff, hunder⟩

end Cell

/-- A label whose symbol is not the root of its derivation. -/
def Label.strayed : Label := ⟨.nonterminal "S", .word "y"⟩

namespace Cell

/-- With two heads that derive each other, three calls are enough and two are not. -/
theorem add_ends_in_depth_looped :
    1 + (Parser.looped.index.unaryHeads \ Label.strayed.derivation.chain.toFinset).card ≤ 3 ∧
      (marked { span := ⟨0, 1⟩ }).addWithin Parser.looped.index 3 .strayed =
        some (add Parser.looped.index { span := ⟨0, 1⟩ } .strayed).marked ∧
      (marked { span := ⟨0, 1⟩ }).addWithin Parser.looped.index 2 .strayed = none ∧
      (add Parser.looped.index { span := ⟨0, 1⟩ } .strayed).labels.map Label.text =
        ["S: y", "A: (A y)", "S: (S (A y))"] := by
  have hcard : 1 + (Parser.looped.index.unaryHeads \
      Label.strayed.derivation.chain.toFinset).card ≤ 3 := by decide +kernel
  have hdepth := (add_ends_in_depth Parser.looped.index { span := ⟨0, 1⟩ } .strayed).2.1
  exact ⟨hcard, hdepth 3 hcard, by decide +kernel, by decide +kernel⟩

end Cell

end PhraseChart
