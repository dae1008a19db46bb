import Mathlib.Logic.Relation
import PhraseChart.Chart.Cell
import PhraseChart.Proofs.FirstOccurrences

namespace PhraseChart
open FirstOccurrences

namespace Index

/-- What one unary rule makes of a label, in rule order; the heads on its chain are left out. -/
def wraps (ix : Index) (l : Label) : List Label :=
  ((ix.unaryParents l.symbol).filter fun p => p ∉ l.derivation.chain).map fun p =>
    .ofRule p [l.derivation]

theorem mem_wraps {ix : Index} {l m : Label} :
    m ∈ ix.wraps l ↔ ∃ p ∈ ix.unaryParents l.symbol, p ∉ l.derivation.chain ∧
      .ofRule p [l.derivation] = m := by
  simp [wraps, and_assoc]

theorem length_openHeads_of_mem_wraps {ix : Index} {l m : Label} (h : m ∈ ix.wraps l) :
    (ix.openHeads m.derivation).length < (ix.openHeads l.derivation).length := by
  obtain ⟨p, hp, hc, rfl⟩ := mem_wraps.1 h
  exact length_openHeads_lt hp hc

/-- A label and, depth first and in rule order, all that unary rules make of it. -/
def closure (ix : Index) (l : Label) : List Label :=
  l :: (ix.wraps l).attach.flatMap fun m => ix.closure m.1
termination_by (ix.openHeads l.derivation).length
decreasing_by exact length_openHeads_of_mem_wraps m.2

theorem closure_eq (ix : Index) (l : Label) :
    ix.closure l = l :: (ix.wraps l).flatMap ix.closure := by
  rw [closure, List.flatMap_subtype (g := ix.closure) fun _ _ => rfl, List.unattach_attach]

theorem mem_closure_iff {ix : Index} {l m : Label} :
    m ∈ ix.closure l ↔ Relation.ReflTransGen (fun x y => y ∈ ix.wraps x) l m := by
  constructor
  · intro h
    rw [closure_eq, List.mem_cons, List.mem_flatMap] at h
    rcases h with rfl | ⟨w, hw, hm⟩
    · exact .refl
    · exact .head hw (mem_closure_iff.1 hm)
  · intro h
    rw [closure_eq, List.mem_cons, List.mem_flatMap]
    rcases h.cases_head with rfl | ⟨w, hw, hm⟩
    · exact .inl rfl
    · exact .inr ⟨w, hw, mem_closure_iff.2 hm⟩
termination_by (ix.openHeads l.derivation).length
decreasing_by all_goals exact length_openHeads_of_mem_wraps (by assumption)

theorem self_mem_closure (ix : Index) (l : Label) : l ∈ ix.closure l := mem_closure_iff.2 .refl

theorem closure_subset_closure {ix : Index} {l m : Label} (h : m ∈ ix.closure l) :
    ix.closure m ⊆ ix.closure l := by
  intro x hx
  exact mem_closure_iff.2 ((mem_closure_iff.1 h).trans (mem_closure_iff.1 hx))

theorem flatMap_wraps {β : Type*} (ix : Index) (l : Label) (f : Label → List β) :
    (ix.wraps l).flatMap f = (ix.unaryParents l.symbol).flatMap fun p =>
      if p ∈ l.derivation.chain then [] else f (.ofRule p [l.derivation]) := by
  rw [wraps, List.flatMap_map]
  induction ix.unaryParents l.symbol with
  | nil => rfl
  | cons p ps ih => by_cases hp : p ∈ l.derivation.chain <;> simp [hp, ← ih]

/-- Each label whose chain is at least this long stands in the list with its closure. The labels
that a closure has gone through while it is being added stand there without theirs, but their chains
are shorter than those of the labels still to come. -/
def ClosedFrom (ix : Index) (n : Nat) (ls : List Label) : Prop :=
  ∀ l ∈ ls, n ≤ l.derivation.chain.length → ix.closure l ⊆ ls

namespace ClosedFrom

variable {ix : Index} {n : Nat} {ls ms : List Label}

theorem mono {k : Nat} (h : ix.ClosedFrom n ls) (hk : n ≤ k) : ix.ClosedFrom k ls :=
  fun l hl hn => h l hl (Nat.le_trans hk hn)

theorem append (h : ix.ClosedFrom n ls) (h' : ix.ClosedFrom n ms) : ix.ClosedFrom n (ls ++ ms) := by
  intro l hl hn x hx
  rcases List.mem_append.1 hl with hl | hl
  · exact List.mem_append_left _ (h l hl hn hx)
  · exact List.mem_append_right _ (h' l hl hn hx)

theorem eraseDups (h : ix.ClosedFrom n ls) : ix.ClosedFrom n ls.eraseDups := by
  intro l hl hn x hx
  exact List.mem_eraseDups.2 (h l (List.mem_eraseDups.1 hl) hn hx)

theorem nil : ix.ClosedFrom n [] := fun _ hl => absurd hl List.not_mem_nil

theorem closure (l : Label) : ix.ClosedFrom n (ix.closure l) :=
  fun _ hm _ => closure_subset_closure hm

theorem flatMap {β : Type*} {f : β → List Label} (bs : List β)
    (h : ∀ b ∈ bs, ix.ClosedFrom n (f b)) : ix.ClosedFrom n (bs.flatMap f) := by
  intro l hl hn x hx
  obtain ⟨b, hb, hl⟩ := List.mem_flatMap.1 hl
  exact List.mem_flatMap.2 ⟨b, hb, h b hb l hl hn hx⟩

/-- The label just put in has its closure still to come; those with longer chains have not. -/
theorem concat {l : Label} (h : ix.ClosedFrom l.derivation.chain.length ls) :
    ix.ClosedFrom (l.derivation.chain.length + 1) (ls ++ [l]) := by
  intro m hm hn
  rcases List.mem_append.1 hm with hm | hm
  · exact List.Subset.trans (h m hm (Nat.le_of_succ_le hn)) (List.subset_append_left _ _)
  · rw [List.mem_singleton.1 hm] at hn
    exact absurd hn (Nat.not_succ_le_self _)

end ClosedFrom

end Index

namespace Cell

/-- A run of changes, each of which adds what is new of a list of labels, adds what is new of all
these lists. The changes may rely on a property of the labels that they keep. -/
theorem labels_foldl {β : Type*} {f : Cell → β → Cell} {g : β → List Label}
    {P : List Label → Prop} (bs : List β)
    (hf : ∀ b ∈ bs, ∀ c : Cell, c.labels.Nodup → P c.labels →
      (f c b).labels = (c.labels ++ g b).eraseDups)
    (hg : ∀ b ∈ bs, ∀ ls, P ls → P (ls ++ g b).eraseDups)
    (c : Cell) (hc : c.labels.Nodup) (hk : P c.labels) :
    (bs.foldl f c).labels = (c.labels ++ bs.flatMap g).eraseDups := by
  induction bs generalizing c with
  | nil => simp [eraseDups_eq_self hc]
  | cons b bs ih =>
    have hb := hf b List.mem_cons_self c hc hk
    have hn : (f c b).labels.Nodup := hb ▸ nodup_eraseDups _
    have hk' : P (f c b).labels := hb ▸ hg b List.mem_cons_self _ hk
    rw [List.foldl_cons, ih (fun d hd => hf d (List.mem_cons_of_mem _ hd))
      (fun d hd => hg d (List.mem_cons_of_mem _ hd)) _ hn hk', hb, eraseDups_eraseDups_append,
      List.flatMap_cons, List.append_assoc]

/-- A cell whose longer labels are closed takes in the whole closure of a label it is given. -/
theorem labels_add {ix : Index} {c : Cell} {l : Label} (hc : c.labels.Nodup)
    (h : ix.ClosedFrom l.derivation.chain.length c.labels) :
    (c.add ix l).labels = (c.labels ++ ix.closure l).eraseDups := by
  by_cases hl : l ∈ c
  · -- a label that is met again is not open, so its closure is there
    rw [add_of_mem hl, eraseDups_append_of_subset (h l (mem_iff.1 hl) (Nat.le_refl _)),
      eraseDups_eq_self hc]
  have hpush : (c.push l).labels.Nodup := by
    rw [labels_push, List.nodup_append_comm]
    exact List.nodup_cons.2 ⟨fun hm => hl (mem_iff.2 hm), hc⟩
  -- now the label is open too, but its parents have longer chains
  have hclosed : ix.ClosedFrom (l.derivation.chain.length + 1) (c.push l).labels := by
    rw [labels_push]
    exact h.concat
  rw [add_of_not_mem hl, labels_foldl _ ?_ ?_ _ hpush hclosed, labels_push, Index.closure_eq,
    Index.flatMap_wraps, List.append_assoc, List.singleton_append]
  · intro p hp d hd hk
    by_cases hin : p ∈ l.derivation.chain
    · simp [addParent, hin, eraseDups_eq_self hd]
    · simp only [addParent, if_neg hin]
      exact labels_add hd hk
  · intro p _ ls hls
    split
    · exact (hls.append .nil).eraseDups
    · exact (hls.append (.closure _)).eraseDups
termination_by (ix.openHeads l.derivation).length
decreasing_by exact Index.length_openHeads_lt hp hin

end Cell

end PhraseChart
