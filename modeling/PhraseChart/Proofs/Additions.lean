import Mathlib.Order.Bounds.Defs
import PhraseChart.Proofs.Nesting

namespace PhraseChart
open FirstOccurrences

/-- The set has with each label all that unary rules make of it. -/
def Index.Keeps (ix : Index) (labels : Set Label) : Prop :=
  ∀ l ∈ labels, ∀ m ∈ ix.wraps l, m ∈ labels

theorem Index.Keeps.closure_subset {ix : Index} {labels : Set Label} (h : ix.Keeps labels)
    {l m : Label} (hl : l ∈ labels) (hm : m ∈ ix.closure l) : m ∈ labels := by
  induction mem_closure_iff.1 hm with
  | refl => exact hl
  | tail hsteps hw ih => exact h _ (ih (mem_closure_iff.2 hsteps)) _ hw

namespace MarkedCell

/-- Adds the labels one after the other, each with the same room. -/
def addAllWithin (ix : Index) (depth : Nat) (c : MarkedCell) (ls : List Label) :
    Option MarkedCell := ls.foldlM (addWithin ix depth) c

end MarkedCell

namespace Cell

variable {ix : Index} {c : Cell}

/-- Adds the labels one after the other. -/
def addAll (ix : Index) (c : Cell) (ls : List Label) : Cell := ls.foldl (add ix) c

theorem addAll_concat (ls : List Label) (l : Label) :
    c.addAll ix (ls ++ [l]) = (c.addAll ix ls).add ix l := by
  rw [addAll, List.foldl_append]
  rfl

theorem addAllWithin_marked {depth : Nat} (h : ix.unaryHeads.card < depth) (ls : List Label) :
    c.marked.addAllWithin ix depth ls = some (c.addAll ix ls).marked := by
  apply foldlM_marked
  intro l _ d
  exact addWithin_marked (Nat.lt_of_le_of_lt (Finset.card_le_card Finset.sdiff_subset) h)

theorem labels_addAll (h : c.labels = []) (ls : List Label) :
    (c.addAll ix ls).labels = (ls.flatMap ix.closure).eraseDups := by
  rw [addAll, labels_foldl (g := ix.closure) (P := ix.ClosedFrom 0), h, List.nil_append]
  · intro l _ d hd hk
    exact labels_add hd (hk.mono (Nat.zero_le _))
  · intro l _ ls hls
    exact (hls.append (.closure l)).eraseDups
  · rw [h]
    exact List.nodup_nil
  · rw [h]
    exact .nil

theorem mem_labels_addAll (h : c.labels = []) {ls : List Label} {m : Label} :
    m ∈ (c.addAll ix ls).labels ↔ ∃ l ∈ ls, m ∈ ix.closure l := by
  rw [labels_addAll h, List.mem_eraseDups, List.mem_flatMap]

theorem isLeast_addAll (h : c.labels = []) (ls : List Label) :
    IsLeast {S : Set Label | (∀ l ∈ ls, l ∈ S) ∧ ix.Keeps S}
      {l | l ∈ (c.addAll ix ls).labels} := by
  refine ⟨⟨fun l hl => ?_, fun l hl m hm => ?_⟩, ?_⟩
  · exact (mem_labels_addAll h).2 ⟨l, hl, Index.self_mem_closure ix l⟩
  · obtain ⟨l', hl', hclosure⟩ := (mem_labels_addAll h).1 hl
    have hm : m ∈ ix.closure l := Index.mem_closure_iff.2 (.single hm)
    exact (mem_labels_addAll h).2 ⟨l', hl', Index.closure_subset_closure hclosure hm⟩
  · rintro S ⟨hls, hkeeps⟩ m hm
    obtain ⟨l, hl, hclosure⟩ := (mem_labels_addAll h).1 hm
    exact hkeeps.closure_subset (hls l hl) hclosure

/-- Labels that are added to an empty cell make it hold their closures in this order, without
repetition and with just the labels seen that are there. What is there stays where it is, adding it
again changes nothing, and the set of it is the least one with the labels that is closed under
unary rules. -/
theorem labels_of_additions (ix : Index) {i k : Nat} (hik : i < k) :
    (∀ l, ix.closure l = l :: (ix.unaryParents l.symbol).flatMap fun p =>
      if p ∈ l.derivation.chain then [] else ix.closure (.ofRule p [l.derivation])) ∧
    ∃ c, blank? ⟨i, k⟩ = .ok c ∧ ∀ ls,
      (c.addAll ix ls).labels = (ls.flatMap ix.closure).eraseDups ∧
      (c.addAll ix ls).labels.Nodup ∧
      (∃ s, MarkedCell.addAllWithin ix (1 + ix.unaryHeads.card) ⟨c, ∅⟩ ls = some s ∧
        s.cell = c.addAll ix ls ∧ ∀ l, l ∈ s.seen ↔ l ∈ (c.addAll ix ls).labels) ∧
      (∀ more, (c.addAll ix ls).labels <+: (c.addAll ix (ls ++ more)).labels) ∧
      (∀ l ∈ (c.addAll ix ls).labels, c.addAll ix (ls ++ [l]) = c.addAll ix ls) ∧
      IsLeast {S : Set Label | (∀ l ∈ ls, l ∈ S) ∧ ix.Keeps S}
        {l | l ∈ (c.addAll ix ls).labels} ∧
      ∀ ls', (∀ l, l ∈ ls ↔ l ∈ ls') →
        ∀ l, l ∈ (c.addAll ix ls).labels ↔ l ∈ (c.addAll ix ls').labels := by
  refine ⟨fun l => by rw [Index.closure_eq, Index.flatMap_wraps], { span := ⟨i, k⟩ }, if_pos hik,
    fun ls => ?_⟩
  have hempty : ({ span := ⟨i, k⟩ } : Cell).labels = [] := rfl
  refine ⟨labels_addAll hempty ls, ?_, ⟨_, addAllWithin_marked (by omega) ls, rfl, ?_⟩, ?_, ?_,
    isLeast_addAll hempty ls, ?_⟩
  · rw [labels_addAll hempty]
    exact nodup_eraseDups _
  · intro l
    rw [mem_seen_marked, mem_iff]
  · intro more
    rw [labels_addAll hempty, labels_addAll hempty, List.flatMap_append, List.eraseDups_append]
    exact List.prefix_append _ _
  · intro l hl
    rw [addAll_concat, add_of_mem (mem_iff.2 hl)]
  · intro ls' h l
    rw [mem_labels_addAll hempty, mem_labels_addAll hempty]
    simp only [h]

/-- The two orders list the labels differently, and they are the same labels. -/
theorem labels_of_additions_looped :
    0 < 1 ∧ ∃ c, blank? ⟨0, 1⟩ = .ok c ∧
      (c.addAll Parser.looped.index [.strayed, .ofToken "x"]).labels.map Label.text =
        ["S: y", "A: (A y)", "S: (S (A y))", "'x': x", "A: (A x)", "S: (S (A x))"] ∧
      (c.addAll Parser.looped.index [.ofToken "x", .strayed]).labels.map Label.text =
        ["'x': x", "A: (A x)", "S: (S (A x))", "S: y", "A: (A y)", "S: (S (A y))"] ∧
      (Label.strayed ∈ (c.addAll Parser.looped.index [.strayed, .ofToken "x"]).labels ∧
        c.addAll Parser.looped.index ([.strayed, .ofToken "x"] ++ [.strayed]) =
          c.addAll Parser.looped.index [.strayed, .ofToken "x"]) ∧
      (∀ l, l ∈ [Label.strayed, .ofToken "x"] ↔ l ∈ [Label.ofToken "x", .strayed]) ∧
      ∀ l, l ∈ (c.addAll Parser.looped.index [.strayed, .ofToken "x"]).labels ↔
        l ∈ (c.addAll Parser.looped.index [.ofToken "x", .strayed]).labels := by
  have hspan : 0 < 1 := by decide
  obtain ⟨-, c, hc, hadd⟩ := labels_of_additions Parser.looped.index hspan
  obtain ⟨-, -, -, -, hagain, -, horder⟩ := hadd [.strayed, .ofToken "x"]
  obtain rfl : ({ span := ⟨0, 1⟩ } : Cell) = c := Except.ok.inj hc
  have hmem : Label.strayed ∈ (addAll Parser.looped.index { span := ⟨0, 1⟩ }
      [.strayed, .ofToken "x"]).labels := by decide +kernel
  have hsame : ∀ l, l ∈ [Label.strayed, .ofToken "x"] ↔ l ∈ [Label.ofToken "x", .strayed] := by
    simp [or_comm]
  exact ⟨hspan, _, hc, by decide +kernel, by decide +kernel, ⟨hmem, hagain _ hmem⟩, hsame,
    horder _ hsame⟩

end Cell

end PhraseChart
