import PhraseChart.Proofs.Exactness

namespace PhraseChart
open FirstOccurrences

namespace Cell

variable {ix : Index} {tokens : List String}

theorem nodup_labels_finished (ix : Index) (tokens : List String) (span : Span) :
    (finished ix tokens span).labels.Nodup := by
  rw [labels_finished]
  exact Index.nodup_enumeration ix tokens span

theorem closedFrom_finished (ix : Index) (tokens : List String) (span : Span) :
    ix.ClosedFrom 0 (finished ix tokens span).labels := by
  rw [labels_finished]
  exact Index.closedFrom_enumeration ix tokens span

/-- What comes of a cut is in the finished cell of the whole. -/
theorem closures_subset_finished {s : Split} (hleft : s.start < s.middle)
    (hright : s.middle < s.stop) :
    (ix.joins (finished ix tokens s.left).labels (finished ix tokens s.right).labels).flatMap
      ix.closure ⊆ (finished ix tokens s.whole).labels := by
  have hwide : s.stop ≠ s.start + 1 := by omega
  intro x hx
  obtain ⟨j, hj, hx⟩ := List.mem_flatMap.1 hx
  obtain ⟨l, hl, r, hr, p, hp, rfl⟩ := Index.mem_joins.1 hj
  rw [labels_finished] at hl hr ⊢
  exact (Index.mem_enumeration_wide hwide).2 ⟨s.middle, hleft, hright, l, hl, r, hr, p, hp, hx⟩

theorem labels_addJoins_finished {s : Split} (hleft : s.start < s.middle)
    (hright : s.middle < s.stop) :
    ((finished ix tokens s.whole).addJoins ix s.middle
      (Join.all ix (finished ix tokens s.left) (finished ix tokens s.right))).labels =
      (finished ix tokens s.whole).labels := by
  have hnodup := nodup_labels_finished ix tokens s.whole
  rw [labels_addJoins _ _ _ hnodup (closedFrom_finished _ _ _),
    eraseDups_append_of_subset (closures_subset_finished hleft hright), eraseDups_eq_self hnodup]

theorem ofToken_mem_finished {k : Nat} {token : String} (h : tokens[k]? = some token) :
    .ofToken token ∈ finished ix tokens ⟨k, k + 1⟩ := by
  rw [mem_iff, labels_finished, Index.enumeration_token ix h, List.mem_eraseDups]
  exact Index.self_mem_closure ix _

end Cell

namespace Chart

variable {ix : Index} {tokens : List String}

/-- Every cell holds the same labels in the same order in both charts. -/
def SameLabels (c d : Chart) : Prop :=
  ∀ span, (c.cell span).map Cell.labels = (d.cell span).map Cell.labels

theorem SameLabels.update {c : Chart} {span : Span} {f : Cell → Cell}
    (h : ∀ cell, c.cell span = .ok cell → (f cell).labels = cell.labels) :
    SameLabels (c.update span f) c := by
  intro other
  rw [cell_update]
  split
  · rename_i he
    subst he
    cases hcell : c.cell other with
    | error e => rfl
    | ok cell => exact congrArg Except.ok (h cell hcell)
  · rfl

theorem cell_combine_of_ne {c : Chart} {s : Split} {span : Span} (h : span ≠ s.whole) :
    (c.combine ix s).cell span = c.cell span := by
  unfold combine
  split
  · rw [cell_update, if_neg h]
  · rfl

theorem cell_fill_of_covers {span : Span} (h : Covers tokens.length span) :
    (fill ix tokens).cell span = .ok (.finished ix tokens span) := by
  rw [cell_fill, if_pos h]

/-- The chart once these cuts have been dealt with, and no others. -/
def afterSplits (ix : Index) (tokens : List String) (done : List Split) : Chart :=
  done.foldl (combine ix) (seeded ix tokens)

/-- When a cut comes up, every shorter span is finished. -/
theorem cell_of_length_lt {done rest : List Split} {s : Split} {span : Span}
    (h : splits tokens.length = done ++ s :: rest) (hspan : Covers tokens.length span)
    (hlt : span.stop - span.start < s.length) :
    (afterSplits ix tokens done).cell span = .ok (.finished ix tokens span) := by
  rw [afterSplits, cell_foldl_combine ix tokens h, if_pos hspan,
    filter_done_of_length_lt h hspan hlt, ← Cell.finished_eq]

theorem cell_sides {done rest : List Split} {s : Split}
    (h : splits tokens.length = done ++ s :: rest) :
    (afterSplits ix tokens done).cell s.left = .ok (.finished ix tokens s.left) ∧
    (afterSplits ix tokens done).cell s.right = .ok (.finished ix tokens s.right) := by
  obtain ⟨hleft, hright, hstop⟩ : s.start < s.middle ∧ s.middle < s.stop ∧
      s.stop ≤ tokens.length :=
    Split.mem_splits (h ▸ List.mem_append_right _ List.mem_cons_self)
  have hmiddle : s.middle ≤ tokens.length := by omega
  constructor
  · apply cell_of_length_lt h ⟨hleft, hmiddle⟩
    simp only [Split.left, Split.length]
    omega
  · apply cell_of_length_lt h ⟨hright, hstop⟩
    simp only [Split.right, Split.length]
    omega

theorem sameLabels_combine_fill {s : Split} (hleft : s.start < s.middle)
    (hright : s.middle < s.stop) (hstop : s.stop ≤ tokens.length) :
    SameLabels ((fill ix tokens).combine ix s) (fill ix tokens) := by
  have hmiddle : s.middle ≤ tokens.length := by omega
  have hwhole : Covers tokens.length s.whole := ⟨Nat.lt_trans hleft hright, hstop⟩
  rw [combine_of_cells (cell_fill_of_covers ⟨hleft, hmiddle⟩) (cell_fill_of_covers ⟨hright, hstop⟩)]
  apply SameLabels.update
  intro cell hcell
  obtain rfl := Except.ok.inj ((cell_fill_of_covers hwhole).symm.trans hcell)
  exact Cell.labels_addJoins_finished hleft hright

theorem sameLabels_seed_fill {k : Nat} {token : String} (h : tokens[k]? = some token) :
    SameLabels ((fill ix tokens).seed ix token k) (fill ix tokens) := by
  obtain ⟨hk, -⟩ := List.getElem?_eq_some_iff.1 h
  apply SameLabels.update
  intro cell hcell
  have hspan : Covers tokens.length ⟨k, k + 1⟩ := ⟨Nat.lt_succ_self k, hk⟩
  obtain rfl := Except.ok.inj ((cell_fill_of_covers hspan).symm.trans hcell)
  have hmem : .ofToken token ∈ (Cell.finished ix tokens ⟨k, k + 1⟩).note (.seed token) :=
    Cell.ofToken_mem_finished h
  rw [Cell.add_of_mem hmem, Cell.labels_note]

theorem sameLabels_add {c : Chart} {span : Span} {cell : Cell} {l : Label}
    (hcell : c.cell span = .ok cell) (hl : l ∈ cell) :
    SameLabels (c.update span fun cell => cell.add ix l) c := by
  apply SameLabels.update
  intro cell' hcell'
  obtain rfl := Except.ok.inj (hcell.symm.trans hcell')
  rw [Cell.add_of_mem hl]

theorem fill_eq_foldl_rest {done rest : List Split} {s : Split}
    (h : splits tokens.length = done ++ s :: rest) :
    fill ix tokens = rest.foldl (combine ix) ((afterSplits ix tokens done).combine ix s) := by
  rw [fill, h, List.foldl_append, List.foldl_cons, afterSplits]

/-- Whenever a cut comes up, its sides are as they are in the finished chart, and dealing with the
cut changes the cell of the whole only. Joining, seeding and adding what is there once more changes
no labels of the finished chart. -/
theorem fill_saturated (ix : Index) (tokens : List String) :
    (∀ done s rest, splits tokens.length = done ++ s :: rest →
      fill ix tokens = rest.foldl (combine ix) ((afterSplits ix tokens done).combine ix s) ∧
      (∃ left, (afterSplits ix tokens done).cell s.left = .ok left ∧
        (fill ix tokens).cell s.left = .ok left) ∧
      (∃ right, (afterSplits ix tokens done).cell s.right = .ok right ∧
        (fill ix tokens).cell s.right = .ok right) ∧
      ∀ span, span ≠ s.whole →
        ((afterSplits ix tokens done).combine ix s).cell span =
          (afterSplits ix tokens done).cell span) ∧
    (∀ s : Split, s.start < s.middle → s.middle < s.stop → s.stop ≤ tokens.length →
      SameLabels ((fill ix tokens).combine ix s) (fill ix tokens)) ∧
    (∀ k token, tokens[k]? = some token →
      SameLabels ((fill ix tokens).seed ix token k) (fill ix tokens)) ∧
    ∀ span cell l, (fill ix tokens).cell span = .ok cell → l ∈ cell →
      SameLabels ((fill ix tokens).update span fun cell => cell.add ix l) (fill ix tokens) := by
  refine ⟨?_, fun s hleft hright hstop => sameLabels_combine_fill hleft hright hstop,
    fun k token h => sameLabels_seed_fill h, fun span cell l h hl => sameLabels_add h hl⟩
  intro done s rest h
  obtain ⟨hleft, hright, hstop⟩ : s.start < s.middle ∧ s.middle < s.stop ∧
      s.stop ≤ tokens.length :=
    Split.mem_splits (h ▸ List.mem_append_right _ List.mem_cons_self)
  have hmiddle : s.middle ≤ tokens.length := by omega
  have ⟨hcell, hcell'⟩ := @cell_sides ix tokens _ _ _ h
  exact ⟨fill_eq_foldl_rest h, ⟨_, hcell, cell_fill_of_covers ⟨hleft, hmiddle⟩⟩,
    ⟨_, hcell', cell_fill_of_covers ⟨hright, hstop⟩⟩, fun span hne => cell_combine_of_ne hne⟩

theorem fill_saturated_looped :
    splits 2 = [] ++ ⟨0, 1, 2⟩ :: [] ∧
      (∃ left, (afterSplits Parser.looped.index ["x", "x"] []).cell ⟨0, 1⟩ = .ok left ∧
        (fill Parser.looped.index ["x", "x"]).cell ⟨0, 1⟩ = .ok left) ∧
      SameLabels ((fill Parser.looped.index ["x", "x"]).combine Parser.looped.index ⟨0, 1, 2⟩)
        (fill Parser.looped.index ["x", "x"]) ∧
      SameLabels ((fill Parser.looped.index ["x", "x"]).seed Parser.looped.index "x" 1)
        (fill Parser.looped.index ["x", "x"]) ∧
      ∃ cell, (fill Parser.looped.index ["x", "x"]).cell ⟨0, 2⟩ = .ok cell ∧ cell.size = 2 ∧
        ∀ l ∈ cell, SameLabels
          ((fill Parser.looped.index ["x", "x"]).update ⟨0, 2⟩ fun cell =>
            cell.add Parser.looped.index l)
          (fill Parser.looped.index ["x", "x"]) := by
  have hsplits : splits 2 = [] ++ ⟨0, 1, 2⟩ :: [] := by decide
  obtain ⟨hmoment, hcombine, hseed, hadd⟩ := fill_saturated Parser.looped.index ["x", "x"]
  have hcell : (fill Parser.looped.index ["x", "x"]).cell ⟨0, 2⟩ = .ok _ :=
    cell_fill_of_covers (by decide)
  refine ⟨hsplits, (hmoment [] ⟨0, 1, 2⟩ [] hsplits).2.1,
    hcombine ⟨0, 1, 2⟩ (by decide) (by decide) (by decide), hseed 1 "x" rfl, _, hcell, ?_,
    fun l hl => hadd _ _ l hcell hl⟩
  decide +kernel

end Chart

end PhraseChart
