import PhraseChart.Proofs.Exactness

namespace PhraseChart

namespace Span

theorem middles_add (i n : Nat) :
    middles ⟨i, i + n⟩ = (List.range' 1 (n - 1)).map (i + ·) := by
  rw [middles, List.map_add_range', Nat.add_sub_cancel_left]

theorem getElem?_cover {s : Span} {tokens : List String} {k : Nat} (hk : k < s.stop - s.start) :
    (s.cover tokens)[k]? = tokens[s.start + k]? := by
  rw [cover, List.extract_eq_take_drop, List.getElem?_take_of_lt hk, List.getElem?_drop]

/-- Tokens put before or after a stretch do not change it, only where it stands. -/
theorem cover_append_append {s : Span} {tokens : List String} (h : Chart.Covers tokens.length s)
    (before after : List String) :
    cover ⟨before.length + s.start, before.length + s.stop⟩ (before ++ tokens ++ after) =
      s.cover tokens := by
  obtain ⟨hlt, hle⟩ := h
  have hlen : before.length + s.stop - (before.length + s.start) = s.stop - s.start := by omega
  have hstart : s.start ≤ tokens.length := by omega
  have hrest : s.stop - s.start ≤ (tokens.drop s.start).length := by
    rw [List.length_drop]
    omega
  simp only [cover, List.extract_eq_take_drop]
  rw [hlen, List.append_assoc, List.drop_length_add_append,
    List.drop_append_of_le_length hstart, List.take_append_of_le_length hrest]

end Span

namespace Index

variable {ix : Index} {u v : List String}

/-- By induction on the length: a cut of one stretch corresponds to the cut of the other at the
same distance from its start, and the two sides agree. -/
theorem enumeration_congr {i i' n : Nat} (h : ∀ k < n, u[i + k]? = v[i' + k]?) :
    ix.enumeration u ⟨i, i + n⟩ = ix.enumeration v ⟨i', i' + n⟩ := by
  induction n using Nat.strongRecOn generalizing i i' with
  | ind n ih =>
    by_cases hone : n = 1
    · subst hone
      have htoken := h 0 Nat.one_pos
      rw [Nat.add_zero, Nat.add_zero] at htoken
      rw [enumeration, enumeration, if_pos rfl, if_pos rfl, htoken]
    · have hwide : ∀ j, j + n ≠ j + 1 := fun j => by omega
      rw [enumeration_wide ix u (hwide i), enumeration_wide ix v (hwide i'), Span.middles_add,
        Span.middles_add, List.flatMap_map, List.flatMap_map]
      congr 1
      apply List.flatMap_congr
      intro m hm
      obtain ⟨hpos, hlt⟩ := List.mem_range'_1.1 hm
      have hleft : ix.enumeration u ⟨i, i + m⟩ = ix.enumeration v ⟨i', i' + m⟩ :=
        ih m (by omega) fun k hk => h k (by omega)
      have hright : ix.enumeration u ⟨i + m, i + m + (n - m)⟩ =
          ix.enumeration v ⟨i' + m, i' + m + (n - m)⟩ := by
        apply ih (n - m) (by omega)
        intro k hk
        rw [Nat.add_assoc, Nat.add_assoc]
        exact h (m + k) (by omega)
      have hstop : ∀ j, j + m + (n - m) = j + n := fun j => by omega
      rw [hstop, hstop] at hright
      rw [hleft, hright]

theorem enumeration_of_cover_eq {s s' : Span} (hs : Chart.Covers u.length s)
    (hs' : Chart.Covers v.length s') (h : s.cover u = s'.cover v) :
    ix.enumeration u s = ix.enumeration v s' := by
  obtain ⟨i, k⟩ := s
  obtain ⟨i', k'⟩ := s'
  obtain ⟨hik, hk⟩ : i < k ∧ k ≤ u.length := hs
  obtain ⟨hik', hk'⟩ : i' < k' ∧ k' ≤ v.length := hs'
  have hlen : k - i = k' - i' := by
    rw [← Span.length_cover (s := ⟨i, k⟩) hk, h, Span.length_cover hk']
  obtain ⟨n, rfl⟩ := Nat.exists_eq_add_of_le (Nat.le_of_lt hik)
  obtain rfl : k' = i' + n := by omega
  apply enumeration_congr
  intro j hj
  have hi : j < i + n - i := by omega
  have hi' : j < i' + n - i' := by omega
  have hget := congrArg (·[j]?) h
  rwa [@Span.getElem?_cover ⟨i, i + n⟩ _ _ hi, @Span.getElem?_cover ⟨i', i' + n⟩ _ _ hi'] at hget

end Index

namespace Parser

theorem labels_finished_of_cover_eq (p : Parser) {u v : List String} {s s' : Span}
    (hs : Chart.Covers u.length s) (hs' : Chart.Covers v.length s') (h : s'.cover v = s.cover u) :
    (Cell.finished p.index v s').labels = (Cell.finished p.index u s).labels := by
  rw [Cell.labels_finished, Cell.labels_finished]
  exact Index.enumeration_of_cover_eq hs' hs h

/-- The labels of a cell are those of any cell that covers the same tokens, in any sentence: of
the top cell over these tokens alone, and of the cell in its place when tokens are put before or
after. -/
theorem labels_of_cover_eq (p : Parser) (tokens : List String) (span : Span)
    (h : Chart.Covers tokens.length span) :
    ∃ cell, (p.chart tokens).cell span = .ok cell ∧
      (∀ other span', Chart.Covers other.length span' → span'.cover other = span.cover tokens →
        ∃ cell', (p.chart other).cell span' = .ok cell' ∧ cell'.labels = cell.labels) ∧
      (∃ top, (p.chart (span.cover tokens)).top = some top ∧ top.labels = cell.labels) ∧
      ∀ before after, ∃ cell',
        (p.chart (before ++ tokens ++ after)).cell
          ⟨before.length + span.start, before.length + span.stop⟩ = .ok cell' ∧
        cell'.labels = cell.labels := by
  have hlt := h.1
  have hle := h.2
  have hlen : (span.cover tokens).length = span.stop - span.start := Span.length_cover hle
  refine ⟨_, cell_chart p h, ?_, ?_, ?_⟩
  · intro other span' h' hcover
    exact ⟨_, cell_chart p h', labels_finished_of_cover_eq p h h' hcover⟩
  · have hne : span.cover tokens ≠ [] := by
      rw [← List.length_pos_iff, hlen]
      omega
    refine ⟨_, top_chart p hne, labels_finished_of_cover_eq p h ?_ (Span.cover_all _)⟩
    exact ⟨List.length_pos_iff.2 hne, Nat.le_refl _⟩
  · intro before after
    have h' : Chart.Covers (before ++ tokens ++ after).length
        ⟨before.length + span.start, before.length + span.stop⟩ := by
      constructor
      · simpa using hlt
      · simp
        omega
    exact ⟨_, cell_chart p h', labels_finished_of_cover_eq p h h' (Span.cover_append_append h _ _)⟩

theorem labels_of_cover_eq_looped :
    Chart.Covers 3 ⟨1, 3⟩ ∧ Chart.Covers 2 ⟨0, 2⟩ ∧
      Span.cover ⟨0, 2⟩ ["x", "x"] = Span.cover ⟨1, 3⟩ ["y", "x", "x"] ∧
      ∃ cell cell', (looped.chart ["y", "x", "x"]).cell ⟨1, 3⟩ = .ok cell ∧
        (looped.chart ["x", "x"]).cell ⟨0, 2⟩ = .ok cell' ∧ cell'.labels = cell.labels := by
  have hspan : Chart.Covers 3 ⟨1, 3⟩ := by decide
  have hspan' : Chart.Covers 2 ⟨0, 2⟩ := by decide
  have hcover : Span.cover ⟨0, 2⟩ ["x", "x"] = Span.cover ⟨1, 3⟩ ["y", "x", "x"] := rfl
  obtain ⟨cell, hcell, hsame, -⟩ := labels_of_cover_eq looped ["y", "x", "x"] ⟨1, 3⟩ hspan
  obtain ⟨cell', hcell', hlabels⟩ := hsame ["x", "x"] ⟨0, 2⟩ hspan' hcover
  exact ⟨hspan, hspan', hcover, cell, cell', hcell, hcell', hlabels⟩

end Parser

end PhraseChart
