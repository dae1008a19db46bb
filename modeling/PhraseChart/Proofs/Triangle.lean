import Mathlib.Logic.Relation
import PhraseChart.Proofs.Layout

namespace PhraseChart
open Relation

/-- One span begins before the other, or they begin together and it ends before the other. -/
def Span.Before (s t : Span) : Prop := s.start < t.start ∨ s.start = t.start ∧ s.stop < t.stop

namespace Chart

/-- One cell for each span of one or more of the tokens, in their order, each found at its span. -/
structure Triangular (n : Nat) (c : Chart) : Prop where
  size : c.size = n
  mem_spans : ∀ span, span ∈ c.cells.map Cell.span ↔ span.start < span.stop ∧ span.stop ≤ n
  pairwise : (c.cells.map Cell.span).Pairwise Span.Before
  length : c.cells.length = n * (n + 1) / 2
  exists_cell : ∀ span, (∃ cell, c.cell span = .ok cell) ↔ span.start < span.stop ∧ span.stop ≤ n
  cell_eq_ok : ∀ span cell, c.cell span = .ok cell ↔ cell ∈ c.cells ∧ cell.span = span

/-- The spans of a row of the chart, from the shortest. -/
def rowSpans (n start : Nat) : List Span :=
  (List.range (n - start)).map fun k => ⟨start, start + k + 1⟩

/-- The spans of all rows. -/
def spans (n : Nat) : List Span := (List.range n).flatMap (rowSpans n)

theorem mem_rowSpans {n start : Nat} {span : Span} :
    span ∈ rowSpans n start ↔ span.start = start ∧ start < span.stop ∧ span.stop ≤ n := by
  obtain ⟨i, k⟩ := span
  simp only [rowSpans, List.mem_map, List.mem_range, Span.mk.injEq]
  constructor
  · rintro ⟨j, hj, rfl, rfl⟩
    omega
  · rintro ⟨rfl, hik, hk⟩
    exact ⟨k - i - 1, by omega, rfl, by omega⟩

theorem mem_spans {n : Nat} {span : Span} : span ∈ spans n ↔ Covers n span := by
  simp only [spans, List.mem_flatMap, List.mem_range, mem_rowSpans]
  constructor
  · rintro ⟨start, -, rfl, h⟩
    exact h
  · rintro ⟨h, hn⟩
    exact ⟨span.start, Nat.lt_of_lt_of_le h hn, rfl, h, hn⟩

theorem pairwise_spans (n : Nat) : (spans n).Pairwise Span.Before := by
  rw [spans, List.pairwise_flatMap]
  constructor
  · intro start _
    rw [rowSpans, List.pairwise_map]
    apply List.pairwise_lt_range.imp
    intro k k' hk
    exact .inr ⟨rfl, by dsimp only; omega⟩
  · apply List.pairwise_lt_range.imp
    intro start start' hlt s hs t ht
    rw [mem_rowSpans] at hs ht
    exact .inl (by omega)

theorem two_mul_length_spans (n : Nat) : 2 * (spans n).length = n * (n + 1) := by
  have hlength : ∀ start, (rowSpans n start).length = n - start := by simp [rowSpans]
  rw [spans, List.length_flatMap]
  simp only [hlength]
  clear hlength
  induction n with
  | zero => rfl
  | succ n ih =>
    rw [List.range_succ_eq_map, List.map_cons, List.sum_cons, List.map_map]
    have hshift : (fun start => n + 1 - start) ∘ Nat.succ = fun start => n - start := by
      funext start
      exact Nat.succ_sub_succ n start
    rw [hshift, Nat.mul_add, ih, Nat.sub_zero, ← Nat.add_mul, Nat.mul_comm, Nat.add_comm 2 n]

theorem mem_cells_iff {c : Chart} {cell : Cell} :
    cell ∈ c.cells ↔ ∃ row place, c.at? row place = some cell := by
  simp only [cells, at?, List.mem_flatMap, Array.mem_toList_iff, Array.mem_iff_getElem?,
    Option.bind_eq_some_iff]
  constructor
  · rintro ⟨row, ⟨i, hi⟩, j, hj⟩
    exact ⟨i, j, row, hi, hj⟩
  · rintro ⟨i, j, row, hi, hj⟩
    exact ⟨row, ⟨i, hi⟩, j, hj⟩

/-- The spans of the cells stand where those of a blank chart stand. -/
structure Aligned (n : Nat) (c : Chart) : Prop where
  size : c.size = n
  rows : (c.rows.map fun row => row.map Cell.span) =
    (blank n).rows.map fun row => row.map Cell.span

theorem aligned_blank (n : Nat) : Aligned n (blank n) := ⟨rfl, rfl⟩

theorem map_modify {α β : Type} {f : α → α} {g : α → β} (h : ∀ x, g (f x) = g x) (xs : Array α)
    (i : Nat) : (xs.modify i f).map g = xs.map g := by
  apply Array.ext_getElem?
  intro j
  rw [Array.getElem?_map, Array.getElem?_modify, Array.getElem?_map]
  split
  · rw [Option.map_map]
    exact congrArg (Option.map · xs[j]?) (funext h)
  · rfl

namespace Aligned

variable {n : Nat} {c : Chart}

theorem update (h : Aligned n c) (span : Span) {f : Cell → Cell}
    (hf : ∀ cell, (f cell).span = cell.span) : Aligned n (c.update span f) := by
  refine ⟨(size_update c span f).trans h.size, ?_⟩
  rw [← h.rows, Chart.update]
  split
  · exact map_modify (fun row => map_modify hf row _) c.rows _
  · rfl

theorem map_span_cells (h : Aligned n c) : c.cells.map Cell.span = spans n := by
  have hrows : c.cells.map Cell.span =
      (c.rows.map fun row => row.map Cell.span).toList.flatMap Array.toList := by
    simp [cells, List.map_flatMap, List.flatMap_map]
  have hrow : ∀ start, (blankRow n start).toList.map Cell.span = rowSpans n start := by
    intro start
    simp [blankRow, rowSpans, Function.comp_def]
  rw [hrows, h.rows, spans]
  simp [blank, List.flatMap_map, hrow]

/-- What a cell covers can be told from its place. -/
theorem map_span_at? (h : Aligned n c) (i j : Nat) :
    (c.at? i j).map Cell.span = if i + j < n then some ⟨i, i + j + 1⟩ else none := by
  have hplace : (c.at? i j).map Cell.span =
      (c.rows.map fun row => row.map Cell.span)[i]?.bind fun row => row[j]? := by
    rw [at?, Array.getElem?_map]
    cases c.rows[i]? with
    | none => rfl
    | some row => exact Array.getElem?_map.symm
  rw [hplace, h.rows]
  by_cases hi : i < n
  · by_cases hj : j < n - i
    · have hij : i + j < n := by omega
      simp [blank, blankRow, hi, hj, hij]
    · have hij : ¬i + j < n := by omega
      simp [blank, blankRow, hi, hj, hij]
  · have hij : ¬i + j < n := by omega
    simp [blank, hi, hij]

theorem exists_cell (h : Aligned n c) {span : Span} (hspan : Covers n span) :
    ∃ cell, c.cell span = .ok cell := by
  have hlt := hspan.1
  have hle := hspan.2
  have hplace := h.map_span_at? span.start (span.stop - span.start - 1)
  rw [if_pos (by omega), Option.map_eq_some_iff] at hplace
  obtain ⟨cell, hcell, -⟩ := hplace
  exact ⟨cell, cell_eq_ok_iff.2 ⟨h.size.symm ▸ hspan, hcell⟩⟩

theorem cell_eq_ok (h : Aligned n c) {span : Span} {cell : Cell} :
    c.cell span = .ok cell ↔ cell ∈ c.cells ∧ cell.span = span := by
  rw [cell_eq_ok_iff, mem_cells_iff, h.size]
  constructor
  · rintro ⟨⟨hlt, hle⟩, hcell⟩
    have hplace := h.map_span_at? span.start (span.stop - span.start - 1)
    rw [hcell, if_pos (by omega), Option.map_some, Option.some.injEq] at hplace
    have hstop : span.start + (span.stop - span.start - 1) + 1 = span.stop := by omega
    rw [hstop] at hplace
    exact ⟨⟨_, _, hcell⟩, hplace⟩
  · rintro ⟨⟨i, j, hcell⟩, rfl⟩
    have hplace := h.map_span_at? i j
    rw [hcell, Option.map_some] at hplace
    split at hplace
    · rename_i hij
      rw [Option.some.injEq] at hplace
      have hj : i + j + 1 - i - 1 = j := by omega
      rw [hplace, hj]
      exact ⟨⟨by dsimp only; omega, hij⟩, hcell⟩
    · cases hplace

theorem triangular (h : Aligned n c) : Triangular n c where
  size := h.size
  mem_spans span := by
    rw [h.map_span_cells]
    exact Chart.mem_spans
  pairwise := by
    rw [h.map_span_cells]
    exact pairwise_spans n
  length := by
    have hlength : c.cells.length = (spans n).length := by rw [← h.map_span_cells, List.length_map]
    rw [hlength, ← two_mul_length_spans, Nat.mul_div_cancel_left _ (by decide)]
  exists_cell span := by
    refine ⟨fun ⟨cell, hcell⟩ => ?_, h.exists_cell⟩
    have hcovers := (cell_eq_ok_iff.1 hcell).1
    rwa [h.size] at hcovers
  cell_eq_ok _ _ := h.cell_eq_ok

end Aligned

end Chart

theorem reflTransGen_foldl {α β : Type} {r : α → α → Prop} {f : α → β → α} {bs : List β}
    (h : ∀ b ∈ bs, ∀ a, ReflTransGen r a (f a b)) (a : α) : ReflTransGen r a (bs.foldl f a) :=
  List.foldlRecOn bs f .refl fun x hx b hb => hx.trans (h b hb x)

namespace Cell

/-- The least that is done to a cell: it takes a label or an entry of its log. -/
inductive Edit : Cell → Cell → Prop where
  | push (c : Cell) (l : Label) : Edit c (c.push l)
  | note (c : Cell) (s : Step) : Edit c (c.note s)

theorem edits_add (ix : Index) (c : Cell) (l : Label) : ReflTransGen Edit c (c.add ix l) := by
  by_cases hl : l ∈ c
  · rw [add_of_mem hl]
  rw [add_of_not_mem hl]
  apply ReflTransGen.head (.push c l)
  apply reflTransGen_foldl
  intro p hp d
  unfold addParent
  split
  · exact .single (.note d _)
  · rename_i hc
    have := Index.length_openHeads_lt hp hc
    exact .head (.note d _) (edits_add ix _ _)
termination_by (ix.openHeads l.derivation).length

theorem edits_addJoins (ix : Index) (middle : Nat) (joins : List Join) (c : Cell) :
    ReflTransGen Edit c (c.addJoins ix middle joins) :=
  (reflTransGen_foldl (fun _ _ d => .single (.note d _)) c).trans
    (reflTransGen_foldl (fun j _ d => edits_add ix d j.label) _)

end Cell

namespace Chart

/-- The least that is done to a chart: one of its cells takes a label or an entry of its log. -/
inductive Edit : Chart → Chart → Prop where
  | push (c : Chart) (span : Span) (l : Label) : Edit c (c.update span fun cell => cell.push l)
  | note (c : Chart) (span : Span) (s : Step) : Edit c (c.update span fun cell => cell.note s)

/-- A cell can be edited where it stands. -/
theorem edits_of_cell {c : Chart} {span : Span} {cell cell' : Cell} (h : c.cell span = .ok cell)
    (hedits : ReflTransGen Cell.Edit cell cell') :
    ReflTransGen Edit c (c.update span fun _ => cell') := by
  induction hedits with
  | refl =>
    rw [update_eq_self]
    intro d hd
    exact Except.ok.inj (h.symm.trans hd)
  | @tail d _ _ he ih =>
    -- the last edit finds the cell that the ones before it have left
    apply ih.tail
    cases he with
    | push l =>
      have hpush := Edit.push (c.update span fun _ => d) span l
      rwa [update_update] at hpush
    | note s =>
      have hnote := Edit.note (c.update span fun _ => d) span s
      rwa [update_update] at hnote

theorem edits_update {f : Cell → Cell} (h : ∀ cell, ReflTransGen Cell.Edit cell (f cell))
    (c : Chart) (span : Span) : ReflTransGen Edit c (c.update span f) := by
  cases hcell : c.cell span with
  | error e =>
    rw [update_eq_self]
    intro cell hok
    rw [hcell] at hok
    cases hok
  | ok cell =>
    rw [update_of_cell hcell]
    exact edits_of_cell hcell (h cell)

theorem edits_seed (ix : Index) (c : Chart) (token : String) (k : Nat) :
    ReflTransGen Edit c (c.seed ix token k) := by
  apply edits_update
  intro cell
  exact .head (.note cell _) (Cell.edits_add ix _ _)

theorem edits_combine (ix : Index) (c : Chart) (s : Split) :
    ReflTransGen Edit c (c.combine ix s) := by
  unfold combine
  split
  · exact edits_update (Cell.edits_addJoins ix s.middle _) c s.whole
  · exact .refl

theorem Aligned.edit {n : Nat} {c c' : Chart} (h : Aligned n c) (hedit : Edit c c') :
    Aligned n c' := by
  cases hedit with
  | push span l => exact h.update span fun _ => rfl
  | note span s => exact h.update span fun _ => rfl

theorem Aligned.edits {n : Nat} {c c' : Chart} (h : Aligned n c) (hedits : ReflTransGen Edit c c') :
    Aligned n c' := by
  induction hedits with
  | refl => exact h
  | tail _ hedit ih => exact ih.edit hedit

end Chart

end PhraseChart
