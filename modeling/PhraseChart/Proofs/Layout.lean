import PhraseChart.Chart.Fill

namespace PhraseChart.Chart

@[simp] theorem size_update (c : Chart) (span : Span) (f : Cell → Cell) :
    (c.update span f).size = c.size := by
  unfold update
  split <;> rfl

theorem cell_of_not_covers {c : Chart} {span : Span} (h : ¬Covers c.size span) :
    c.cell span = .error (.outside span) := by
  rw [Chart.cell, if_neg h]

theorem cell_blank (n : Nat) (span : Span) :
    (blank n).cell span = if Covers n span then .ok { span } else .error (.outside span) := by
  by_cases h : Covers n span
  · have hrow : span.start < n := Nat.lt_of_lt_of_le h.1 h.2
    have hcol : span.stop - span.start - 1 < n - span.start := by
      have := h.1
      have := h.2
      omega
    have hstop : span.start + (span.stop - span.start - 1) + 1 = span.stop := by
      have := h.1
      omega
    simp [Chart.cell, blank, blankRow, h, hrow, hcol, hstop]
  · rw [cell_of_not_covers h, if_neg h]

/-- Spans that share their row and their place in it are the same. -/
theorem span_eq_of_place_eq {s t : Span} (hs : s.start < s.stop) (ht : t.start < t.stop)
    (hrow : s.start = t.start) (hplace : s.stop - s.start - 1 = t.stop - t.start - 1) : s = t := by
  obtain ⟨a, b⟩ := s
  obtain ⟨a', b'⟩ := t
  dsimp only at *
  rw [Span.mk.injEq]
  omega

/-- Reading an entry of the rows back after the same one, or another, has been changed. -/
theorem bind_modify (rows : Array (Array Cell)) (i j i' j' : Nat) (f : Cell → Cell) :
    ((rows.modify i fun row => row.modify j f)[i']?.bind fun row => row[j']?) =
      if i = i' ∧ j = j' then (rows[i']?.bind fun row => row[j']?).map f
      else rows[i']?.bind fun row => row[j']? := by
  rw [Array.getElem?_modify]
  by_cases hi : i = i'
  · subst hi
    cases rows[i]? with
    | none => simp
    | some row => by_cases hj : j = j' <;> simp [Array.getElem?_modify, hj]
  · simp [hi]

theorem cell_update (c : Chart) (span other : Span) (f : Cell → Cell) :
    (c.update span f).cell other =
      if other = span then (c.cell other).map f else c.cell other := by
  by_cases hother : Covers c.size other
  · by_cases hspan : Covers c.size span
    · have hall : Covers (c.update span f).size other := by rwa [size_update]
      rw [Chart.cell, if_pos hall, Chart.cell, if_pos hother, update, if_pos hspan, bind_modify]
      by_cases he : other = span
      · rw [he, if_pos ⟨rfl, rfl⟩, if_pos rfl]
        cases c.rows[span.start]?.bind fun row => row[span.stop - span.start - 1]? <;> rfl
      · have hplace : ¬(span.start = other.start ∧
            span.stop - span.start - 1 = other.stop - other.start - 1) :=
          fun e => he (span_eq_of_place_eq hspan.1 hother.1 e.1 e.2).symm
        rw [if_neg hplace, if_neg he]
    · have hne : other ≠ span := fun e => hspan (e ▸ hother)
      rw [if_neg hne, update, if_neg hspan]
  · rw [cell_of_not_covers (by simpa using hother), cell_of_not_covers hother]
    split <;> rfl

/-- The cell at this place of this row. -/
def at? (c : Chart) (row place : Nat) : Option Cell := c.rows[row]?.bind fun cells => cells[place]?

theorem cell_eq_ok_iff {c : Chart} {span : Span} {cell : Cell} :
    c.cell span = .ok cell ↔
      Covers c.size span ∧ c.at? span.start (span.stop - span.start - 1) = some cell := by
  unfold Chart.cell at?
  split
  · rename_i h
    split
    · rename_i hplace
      simp [h, hplace]
    · rename_i hplace
      simp [hplace]
  · rename_i h
    simp [h]

theorem modify_congr {α : Type} {f g : α → α} {xs : Array α} {i : Nat}
    (h : ∀ x, xs[i]? = some x → f x = g x) : xs.modify i f = xs.modify i g := by
  apply Array.ext_getElem?
  intro j
  rw [Array.getElem?_modify, Array.getElem?_modify]
  split
  · rename_i hij
    subst hij
    cases hx : xs[i]? with
    | none => rfl
    | some x => exact congrArg some (h x hx)
  · rfl

theorem update_congr {c : Chart} {span : Span} {f g : Cell → Cell}
    (h : ∀ cell, c.cell span = .ok cell → f cell = g cell) : c.update span f = c.update span g := by
  unfold update
  split
  · rename_i hspan
    rw [modify_congr]
    intro row hrow
    apply modify_congr
    intro cell hcell
    apply h
    rw [cell_eq_ok_iff, at?, hrow]
    exact ⟨hspan, hcell⟩
  · rfl

theorem modify_id {α : Type} (xs : Array α) (i : Nat) : xs.modify i (fun x => x) = xs := by
  apply Array.ext_getElem?
  intro j
  rw [Array.getElem?_modify, Option.map_id', ite_self]

theorem modify_modify {α : Type} (f g : α → α) (xs : Array α) (i : Nat) :
    (xs.modify i f).modify i g = xs.modify i fun x => g (f x) := by
  apply Array.ext_getElem?
  intro j
  simp only [Array.getElem?_modify]
  split
  · rw [Option.map_map]
    rfl
  · rfl

theorem update_id (c : Chart) (span : Span) : c.update span (fun cell => cell) = c := by
  unfold update
  split
  · simp only [modify_id]
  · rfl

theorem update_eq_self {c : Chart} {span : Span} {f : Cell → Cell}
    (h : ∀ cell, c.cell span = .ok cell → f cell = cell) : c.update span f = c :=
  (update_congr h).trans (update_id c span)

theorem update_of_cell {c : Chart} {span : Span} {cell : Cell} (h : c.cell span = .ok cell)
    (f : Cell → Cell) : c.update span f = c.update span fun _ => f cell := by
  apply update_congr
  intro cell' hcell'
  rw [Except.ok.inj (h.symm.trans hcell')]

theorem update_update (c : Chart) (span : Span) (f g : Cell → Cell) :
    (c.update span f).update span g = c.update span fun cell => g (f cell) := by
  unfold update
  split
  · simp only [modify_modify]
  · rfl

end PhraseChart.Chart
