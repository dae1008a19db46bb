import Mathlib.Data.List.Induction
import PhraseChart.Proofs.Layout
import PhraseChart.Proofs.Schedule

namespace PhraseChart

namespace Cell

/-- A cell before anything is joined: with its token, where it covers just one. -/
def seeded (ix : Index) (tokens : List String) (span : Span) : Cell :=
  if span.stop = span.start + 1 then
    match tokens[span.start]? with
    | some token => (Cell.note { span } (.seed token)).add ix (.ofToken token)
    | none => { span }
  else { span }

theorem seeded_concat_of_ne {ix : Index} {tokens : List String} {token : String} {span : Span}
    (h : span ≠ ⟨tokens.length, tokens.length + 1⟩) :
    seeded ix (tokens ++ [token]) span = seeded ix tokens span := by
  unfold seeded
  by_cases hone : span.stop = span.start + 1
  · have hstart : span.start ≠ tokens.length := by
      intro e
      apply h
      rw [← e, ← hone]
    have hget : (tokens ++ [token])[span.start]? = tokens[span.start]? := by
      rw [List.getElem?_append]
      split
      · rfl
      · rw [List.getElem?_eq_none (by simp; omega), List.getElem?_eq_none (by omega)]
    rw [hget]
  · rw [if_neg hone, if_neg hone]

/-- A cell once all its cuts have been joined, from the left. -/
def finished (ix : Index) (tokens : List String) (span : Span) : Cell :=
  span.middles.attach.foldl
    (fun c m => c.addJoins ix m.1 (Join.all ix (finished ix tokens ⟨span.start, m.1⟩)
      (finished ix tokens ⟨m.1, span.stop⟩)))
    (seeded ix tokens span)
termination_by span.stop - span.start
decreasing_by
  all_goals
    have := Span.mem_middles.1 m.2
    omega

/-- Adds to a cell what a cut of its span makes of two finished cells. -/
def addSplit (ix : Index) (tokens : List String) (c : Cell) (s : Split) : Cell :=
  c.addJoins ix s.middle (Join.all ix (finished ix tokens s.left) (finished ix tokens s.right))

theorem finished_eq (ix : Index) (tokens : List String) (span : Span) :
    finished ix tokens span =
      span.splits.foldl (addSplit ix tokens) (seeded ix tokens span) := by
  rw [finished, Span.splits, List.foldl_map,
    List.foldl_subtype (g := fun c m => addSplit ix tokens c ⟨span.start, m, span.stop⟩),
    List.unattach_attach]
  intro c m hm
  rfl

end Cell

namespace Chart

@[simp] theorem size_seed (ix : Index) (c : Chart) (token : String) (k : Nat) :
    (c.seed ix token k).size = c.size := size_update ..

@[simp] theorem size_combine (ix : Index) (c : Chart) (s : Split) :
    (c.combine ix s).size = c.size := by
  unfold combine
  split
  · exact size_update ..
  · rfl

theorem size_foldl {β : Type} {f : Chart → β → Chart} (hf : ∀ c b, (f c b).size = c.size)
    (bs : List β) (c : Chart) : (bs.foldl f c).size = c.size := by
  induction bs generalizing c with
  | nil => rfl
  | cons b bs ih => exact (ih (f c b)).trans (hf c b)

theorem size_fill (ix : Index) (tokens : List String) :
    (fill ix tokens).size = tokens.length := by
  rw [fill, size_foldl (size_combine ix), seeded, size_foldl fun _ _ => size_seed ..]
  rfl

theorem combine_of_cells {ix : Index} {c : Chart} {s : Split} {left right : Cell}
    (hleft : c.cell s.left = .ok left) (hright : c.cell s.right = .ok right) :
    c.combine ix s = c.update s.whole (Cell.addJoins ix s.middle (Join.all ix left right)) := by
  simp only [combine, hleft, hright]

theorem cell_seeded_prefix (ix : Index) (tokens : List String) (n : Nat) (span : Span) :
    (tokens.zipIdx.foldl (fun c t => c.seed ix t.1 t.2) (blank n)).cell span =
      if Covers n span then .ok (.seeded ix tokens span) else .error (.outside span) := by
  induction tokens using List.reverseRecOn with
  | nil =>
    have hnil : Cell.seeded ix [] span = { span } := by simp [Cell.seeded]
    rw [hnil]
    exact cell_blank n span
  | append_singleton tokens token ih =>
    rw [List.zipIdx_append, List.foldl_append, List.zipIdx_singleton, List.foldl_cons,
      List.foldl_nil, seed, cell_update, ih, Nat.zero_add]
    by_cases hspan : Covers n span
    · rw [if_pos hspan, if_pos hspan]
      by_cases he : span = ⟨tokens.length, tokens.length + 1⟩
      · subst he
        simp [Cell.seeded, Except.map]
      · rw [if_neg he, Cell.seeded_concat_of_ne he]
    · rw [if_neg hspan, if_neg hspan]
      split <;> rfl

theorem cell_seeded (ix : Index) (tokens : List String) (span : Span) :
    (seeded ix tokens).cell span =
      if Covers tokens.length span then .ok (.seeded ix tokens span)
      else .error (.outside span) := cell_seeded_prefix ix tokens tokens.length span

/-- At any moment of the fill, each cell has had just those of its cuts that lie behind. -/
theorem cell_foldl_combine (ix : Index) (tokens : List String) {done rest : List Split}
    (h : splits tokens.length = done ++ rest) (span : Span) :
    (done.foldl (combine ix) (seeded ix tokens)).cell span =
      if Covers tokens.length span then
        .ok ((done.filter fun s => s.whole = span).foldl (Cell.addSplit ix tokens)
          (.seeded ix tokens span))
      else .error (.outside span) := by
  induction done using List.reverseRecOn generalizing rest span with
  | nil => exact cell_seeded ix tokens span
  | append_singleton done s ih =>
    rw [List.append_assoc, List.singleton_append] at h
    obtain ⟨hstart, hstop, hn⟩ : s.start < s.middle ∧ s.middle < s.stop ∧
        s.stop ≤ tokens.length :=
      Split.mem_splits (h ▸ List.mem_append_right _ List.mem_cons_self)
    -- the two sides are shorter than the whole, so all their cuts lie behind
    have hside : ∀ side : Span, Covers tokens.length side → side.stop - side.start < s.length →
        (done.foldl (combine ix) (seeded ix tokens)).cell side =
          .ok (.finished ix tokens side) := by
      intro side hside hlt
      rw [ih h side, if_pos hside, filter_done_of_length_lt h hside hlt, ← Cell.finished_eq]
    have hmiddle : s.middle ≤ tokens.length := by omega
    have hlt : s.middle - s.start < s.length := by
      rw [Split.length]
      omega
    have hgt : s.stop - s.middle < s.length := by
      rw [Split.length]
      omega
    have hleft := hside s.left ⟨hstart, hmiddle⟩ hlt
    have hright := hside s.right ⟨hstop, hn⟩ hgt
    rw [List.foldl_append, List.foldl_cons, List.foldl_nil, combine_of_cells hleft hright,
      cell_update, ih h span, List.filter_append, List.foldl_append]
    by_cases hspan : Covers tokens.length span
    · rw [if_pos hspan, if_pos hspan]
      by_cases he : span = s.whole
      · subst he
        simp [Except.map, Cell.addSplit]
      · simp [he, Ne.symm he]
    · rw [if_neg hspan, if_neg hspan]
      split <;> rfl

theorem cell_fill (ix : Index) (tokens : List String) (span : Span) :
    (fill ix tokens).cell span =
      if Covers tokens.length span then .ok (.finished ix tokens span)
      else .error (.outside span) := by
  rw [fill, cell_foldl_combine ix tokens (List.append_nil _).symm span]
  by_cases hspan : Covers tokens.length span
  · rw [if_pos hspan, if_pos hspan, filter_splits hspan, ← Cell.finished_eq]
  · rw [if_neg hspan, if_neg hspan]

end Chart

end PhraseChart
