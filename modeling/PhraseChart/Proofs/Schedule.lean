import PhraseChart.Chart.Fill

namespace PhraseChart

/-- Where a span can be cut in two, from the left. -/
def Span.middles (s : Span) : List Nat := List.range' (s.start + 1) (s.stop - s.start - 1)

theorem Span.mem_middles {s : Span} {m : Nat} : m ∈ s.middles ↔ s.start < m ∧ m < s.stop := by
  rw [middles, List.mem_range'_1]
  omega

/-- The cuts of a span, from the left. -/
def Span.splits (s : Span) : List Split := s.middles.map fun m => ⟨s.start, m, s.stop⟩

/-- The cuts of all stretches of one length. -/
def splitsOfLength (size length : Nat) : List Split :=
  (List.range (size + 1 - length)).flatMap (splitsOf length)

theorem splits_eq (n : Nat) : splits n = (List.range' 2 (n - 1)).flatMap (splitsOfLength n) := rfl

namespace Split

/-- How many tokens are covered. -/
def length (s : Split) : Nat := s.stop - s.start

theorem whole_of_mem_splitsOf {length start : Nat} {s : Split} (h : s ∈ splitsOf length start) :
    s.whole = ⟨start, start + length⟩ := by
  obtain ⟨m, _, rfl⟩ := List.mem_map.1 h
  rfl

theorem middle_of_mem_splitsOf {length start : Nat} {s : Split} (h : s ∈ splitsOf length start) :
    s.start < s.middle ∧ s.middle < s.stop := by
  obtain ⟨m, hm, rfl⟩ := List.mem_map.1 h
  rw [List.mem_range'_1] at hm
  dsimp only
  omega

theorem mem_splits {n : Nat} {s : Split} (h : s ∈ splits n) :
    s.start < s.middle ∧ s.middle < s.stop ∧ s.stop ≤ n := by
  simp only [splits, List.mem_flatMap, List.mem_range'_1, List.mem_range] at h
  obtain ⟨length, hlength, start, hstart, hs⟩ := h
  have hstop : s.stop = start + length := congrArg Span.stop (whole_of_mem_splitsOf hs)
  have hmiddle := middle_of_mem_splitsOf hs
  omega

theorem length_of_mem_splitsOf {length start : Nat} {s : Split} (h : s ∈ splitsOf length start) :
    s.length = length := by
  have hw := whole_of_mem_splitsOf h
  have hstart : s.start = start := congrArg Span.start hw
  have hstop : s.stop = start + length := congrArg Span.stop hw
  rw [Split.length, hstart, hstop, Nat.add_sub_cancel_left]

theorem length_of_mem_splitsOfLength {n length : Nat} {s : Split}
    (h : s ∈ splitsOfLength n length) : s.length = length := by
  obtain ⟨start, _, hs⟩ := List.mem_flatMap.1 h
  exact length_of_mem_splitsOf hs

theorem pairwise_length_splits (n : Nat) :
    (splits n).Pairwise fun s t => s.length ≤ t.length := by
  rw [splits_eq, List.pairwise_flatMap]
  constructor
  · intro k _
    apply List.pairwise_of_forall_mem_list
    intro s hs t ht
    exact Nat.le_of_eq ((length_of_mem_splitsOfLength hs).trans
      (length_of_mem_splitsOfLength ht).symm)
  · apply List.Pairwise.imp _ List.pairwise_lt_range'
    intro k k' hk s hs t ht
    rw [length_of_mem_splitsOfLength hs, length_of_mem_splitsOfLength ht]
    exact Nat.le_of_lt hk

end Split

theorem flatMap_eq_of_mem {α β : Type} {f : α → List β} {a : α} {xs : List α} (hn : xs.Nodup)
    (ha : a ∈ xs) (h : ∀ b ∈ xs, b ≠ a → f b = []) : xs.flatMap f = f a := by
  induction xs with
  | nil => simp at ha
  | cons x xs ih =>
    have hx := List.nodup_cons.1 hn
    rw [List.flatMap_cons]
    by_cases he : x = a
    · subst he
      have hrest : xs.flatMap f = [] := List.flatMap_eq_nil_iff.2 fun b hb =>
        h b (List.mem_cons_of_mem _ hb) fun e => hx.1 (e ▸ hb)
      rw [hrest, List.append_nil]
    · have ha : a ∈ xs := (List.mem_cons.1 ha).resolve_left (Ne.symm he)
      rw [h x List.mem_cons_self he, List.nil_append]
      exact ih hx.2 ha fun b hb => h b (List.mem_cons_of_mem _ hb)

theorem filter_splitsOf (length start : Nat) (span : Span) :
    (splitsOf length start).filter (fun s => s.whole = span) =
      if span = ⟨start, start + length⟩ then span.splits else [] := by
  split
  · rename_i h
    subst h
    have hall : Span.splits ⟨start, start + length⟩ = splitsOf length start := by
      rw [Span.splits, Span.middles, Nat.add_sub_cancel_left]
      rfl
    rw [hall, List.filter_eq_self]
    intro s hs
    exact decide_eq_true (Split.whole_of_mem_splitsOf hs)
  · rename_i h
    rw [List.filter_eq_nil_iff]
    intro s hs
    rw [Split.whole_of_mem_splitsOf hs]
    simpa using Ne.symm h

theorem filter_splitsOfLength {n : Nat} {span : Span} (h : Chart.Covers n span) (length : Nat) :
    (splitsOfLength n length).filter (fun s => s.whole = span) =
      if length = span.stop - span.start then span.splits else [] := by
  obtain ⟨a, b⟩ := span
  obtain ⟨hab, hb⟩ : a < b ∧ b ≤ n := h
  have hspan : ∀ start, (⟨a, b⟩ : Span) = ⟨start, start + length⟩ ↔
      start = a ∧ length = b - a := by
    intro start
    rw [Span.mk.injEq]
    omega
  rw [splitsOfLength, List.filter_flatMap]
  simp only [filter_splitsOf, hspan]
  split
  · rename_i hlength
    rw [flatMap_eq_of_mem (a := a) List.nodup_range, if_pos ⟨rfl, hlength⟩]
    · rw [List.mem_range]
      omega
    · intro start _ hne
      exact if_neg fun e => hne e.1
  · rename_i hlength
    rw [List.flatMap_eq_nil_iff]
    intro start _
    exact if_neg fun e => hlength e.2

/-- The cuts of one span stand in the schedule from the left. -/
theorem filter_splits {n : Nat} {span : Span} (h : Chart.Covers n span) :
    (splits n).filter (fun s => s.whole = span) = span.splits := by
  have hlt := h.1
  have hle := h.2
  rw [splits_eq, List.filter_flatMap]
  simp only [filter_splitsOfLength h]
  by_cases hone : span.stop - span.start = 1
  · -- a span of one token has no cuts, and the schedule starts with spans of two
    have hnil : span.splits = [] := by simp [Span.splits, Span.middles, hone]
    simp [hnil]
  · rw [flatMap_eq_of_mem (a := span.stop - span.start) List.nodup_range', if_pos rfl]
    · rw [List.mem_range'_1]
      omega
    · intro length _ hne
      exact if_neg hne

/-- When a cut comes up, the cuts of any shorter span all lie behind it. -/
theorem filter_done_of_length_lt {n : Nat} {done rest : List Split} {s : Split} {span : Span}
    (h : splits n = done ++ s :: rest) (hspan : Chart.Covers n span)
    (hlt : span.stop - span.start < s.length) :
    done.filter (fun t => t.whole = span) = span.splits := by
  have hpair := Split.pairwise_length_splits n
  rw [h, List.pairwise_append] at hpair
  have hrest : (s :: rest).filter (fun t => t.whole = span) = [] := by
    rw [List.filter_eq_nil_iff]
    intro t ht hw
    -- from here on the schedule has no cut shorter than `s`
    have hle : s.length ≤ t.length := by
      rcases List.mem_cons.1 ht with rfl | ht
      · exact Nat.le_refl _
      · exact (List.pairwise_cons.1 hpair.2.1).1 t ht
    rw [← of_decide_eq_true hw] at hlt
    exact absurd hlt (Nat.not_lt.2 hle)
  rw [← filter_splits hspan, h, List.filter_append, hrest, List.append_nil]

end PhraseChart
