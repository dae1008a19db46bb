import PhraseChart.Proofs.Sources
import PhraseChart.Proofs.EventFields

namespace PhraseChart

section
variable (ix : Index) (tokens : List String) (span : Span) (l : Label)

theorem Index.countP_triesUnary_expansion :
    (ix.expansion l).countP Step.triesUnary = (ix.unaryParents l.symbol).length := by
  rw [expansion, List.countP_map, List.countP_eq_length]
  intro p _
  rw [Function.comp_apply, Label.stepTo]
  split <;> rfl

theorem Index.countP_bringsLabel_expansion :
    (ix.expansion l).countP Step.bringsLabel = (ix.wraps l).length := by
  rw [expansion, List.countP_map, wraps, List.length_map, ← List.countP_eq_length_filter]
  apply List.countP_congr
  intro p _
  rw [Function.comp_apply, Label.stepTo]
  split <;> simp [Step.bringsLabel, *]

theorem Index.exists_unary_of_mem_expansion {s : Step} (h : s ∈ ix.expansion l) :
    ∃ parent child, s = .unary parent child ∨ s = .unaryCycle parent child := by
  obtain ⟨p, _, rfl⟩ := List.mem_map.1 h
  refine ⟨p, l.symbol, ?_⟩
  rw [Label.stepTo]
  split
  · exact .inr rfl
  · exact .inl rfl

namespace Cell

theorem countP_log_finished (q : Step → Bool) :
    (finished ix tokens span).log.toList.countP q =
      (seedSteps tokens span).countP q + (joinSteps ix tokens span).countP q +
        ((ix.enumeration tokens span).flatMap ix.expansion).countP q := by
  rw [(log_finished_perm ix tokens span).countP_eq, List.countP_append, List.countP_append]

theorem exists_seed_of_mem_seedSteps {s : Step} (h : s ∈ seedSteps tokens span) :
    ∃ token, s = .seed token := by
  obtain ⟨token, _, rfl⟩ := List.mem_map.1 h
  exact ⟨token, rfl⟩

theorem exists_binary_of_mem_joinSteps {s : Step} (h : s ∈ joinSteps ix tokens span) :
    ∃ middle parent left right, s = .binary middle parent left right := by
  obtain ⟨cut, _, h⟩ := List.mem_flatMap.1 h
  obtain ⟨j, _, rfl⟩ := List.mem_map.1 h
  exact ⟨_, _, _, _, rfl⟩

theorem countP_triesUnary_log :
    (finished ix tokens span).log.toList.countP Step.triesUnary =
      ((finished ix tokens span).labels.map fun l => (ix.unaryParents l.symbol).length).sum := by
  have hseed : (seedSteps tokens span).countP Step.triesUnary = 0 := by
    rw [List.countP_eq_zero]
    intro s hs
    obtain ⟨token, rfl⟩ := exists_seed_of_mem_seedSteps tokens span hs
    exact Bool.false_ne_true
  have hjoin : (joinSteps ix tokens span).countP Step.triesUnary = 0 := by
    rw [List.countP_eq_zero]
    intro s hs
    obtain ⟨_, _, _, _, rfl⟩ := exists_binary_of_mem_joinSteps ix tokens span hs
    exact Bool.false_ne_true
  rw [countP_log_finished, hseed, hjoin, labels_finished, Nat.zero_add, List.countP_flatMap,
    Function.comp_def]
  simp only [Index.countP_triesUnary_expansion]

theorem crossings_eq :
    ix.crossings tokens span = span.splits.flatMap fun s =>
      (Join.all ix (finished ix tokens s.left) (finished ix tokens s.right)).map Join.label := by
  simp only [Index.map_label_all, labels_finished, Span.splits, List.flatMap_map]
  rfl

theorem length_seedSteps :
    (seedSteps tokens span).length = (Index.seeds tokens span).length := by
  rw [seedSteps, Index.seeds, List.length_map, List.length_map]

theorem length_joinSteps :
    (joinSteps ix tokens span).length = (ix.crossings tokens span).length := by
  rw [crossings_eq, joinSteps, List.length_flatMap, List.length_flatMap]
  simp only [List.length_map]

/-- Each way in which a label comes about is noted once. -/
theorem countP_bringsLabel_log :
    (finished ix tokens span).log.toList.countP Step.bringsLabel =
      (ix.arrivals tokens span).length := by
  have hseed : ∀ s ∈ seedSteps tokens span, Step.bringsLabel s = true := by
    intro s hs
    obtain ⟨token, rfl⟩ := exists_seed_of_mem_seedSteps tokens span hs
    rfl
  have hjoin : ∀ s ∈ joinSteps ix tokens span, Step.bringsLabel s = true := by
    intro s hs
    obtain ⟨_, _, _, _, rfl⟩ := exists_binary_of_mem_joinSteps ix tokens span hs
    rfl
  rw [countP_log_finished, List.countP_eq_length.2 hseed, List.countP_eq_length.2 hjoin,
    length_seedSteps, length_joinSteps, Index.arrivals, Index.sources, List.length_append,
    List.length_append, List.length_flatMap, List.countP_flatMap, Function.comp_def]
  simp only [Index.countP_bringsLabel_expansion]

theorem nodup_splits (span : Span) : span.splits.Nodup :=
  List.Nodup.map (fun _ _ h => congrArg Split.middle h) List.nodup_range'

theorem length_all (left right : Cell) :
    (Join.all ix left right).length = (left.labels.map fun l =>
      (right.labels.map fun r => (ix.binaryParents l.symbol r.symbol).length).sum).sum := by
  simp only [Join.all, List.length_flatMap, List.length_map]

/-- A cut is noted with every binary rule for every two labels that stand there. -/
theorem countP_joinsAt_log {i m k : Nat} (him : i < m) (hmk : m < k) :
    (finished ix tokens ⟨i, k⟩).log.toList.countP (Step.joinsAt m) =
      (Join.all ix (finished ix tokens ⟨i, m⟩) (finished ix tokens ⟨m, k⟩)).length := by
  have hseed : (seedSteps tokens ⟨i, k⟩).countP (Step.joinsAt m) = 0 := by
    rw [List.countP_eq_zero]
    intro s hs
    obtain ⟨token, rfl⟩ := exists_seed_of_mem_seedSteps tokens _ hs
    exact Bool.false_ne_true
  have hcut : ⟨i, m, k⟩ ∈ Span.splits ⟨i, k⟩ :=
    List.mem_map.2 ⟨m, Span.mem_middles.2 ⟨him, hmk⟩, rfl⟩
  have hjoin : (joinSteps ix tokens ⟨i, k⟩).filter (Step.joinsAt m) =
      (Join.all ix (finished ix tokens ⟨i, m⟩) (finished ix tokens ⟨m, k⟩)).map (Join.step m) := by
    rw [joinSteps, List.filter_flatMap, flatMap_eq_of_mem (nodup_splits _) hcut]
    · apply List.filter_eq_self.2
      intro s hs
      obtain ⟨j, _, rfl⟩ := List.mem_map.1 hs
      exact beq_self_eq_true m
    · intro s hs hne
      obtain ⟨m', _, rfl⟩ := List.mem_map.1 hs
      rw [List.filter_eq_nil_iff]
      intro t ht
      obtain ⟨j, _, rfl⟩ := List.mem_map.1 ht
      have hm : m' ≠ m := fun e => hne (by rw [e])
      simpa [Join.step, Step.joinsAt] using hm
  have hexpansion : ((ix.enumeration tokens ⟨i, k⟩).flatMap ix.expansion).countP
      (Step.joinsAt m) = 0 := by
    rw [List.countP_eq_zero]
    intro s hs
    obtain ⟨l, _, hs⟩ := List.mem_flatMap.1 hs
    obtain ⟨_, _, rfl | rfl⟩ := ix.exists_unary_of_mem_expansion l hs
    · exact Bool.false_ne_true
    · exact Bool.false_ne_true
  rw [countP_log_finished, hseed, hexpansion, List.countP_eq_length_filter, hjoin,
    List.length_map, Nat.zero_add, Nat.add_zero]

end Cell

end

namespace Parser

variable (p : Parser) {tokens : List String}

theorem value_trace (tokens : List String) : (p.trace tokens).value = p.analyze tokens := by
  have hvalue : (p.trace tokens).value =
      .ofChart p.start (Traced.filled p.index tokens).value := rfl
  rw [hvalue, Traced.value_filled]
  rfl

/-- Behind the steps of the fill the size of the top cell is reported twice. -/
theorem events_trace (tokens : List String) :
    (p.trace tokens).events.toList = (Traced.filled p.index tokens).events.toList ++
      [.filled ((p.chart tokens).top.elim 0 Cell.size), .exited,
        .analyzed tokens.length ((p.chart tokens).top.elim 0 Cell.size)
          (p.recognize tokens).analyses] := by
  have hevents : (p.trace tokens).events =
      (((Traced.filled p.index tokens).events.push
        (.filled ((Traced.filled p.index tokens).value.top.elim 0 Cell.size))).push .exited).push
          (.analyzed tokens.length (p.trace tokens).value.recognition.labelCount
            (p.trace tokens).value.recognition.analyses) := rfl
  have hlabels : (p.analyze tokens).recognition.labelCount =
      (p.chart tokens).top.elim 0 Cell.size := Analysis.labelCount_ofChart ..
  rw [hevents, value_trace, Traced.value_filled, hlabels]
  simp [chart, recognize]

/-- The steps for a span are reported as its cell has them in its log. -/
theorem filterMap_stepAt?_trace {span : Span} (h : Chart.Covers tokens.length span) :
    (p.trace tokens).events.toList.filterMap (Event.stepAt? span) =
      (Cell.finished p.index tokens span).log.toList := by
  have hcell : (Traced.filled p.index tokens).value.cell span =
      .ok (.finished p.index tokens span) := by
    rw [Traced.value_filled]
    exact cell_chart p h
  rw [events_trace, List.filterMap_append,
    (Traced.faithful_filled p.index tokens).steps _ _ hcell]
  exact List.append_nil _

/-- The tokens are reported in their order, each with its place. -/
theorem filterMap_seed?_trace (tokens : List String) :
    (p.trace tokens).events.toList.filterMap Event.seed? =
      tokens.zipIdx.map fun t => (⟨t.2, t.2 + 1⟩, t.1) := by
  rw [events_trace, List.filterMap_append, (Traced.faithful_filled p.index tokens).seeds]
  exact List.append_nil _

theorem filter_message_filled {message : String} (h : message ∈ ["chart filled", "filled chart"]) :
    ((Traced.filled p.index tokens).events.toList.filter fun e => e.message == message) = [] := by
  have hstep : ∀ span step, Event.message (.cellStep span step) ≠ message := by
    rintro span step rfl
    cases step <;> simp [Event.message, Step.message] at h
  have hbegan : Event.message (.began tokens.length) ≠ message := by
    rintro rfl
    simp [Event.message] at h
  have hentered : Event.message .entered ≠ message := by
    rintro rfl
    simp [Event.message] at h
  obtain ⟨steps, hevents⟩ := (Traced.faithful_filled p.index tokens).reported
  rw [hevents, List.filter_eq_nil_iff]
  simp only [List.forall_mem_cons, List.forall_mem_map, beq_iff_eq]
  exact ⟨hbegan, hentered, fun s _ => hstep s.1 s.2⟩

/-- The events account for the chart. Of each span they report as many trials of unary rules as
there are rules for the labels of its cell, and at least as many steps that bring labels as there
are labels; just as many, if no rule is given twice. At each cut they report as many uses of binary
rules as there are for the labels on both sides. The tokens are reported in order, and the sizes are
that of the top cell. -/
theorem events_account_for_chart (p : Parser) (tokens : List String) :
    (p.trace tokens).value = p.analyze tokens ∧
    (∀ i k, i < k → k ≤ tokens.length → ∃ cell, (p.chart tokens).cell ⟨i, k⟩ = .ok cell ∧
      ((p.trace tokens).events.toList.countP fun e =>
          e.shows "unary" [spanField i k] || e.shows "unary cycle skipped" [spanField i k]) =
        (cell.labels.map fun l => (p.index.unaryParents l.symbol).length).sum ∧
      cell.labels.length ≤ ((p.trace tokens).events.toList.countP fun e =>
        e.shows "seed" [spanField i k] ||
          e.shows "binary" [("start", toString i), ("end", toString k)] ||
          e.shows "unary" [spanField i k]) ∧
      (p.grammar.rules.Nodup →
        cell.labels.length = ((p.trace tokens).events.toList.countP fun e =>
          e.shows "seed" [spanField i k] ||
            e.shows "binary" [("start", toString i), ("end", toString k)] ||
            e.shows "unary" [spanField i k]))) ∧
    (∀ i m k, i < m → m < k → k ≤ tokens.length → ∃ left right,
      (p.chart tokens).cell ⟨i, m⟩ = .ok left ∧ (p.chart tokens).cell ⟨m, k⟩ = .ok right ∧
      ((p.trace tokens).events.toList.countP fun e =>
          e.shows "binary" [("start", toString i), ("mid", toString m), ("end", toString k)]) =
        (left.labels.map fun l => (right.labels.map fun r =>
          (p.index.binaryParents l.symbol r.symbol).length).sum).sum) ∧
    ((p.trace tokens).events.toList.filter fun e => e.message == "seed").map Event.fields =
      tokens.zipIdx.map (fun t => [spanField t.2 (t.2 + 1), ("token", t.1)]) ∧
    ∃ size, (tokens = [] → size = 0) ∧
      (∀ top, (p.chart tokens).cell ⟨0, tokens.length⟩ = .ok top → size = top.labels.length) ∧
      ((p.trace tokens).events.toList.filter fun e => e.message == "chart filled").map
        Event.fields = [[("top_labels", toString size)]] ∧
      ((p.trace tokens).events.toList.filter fun e => e.message == "filled chart").map
        Event.fields = [[("tokens", toString tokens.length), ("label_count", toString size),
          ("analyses", toString (p.recognize tokens).analyses)]] := by
  refine ⟨value_trace p tokens, ?_, ?_, ?_, (p.chart tokens).top.elim 0 Cell.size, ?_, ?_, ?_, ?_⟩
  · intro i k hik hk
    have hspan : Chart.Covers tokens.length ⟨i, k⟩ := ⟨hik, hk⟩
    refine ⟨_, cell_chart p hspan, ?_⟩
    rw [Event.countP_eq_countP_steps (fun e => Event.shows_tries_iff),
      Event.countP_eq_countP_steps (fun e => Event.shows_brings_iff),
      filterMap_stepAt?_trace p hspan, Cell.countP_bringsLabel_log, Cell.labels_finished]
    refine ⟨?_, Index.length_enumeration_le .., fun hrules => ?_⟩
    · rw [Cell.countP_triesUnary_log, Cell.labels_finished]
    · exact Index.length_enumeration_eq p.indexes hrules hik hk
  · intro i m k him hmk hk
    have hm : m ≤ tokens.length := by omega
    have hspan : Chart.Covers tokens.length ⟨i, k⟩ := ⟨Nat.lt_trans him hmk, hk⟩
    refine ⟨_, _, cell_chart p ⟨him, hm⟩, cell_chart p ⟨hmk, hk⟩, ?_⟩
    rw [Event.countP_eq_countP_steps (fun e => Event.shows_binaryAt_iff),
      filterMap_stepAt?_trace p hspan, Cell.countP_joinsAt_log _ _ him hmk, Cell.length_all]
  · rw [Event.map_fields_seed, filterMap_seed?_trace, List.map_map]
    rfl
  · rintro rfl
    rfl
  · intro top htop
    rw [Chart.top, show (p.chart tokens).size = tokens.length from Chart.size_fill .., htop]
    exact Array.length_toList.symm
  · rw [events_trace, List.filter_append, filter_message_filled p (by decide)]
    rfl
  · rw [events_trace, List.filter_append, filter_message_filled p (by decide)]
    rfl

/-- On two tokens the two names derive each other around the node in the middle: of two labels,
each is tried with one rule, once in vain. -/
theorem events_account_for_chart_looped :
    looped.grammar.rules.Nodup ∧ 0 < 1 ∧ 1 < 2 ∧ 2 ≤ ["x", "x"].length ∧
      (((looped.trace ["x", "x"]).events.toList.filter fun e =>
        e.shows "unary" [("span", "(0, 2)")] ||
          e.shows "unary cycle skipped" [("span", "(0, 2)")]).map Event.fields =
        [[("span", "(0, 2)"), ("lhs", "A"), ("child", "S")],
          [("span", "(0, 2)"), ("lhs", "S"), ("child", "A")]]) ∧
      (∃ cell, (looped.chart ["x", "x"]).cell ⟨0, 2⟩ = .ok cell ∧
        (cell.labels.map fun l => (looped.index.unaryParents l.symbol).length).sum = 2 ∧
        cell.labels.length = 2) ∧
      (∃ left right, (looped.chart ["x", "x"]).cell ⟨0, 1⟩ = .ok left ∧
        (looped.chart ["x", "x"]).cell ⟨1, 2⟩ = .ok right ∧
        (left.labels.map fun l => (right.labels.map fun r =>
          (looped.index.binaryParents l.symbol r.symbol).length).sum).sum = 1) ∧
      ((looped.trace ["x", "x"]).events.toList.filter fun e => e.message == "seed").map
        Event.fields =
          [[("span", "(0, 1)"), ("token", "x")], [("span", "(1, 2)"), ("token", "x")]] ∧
      ((looped.trace ["x", "x"]).events.toList.filter fun e => e.message == "chart filled").map
        Event.fields = [[("top_labels", "2")]] := by
  have hnodup : looped.grammar.rules.Nodup := by decide
  have htries : ((looped.trace ["x", "x"]).events.toList.filter fun e =>
      e.shows "unary" [spanField 0 2] || e.shows "unary cycle skipped" [spanField 0 2]).map
        Event.fields =
      [[("span", "(0, 2)"), ("lhs", "A"), ("child", "S")],
        [("span", "(0, 2)"), ("lhs", "S"), ("child", "A")]] := by
    decide +kernel
  have hbrings : ((looped.trace ["x", "x"]).events.toList.countP fun e =>
      e.shows "seed" [spanField 0 2] ||
        e.shows "binary" [("start", toString 0), ("end", toString 2)] ||
        e.shows "unary" [spanField 0 2]) = 2 := by
    decide +kernel
  have hjoins : ((looped.trace ["x", "x"]).events.toList.countP fun e =>
      e.shows "binary" [("start", toString 0), ("mid", toString 1), ("end", toString 2)]) = 1 := by
    decide +kernel
  obtain ⟨-, hcells, hcuts, hseeds, size, -, htop, hsize, -⟩ :=
    events_account_for_chart looped ["x", "x"]
  obtain ⟨cell, hcell, hsum, -, hlabels⟩ := hcells 0 2 (by decide) (by decide)
  obtain ⟨left, right, hleft, hright, hcut⟩ := hcuts 0 1 2 (by decide) (by decide) (by decide)
  rw [List.countP_eq_length_filter, ← List.length_map Event.fields, htries] at hsum
  have htwo := (hlabels hnodup).trans hbrings
  rw [htop cell hcell, htwo] at hsize
  exact ⟨hnodup, by decide, by decide, by decide, htries, ⟨cell, hcell, hsum.symm, htwo⟩,
    ⟨left, right, hleft, hright, hcut.symm.trans hjoins⟩, hseeds, hsize⟩

end Parser

end PhraseChart
