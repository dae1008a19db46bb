import Mathlib.Data.List.Perm.Subperm
import PhraseChart.Proofs.CellLog

namespace PhraseChart
open FirstOccurrences

namespace Index

variable {ix : Index} {rules : List Rule} {tokens : List String} {i k : Nat}

/-- The token of a span, if it has just one. -/
def seeds (tokens : List String) (span : Span) : List Label :=
  (span.soleToken tokens).map .ofToken

/-- What the binary rules make at the cuts of a span. -/
def crossings (ix : Index) (tokens : List String) (span : Span) : List Label :=
  span.middles.flatMap fun m =>
    ix.joins (ix.enumeration tokens ⟨span.start, m⟩) (ix.enumeration tokens ⟨m, span.stop⟩)

/-- The labels of a span that no unary rule makes. -/
def sources (ix : Index) (tokens : List String) (span : Span) : List Label :=
  seeds tokens span ++ ix.crossings tokens span

theorem enumeration_eq (ix : Index) (tokens : List String) (span : Span) :
    ix.enumeration tokens span = ((ix.sources tokens span).flatMap ix.closure).eraseDups := by
  by_cases hone : span.stop = span.start + 1
  · -- a span of one token has no cuts
    have hcuts : ix.crossings tokens span = [] := by simp [crossings, Span.middles, hone]
    rw [enumeration, if_pos hone, sources, hcuts, List.append_nil, seeds, Span.soleToken,
      if_pos hone, List.flatMap_map]
  · rw [enumeration_wide ix tokens hone, sources, seeds, Span.soleToken, if_neg hone,
      List.map_nil, List.nil_append, crossings, List.flatMap_assoc]

theorem mem_enumeration_iff_source {span : Span} {x : Label} :
    x ∈ ix.enumeration tokens span ↔
      x ∈ ix.sources tokens span ∨ ∃ l ∈ ix.enumeration tokens span, x ∈ ix.wraps l := by
  constructor
  · rw [enumeration_eq, List.mem_eraseDups, List.mem_flatMap]
    rintro ⟨source, hsource, hx⟩
    rcases (mem_closure_iff.1 hx).cases_tail with rfl | ⟨l, hl, hx⟩
    · exact .inl hsource
    · exact .inr ⟨l, List.mem_eraseDups.2 (List.mem_flatMap.2 ⟨source, hsource,
        mem_closure_iff.2 hl⟩), hx⟩
  · rintro (hx | ⟨l, hl, hx⟩)
    · rw [enumeration_eq, List.mem_eraseDups, List.mem_flatMap]
      exact ⟨x, hx, self_mem_closure ix x⟩
    · exact closedFrom_enumeration ix tokens span l hl (Nat.zero_le _)
        (mem_closure_iff.2 (.single hx))

/-- All the ways in which labels of a span come about. -/
def arrivals (ix : Index) (tokens : List String) (span : Span) : List Label :=
  ix.sources tokens span ++ (ix.enumeration tokens span).flatMap ix.wraps

theorem mem_arrivals_iff {span : Span} {x : Label} :
    x ∈ ix.arrivals tokens span ↔ x ∈ ix.enumeration tokens span := by
  rw [arrivals, List.mem_append, List.mem_flatMap, ← mem_enumeration_iff_source]

theorem length_enumeration_le (ix : Index) (tokens : List String) (span : Span) :
    (ix.enumeration tokens span).length ≤ (ix.arrivals tokens span).length :=
  (List.subperm_of_subset (nodup_enumeration ix tokens span)
    fun _ hx => mem_arrivals_iff.2 hx).length_le

theorem nodup_headsOf (hrules : rules.Nodup) (body : List Symbol) :
    (Rule.headsOf body rules).Nodup := by
  apply List.Nodup.map_on _ (hrules.filter _)
  intro r hr r' hr' hhead
  obtain ⟨head, body'⟩ := r
  obtain ⟨head', body''⟩ := r'
  have hbody : body' = body := of_decide_eq_true (List.mem_filter.1 hr).2
  have hbody' : body'' = body := of_decide_eq_true (List.mem_filter.1 hr').2
  rw [Rule.mk.injEq]
  exact ⟨hhead, hbody.trans hbody'.symm⟩

theorem nodup_map_ofRule {heads : List String} (h : heads.Nodup) (parts : List Derivation) :
    (heads.map fun p => Label.ofRule p parts).Nodup :=
  h.map fun _ _ he => (Label.ofRule_inj.1 he).1

theorem nodup_wraps (hix : ix.Indexes rules) (hrules : rules.Nodup) (l : Label) :
    (ix.wraps l).Nodup := by
  apply nodup_map_ofRule
  rw [hix.unaryParents]
  exact (nodup_headsOf hrules _).filter _

/-- Labels with different derivations on either side give different labels. -/
theorem nodup_joins (hix : ix.Indexes rules) (hrules : rules.Nodup) {u v : List String}
    {ls rs : List Label} (hls : ls.Nodup) (hrs : rs.Nodup) (hl : ∀ l ∈ ls, l.Analyzes rules u)
    (hr : ∀ r ∈ rs, r.Analyzes rules v) : (ix.joins ls rs).Nodup := by
  apply nodup_flatMap hls
  · intro l _
    apply nodup_flatMap hrs
    · intro r _
      apply nodup_map_ofRule
      rw [hix.binaryParents]
      exact nodup_headsOf hrules _
    · intro r hr' r' hr'' x hx hx'
      obtain ⟨p, _, rfl⟩ := List.mem_map.1 hx
      obtain ⟨p', _, he⟩ := List.mem_map.1 hx'
      obtain ⟨-, -, hright⟩ := Label.ofRule_pair_inj.1 he
      exact (hr r hr').eq_of_derivation_eq (hr r' hr'') hright.symm
  · intro l hl' l' hl'' x hx hx'
    obtain ⟨r, _, hx⟩ := List.mem_flatMap.1 hx
    obtain ⟨r', _, hx'⟩ := List.mem_flatMap.1 hx'
    obtain ⟨p, _, rfl⟩ := List.mem_map.1 hx
    obtain ⟨p', _, he⟩ := List.mem_map.1 hx'
    obtain ⟨-, hleft, -⟩ := Label.ofRule_pair_inj.1 he
    exact (hl l hl').eq_of_derivation_eq (hl l' hl'') hleft.symm

theorem nodup_crossings (hix : ix.Indexes rules) (hrules : rules.Nodup) (hk : k ≤ tokens.length) :
    (ix.crossings tokens ⟨i, k⟩).Nodup := by
  have hmiddles : (Span.middles ⟨i, k⟩).Nodup := List.nodup_range'
  apply nodup_flatMap hmiddles
  · intro m hm
    obtain ⟨him, hmk⟩ : i < m ∧ m < k := Span.mem_middles.1 hm
    exact nodup_joins hix hrules (nodup_enumeration ..) (nodup_enumeration ..)
      (fun l hl => analyzes_of_mem_enumeration hix him (by omega) hl)
      (fun r hr => analyzes_of_mem_enumeration hix hmk hk hr)
  · intro m hm m' hm' x hx hx'
    obtain ⟨him, hmk⟩ : i < m ∧ m < k := Span.mem_middles.1 hm
    obtain ⟨him', hmk'⟩ : i < m' ∧ m' < k := Span.mem_middles.1 hm'
    have hmn : m ≤ tokens.length := by omega
    have hmn' : m' ≤ tokens.length := by omega
    obtain ⟨l, hl, r, _, p, _, rfl⟩ := mem_joins.1 hx
    obtain ⟨l', hl', r', _, p', _, he⟩ := mem_joins.1 hx'
    obtain ⟨-, hleft, -⟩ := Label.ofRule_pair_inj.1 he
    -- the left part of the label says where its cut is
    apply Span.stop_eq_of_cover_eq (Nat.le_of_lt him) (Nat.le_of_lt him') hmn hmn'
    rw [← (analyzes_of_mem_enumeration hix him hmn hl).tokens, ← hleft,
      (analyzes_of_mem_enumeration hix him' hmn' hl').tokens]

theorem nodup_sources (hix : ix.Indexes rules) (hrules : rules.Nodup) (hk : k ≤ tokens.length) :
    (ix.sources tokens ⟨i, k⟩).Nodup := by
  by_cases hone : k = i + 1
  · have hcuts : ix.crossings tokens ⟨i, k⟩ = [] := by simp [crossings, Span.middles, hone]
    rw [sources, hcuts, List.append_nil, seeds]
    rcases Span.soleToken_eq ⟨i, k⟩ tokens with h | ⟨token, h⟩
    · rw [h]
      exact List.nodup_nil
    · rw [h]
      exact List.nodup_singleton _
  · have hseeds : seeds tokens ⟨i, k⟩ = [] := by simp [seeds, Span.soleToken, hone]
    rw [sources, hseeds, List.nil_append]
    exact nodup_crossings hix hrules hk

/-- A label that no unary rule makes has no node of one part at its root. -/
theorem ne_ofRule_of_mem_sources {span : Span} {x : Label} (hx : x ∈ ix.sources tokens span)
    (p : String) (d : Derivation) : x ≠ .ofRule p [d] := by
  rintro rfl
  rcases List.mem_append.1 hx with hx | hx
  · obtain ⟨token, _, he⟩ := List.mem_map.1 hx
    cases he
  · obtain ⟨m, _, hx⟩ := List.mem_flatMap.1 hx
    obtain ⟨l, _, r, _, p', _, he⟩ := mem_joins.1 hx
    cases (Label.ofRule_inj.1 he).2

theorem nodup_arrivals (hix : ix.Indexes rules) (hrules : rules.Nodup) (hik : i < k)
    (hk : k ≤ tokens.length) : (ix.arrivals tokens ⟨i, k⟩).Nodup := by
  apply (nodup_sources hix hrules hk).append
  · apply nodup_flatMap (nodup_enumeration ..) fun l _ => nodup_wraps hix hrules l
    intro l hl m hm x hx hx'
    obtain ⟨p, _, _, rfl⟩ := mem_wraps.1 hx
    obtain ⟨p', _, _, he⟩ := mem_wraps.1 hx'
    exact (analyzes_of_mem_enumeration hix hik hk hl).eq_of_derivation_eq
      (analyzes_of_mem_enumeration hix hik hk hm) (Label.ofRule_singleton_inj.1 he).2.symm
  · intro x hx hx'
    obtain ⟨l, _, hx'⟩ := List.mem_flatMap.1 hx'
    obtain ⟨p, _, _, rfl⟩ := mem_wraps.1 hx'
    exact ne_ofRule_of_mem_sources hx p _ rfl

theorem length_enumeration_eq (hix : ix.Indexes rules) (hrules : rules.Nodup) (hik : i < k)
    (hk : k ≤ tokens.length) :
    (ix.enumeration tokens ⟨i, k⟩).length = (ix.arrivals tokens ⟨i, k⟩).length := by
  apply Nat.le_antisymm (length_enumeration_le ..)
  exact (List.subperm_of_subset (nodup_arrivals hix hrules hik hk)
    fun _ hx => mem_arrivals_iff.1 hx).length_le

end Index

end PhraseChart
