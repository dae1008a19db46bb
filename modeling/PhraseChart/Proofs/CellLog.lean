import PhraseChart.Proofs.Exactness

namespace PhraseChart

/-- The step that is noted when a unary rule with this head is tried on a label. -/
def Label.stepTo (l : Label) (head : String) : Step :=
  if head ∈ l.derivation.chain then .unaryCycle head l.symbol else .unary head l.symbol

/-- The steps by which the unary rules are tried on a label, in rule order. -/
def Index.expansion (ix : Index) (l : Label) : List Step := (ix.unaryParents l.symbol).map l.stepTo

/-- The token of a span, if it has just one. -/
def Span.soleToken (s : Span) (tokens : List String) : List String :=
  if s.stop = s.start + 1 then tokens[s.start]?.toList else []

theorem Span.soleToken_eq (s : Span) (tokens : List String) :
    s.soleToken tokens = [] ∨ ∃ token, s.soleToken tokens = [token] := by
  unfold soleToken
  split
  · cases tokens[s.start]? with
    | none => exact .inl rfl
    | some token => exact .inr ⟨token, rfl⟩
  · exact .inl rfl

namespace Cell

/-- A change that appends labels. Its log goes on with steps of its own and with the expansion of
each new label, in whatever order. -/
structure Grows (ix : Index) (own : List Step) (c c' : Cell) : Prop where
  span : c'.span = c.span
  expands : ∃ new, c'.labels = c.labels ++ new ∧
    c'.log.toList.Perm (c.log.toList ++ (own ++ new.flatMap ix.expansion))

variable {ix : Index} {own own' : List Step} {c c' c'' : Cell} {tokens : List String}

namespace Grows

theorem refl (c : Cell) : Grows ix [] c c := ⟨rfl, [], by simp⟩

theorem trans (h : Grows ix own c c') (h' : Grows ix own' c' c'') :
    Grows ix (own ++ own') c c'' := by
  obtain ⟨hspan, new, hlabels, hlog⟩ := h
  obtain ⟨hspan', new', hlabels', hlog'⟩ := h'
  refine ⟨hspan'.trans hspan, new ++ new', ?_, ?_⟩
  · rw [hlabels', hlabels, List.append_assoc]
  · -- the steps of the second change move past the expansions of the first
    apply (hlog'.trans (hlog.append_right _)).trans
    rw [List.flatMap_append, List.append_assoc, List.append_assoc, List.append_assoc]
    apply List.Perm.append_left
    apply List.Perm.append_left
    rw [← List.append_assoc, ← List.append_assoc]
    exact List.perm_append_comm.append_right _

theorem note (c : Cell) (s : Step) : Grows ix [s] c (c.note s) :=
  ⟨rfl, [], by simp, by simp [Cell.note]⟩

theorem foldl {β : Type} {f : Cell → β → Cell} {own : β → List Step} {bs : List β}
    (h : ∀ b ∈ bs, ∀ c, Grows ix (own b) c (f c b)) (c : Cell) :
    Grows ix (bs.flatMap own) c (bs.foldl f c) := by
  induction bs generalizing c with
  | nil => exact refl c
  | cons b bs ih =>
    exact (h b List.mem_cons_self c).trans (ih (fun d hd => h d (List.mem_cons_of_mem _ hd)) _)

/-- The expansion of a label that has just been put in is what the label brings. -/
theorem push {l : Label} (h : Grows ix (ix.expansion l) (c.push l) c') : Grows ix [] c c' := by
  obtain ⟨hspan, new, hlabels, hlog⟩ := h
  refine ⟨hspan, l :: new, ?_, ?_⟩
  · rw [hlabels, labels_push, List.append_assoc, List.singleton_append]
  · rwa [List.nil_append, List.flatMap_cons]

end Grows

/-- Adding a label notes just the expansions of the labels that come in. -/
theorem grows_add (ix : Index) (c : Cell) (l : Label) : Grows ix [] c (c.add ix l) := by
  by_cases hl : l ∈ c
  · rw [add_of_mem hl]
    exact .refl c
  rw [add_of_not_mem hl]
  have hparent : ∀ p ∈ ix.unaryParents l.symbol, ∀ d,
      Grows ix [l.stepTo p] d (addParent ix l d p) := by
    intro p hp d
    unfold addParent Label.stepTo
    split
    · exact .note d _
    · rename_i hc
      have := Index.length_openHeads_lt hp hc
      exact (Grows.note d _).trans (grows_add ix _ _)
  have hparents := Grows.foldl hparent (c.push l)
  rw [← List.map_eq_flatMap] at hparents
  exact hparents.push
termination_by (ix.openHeads l.derivation).length

theorem grows_addJoins (ix : Index) (middle : Nat) (joins : List Join) (c : Cell) :
    Grows ix (joins.map (Join.step middle)) c (c.addJoins ix middle joins) := by
  have hnotes : Grows ix (joins.map (Join.step middle)) c
      (joins.foldl (fun c j => c.note (j.step middle)) c) := by
    rw [List.map_eq_flatMap]
    exact .foldl (fun j _ c => .note c (j.step middle)) c
  have hadds : ∀ d, Grows ix [] d (joins.foldl (fun c j => c.add ix j.label) d) := by
    intro d
    have hall := Grows.foldl (fun (j : Join) (_ : j ∈ joins) c => grows_add ix c j.label) d
    rwa [List.flatMap_eq_nil_iff.2 fun _ _ => rfl] at hall
  have hall := hnotes.trans (hadds _)
  rwa [List.append_nil] at hall

/-- The step that brings the token of a span, if it has just one. -/
def seedSteps (tokens : List String) (span : Span) : List Step :=
  (span.soleToken tokens).map .seed

/-- The steps that bring what is joined at the cuts of a span. -/
def joinSteps (ix : Index) (tokens : List String) (span : Span) : List Step :=
  span.splits.flatMap fun s =>
    (Join.all ix (finished ix tokens s.left) (finished ix tokens s.right)).map (Join.step s.middle)

theorem grows_seeded (ix : Index) (tokens : List String) (span : Span) :
    Grows ix (seedSteps tokens span) { span } (seeded ix tokens span) := by
  unfold seeded seedSteps Span.soleToken
  split
  · split
    · rename_i token htoken
      rw [htoken]
      exact (Grows.note _ _).trans (grows_add ix _ _)
    · rename_i hnone
      rw [hnone]
      exact .refl _
  · exact .refl _

theorem grows_finished (ix : Index) (tokens : List String) (span : Span) :
    Grows ix (seedSteps tokens span ++ joinSteps ix tokens span) { span }
      (finished ix tokens span) := by
  rw [finished_eq]
  exact (grows_seeded ix tokens span).trans
    (Grows.foldl (fun s _ c => grows_addJoins ix s.middle _ c) _)

@[simp] theorem span_finished (ix : Index) (tokens : List String) (span : Span) :
    (finished ix tokens span).span = span := (grows_finished ix tokens span).span

/-- The log of a finished cell has what brought labels from outside, and each of the labels
expanded once. -/
theorem log_finished_perm (ix : Index) (tokens : List String) (span : Span) :
    (finished ix tokens span).log.toList.Perm
      ((seedSteps tokens span ++ joinSteps ix tokens span) ++
        (ix.enumeration tokens span).flatMap ix.expansion) := by
  obtain ⟨-, new, hlabels, hlog⟩ := grows_finished ix tokens span
  rw [labels_finished] at hlabels
  rwa [hlabels]

end Cell

end PhraseChart
