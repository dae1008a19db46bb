import PhraseChart.Proofs.CellLog
import PhraseChart.Proofs.Triangle
import PhraseChart.Trace

namespace PhraseChart

def Step.seed? : Step → Option String
  | seed token => some token
  | _ => none

namespace Event

/-- The step that is reported, if it is one for this span. -/
def stepAt? (span : Span) : Event → Option Step
  | cellStep s step => if s = span then some step else none
  | _ => none

/-- The token that is reported to be put into the chart, with its place. -/
def seed? : Event → Option (Span × String)
  | cellStep span step => step.seed?.map (span, ·)
  | _ => none

theorem filterMap_stepAt?_self (span : Span) (steps : List Step) :
    (steps.map (cellStep span)).filterMap (stepAt? span) = steps := by
  simp [List.filterMap_map, Function.comp_def, stepAt?]

theorem filterMap_stepAt?_of_ne {span other : Span} (h : span ≠ other) (steps : List Step) :
    (steps.map (cellStep span)).filterMap (stepAt? other) = [] := by
  simp [stepAt?, h]

theorem filterMap_seed? (span : Span) (steps : List Step) :
    (steps.map (cellStep span)).filterMap seed? = (steps.filterMap Step.seed?).map (span, ·) := by
  simp [List.filterMap_map, List.map_filterMap, Function.comp_def, seed?]

end Event

namespace Traced

/-- What adding a label does with one unary parent of it. -/
def addParent (ix : Index) (l : Label) (t : Traced Cell) (p : String) : Traced Cell :=
  if p ∈ l.derivation.chain then t.note (.unaryCycle p l.symbol)
  else (t.note (.unary p l.symbol)).add ix (.ofRule p [l.derivation])

theorem add_of_mem {ix : Index} {t : Traced Cell} {l : Label} (h : l ∈ t.value) :
    t.add ix l = t := by
  rw [add, if_pos h]

theorem add_of_not_mem {ix : Index} {t : Traced Cell} {l : Label} (h : l ∉ t.value) :
    t.add ix l = (ix.unaryParents l.symbol).foldl (addParent ix l) (t.push l) := by
  rw [add, if_neg h, List.foldl_subtype (g := addParent ix l)]
  · simp
  · intro t p hp
    simp [addParent]

/-- The cell at work is the one that is worked on without reports. -/
theorem value_add (ix : Index) (t : Traced Cell) (l : Label) :
    (t.add ix l).value = t.value.add ix l := by
  by_cases hl : l ∈ t.value
  · rw [add_of_mem hl, Cell.add_of_mem hl]
  rw [add_of_not_mem hl, Cell.add_of_not_mem hl]
  apply List.foldl_rel (r := fun (t : Traced Cell) (c : Cell) => t.value = c)
  · rfl
  · rintro p hp t _ rfl
    unfold addParent Cell.addParent
    split
    · rfl
    · rename_i hc
      have := Index.length_openHeads_lt hp hc
      exact value_add ix _ _
termination_by (ix.openHeads l.derivation).length

theorem value_addJoins (ix : Index) (middle : Nat) (joins : List Join) (t : Traced Cell) :
    (t.addJoins ix middle joins).value = t.value.addJoins ix middle joins := by
  have hnotes : (joins.foldl (fun t j => t.note (j.step middle)) t).value =
      joins.foldl (fun c j => c.note (j.step middle)) t.value :=
    (List.foldl_hom value fun _ _ => rfl).symm
  rw [addJoins, Cell.addJoins, ← hnotes]
  exact (List.foldl_hom value fun t j => (value_add ix t j.label).symm).symm

theorem value_inCell {f : Traced Cell → Traced Cell} {g : Cell → Cell}
    (h : ∀ t, (f t).value = g t.value) (t : Traced Chart) (span : Span) :
    (t.inCell span f).value = t.value.update span g := by
  unfold inCell
  split
  · rename_i hcell
    refine (Chart.update_eq_self fun cell hok => ?_).symm
    cases hcell.symm.trans hok
  · rename_i cell hcell
    rw [Chart.update_of_cell hcell]
    exact congrArg (fun cell => t.value.update span fun _ => cell) (h _)

theorem value_seed (ix : Index) (t : Traced Chart) (token : String) (k : Nat) :
    (t.seed ix token k).value = t.value.seed ix token k :=
  value_inCell (fun _ => value_add ix _ _) t _

theorem value_combine (ix : Index) (t : Traced Chart) (s : Split) :
    (t.combine ix s).value = t.value.combine ix s := by
  rw [combine, Chart.combine]
  cases t.value.cell s.left with
  | error _ => rfl
  | ok left =>
    cases t.value.cell s.right with
    | error _ => rfl
    | ok right => exact value_inCell (value_addJoins ix s.middle _) t s.whole

theorem value_filled (ix : Index) (tokens : List String) :
    (filled ix tokens).value = Chart.fill ix tokens := by
  have hseeded : ∀ t : Traced Chart, (tokens.zipIdx.foldl (fun t k => t.seed ix k.1 k.2) t).value =
      tokens.zipIdx.foldl (fun c k => c.seed ix k.1 k.2) t.value :=
    fun t => (List.foldl_hom value fun t k => (value_seed ix t k.1 k.2).symm).symm
  have hcombined : ∀ t : Traced Chart, ((splits tokens.length).foldl (combine ix) t).value =
      (splits tokens.length).foldl (Chart.combine ix) t.value :=
    fun t => (List.foldl_hom value fun t s => (value_combine ix t s).symm).symm
  rw [filled, hcombined, hseeded]
  rfl

/-- The log of the cell and the events go on with the same steps, and these tokens are put in. -/
structure Extends (tokens : List String) (t t' : Traced Cell) : Prop where
  span : t'.value.span = t.value.span
  steps : ∃ steps, t'.value.log.toList = t.value.log.toList ++ steps ∧
    t'.events.toList = t.events.toList ++ steps.map (.cellStep t.value.span) ∧
    steps.filterMap Step.seed? = tokens

namespace Extends

variable {tokens tokens' : List String} {t t' t'' : Traced Cell}

theorem refl (t : Traced Cell) : Extends [] t t := ⟨rfl, [], by simp⟩

theorem trans (h : Extends tokens t t') (h' : Extends tokens' t' t'') :
    Extends (tokens ++ tokens') t t'' := by
  obtain ⟨hspan, steps, hlog, hevents, htokens⟩ := h
  obtain ⟨hspan', steps', hlog', hevents', htokens'⟩ := h'
  refine ⟨hspan'.trans hspan, steps ++ steps', ?_, ?_, ?_⟩
  · rw [hlog', hlog, List.append_assoc]
  · rw [hevents', hevents, hspan, List.map_append, List.append_assoc]
  · rw [List.filterMap_append, htokens, htokens']

theorem push (t : Traced Cell) (l : Label) : Extends [] t (t.push l) :=
  ⟨rfl, [], by simp [Traced.push, Cell.push]⟩

theorem note (t : Traced Cell) (s : Step) : Extends s.seed?.toList t (t.note s) :=
  ⟨rfl, [s], by simp [Traced.note, Cell.note], by simp [Traced.note], by cases s <;> rfl⟩

theorem foldl {β : Type} {f : Traced Cell → β → Traced Cell} {bs : List β}
    (h : ∀ b ∈ bs, ∀ t, Extends [] t (f t b)) (t : Traced Cell) : Extends [] t (bs.foldl f t) :=
  List.foldlRecOn bs f (refl t) fun t' ht' b hb => ht'.trans (h b hb t')

end Extends

/-- Adding a label puts in no token. -/
theorem extends_add (ix : Index) (t : Traced Cell) (l : Label) : Extends [] t (t.add ix l) := by
  by_cases hl : l ∈ t.value
  · rw [add_of_mem hl]
    exact .refl t
  rw [add_of_not_mem hl]
  refine (Extends.push t l).trans (.foldl (fun p hp t => ?_) _)
  unfold addParent
  split
  · exact .note t (.unaryCycle p l.symbol)
  · rename_i hc
    have := Index.length_openHeads_lt hp hc
    exact (Extends.note t (.unary p l.symbol)).trans (extends_add ix _ _)
termination_by (ix.openHeads l.derivation).length

theorem extends_addJoins (ix : Index) (middle : Nat) (joins : List Join) (t : Traced Cell) :
    Extends [] t (t.addJoins ix middle joins) := by
  have hnote : ∀ j ∈ joins, ∀ t, Extends [] t (t.note (j.step middle)) :=
    fun j _ t => Extends.note t (.binary middle j.parent j.left.symbol j.right.symbol)
  exact (Extends.foldl hnote t).trans (.foldl (fun j _ t => extends_add ix t j.label) _)

theorem extends_seed (ix : Index) (token : String) (t : Traced Cell) :
    Extends [token] t ((t.note (.seed token)).add ix (.ofToken token)) :=
  (Extends.note t (.seed token)).trans (extends_add ix _ _)

/-- What holds at any moment of a fill: behind its beginning only steps have been reported, for each
span those in the log of its cell, and these tokens have been put in. -/
structure Faithful (n : Nat) (seeds : List (Span × String)) (t : Traced Chart) : Prop where
  aligned : t.value.Aligned n
  reported : ∃ steps : List (Span × Step),
    t.events.toList = .began n :: .entered :: steps.map fun s => .cellStep s.1 s.2
  steps : ∀ span cell, t.value.cell span = .ok cell →
    t.events.toList.filterMap (Event.stepAt? span) = cell.log.toList
  seeds : t.events.toList.filterMap Event.seed? = seeds

namespace Faithful

variable {n : Nat} {seeds : List (Span × String)} {t : Traced Chart}

theorem inCell (h : Faithful n seeds t) {span : Span} (hspan : Chart.Covers n span)
    {f : Traced Cell → Traced Cell} {tokens : List String} (hf : ∀ t, Extends tokens t (f t))
    (haligned : (t.inCell span f).value.Aligned n) :
    Faithful n (seeds ++ tokens.map (span, ·)) (t.inCell span f) := by
  obtain ⟨cell, hcell⟩ := h.aligned.exists_cell hspan
  have hown : cell.span = span := (h.aligned.cell_eq_ok.1 hcell).2
  obtain ⟨-, steps, hlog, hevents, htokens⟩ := hf ⟨cell, t.events⟩
  have hin : t.inCell span f = ⟨t.value.update span fun _ => (f ⟨cell, t.events⟩).value,
      (f ⟨cell, t.events⟩).events⟩ := by rw [Traced.inCell, hcell]
  dsimp only at hlog hevents
  rw [hown] at hevents
  refine ⟨haligned, ?_, fun other cell' hcell' => ?_, ?_⟩
  · obtain ⟨before, hbefore⟩ := h.reported
    refine ⟨before ++ steps.map (span, ·), ?_⟩
    rw [hin, hevents, hbefore]
    simp
  · rw [hin, Chart.cell_update] at hcell'
    rw [hin, hevents, List.filterMap_append]
    by_cases hother : other = span
    · subst hother
      rw [if_pos rfl, hcell] at hcell'
      cases hcell'
      rw [Event.filterMap_stepAt?_self, h.steps _ _ hcell, hlog]
    · rw [if_neg hother] at hcell'
      rw [Event.filterMap_stepAt?_of_ne (Ne.symm hother), List.append_nil, h.steps _ _ hcell']
  · rw [hin, hevents, List.filterMap_append, h.seeds, Event.filterMap_seed?, htokens]

theorem seed (h : Faithful n seeds t) (ix : Index) (token : String) {k : Nat} (hk : k < n) :
    Faithful n (seeds ++ [(⟨k, k + 1⟩, token)]) (t.seed ix token k) := by
  have haligned := h.aligned.edits (Chart.edits_seed ix t.value token k)
  rw [← value_seed] at haligned
  have hspan : Chart.Covers n ⟨k, k + 1⟩ := ⟨Nat.lt_succ_self k, hk⟩
  exact h.inCell hspan (extends_seed ix token) haligned

theorem combine (h : Faithful n seeds t) (ix : Index) (s : Split) :
    Faithful n seeds (t.combine ix s) := by
  have haligned := h.aligned.edits (Chart.edits_combine ix t.value s)
  rw [← value_combine] at haligned
  revert haligned
  unfold Traced.combine
  split
  · rename_i left right hleft hright
    intro haligned
    have hcovers := (Chart.cell_eq_ok_iff.1 hleft).1
    have hcovers' := (Chart.cell_eq_ok_iff.1 hright).1
    rw [h.aligned.size] at hcovers'
    have hspan : Chart.Covers n s.whole := ⟨Nat.lt_trans hcovers.1 hcovers'.1, hcovers'.2⟩
    have hwhole := h.inCell hspan (extends_addJoins ix s.middle (Join.all ix left right)) haligned
    rwa [List.map_nil, List.append_nil] at hwhole
  · exact fun _ => h

theorem seedAll (h : Faithful n seeds t) (ix : Index) {ts : List (String × Nat)}
    (hts : ∀ k ∈ ts, k.2 < n) :
    Faithful n (seeds ++ ts.map fun k => (⟨k.2, k.2 + 1⟩, k.1))
      (ts.foldl (fun t k => t.seed ix k.1 k.2) t) := by
  induction ts generalizing seeds t with
  | nil => rwa [List.map_nil, List.append_nil]
  | cons k ts ih =>
    obtain ⟨hk, hts⟩ := List.forall_mem_cons.1 hts
    have hall := ih (h.seed ix k.1 hk) hts
    rwa [List.append_assoc, List.singleton_append] at hall

theorem blank (n : Nat) : Faithful n [] ⟨.blank n, #[.began n, .entered]⟩ where
  aligned := Chart.aligned_blank n
  reported := ⟨[], rfl⟩
  steps span cell hcell := by
    rw [Chart.cell_blank] at hcell
    split at hcell
    · cases hcell
      rfl
    · cases hcell
  seeds := rfl

end Faithful

/-- The tokens are put in one after the other, and nothing else puts any in. -/
theorem faithful_filled (ix : Index) (tokens : List String) :
    Faithful tokens.length (tokens.zipIdx.map fun k => (⟨k.2, k.2 + 1⟩, k.1))
      (filled ix tokens) :=
  List.foldlRecOn _ _
    ((Faithful.blank tokens.length).seedAll ix fun _ hk => List.snd_lt_of_mem_zipIdx hk)
    fun _ ht s _ => ht.combine ix s

end Traced

end PhraseChart
