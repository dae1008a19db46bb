import PhraseChart.Proofs.Enumeration
import PhraseChart.Proofs.Derivations

namespace PhraseChart
open FirstOccurrences

namespace Rule

/-- Left with these rules only, the other list has the same rules in the same order, when
repetitions are left out of both. -/
def OrderedIn (rules more : List Rule) : Prop :=
  (more.filter fun r => r ∈ rules).eraseDups = rules.eraseDups

namespace OrderedIn

variable {rules more : List Rule}

theorem of_eraseDups_eq (h : rules.eraseDups = more.eraseDups) : OrderedIn rules more := by
  have hall : more.filter (fun r => r ∈ rules) = more := by
    rw [List.filter_eq_self]
    intro r hr
    exact decide_eq_true ((mem_iff_of_eraseDups_eq h r).2 hr)
  rw [OrderedIn, hall, h]

theorem append (rules extra : List Rule) : OrderedIn rules (rules ++ extra) := by
  have hall : rules.filter (fun r => r ∈ rules) = rules :=
    List.filter_eq_self.2 fun r hr => decide_eq_true hr
  have hsub : extra.filter (fun r => r ∈ rules) ⊆ rules :=
    fun r hr => of_decide_eq_true (List.mem_filter.1 hr).2
  rw [OrderedIn, List.filter_append, hall, eraseDups_append_of_subset hsub]

end OrderedIn

theorem eraseDups_headsOf (body : List Symbol) (rules : List Rule) :
    (headsOf body rules).eraseDups = headsOf body rules.eraseDups := by
  rw [headsOf, headsOf, eraseDups_map, eraseDups_filter]
  intro r hr r' hr' h
  have hbody : r.body = body := of_decide_eq_true (List.mem_filter.1 hr).2
  have hbody' : r'.body = body := of_decide_eq_true (List.mem_filter.1 hr').2
  obtain ⟨head, _⟩ := r
  obtain ⟨head', _⟩ := r'
  exact congrArg₂ Rule.mk h (hbody.trans hbody'.symm)

theorem headsOf_filter (body : List Symbol) (rules more : List Rule) :
    headsOf body (more.filter fun r => r ∈ rules) =
      (headsOf body more).filter fun p => ⟨p, body⟩ ∈ rules := by
  rw [headsOf, headsOf, List.filter_map, List.filter_filter, List.filter_filter]
  congr 1
  apply List.filter_congr
  rintro ⟨head, body'⟩ _
  by_cases h : body' = body
  · simp [h]
  · simp [h]

/-- The heads of a right-hand side come in the same order, too. -/
theorem OrderedIn.headsOf {rules more : List Rule} (h : OrderedIn rules more)
    (body : List Symbol) :
    ((Rule.headsOf body more).filter fun p => ⟨p, body⟩ ∈ rules).eraseDups =
      (Rule.headsOf body rules).eraseDups := by
  rw [← headsOf_filter, eraseDups_headsOf, h, ← eraseDups_headsOf]

end Rule

/-- Whether the derivation of a label follows the rules. -/
def Label.follows (rules : List Rule) (l : Label) : Bool := l.derivation.Follows rules

namespace Label

variable {rules more : List Rule}

theorem follows_iff {l : Label} : l.follows rules = true ↔ l.derivation.Follows rules :=
  decide_eq_true_iff

/-- All that a rule makes of parts that do not follow the rules is left out. -/
theorem filter_ofRule_of_not_follows {parts : List Derivation}
    (hparts : ¬∀ d ∈ parts, d.Follows rules) (heads : List String) :
    (heads.map fun p => ofRule p parts).filter (follows rules) = [] := by
  rw [List.filter_eq_nil_iff]
  intro l hl hf
  obtain ⟨p, _, rfl⟩ := List.mem_map.1 hl
  exact hparts (Derivation.everywhere_node_iff.1 (follows_iff.1 hf)).2

/-- Of what the larger list makes of parts that follow the smaller one, with some heads passed over,
there is left what the smaller list makes of them. -/
theorem eraseDups_filter_ofRule (h : Rule.OrderedIn rules more) {parts : List Derivation}
    (hparts : ∀ d ∈ parts, d.Follows rules) {body : List Symbol}
    (hbody : parts.map Derivation.root = body) (use : String → Bool) :
    ((((Rule.headsOf body more).filter use).map fun p => ofRule p parts).filter
        (follows rules)).eraseDups =
      (((Rule.headsOf body rules).filter use).map fun p => ofRule p parts).eraseDups := by
  have hrule : ∀ p, (ofRule p parts).follows rules = decide (⟨p, body⟩ ∈ rules) := by
    intro p
    rw [Bool.eq_iff_iff, follows_iff, decide_eq_true_iff, ← hbody]
    exact Derivation.everywhere_node_iff.trans (and_iff_left hparts)
  have hcomp : follows rules ∘ (fun p => ofRule p parts) = fun p => decide (⟨p, body⟩ ∈ rules) :=
    funext hrule
  have hinj : ∀ ps : List String, ∀ p ∈ ps, ∀ p' ∈ ps, ofRule p parts = ofRule p' parts → p = p' :=
    fun _ _ _ _ _ h => (ofRule_inj.1 h).1
  rw [List.filter_map, hcomp, eraseDups_map (hinj _), eraseDups_map (hinj _), List.filter_comm,
    eraseDups_filter, h.headsOf, ← eraseDups_filter]

end Label

namespace Index

variable {ix ix' : Index} {rules more : List Rule}

theorem symbol_of_mem_closure {l m : Label} (hl : l.symbol = l.derivation.root)
    (hm : m ∈ ix.closure l) : m.symbol = m.derivation.root := by
  rcases (mem_closure_iff.1 hm).cases_tail with rfl | ⟨w, _, hw⟩
  · exact hl
  · obtain ⟨p, _, _, rfl⟩ := mem_wraps.1 hw
    rfl

/-- The symbol of a label is the one at the root of its derivation. -/
theorem symbol_of_mem_enumeration {tokens : List String} {span : Span} {l : Label}
    (hl : l ∈ ix.enumeration tokens span) : l.symbol = l.derivation.root := by
  rw [enumeration] at hl
  split at hl
  · obtain ⟨token, _, hl⟩ := List.mem_flatMap.1 (List.mem_eraseDups.1 hl)
    exact symbol_of_mem_closure rfl hl
  · obtain ⟨m, _, hl⟩ := List.mem_flatMap.1 (List.mem_eraseDups.1 hl)
    obtain ⟨j, hj, hl⟩ := List.mem_flatMap.1 hl
    obtain ⟨_, _, _, _, p, _, rfl⟩ := mem_joins.1 hj
    exact symbol_of_mem_closure rfl hl

theorem follows_of_mem_closure {l m : Label} (hm : m ∈ ix.closure l)
    (hf : m.derivation.Follows rules) : l.derivation.Follows rules := by
  have hsteps := mem_closure_iff.1 hm
  clear hm
  induction hsteps using Relation.ReflTransGen.head_induction_on with
  | refl => exact hf
  | head hw _ ih =>
    obtain ⟨p, _, _, rfl⟩ := mem_wraps.1 hw
    exact (Derivation.follows_singleton_iff.1 ih).2

theorem filter_closure_of_not_follows {l : Label} (hl : ¬l.follows rules = true) :
    (ix.closure l).filter (Label.follows rules) = [] := by
  rw [List.filter_eq_nil_iff]
  intro m hm hf
  exact hl (Label.follows_iff.2 (follows_of_mem_closure hm (Label.follows_iff.1 hf)))

/-- What comes of elements that are not kept is not kept either, so they can be dropped before. -/
theorem filter_flatMap_filter {α β : Type*} {keep : α → Bool} {keep' : β → Bool} {f : α → List β}
    {xs : List α} (h : ∀ x ∈ xs, ¬keep x = true → (f x).filter keep' = []) :
    (xs.flatMap f).filter keep' = (xs.filter keep).flatMap fun x => (f x).filter keep' := by
  rw [List.filter_flatMap]
  induction xs with
  | nil => rfl
  | cons x xs ih =>
    rw [List.flatMap_cons, ih fun y hy => h y (List.mem_cons_of_mem _ hy)]
    by_cases hx : keep x = true
    · rw [List.filter_cons_of_pos hx, List.flatMap_cons]
    · rw [List.filter_cons_of_neg hx, h x List.mem_cons_self hx, List.nil_append]

section Ordered

variable (hix : ix.Indexes rules) (hix' : ix'.Indexes more) (h : Rule.OrderedIn rules more)
include hix hix' h

theorem eraseDups_filter_wraps {l : Label} (hl : l.symbol = l.derivation.root)
    (hf : l.derivation.Follows rules) :
    ((ix'.wraps l).filter (Label.follows rules)).eraseDups = (ix.wraps l).eraseDups := by
  rw [wraps, wraps, hix.unaryParents, hix'.unaryParents]
  apply Label.eraseDups_filter_ofRule h
  · intro d hd
    rwa [List.mem_singleton.1 hd]
  · rw [List.map_singleton, hl]

theorem eraseDups_filter_closure {l : Label} (hl : l.symbol = l.derivation.root)
    (hf : l.derivation.Follows rules) :
    ((ix'.closure l).filter (Label.follows rules)).eraseDups = (ix.closure l).eraseDups := by
  rw [closure_eq, closure_eq, List.filter_cons_of_pos (Label.follows_iff.2 hf),
    filter_flatMap_filter fun _ _ => filter_closure_of_not_follows]
  -- a wrap has one more head on its chain, so fewer rules are left to wrap it with
  refine eraseDups_append_congr (rfl : [l].eraseDups = [l].eraseDups) ?_
  apply eraseDups_flatMap_congr (eraseDups_filter_wraps hix hix' h hl hf)
  intro m hm
  obtain ⟨hm, hf⟩ := List.mem_filter.1 hm
  have hsymbol : m.symbol = m.derivation.root := by
    obtain ⟨p, _, _, rfl⟩ := mem_wraps.1 hm
    rfl
  exact eraseDups_filter_closure hsymbol (Label.follows_iff.1 hf)
termination_by (ix'.openHeads l.derivation).length
decreasing_by exact length_openHeads_of_mem_wraps hm

theorem eraseDups_filter_flatMap_closure {ls' ls : List Label}
    (hls' : ∀ l ∈ ls', l.symbol = l.derivation.root)
    (hls : (ls'.filter (Label.follows rules)).eraseDups = ls.eraseDups) :
    ((ls'.flatMap ix'.closure).filter (Label.follows rules)).eraseDups =
      (ls.flatMap ix.closure).eraseDups := by
  rw [filter_flatMap_filter fun _ _ => filter_closure_of_not_follows]
  apply eraseDups_flatMap_congr hls
  intro l hl
  obtain ⟨hl, hf⟩ := List.mem_filter.1 hl
  exact eraseDups_filter_closure hix hix' h (hls' l hl) (Label.follows_iff.1 hf)

theorem eraseDups_filter_joins {ls rs : List Label}
    (hls : ∀ l ∈ ls, l.symbol = l.derivation.root) (hrs : ∀ r ∈ rs, r.symbol = r.derivation.root) :
    ((ix'.joins ls rs).filter (Label.follows rules)).eraseDups =
      (ix.joins (ls.filter (Label.follows rules)) (rs.filter (Label.follows rules))).eraseDups := by
  -- a join of two labels follows the rules only if both labels do
  have hright : ∀ l r : Label, ¬r.follows rules = true →
      ((ix'.binaryParents l.symbol r.symbol).map fun p =>
        Label.ofRule p [l.derivation, r.derivation]).filter (Label.follows rules) = [] := by
    intro l r hr
    apply Label.filter_ofRule_of_not_follows
    exact fun hall => hr (Label.follows_iff.2 (hall r.derivation (by simp)))
  have hleft : ∀ l : Label, ¬l.follows rules = true →
      (rs.flatMap fun r => (ix'.binaryParents l.symbol r.symbol).map fun p =>
        Label.ofRule p [l.derivation, r.derivation]).filter (Label.follows rules) = [] := by
    intro l hl
    rw [List.filter_flatMap, List.flatMap_eq_nil_iff]
    intro r _
    apply Label.filter_ofRule_of_not_follows
    exact fun hall => hl (Label.follows_iff.2 (hall l.derivation (by simp)))
  rw [joins, joins, filter_flatMap_filter fun l _ => hleft l]
  apply eraseDups_flatMap_congr rfl
  intro l hl
  obtain ⟨hl, hlf⟩ := List.mem_filter.1 hl
  rw [filter_flatMap_filter fun r _ => hright l r]
  apply eraseDups_flatMap_congr rfl
  intro r hr
  obtain ⟨hr, hrf⟩ := List.mem_filter.1 hr
  have hparts : ∀ d ∈ [l.derivation, r.derivation], d.Follows rules := by
    simp [Label.follows_iff.1 hlf, Label.follows_iff.1 hrf]
  have hroots : [l.derivation, r.derivation].map Derivation.root = [l.symbol, r.symbol] := by
    simp [hls l hl, hrs r hr]
  rw [hix.binaryParents, hix'.binaryParents]
  have hheads := Label.eraseDups_filter_ofRule h hparts hroots fun _ => true
  rwa [List.filter_true, List.filter_true] at hheads

/-- Of the labels that the larger list of rules gives, those that follow the smaller list are the
ones that the smaller list gives. -/
theorem filter_enumeration (tokens : List String) (span : Span) :
    (ix'.enumeration tokens span).filter (Label.follows rules) = ix.enumeration tokens span := by
  by_cases hone : span.stop = span.start + 1
  · rw [enumeration, enumeration, if_pos hone, if_pos hone, ← eraseDups_filter]
    cases tokens[span.start]? with
    | none => rfl
    | some token =>
      rw [Option.toList_some, List.flatMap_singleton, List.flatMap_singleton]
      exact eraseDups_filter_closure hix hix' h rfl (.word token)
  · rw [enumeration_wide ix tokens hone, enumeration_wide ix' tokens hone, ← eraseDups_filter,
      List.filter_flatMap]
    apply eraseDups_flatMap_congr rfl
    intro m hm
    have := Span.mem_middles.1 hm
    apply eraseDups_filter_flatMap_closure hix hix' h
    · intro j hj
      obtain ⟨_, _, _, _, p, _, rfl⟩ := mem_joins.1 hj
      rfl
    · -- on both sides of the cut the spans are shorter
      rw [eraseDups_filter_joins hix hix' h (fun _ => symbol_of_mem_enumeration)
        (fun _ => symbol_of_mem_enumeration), filter_enumeration tokens ⟨span.start, m⟩,
        filter_enumeration tokens ⟨m, span.stop⟩]
termination_by span.stop - span.start

end Ordered

end Index

end PhraseChart
