import PhraseChart.Proofs.LineGrammar
import PhraseChart.Token

namespace PhraseChart
open Text

/-- One of the three kinds of token. -/
inductive IsToken (w : WordClass) : List Char → Prop
  | word {run : List Char} (hne : run ≠ []) (hrun : ∀ c ∈ run, w.isPart c = true) : IsToken w run
  | clitic {run : List Char} (hne : run ≠ []) (hrun : ∀ c ∈ run, w.holds c = true) :
    IsToken w ('\'' :: run)
  | punctuation {run : List Char} (hne : run ≠ []) (hrun : ∀ c ∈ run, w.isPunctuation c = true) :
    IsToken w run

inductive TokenKind where
  | word
  | clitic
  | punctuation
deriving DecidableEq, Repr

namespace TokenKind

/-- The token is of this kind as a whole. -/
def Fits (w : WordClass) : TokenKind → List Char → Prop
  | word, t => t ≠ [] ∧ ∀ c ∈ t, w.isPart c = true
  | clitic, t => ∃ run, t = '\'' :: run ∧ run ≠ [] ∧ ∀ c ∈ run, w.holds c = true
  | punctuation, t => t ≠ [] ∧ ∀ c ∈ t, w.isPunctuation c = true

/-- The characters that a token of this kind goes on with. -/
def goesOn (w : WordClass) : TokenKind → Char → Bool
  | word => w.isPart
  | clitic => w.holds
  | punctuation => w.isPunctuation

/-- The token ends where the rest begins: it does not go on, and if it is an apostrophe alone it is
not the start of a clitic. -/
structure EndsAt (w : WordClass) (kind : TokenKind) (t rest : List Char) : Prop where
  run : EndsRun (kind.goesOn w) rest
  apostrophe : t = ['\''] → EndsRun w.holds rest

end TokenKind

/-- Whether one token may follow another with no blank between them. -/
structure MayTouch (w : WordClass) (t u : List Char) : Prop where
  word_word : TokenKind.word.Fits w t → ¬TokenKind.word.Fits w u
  clitic_word : TokenKind.clitic.Fits w t → TokenKind.word.Fits w u → u.head? = some '-'
  punctuation_clitic : TokenKind.punctuation.Fits w t → ¬TokenKind.clitic.Fits w u
  punctuation_punctuation : TokenKind.punctuation.Fits w t → ¬TokenKind.punctuation.Fits w u
  apostrophe_word : t = ['\''] → TokenKind.word.Fits w u → EndsRun w.holds u

namespace WordClass

variable (w : WordClass) {c : Char}

theorem isPart_of_holds (h : w.holds c = true) : w.isPart c = true := by
  rw [isPart, h, Bool.or_true]

theorem isBlank_of_isPart (h : w.isPart c = true) : isBlank c = false := by
  rw [isPart, Bool.or_eq_true, beq_iff_eq] at h
  rcases h with rfl | h
  · decide
  · exact w.isBlank_of_holds h

theorem isBlank_of_isPunctuation (h : w.isPunctuation c = true) : isBlank c = false := by
  simp only [isPunctuation, Bool.and_eq_true, Bool.not_eq_true'] at h
  exact h.2

theorem isPart_of_isPunctuation (h : w.isPunctuation c = true) : w.isPart c = false := by
  simp only [isPunctuation, Bool.and_eq_true, Bool.not_eq_true'] at h
  exact h.1

theorem isPunctuation_eq (h : isBlank c = false) : w.isPunctuation c = !w.isPart c := by
  rw [isPunctuation, h, Bool.not_false, Bool.and_true]

theorem isPunctuation_apostrophe : w.isPunctuation '\'' = true := by
  have hblank : isBlank '\'' = false := by decide
  rw [w.isPunctuation_eq hblank, isPart, w.holds_apostrophe]
  rfl

end WordClass

namespace TokenKind

variable {w : WordClass} {kind kind' : TokenKind} {t u rest : List Char} {c : Char} {cs : List Char}

theorem isToken_iff : IsToken w t ↔ ∃ kind : TokenKind, kind.Fits w t := by
  constructor
  · rintro (⟨hne, hrun⟩ | ⟨hne, hrun⟩ | ⟨hne, hrun⟩)
    · exact ⟨word, hne, hrun⟩
    · exact ⟨clitic, _, rfl, hne, hrun⟩
    · exact ⟨punctuation, hne, hrun⟩
  · rintro ⟨_ | _ | _, h⟩
    · exact .word h.1 h.2
    · obtain ⟨run, rfl, hne, hrun⟩ := h
      exact .clitic hne hrun
    · exact .punctuation h.1 h.2

theorem Fits.exists_cons (h : kind.Fits w t) : ∃ c cs, t = c :: cs := by
  cases kind with
  | word => exact List.exists_cons_of_ne_nil h.1
  | clitic =>
    obtain ⟨run, ht, -⟩ := h
    exact ⟨_, run, ht⟩
  | punctuation => exact List.exists_cons_of_ne_nil h.1

theorem Fits.ne_nil (h : kind.Fits w t) : t ≠ [] := by
  obtain ⟨c, cs, rfl⟩ := h.exists_cons
  exact List.cons_ne_nil c cs

theorem Fits.isBlank (h : kind.Fits w t) (hc : c ∈ t) : isBlank c = false := by
  cases kind with
  | word => exact w.isBlank_of_isPart (h.2 c hc)
  | clitic =>
    obtain ⟨run, rfl, -, hrun⟩ := h
    rcases List.mem_cons.1 hc with rfl | hc
    · decide
    · exact w.isBlank_of_holds (hrun c hc)
  | punctuation => exact w.isBlank_of_isPunctuation (h.2 c hc)

theorem Fits.endsRun_isBlank (h : kind.Fits w t) : EndsRun Text.isBlank (t ++ rest) := by
  obtain ⟨c, cs, rfl⟩ := h.exists_cons
  rw [List.cons_append, endsRun_cons]
  exact h.isBlank List.mem_cons_self

/-- The first character tells the words from the other tokens. -/
theorem Fits.isPart_iff (h : kind.Fits w (c :: cs)) : w.isPart c = true ↔ kind = word := by
  cases kind with
  | word => exact iff_of_true (h.2 c List.mem_cons_self) rfl
  | clitic =>
    obtain ⟨run, hcons, -⟩ := h
    rw [(List.cons.inj hcons).1, w.isPart_of_isPunctuation w.isPunctuation_apostrophe]
    simp
  | punctuation =>
    rw [w.isPart_of_isPunctuation (h.2 c List.mem_cons_self)]
    simp

/-- The kinds have no token in common. -/
theorem Fits.unique (h : kind.Fits w t) (h' : kind'.Fits w t) : kind = kind' := by
  have hapart : clitic.Fits w t → ¬punctuation.Fits w t := by
    rintro ⟨run, rfl, hne, hrun⟩ ⟨-, hall⟩
    obtain ⟨d, ds, rfl⟩ := List.exists_cons_of_ne_nil hne
    have hd := w.isPart_of_isPunctuation (hall d (by simp))
    rw [w.isPart_of_holds (hrun d List.mem_cons_self)] at hd
    cases hd
  obtain ⟨c, cs, rfl⟩ := h.exists_cons
  have hword : kind = word ↔ kind' = word := h.isPart_iff.symm.trans h'.isPart_iff
  cases kind <;> cases kind' <;> simp at hword ⊢
  · exact hapart h h'
  · exact hapart h' h

theorem isBlank_of_goesOn (h : kind.goesOn w c = true) : isBlank c = false := by
  cases kind with
  | word => exact w.isBlank_of_isPart h
  | clitic => exact w.isBlank_of_holds h
  | punctuation => exact w.isBlank_of_isPunctuation h

theorem EndsAt.of_ne_punctuation (h : kind.Fits w t) (hne : kind ≠ punctuation)
    (hrun : EndsRun (kind.goesOn w) rest) : kind.EndsAt w t rest := by
  refine ⟨hrun, fun ht => ?_⟩
  have hfits : punctuation.Fits w t := by
    rw [ht]
    exact ⟨List.cons_ne_nil _ _, List.forall_mem_singleton.2 w.isPunctuation_apostrophe⟩
  exact absurd (h.unique hfits) hne

/-- Every token ends at a blank and at the end of the text. -/
theorem EndsAt.of_isBlank_head (h : ∀ c ∈ rest.head?, isBlank c = true) : kind.EndsAt w t rest := by
  have hrun : ∀ other : TokenKind, EndsRun (other.goesOn w) rest := by
    intro other c hc
    refine Bool.eq_false_iff.2 fun hgoes => ?_
    exact Bool.false_ne_true ((isBlank_of_goesOn hgoes).symm.trans (h c hc))
  exact ⟨hrun kind, fun _ => hrun clitic⟩

/-- A blank behind the text makes no difference to where a token ends. -/
theorem EndsAt.append_blank (h : kind.EndsAt w t rest) (hc : isBlank c = true) (s : List Char) :
    kind.EndsAt w t (rest ++ c :: s) := by
  cases rest with
  | nil =>
    refine .of_isBlank_head fun d hd => ?_
    obtain rfl := Option.some.inj hd
    exact hc
  | cons d ds => exact ⟨h.run, h.apostrophe⟩

/-- A token ends at another one where the two may stand side by side. -/
theorem endsAt_append_iff (ht : kind.Fits w t) (hu : kind'.Fits w u) (rest : List Char) :
    kind.EndsAt w t (u ++ rest) ↔ MayTouch w t u := by
  obtain ⟨d, ds, rfl⟩ := hu.exists_cons
  have hword : w.isPart d = true ↔ kind' = word := hu.isPart_iff
  have hpunctuation : w.isPunctuation d = !w.isPart d :=
    w.isPunctuation_eq (hu.isBlank List.mem_cons_self)
  rw [List.cons_append]
  constructor
  · rintro ⟨hrun, happ⟩
    rw [endsRun_cons] at hrun
    have hbehind : kind = punctuation → kind' = word := by
      rintro rfl
      have hpart : (!w.isPart d) = false := hpunctuation ▸ hrun
      rwa [Bool.not_eq_false', hword] at hpart
    refine ⟨fun ht' hu' => ?_, fun ht' hu' => ?_, fun ht' hu' => ?_, fun ht' hu' => ?_,
      fun hmark _ => endsRun_cons.2 (endsRun_cons.1 (happ hmark))⟩
    · obtain rfl := ht.unique ht'
      have hpart := hword.2 (hu.unique hu')
      rw [show w.isPart d = false from hrun] at hpart
      cases hpart
    · obtain rfl := ht.unique ht'
      have hpart := hword.2 (hu.unique hu')
      rw [WordClass.isPart, show w.holds d = false from hrun, Bool.or_false, beq_iff_eq] at hpart
      rw [hpart, List.head?_cons]
    · cases (hbehind (ht.unique ht')).symm.trans (hu.unique hu')
    · cases (hbehind (ht.unique ht')).symm.trans (hu.unique hu')
  · intro h
    refine ⟨endsRun_cons.2 (Bool.eq_false_iff.2 fun hd => ?_),
      fun hmark => endsRun_cons.2 (Bool.eq_false_iff.2 fun hd => ?_)⟩
    · cases kind with
      | word =>
        obtain rfl := hword.1 hd
        exact h.word_word ht hu
      | clitic =>
        obtain rfl := hword.1 (w.isPart_of_holds hd)
        obtain rfl := Option.some.inj (h.clitic_word ht hu)
        exact absurd hd (Bool.eq_false_iff.1 w.holds_hyphen)
      | punctuation =>
        rw [goesOn, hpunctuation, Bool.not_eq_true'] at hd
        cases kind' with
        | word =>
          rw [hword.2 rfl] at hd
          cases hd
        | clitic => exact h.punctuation_clitic ht hu
        | punctuation => exact h.punctuation_punctuation ht hu
    · obtain rfl := hword.1 (w.isPart_of_holds hd)
      exact Bool.eq_false_iff.1 (endsRun_cons.1 (h.apostrophe_word hmark hu)) hd

end TokenKind

section
variable {w : WordClass} {kind : TokenKind} {s t rest : List Char} {c : Char}

theorem opensClitic_eq_false_iff : w.opensClitic s = false ↔ EndsRun w.holds s := by
  cases s with
  | nil => exact iff_of_true rfl endsRun_nil
  | cons c s => rw [WordClass.opensClitic, endsRun_cons]

/-- A token that ends where the rest begins is the first one to be read. -/
theorem tokensOf_append (ht : kind.Fits w t) (hend : kind.EndsAt w t rest) :
    w.tokensOf (t ++ rest) = t :: w.tokensOf rest := by
  obtain ⟨c, run, rfl⟩ := ht.exists_cons
  have hblank : ¬isBlank c = true := Bool.eq_false_iff.1 (ht.isBlank List.mem_cons_self)
  have hpart : w.isPart c = true ↔ kind = .word := ht.isPart_iff
  rw [List.cons_append, WordClass.tokensOf, if_neg hblank]
  cases kind with
  | word =>
    have hrun : ∀ d ∈ run, w.isPart d = true := (List.forall_mem_cons.1 ht.2).2
    rw [if_pos (hpart.2 rfl), takeWhile_run hrun hend.run, dropWhile_run hrun hend.run]
  | clitic =>
    obtain ⟨_, hcons, hne, hrun⟩ := ht
    obtain ⟨rfl, rfl⟩ := List.cons.inj hcons
    have hopens : w.opensClitic (run ++ rest) = true := by
      obtain ⟨d, ds, rfl⟩ := List.exists_cons_of_ne_nil hne
      exact hrun d List.mem_cons_self
    rw [if_neg (mt hpart.1 (by decide)), if_pos ⟨rfl, hopens⟩, takeWhile_run hrun hend.run,
      dropWhile_run hrun hend.run]
  | punctuation =>
    have hrun : ∀ d ∈ run, w.isPunctuation d = true := (List.forall_mem_cons.1 ht.2).2
    have hopens : ¬(c = '\'' ∧ w.opensClitic (run ++ rest) = true) := by
      rintro ⟨rfl, hopens⟩
      cases run with
      | nil => exact Bool.eq_false_iff.1 (opensClitic_eq_false_iff.2 (hend.apostrophe rfl)) hopens
      | cons d ds =>
        have hd := w.isPart_of_isPunctuation (hrun d List.mem_cons_self)
        exact Bool.eq_false_iff.1 hd (w.isPart_of_holds hopens)
    rw [if_neg (mt hpart.1 (by decide)), if_neg hopens, takeWhile_run hrun hend.run,
      dropWhile_run hrun hend.run]

/-- A text that begins with no blank begins with a token. -/
theorem exists_token (w : WordClass) (hc : ¬isBlank c = true) (cs : List Char) :
    ∃ (kind : TokenKind) (t rest : List Char),
      c :: cs = t ++ rest ∧ kind.Fits w t ∧ kind.EndsAt w t rest := by
  have hcut : ∀ part : Char → Bool, c :: cs = (c :: cs.takeWhile part) ++ cs.dropWhile part :=
    fun part => by rw [List.cons_append, List.takeWhile_append_dropWhile]
  have htaken : ∀ part : Char → Bool, ∀ d ∈ cs.takeWhile part, part d = true :=
    fun part d hd => List.mem_takeWhile_imp hd
  by_cases hpart : w.isPart c = true
  · have hfits : TokenKind.word.Fits w (c :: cs.takeWhile w.isPart) :=
      ⟨List.cons_ne_nil _ _, List.forall_mem_cons.2 ⟨hpart, htaken _⟩⟩
    exact ⟨_, _, _, hcut w.isPart, hfits, .of_ne_punctuation hfits nofun (endsRun_dropWhile _ _)⟩
  by_cases hclitic : c = '\'' ∧ w.opensClitic cs = true
  · obtain ⟨rfl, hopens⟩ := hclitic
    have hne : cs.takeWhile w.holds ≠ [] := by
      cases cs with
      | nil => cases hopens
      | cons d ds => simp [show w.holds d = true from hopens]
    have hfits : TokenKind.clitic.Fits w ('\'' :: cs.takeWhile w.holds) :=
      ⟨_, rfl, hne, htaken _⟩
    exact ⟨_, _, _, hcut w.holds, hfits, .of_ne_punctuation hfits nofun (endsRun_dropWhile _ _)⟩
  · have hpunctuation : w.isPunctuation c = true := by simp [WordClass.isPunctuation, hc, hpart]
    refine ⟨.punctuation, _, _, hcut w.isPunctuation,
      ⟨List.cons_ne_nil _ _, List.forall_mem_cons.2 ⟨hpunctuation, htaken _⟩⟩,
      endsRun_dropWhile _ _, fun halone => ?_⟩
    -- with nothing taken behind the apostrophe, what is left begins there
    obtain ⟨rfl, htake⟩ := List.cons.inj halone
    have hrest : cs.dropWhile w.isPunctuation = cs := by
      rw [← List.nil_append (cs.dropWhile _), ← htake, List.takeWhile_append_dropWhile]
    rw [hrest, ← opensClitic_eq_false_iff, ← Bool.not_eq_true]
    exact fun hopens => hclitic ⟨rfl, hopens⟩

/-- A text is taken token by token, with the blanks between them. -/
theorem tokenInduction (w : WordClass) {P : List Char → Prop} (nil : P [])
    (blank : ∀ c s, isBlank c = true → P s → P (c :: s))
    (token : ∀ (kind : TokenKind) (t rest : List Char), kind.Fits w t → kind.EndsAt w t rest →
      P rest → P (t ++ rest)) (s : List Char) : P s := by
  match s with
  | [] => exact nil
  | c :: cs =>
    by_cases hc : isBlank c = true
    · exact blank c cs hc (tokenInduction w nil blank token cs)
    · obtain ⟨kind, t, rest, hcut, ht, hend⟩ := exists_token w hc cs
      have hlength : rest.length < (c :: cs).length := by
        have hpos := List.length_pos_iff.2 ht.ne_nil
        rw [hcut, List.length_append]
        omega
      exact hcut ▸ token kind t rest ht hend (tokenInduction w nil blank token rest)
termination_by s.length
decreasing_by
  · exact Nat.lt_succ_self _
  · exact hlength

end

end PhraseChart
