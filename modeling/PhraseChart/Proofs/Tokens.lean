import PhraseChart.Proofs.TokenKinds

namespace PhraseChart
open Text

section
variable {w : WordClass} {s t : List Char} {c : Char}

theorem tokensOf_cons_of_isBlank (hc : isBlank c = true) (s : List Char) :
    w.tokensOf (c :: s) = w.tokensOf s := by
  rw [WordClass.tokensOf, if_pos hc]

theorem isToken_of_mem_tokensOf (h : t ∈ w.tokensOf s) : IsToken w t := by
  induction s using tokenInduction w with
  | nil => simp [WordClass.tokensOf] at h
  | blank c s hc ih => exact ih (tokensOf_cons_of_isBlank hc s ▸ h)
  | token kind u rest hu hend ih =>
    rw [tokensOf_append hu hend] at h
    rcases List.mem_cons.1 h with rfl | h
    · exact TokenKind.isToken_iff.2 ⟨kind, hu⟩
    · exact ih h

/-- A text may be cut at a blank: all that is said of blanks follows from this. -/
theorem tokensOf_append_blank (hc : isBlank c = true) (s rest : List Char) :
    w.tokensOf (s ++ c :: rest) = w.tokensOf s ++ w.tokensOf rest := by
  induction s using tokenInduction w with
  | nil => rw [List.nil_append, tokensOf_cons_of_isBlank hc, WordClass.tokensOf, List.nil_append]
  | blank d s hd ih =>
    rw [List.cons_append, tokensOf_cons_of_isBlank hd, tokensOf_cons_of_isBlank hd, ih]
  | token kind t after ht hend ih =>
    rw [List.append_assoc, tokensOf_append ht (hend.append_blank hc rest), ih,
      tokensOf_append ht hend, List.cons_append]

theorem tokensOf_blanks_append (h : Line.Blanks t) (s : List Char) :
    w.tokensOf (t ++ s) = w.tokensOf s := by
  induction t with
  | nil => rfl
  | cons c t ih =>
    obtain ⟨hc, ht⟩ := List.forall_mem_cons.1 h
    rw [List.cons_append, tokensOf_cons_of_isBlank hc, ih ht]

/-- Blanks alone hold no tokens. -/
theorem tokensOf_of_blanks (h : ∀ c ∈ s, isBlank c = true) : w.tokensOf s = [] := by
  rw [← List.append_nil s, tokensOf_blanks_append h, WordClass.tokensOf]

theorem tokensOf_append_blanks (h : ∀ c ∈ t, isBlank c = true) (s : List Char) :
    w.tokensOf (s ++ t) = w.tokensOf s := by
  cases t with
  | nil => rw [List.append_nil]
  | cons c t =>
    obtain ⟨hc, ht⟩ := List.forall_mem_cons.1 h
    rw [tokensOf_append_blank hc, tokensOf_of_blanks ht, List.append_nil]

theorem tokensOf_dropBlanks (s : List Char) : w.tokensOf (dropBlanks s) = w.tokensOf s := by
  obtain ⟨blanks, hblanks, hs⟩ := Line.exists_blanks s
  calc w.tokensOf (dropBlanks s) = w.tokensOf (blanks ++ dropBlanks s) :=
        (tokensOf_blanks_append hblanks _).symm
    _ = w.tokensOf s := by rw [← hs]

/-- Blanks at the ends of a text make no difference. -/
theorem tokensOf_trim (s : List Char) : w.tokensOf (trim s) = w.tokensOf s := by
  obtain ⟨blanks, hblanks, hs⟩ := Line.exists_blanks (dropBlanks s).reverse
  have hend : dropBlanks s = trim s ++ blanks.reverse := by
    rw [trim, ← List.reverse_append, ← hs, List.reverse_reverse]
  rw [← tokensOf_dropBlanks s, hend, tokensOf_append_blanks]
  intro c hc
  exact hblanks c (List.mem_reverse.1 hc)

end

theorem isToken_of_mem_tokenize {w : WordClass} {text token : String}
    (h : token ∈ w.tokenize text) :
    IsToken w token.toList := by
  obtain ⟨t, ht, rfl⟩ := List.mem_map.1 h
  rw [String.toList_ofList]
  exact isToken_of_mem_tokensOf ht

end PhraseChart
