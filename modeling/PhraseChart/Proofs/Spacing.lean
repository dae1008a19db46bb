import Mathlib.Data.List.Forall2
import PhraseChart.Parser
import PhraseChart.Proofs.Segmentation

namespace PhraseChart
open Text

/-- The same token with other blanks in front of it, though not without any if there were some. -/
structure Piece.RespacedAs (p q : Piece) : Prop where
  token : q.token = p.token
  blanks : Line.Blanks q.blanks
  kept : q.blanks = [] → p.blanks = []

section
variable {w : WordClass} {s last last' : List Char} {pieces pieces' : List Piece}

theorem map_token_of_respaced (h : List.Forall₂ Piece.RespacedAs pieces pieces') :
    pieces'.map Piece.token = pieces.map Piece.token := by
  induction h with
  | nil => rfl
  | cons hpiece _ ih => rw [List.map_cons, List.map_cons, hpiece.token, ih]

theorem Segmentation.respaced (h : Segmentation w s pieces last)
    (hpieces : List.Forall₂ Piece.RespacedAs pieces pieces') (hlast : Line.Blanks last') :
    Segmentation w (pieces'.flatMap Piece.text ++ last') pieces' last' := by
  induction hpieces generalizing s with
  | nil => exact nil_iff.2 ⟨rfl, hlast⟩
  | @cons p q pieces pieces' hpiece hpieces ih =>
    obtain ⟨rest, -, -, hfits, hhead, hrest⟩ := cons_iff.1 h
    refine cons_iff.2 ⟨_, ?_, hpiece.blanks, hpiece.token ▸ hfits, ?_, ih hrest⟩
    · rw [List.flatMap_cons, Piece.text, List.append_assoc, List.append_assoc]
    · -- the next pieces are respaced as well, so they touch only if they did before
      intro q' hq' hnil
      cases hpieces with
      | nil => cases hq'
      | cons hnext _ =>
        obtain rfl := Option.some.inj hq'
        rw [hpiece.token, hnext.token]
        exact hhead _ rfl (hnext.kept hnil)

theorem tokensOf_respaced (h : Segmentation w s pieces last)
    (hpieces : List.Forall₂ Piece.RespacedAs pieces pieces') (hlast : Line.Blanks last') :
    w.tokensOf (pieces'.flatMap Piece.text ++ last') = w.tokensOf s := by
  rw [(h.respaced hpieces hlast).tokensOf_eq, map_token_of_respaced hpieces, h.tokensOf_eq]

theorem tokensOf_token {t : List Char} (h : IsToken w t) : w.tokensOf t = [t] := by
  obtain ⟨kind, hfits⟩ := TokenKind.isToken_iff.1 h
  have hend : kind.EndsAt w t [] := .of_isBlank_head nofun
  have hread : w.tokensOf (t ++ []) = t :: w.tokensOf [] := tokensOf_append hfits hend
  rwa [List.append_nil, WordClass.tokensOf] at hread

theorem tokenize_append_blank (a b : String) {c : Char} (hc : isBlank c = true) :
    w.tokenize (a ++ String.singleton c ++ b) = w.tokenize a ++ w.tokenize b := by
  have hcut : (a ++ String.singleton c ++ b).toList = a.toList ++ c :: b.toList := by simp
  rw [WordClass.tokenize, hcut, tokensOf_append_blank hc, List.map_append, ← WordClass.tokenize,
    ← WordClass.tokenize]

theorem tokenize_token {t : String} (h : IsToken w t.toList) : w.tokenize t = [t] := by
  rw [WordClass.tokenize, tokensOf_token h, List.map_singleton, String.ofList_toList]

/-- Tokens with a blank between any two neighbours are read as they are. -/
theorem tokenize_intercalate {ts : List String} (h : ∀ t ∈ ts, IsToken w t.toList) :
    w.tokenize (" ".intercalate ts) = ts := by
  induction ts with
  | nil =>
    rw [String.intercalate_nil, WordClass.tokenize, String.toList_empty, WordClass.tokensOf,
      List.map_nil]
  | cons t ts ih =>
    obtain ⟨ht, hts⟩ := List.forall_mem_cons.1 h
    cases ts with
    | nil => rw [String.intercalate_singleton, tokenize_token ht]
    | cons u ts =>
      have hblank : isBlank ' ' = true := by decide
      have hspace : " " = String.singleton ' ' := rfl
      rw [String.intercalate_cons_cons, hspace, tokenize_append_blank _ _ hblank, ← hspace, ih hts,
        tokenize_token ht, List.singleton_append]

end

/-- The tokens of two texts with a blank between them are those of the one and of the other. Blanks
may be added, changed and trimmed around tokens, and the tokens of a text with single spaces between
them are its tokens again, so they have the same analyses. -/
theorem tokenize_up_to_blanks (w : WordClass) :
    (∀ (a b : String) (c : Char), isBlank c = true →
      w.tokenize (a ++ String.singleton c ++ b) = w.tokenize a ++ w.tokenize b) ∧
    (∀ (text : String) (pieces pieces' : List Piece) (last last' : List Char),
      Segmentation w text.toList pieces last → List.Forall₂ Piece.RespacedAs pieces pieces' →
      Line.Blanks last' →
      w.tokenize (String.ofList (pieces'.flatMap Piece.text ++ last')) = w.tokenize text) ∧
    ∀ text : String, w.tokenize (String.ofList (trim text.toList)) = w.tokenize text ∧
      w.tokenize (" ".intercalate (w.tokenize text)) = w.tokenize text ∧
      ∀ p : Parser, p.analyze (w.tokenize (" ".intercalate (w.tokenize text))) =
        p.analyze (w.tokenize text) := by
  refine ⟨fun a b c hc => tokenize_append_blank a b hc,
    fun text pieces pieces' last last' h hpieces hlast => ?_, fun text => ?_⟩
  · rw [WordClass.tokenize, WordClass.tokenize, String.toList_ofList,
      tokensOf_respaced h hpieces hlast]
  · have hprinted : w.tokenize (" ".intercalate (w.tokenize text)) = w.tokenize text :=
      tokenize_intercalate fun t => isToken_of_mem_tokenize
    refine ⟨?_, hprinted, fun p => congrArg p.analyze hprinted⟩
    rw [WordClass.tokenize, WordClass.tokenize, String.toList_ofList, tokensOf_trim]

/-- An apostrophe that a blank keeps from opening a clitic, and a clitic that gets blanks on both
sides. -/
theorem tokenize_up_to_blanks_apostrophes :
    isBlank '\u3000' = true ∧
      tokenize ("?'" ++ String.singleton '\u3000' ++ "s") = ["?'", "s"] ∧
      tokenize " I\n 'm\t" = ["I", "'m"] ∧ tokenize "I 'm" = ["I", "'m"] := by
  let w : WordClass := CharTables.unicode.words
  have hblank : isBlank '\u3000' = true := by decide
  have hword : TokenKind.word.Fits w ['I'] :=
    ⟨List.cons_ne_nil _ _, List.forall_mem_singleton.2 (by decide +kernel)⟩
  have hclitic : TokenKind.clitic.Fits w ['\'', 'm'] :=
    ⟨['m'], rfl, List.cons_ne_nil _ _, List.forall_mem_singleton.2 (by decide +kernel)⟩
  have hend : TokenKind.word.EndsAt w ['I'] ['\'', 'm'] :=
    .of_ne_punctuation hword nofun (endsRun_cons.2 (by decide +kernel))
  have hbehind : Segmentation w ['\'', 'm'] [⟨[], ['\'', 'm']⟩] [] :=
    Segmentation.empty.token hclitic ⟨endsRun_nil, nofun⟩
  have hpieces : Segmentation w "I'm".toList [⟨[], ['I']⟩, ⟨[], ['\'', 'm']⟩] [] :=
    hbehind.token hword hend
  let spaced : List Piece := [⟨[' '], ['I']⟩, ⟨['\n', ' '], ['\'', 'm']⟩]
  have hfeed : Line.Blanks ['\n', ' '] :=
    List.forall_mem_cons.2 ⟨by decide, Line.blanks_space⟩
  have htab : Line.Blanks ['\t'] := List.forall_mem_singleton.2 (by decide)
  have hrespaced : List.Forall₂ Piece.RespacedAs [⟨[], ['I']⟩, ⟨[], ['\'', 'm']⟩] spaced :=
    .cons ⟨rfl, Line.blanks_space, fun _ => rfl⟩ (.cons ⟨rfl, hfeed, fun _ => rfl⟩ .nil)
  have htext : String.ofList (spaced.flatMap Piece.text ++ ['\t']) = " I\n 'm\t" := by decide
  have hmark : tokenize "?'" = ["?'"] := by decide +kernel
  have hletter : tokenize "s" = ["s"] := by decide +kernel
  have htokens : tokenize "I'm" = ["I", "'m"] := by decide +kernel
  have hjoined : " ".intercalate ["I", "'m"] = "I 'm" := by decide
  obtain ⟨hcut, hspaces, hprinted⟩ := tokenize_up_to_blanks w
  have hcutMark : tokenize ("?'" ++ String.singleton '\u3000' ++ "s") =
      tokenize "?'" ++ tokenize "s" := hcut _ _ _ hblank
  have hspaced : tokenize (String.ofList (spaced.flatMap Piece.text ++ ['\t'])) = tokenize "I'm" :=
    hspaces _ _ _ _ _ hpieces hrespaced htab
  have hprintedTokens : tokenize (" ".intercalate (tokenize "I'm")) = tokenize "I'm" :=
    (hprinted "I'm").2.1
  rw [hmark, hletter] at hcutMark
  rw [htext, htokens] at hspaced
  rw [htokens, hjoined] at hprintedTokens
  exact ⟨hblank, hcutMark, hspaced, hprintedTokens⟩

end PhraseChart
