import Mathlib.Data.List.Chain
import PhraseChart.Proofs.Tokens

namespace PhraseChart
open Text

/-- A token and the blanks in front of it. -/
@[ext] structure Piece where
  blanks : List Char
  token : List Char

def Piece.text (p : Piece) : List Char := p.blanks ++ p.token

/-- A text cut into pieces, with blanks alone behind the last of them. -/
structure Segmentation (w : WordClass) (s : List Char) (pieces : List Piece)
    (last : List Char) : Prop where
  text : s = pieces.flatMap Piece.text ++ last
  blanks : ∀ p ∈ pieces, Line.Blanks p.blanks
  last : Line.Blanks last
  fits : ∀ p ∈ pieces, ∃ kind : TokenKind, kind.Fits w p.token
  touching : pieces.IsChain fun p q => q.blanks = [] → MayTouch w p.token q.token

namespace Segmentation

variable {w : WordClass} {kind : TokenKind} {s t rest last : List Char} {p : Piece}
  {pieces : List Piece}

theorem nil_iff : Segmentation w s [] last ↔ s = last ∧ Line.Blanks last := by
  constructor
  · exact fun h => ⟨h.text, h.last⟩
  · rintro ⟨rfl, h⟩
    exact ⟨rfl, nofun, h, nofun, .nil⟩

theorem empty : Segmentation w [] [] [] := nil_iff.2 ⟨rfl, nofun⟩

theorem cons_iff : Segmentation w s (p :: pieces) last ↔
    ∃ rest, s = p.blanks ++ (p.token ++ rest) ∧ Line.Blanks p.blanks ∧
      (∃ kind : TokenKind, kind.Fits w p.token) ∧
      (∀ q ∈ pieces.head?, q.blanks = [] → MayTouch w p.token q.token) ∧
      Segmentation w rest pieces last := by
  constructor
  · intro h
    obtain ⟨hhead, htouching⟩ := List.isChain_cons.1 h.touching
    obtain ⟨hblanks, hblanks'⟩ := List.forall_mem_cons.1 h.blanks
    obtain ⟨hfits, hfits'⟩ := List.forall_mem_cons.1 h.fits
    refine ⟨_, ?_, hblanks, hfits, hhead, ⟨rfl, hblanks', h.last, hfits', htouching⟩⟩
    rw [h.text, List.flatMap_cons, Piece.text]
    simp only [List.append_assoc]
  · rintro ⟨rest, rfl, hblanks, hfits, hhead, h⟩
    refine ⟨?_, List.forall_mem_cons.2 ⟨hblanks, h.blanks⟩, h.last,
      List.forall_mem_cons.2 ⟨hfits, h.fits⟩, List.isChain_cons.2 ⟨hhead, h.touching⟩⟩
    rw [h.text, List.flatMap_cons, Piece.text]
    simp only [List.append_assoc]

/-- A token in front of pieces ends there if it may stand beside the first of them, or if there are
blanks between the two. -/
theorem endsAt_iff (h : Segmentation w rest pieces last) (ht : kind.Fits w t) :
    kind.EndsAt w t rest ↔ ∀ q ∈ pieces.head?, q.blanks = [] → MayTouch w t q.token := by
  cases pieces with
  | nil =>
    obtain ⟨rfl, hlast⟩ := nil_iff.1 h
    exact iff_of_true (.of_isBlank_head fun c hc => hlast c (List.mem_of_mem_head? hc)) nofun
  | cons q pieces =>
    obtain ⟨after, rfl, hblanks, ⟨kind', hq⟩, -⟩ := cons_iff.1 h
    have htouch : (∀ q' ∈ (q :: pieces).head?, q'.blanks = [] → MayTouch w t q'.token) ↔
        (q.blanks = [] → MayTouch w t q.token) := by simp
    rw [htouch]
    cases hq' : q.blanks with
    | nil =>
      rw [List.nil_append, TokenKind.endsAt_append_iff ht hq]
      simp
    | cons c cs =>
      refine iff_of_true (.of_isBlank_head fun d hd => ?_) nofun
      obtain rfl := Option.some.inj hd
      exact hblanks c (hq' ▸ List.mem_cons_self)

/-- The tokens of a segmented text are those of its pieces. -/
theorem tokensOf_eq (h : Segmentation w s pieces last) : w.tokensOf s = pieces.map Piece.token := by
  induction pieces generalizing s with
  | nil =>
    obtain ⟨rfl, hlast⟩ := nil_iff.1 h
    exact tokensOf_of_blanks hlast
  | cons p pieces ih =>
    obtain ⟨rest, rfl, hblanks, ⟨kind, hfits⟩, hhead, hrest⟩ := cons_iff.1 h
    rw [tokensOf_blanks_append hblanks, tokensOf_append hfits ((hrest.endsAt_iff hfits).2 hhead),
      ih hrest, List.map_cons]

/-- The tokens are what the text holds beside its blanks. -/
theorem flatten_tokens (h : Segmentation w s pieces last) :
    (pieces.map Piece.token).flatten = s.filter fun c => !isBlank c := by
  have hnone : ∀ {blanks : List Char}, Line.Blanks blanks →
      (blanks.filter fun c => !isBlank c) = [] := by
    intro blanks hblanks
    exact List.filter_eq_nil_iff.2 fun c hc => by simp [hblanks c hc]
  induction pieces generalizing s with
  | nil =>
    obtain ⟨rfl, hlast⟩ := nil_iff.1 h
    exact (hnone hlast).symm
  | cons p pieces ih =>
    obtain ⟨rest, rfl, hblanks, ⟨kind, hfits⟩, -, hrest⟩ := cons_iff.1 h
    have htoken : (p.token.filter fun c => !isBlank c) = p.token :=
      List.filter_eq_self.2 fun c hc => by simp [hfits.isBlank hc]
    rw [List.map_cons, List.flatten_cons, ih hrest, List.filter_append, List.filter_append,
      hnone hblanks, htoken, List.nil_append]

/-- A text has one segmentation at most. -/
theorem unique {pieces' : List Piece} {last' : List Char} (h : Segmentation w s pieces last)
    (h' : Segmentation w s pieces' last') : pieces' = pieces ∧ last' = last := by
  have htokens : pieces'.map Piece.token = pieces.map Piece.token :=
    h'.tokensOf_eq.symm.trans h.tokensOf_eq
  induction pieces generalizing s pieces' with
  | nil =>
    obtain rfl := List.map_eq_nil_iff.1 htokens
    exact ⟨rfl, (nil_iff.1 h').1.symm.trans (nil_iff.1 h).1⟩
  | cons p pieces ih =>
    obtain ⟨p', pieces', rfl, htoken, htokens⟩ := List.map_eq_cons_iff.1 htokens
    obtain ⟨rest, rfl, hblanks, ⟨kind, hfits⟩, -, hrest⟩ := cons_iff.1 h
    obtain ⟨rest', hs, hblanks', -, -, hrest'⟩ := cons_iff.1 h'
    rw [htoken] at hs
    -- both runs of blanks end where the token begins
    have hsame : p'.blanks = p.blanks := by
      rw [← takeWhile_run hblanks' hfits.endsRun_isBlank, ← hs,
        takeWhile_run hblanks hfits.endsRun_isBlank]
    rw [hsame] at hs
    obtain rfl := List.append_cancel_left (List.append_cancel_left hs)
    obtain ⟨rfl, hlast⟩ := ih hrest hrest' htokens
    obtain rfl : p' = p := Piece.ext hsame htoken
    exact ⟨rfl, hlast⟩

/-- A token is put in front. -/
theorem token (h : Segmentation w rest pieces last) (ht : kind.Fits w t)
    (hend : kind.EndsAt w t rest) :
    Segmentation w (t ++ rest) (⟨[], t⟩ :: pieces) last :=
  cons_iff.2 ⟨rest, rfl, nofun, ⟨kind, ht⟩, (h.endsAt_iff ht).1 hend, h⟩

/-- A blank is put in front. -/
theorem blank {c : Char} (h : Segmentation w s pieces last) (hc : isBlank c = true) :
    ∃ pieces' last', Segmentation w (c :: s) pieces' last' := by
  cases pieces with
  | nil =>
    obtain ⟨rfl, hlast⟩ := nil_iff.1 h
    exact ⟨[], c :: s, nil_iff.2 ⟨rfl, List.forall_mem_cons.2 ⟨hc, hlast⟩⟩⟩
  | cons p pieces =>
    obtain ⟨rest, rfl, hblanks, hrest⟩ := cons_iff.1 h
    exact ⟨⟨c :: p.blanks, p.token⟩ :: pieces, last,
      cons_iff.2 ⟨rest, rfl, List.forall_mem_cons.2 ⟨hc, hblanks⟩, hrest⟩⟩

end Segmentation

theorem exists_segmentation (w : WordClass) (s : List Char) :
    ∃ pieces last, Segmentation w s pieces last := by
  induction s using tokenInduction w with
  | nil => exact ⟨[], [], .empty⟩
  | blank c s hc ih =>
    obtain ⟨pieces, last, h⟩ := ih
    exact h.blank hc
  | token kind t rest ht hend ih =>
    obtain ⟨pieces, last, h⟩ := ih
    exact ⟨_, last, h.token ht hend⟩

theorem existsUnique_kind {w : WordClass} {t : List Char} (h : IsToken w t) :
    ∃! kind : TokenKind, kind.Fits w t := by
  obtain ⟨kind, hfits⟩ := TokenKind.isToken_iff.1 h
  exact ⟨kind, hfits, fun _ h' => h'.unique hfits⟩

/-- Each token is of one kind, and together they are the text without its blanks. They are the
pieces of the only segmentation that the text has. -/
theorem tokenize_segments (w : WordClass) (text : String) :
    (∀ token ∈ w.tokenize text, token ≠ "" ∧ ∃! kind : TokenKind, kind.Fits w token.toList) ∧
    String.join (w.tokenize text) = String.ofList (text.toList.filter fun c => !isBlank c) ∧
    ∃ pieces last, Segmentation w text.toList pieces last ∧
      w.tokenize text = pieces.map (fun p => String.ofList p.token) ∧
      ∀ pieces' last', Segmentation w text.toList pieces' last' →
        pieces' = pieces ∧ last' = last := by
  obtain ⟨pieces, last, h⟩ := exists_segmentation w text.toList
  refine ⟨fun token htoken => ?_, ?_, pieces, last, h, ?_, fun _ _ h' => h.unique h'⟩
  · have hkind := existsUnique_kind (isToken_of_mem_tokenize htoken)
    refine ⟨?_, hkind⟩
    rintro rfl
    obtain ⟨kind, hfits, -⟩ := hkind
    exact hfits.ne_nil rfl
  · apply String.toList_injective
    rw [String.toList_join, String.toList_ofList, ← h.flatten_tokens, ← h.tokensOf_eq,
      WordClass.tokenize]
    simp [List.flatMap_map]
  · rw [WordClass.tokenize, h.tokensOf_eq, List.map_map]
    rfl

/-- Apostrophes among punctuation, before a word and before a hyphen. -/
theorem tokenize_segments_apostrophes :
    "?'" ∈ tokenize " ''s?'s 'a-b" ∧
      (∃! kind : TokenKind, kind.Fits CharTables.unicode.words "?'".toList) ∧
      ∃ pieces last, Segmentation CharTables.unicode.words " ''s?'s 'a-b".toList pieces last ∧
        pieces.map (fun p => String.ofList p.token) = ["''", "s", "?'", "s", "'a", "-b"] := by
  have htokens : tokenize " ''s?'s 'a-b" = ["''", "s", "?'", "s", "'a", "-b"] := by decide +kernel
  have hmem : "?'" ∈ tokenize " ''s?'s 'a-b" := by simp [htokens]
  obtain ⟨hkinds, -, pieces, last, h, hpieces, -⟩ :=
    tokenize_segments CharTables.unicode.words " ''s?'s 'a-b"
  exact ⟨hmem, (hkinds _ hmem).2, pieces, last, h, hpieces.symm.trans htokens⟩

end PhraseChart
