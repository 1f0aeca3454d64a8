import Mathlib
import SchemaDrift.Proofs.FaultPlaces

/-!
Tokens tile a text. They stand one behind the other on character boundaries; each but the last takes
up some of the text, and the last one is its end. What lies between them is blanks and comments, and
all of these: no token begins with one.
-/

namespace SchemaDrift

open Text (isBlank byteSize)

/-! ### Blanks and comments -/

/-- A line ends before the text. -/
def EndsLine (after : List Char) : Prop := ∀ c ∈ after.head?, c = '\n'

/-- The text does not close a block comment. -/
def KeepsOpen (body : List Char) : Prop := ¬ ['*', '/'] <:+: body

/-- A comment before the text that follows it: from `#`, or from two dashes with a blank or nothing
behind them, up to the end of the line; or between the marks of a block. -/
inductive IsComment : List Char → List Char → Prop where
  | hash {body after : List Char} (hbody : '\n' ∉ body) (hend : EndsLine after) :
      IsComment ('#' :: body) after
  | dashes {body after : List Char} (hbody : '\n' ∉ body) (hend : EndsLine after)
      (hblank : ∀ c ∈ (body ++ after).head?, isBlank c = true) :
      IsComment ('-' :: '-' :: body) after
  | block {body after : List Char} (hbody : KeepsOpen body) :
      IsComment ('/' :: '*' :: body ++ ['*', '/']) after
  /-- What is never closed is a comment up to the end of the text. -/
  | openBlock {body after : List Char} (hbody : KeepsOpen body) (hend : after = []) :
      IsComment ('/' :: '*' :: body) after

/-- Blanks and comments before the text that follows them. -/
inductive IsGap : List Char → List Char → Prop where
  | nil {after : List Char} : IsGap [] after
  | blank {c : Char} {g after : List Char} (hc : isBlank c = true) (h : IsGap g after) :
      IsGap (c :: g) after
  | comment {w g after : List Char} (hw : IsComment w (g ++ after)) (h : IsGap g after) :
      IsGap (w ++ g) after

/-- What is dropped in a mode before the text that follows: in a comment its rest, then a gap. -/
def IsDropped : GapMode → List Char → List Char → Prop
  | .blanks, g, after => IsGap g after
  | .line, g, after =>
    ∃ body g', g = body ++ g' ∧ '\n' ∉ body ∧ EndsLine (g' ++ after) ∧ IsGap g' after
  | .block, g, after =>
    (∃ body g', g = body ++ '*' :: '/' :: g' ∧ KeepsOpen body ∧ IsGap g' after) ∨
      KeepsOpen g ∧ after = []

lemma opensComment_iff {rest : List Char} :
    opensComment rest = true ↔ ∀ c ∈ rest.head?, isBlank c = true := by
  rw [opensComment, Option.all_eq_true_iff_get]
  cases rest <;> simp

lemma keepsOpen_nil : KeepsOpen [] := by simp [KeepsOpen]

lemma KeepsOpen.cons {c : Char} {body : List Char} (h : KeepsOpen body)
    (hc : ∀ more, c = '*' → body ≠ '/' :: more) : KeepsOpen (c :: body) := by
  rw [KeepsOpen, List.infix_cons_iff, not_or]
  refine ⟨fun hprefix => ?_, h⟩
  obtain ⟨rfl, more, rfl⟩ := List.cons_prefix_cons.1 hprefix
  exact hc more rfl rfl

namespace IsDropped

variable {g after : List Char} {c : Char}

lemma nil (m : GapMode) : IsDropped m [] [] := by
  cases m with
  | blanks => exact IsGap.nil
  | line => exact ⟨[], [], rfl, List.not_mem_nil, by simp [EndsLine], .nil⟩
  | block => exact .inr ⟨keepsOpen_nil, rfl⟩

lemma hash (h : IsDropped .line g after) : IsDropped .blanks ('#' :: g) after := by
  obtain ⟨body, g, rfl, hbody, hend, hgap⟩ := h
  exact .comment (.hash hbody hend) hgap

lemma dashes (h : IsDropped .line g after) (hopens : opensComment (g ++ after) = true) :
    IsDropped .blanks ('-' :: '-' :: g) after := by
  obtain ⟨body, g, rfl, hbody, hend, hgap⟩ := h
  rw [List.append_assoc] at hopens
  exact .comment (.dashes hbody hend (opensComment_iff.1 hopens)) hgap

lemma slash (h : IsDropped .block g after) : IsDropped .blanks ('/' :: '*' :: g) after := by
  obtain ⟨body, g, rfl, hbody, hgap⟩ | ⟨hopen, rfl⟩ := h
  · have hcomment : IsGap ('/' :: '*' :: body ++ ['*', '/'] ++ g) after :=
      .comment (.block hbody) hgap
    rwa [List.append_assoc] at hcomment
  · have hcomment : IsGap ('/' :: '*' :: g ++ []) [] := .comment (.openBlock hopen rfl) .nil
    rwa [List.append_nil] at hcomment

lemma lineFeed (h : IsDropped .blanks g after) : IsDropped .line ('\n' :: g) after :=
  ⟨[], '\n' :: g, rfl, List.not_mem_nil, by simp [EndsLine], .blank (by decide) h⟩

lemma inLine (h : IsDropped .line g after) (hc : c ≠ '\n') : IsDropped .line (c :: g) after := by
  obtain ⟨body, g, rfl, hbody, hend, hgap⟩ := h
  exact ⟨c :: body, g, rfl, by simp [hbody, hc.symm], hend, hgap⟩

lemma close (h : IsDropped .blanks g after) : IsDropped .block ('*' :: '/' :: g) after :=
  .inl ⟨[], g, rfl, keepsOpen_nil, h⟩

lemma inBlock (h : IsDropped .block g after) (hc : ∀ more, c = '*' → g ≠ '/' :: more) :
    IsDropped .block (c :: g) after := by
  obtain ⟨body, g, rfl, hbody, hgap⟩ | ⟨hopen, rfl⟩ := h
  · refine .inl ⟨c :: body, g, rfl, hbody.cons fun more hstar hmore => ?_, hgap⟩
    exact hc _ hstar (by rw [hmore, List.cons_append])
  · exact .inr ⟨hopen.cons hc, rfl⟩

end IsDropped

/-- A run through a gap is made of the steps above, in whatever mode it begins. -/
lemma exists_isDropped (m : GapMode) (cs : List Char) :
    ∃ g, cs = g ++ dropGap m cs ∧ IsDropped m g (dropGap m cs) := by
  fun_induction dropGap m cs with
  | case1 m => exact ⟨[], rfl, .nil m⟩
  | case2 rest ih =>
    -- a line comment from a hash
    obtain ⟨g, hg, h⟩ := ih
    exact ⟨'#' :: g, by rw [List.cons_append, ← hg], h.hash⟩
  | case3 rest hopens ih =>
    -- a line comment from two dashes
    obtain ⟨g, hg, h⟩ := ih
    exact ⟨'-' :: '-' :: g, by rw [List.cons_append, List.cons_append, ← hg],
      h.dashes (by rwa [← hg])⟩
  | case4 | case7 => exact ⟨[], rfl, IsGap.nil⟩
  | case5 rest ih =>
    -- the opening of a block comment
    obtain ⟨g, hg, h⟩ := ih
    exact ⟨'/' :: '*' :: g, by rw [List.cons_append, List.cons_append, ← hg], h.slash⟩
  | case6 c rest _ _ _ hblank ih =>
    obtain ⟨g, hg, h⟩ := ih
    exact ⟨c :: g, by rw [List.cons_append, ← hg], .blank hblank h⟩
  | case8 rest ih =>
    -- the line feed behind a line comment
    obtain ⟨g, hg, h⟩ := ih
    exact ⟨'\n' :: g, by rw [List.cons_append, ← hg], h.lineFeed⟩
  | case9 c rest hc ih =>
    obtain ⟨g, hg, h⟩ := ih
    exact ⟨c :: g, by rw [List.cons_append, ← hg], h.inLine hc⟩
  | case10 rest ih =>
    -- the closing of a block comment
    obtain ⟨g, hg, h⟩ := ih
    exact ⟨'*' :: '/' :: g, by rw [List.cons_append, List.cons_append, ← hg], h.close⟩
  | case11 c rest hclose ih =>
    -- within a block comment
    obtain ⟨g, hg, h⟩ := ih
    refine ⟨c :: g, by rw [List.cons_append, ← hg], h.inBlock fun more hc hmore => ?_⟩
    exact hclose _ hc (by rw [hg, hmore, List.cons_append])

lemma isGap_consumed (cs : List Char) :
    IsGap (consumed cs (dropGap .blanks cs)) (dropGap .blanks cs) := by
  obtain ⟨g, hg, h⟩ := exists_isDropped .blanks cs
  have hconsumed := consumed_append (dropGap_suffix .blanks cs)
  rwa [List.append_cancel_right (hconsumed.trans hg)]

lemma IsGap.eq_nil {g after more : List Char} {c : Char} (h : IsGap g after)
    (hstarts : StartsToken c more) (heq : g ++ after = c :: more) : g = [] := by
  cases h with
  | nil => rfl
  | blank hc =>
    obtain ⟨rfl, -⟩ := List.cons.inj heq
    rw [hstarts.blank] at hc
    cases hc
  | comment hw =>
    cases hw with
    | hash => exact absurd (List.cons.inj heq).1.symm hstarts.hash
    | dashes _ _ hblank =>
      rw [← List.append_assoc] at hblank
      obtain ⟨rfl, hmore⟩ := List.cons.inj heq
      have hopens := hstarts.dashes rfl _ hmore.symm
      rw [← Bool.not_eq_true] at hopens
      exact absurd (opensComment_iff.2 hblank) hopens
    | block | openBlock =>
      obtain ⟨rfl, hmore⟩ := List.cons.inj heq
      exact absurd (congrArg List.head? hmore.symm) (hstarts.slash rfl)

lemma eq_nil_of_isGap_dropGap {cs g after : List Char} (h : IsGap g after)
    (heq : dropGap .blanks cs = g ++ after) : g = [] := by
  rcases hcs : dropGap .blanks cs with _ | ⟨c, more⟩
  · rw [hcs] at heq
    exact (List.append_eq_nil_iff.1 heq.symm).1
  · exact h.eq_nil (startsToken_of_dropGap hcs) (heq.symm.trans hcs)

/-! ### Tokens -/

lemma length_tokensFrom_le (start : ℕ) (cs : List Char) :
    (tokensFrom start cs).length ≤ cs.length + 1 := by
  fun_induction tokensFrom start cs with
  | case1 start cs gap start' h => simp
  | case2 start cs gap start' c more h r text ih =>
    have hgap := (dropGap_suffix .blanks cs).length_le
    have htoken : r.2.length ≤ more.length := (Lexeme.read_suffix c more).length_le
    rw [h, List.length_cons] at hgap
    rw [List.length_cons]
    omega

lemma text_eq_nil_iff {start : ℕ} {cs : List Char} {t : Token} (h : t ∈ tokensFrom start cs) :
    t.text = [] ↔ t.lexeme = .ending := by
  fun_induction tokensFrom start cs with
  | case1 start cs gap start' hgap =>
    obtain rfl := List.mem_singleton.1 h
    simp
  | case2 start cs gap start' c more hgap r text ih =>
    rcases List.mem_cons.1 h with rfl | ht
    · refine iff_of_false (fun hnil : text = [] => ?_) (read_ne_ending c more)
      have htext : text ++ r.2 = c :: more :=
        consumed_append ((Lexeme.read_suffix c more).trans (List.suffix_cons c more))
      have hlength : r.2.length ≤ more.length := (Lexeme.read_suffix c more).length_le
      rw [hnil, List.nil_append] at htext
      rw [htext, List.length_cons] at hlength
      omega
    · exact ih ht

lemma le_start_of_mem {start : ℕ} {cs : List Char} {t : Token} (h : t ∈ tokensFrom start cs) :
    start ≤ t.start := by
  obtain ⟨pre, post, hsplit⟩ := List.append_of_mem h
  rw [start_of_tokensFrom hsplit]
  exact Nat.le_add_right _ _

lemma pairwise_tokensFrom (start : ℕ) (cs : List Char) :
    (tokensFrom start cs).Pairwise fun t u => t.span.stop ≤ u.span.start := by
  fun_induction tokensFrom start cs with
  | case1 => exact List.pairwise_singleton ..
  | case2 start cs gap start' c more hgap r text ih =>
    exact List.pairwise_cons.2 ⟨fun u hu => le_start_of_mem hu, ih⟩

lemma exists_dropGap_of_tokensFrom {start : ℕ} {cs : List Char} {pre post : List Token} {t : Token}
    (h : tokensFrom start cs = pre ++ t :: post) :
    ∃ cs', dropGap .blanks cs' = t.text ++ Token.spelling post ∧
      consumed cs' (dropGap .blanks cs') = t.gap := by
  fun_induction tokensFrom start cs generalizing pre with
  | case1 start cs gap start' =>
    rename_i hgap
    rcases pre with _ | ⟨u, pre⟩
    · obtain ⟨rfl, rfl⟩ := List.cons.inj h
      exact ⟨cs, hgap, rfl⟩
    · exact absurd (List.cons.inj h).2 (by simp)
  | case2 start cs gap start' c more hgap r text =>
    rename_i ih
    rcases pre with _ | ⟨u, pre⟩
    · obtain ⟨rfl, rfl⟩ := List.cons.inj h
      refine ⟨cs, ?_, rfl⟩
      rw [spelling_tokensFrom, hgap]
      exact (consumed_append ((Lexeme.read_suffix c more).trans (List.suffix_cons c more))).symm
    · exact ih (List.cons.inj h).2

/-! ### Places -/

namespace Text

lemma byteSize_pos {cs : List Char} (h : cs ≠ []) : 0 < byteSize cs := by
  obtain ⟨c, cs, rfl⟩ := List.exists_cons_of_ne_nil h
  exact Nat.add_pos_left c.utf8Size_pos _

lemma byteSize_eq_utf8Len (cs : List Char) : byteSize cs = String.utf8Len cs := by
  induction cs with
  | nil => rfl
  | cons c cs ih => rw [byteSize, ih, String.utf8Len_cons, Nat.add_comm]

lemma byteSize_toList (text : String) : byteSize text.toList = text.utf8ByteSize := by
  rw [byteSize_eq_utf8Len, String.utf8Len_toList]

lemma isValid_of_append {text : String} {a b : List Char} (h : text.toList = a ++ b) :
    (⟨byteSize a⟩ : String.Pos.Raw).IsValid text := by
  refine String.Pos.Raw.isValid_iff_exists_append.2 ⟨String.ofList a, String.ofList b, ?_, ?_⟩
  · rw [← String.ofList_append, ← h, String.ofList_toList]
  · rw [String.rawEndPos_ofList, byteSize_eq_utf8Len]

end Text

section

variable {text : String} {pre post : List Token} {t : Token}

lemma toList_of_tokens (h : tokens text = pre ++ t :: post) :
    text.toList = Token.spelling pre ++ t.gap ++ t.text ++ Token.spelling post := by
  rw [← spelling_tokens, h]
  simp [Token.spelling]

lemma stop_of_tokens (h : tokens text = pre ++ t :: post) :
    t.span.stop = byteSize (Token.spelling pre ++ t.gap ++ t.text) := by
  rw [Token.span, start_of_tokens h, Text.byteSize_append _ t.text]

lemma isValid_span (h : tokens text = pre ++ t :: post) :
    (⟨t.span.start⟩ : String.Pos.Raw).IsValid text ∧
      (⟨t.span.stop⟩ : String.Pos.Raw).IsValid text := by
  have htext := toList_of_tokens h
  constructor
  · rw [Token.span, start_of_tokens h]
    rw [List.append_assoc] at htext
    exact Text.isValid_of_append htext
  · rw [stop_of_tokens h]
    exact Text.isValid_of_append htext

lemma span_ending (h : tokens text = pre ++ [t]) (ht : t.lexeme = .ending) :
    t.span = ⟨text.utf8ByteSize, text.utf8ByteSize⟩ := by
  have hnil : t.text = [] := (text_eq_nil_iff (h ▸ List.mem_append_right _ List.mem_cons_self)).2 ht
  have htext := toList_of_tokens h
  rw [hnil, List.append_nil, show Token.spelling [] = [] from rfl, List.append_nil] at htext
  have hstart : t.start = text.utf8ByteSize := by
    rw [start_of_tokens h, ← htext, Text.byteSize_toList]
  rw [Token.span, hnil, hstart]
  rfl

lemma slice?_gap (h : tokens text = pre ++ t :: post) :
    Text.slice? text.toList ⟨byteSize (Token.spelling pre), t.span.start⟩ = some t.gap ∧
      Text.dropBytes? t.span.start text.toList = some (t.text ++ Token.spelling post) := by
  have htext := toList_of_tokens h
  have hstart : t.span.start = byteSize (Token.spelling pre ++ t.gap) := start_of_tokens h
  rw [List.append_assoc] at htext
  rw [htext]
  exact ⟨Text.slice?_append _ _ _ rfl hstart, hstart ▸ Text.dropBytes?_append _ _⟩

end

/-- **Tokens tile the text.** The last one is the end, which is empty and behind all of the text, and
no other is one of these; there are at most as many others as characters. Tokens are in order and do
not overlap, on character boundaries within the text. Before each of them is a gap of blanks and
comments, and none of these follows the gap. -/
theorem tokens_tile (text : String) :
    (∃ init last, tokens text = init ++ [last] ∧ last.lexeme = .ending ∧
      last.span = ⟨text.utf8ByteSize, text.utf8ByteSize⟩ ∧
      ∀ t ∈ init, t.lexeme ≠ .ending ∧ t.span.start < t.span.stop) ∧
    (tokens text).length ≤ text.length + 1 ∧
    (tokens text).Pairwise (fun t u => t.span.stop ≤ u.span.start) ∧
    (∀ t ∈ tokens text, (⟨t.span.start⟩ : String.Pos.Raw).IsValid text ∧
      (⟨t.span.stop⟩ : String.Pos.Raw).IsValid text ∧ t.span.stop ≤ text.utf8ByteSize) ∧
    ∀ k t, (tokens text)[k]? = some t → ∃ gap after,
      Text.slice? text.toList ⟨endBefore (tokens text) k, t.span.start⟩ = some gap ∧
      Text.dropBytes? t.span.start text.toList = some after ∧ IsGap gap after ∧
      ∀ g rest, after = g ++ rest → IsGap g rest → g = [] := by
  refine ⟨?_, length_tokensFrom_le 0 text.toList, pairwise_tokensFrom 0 text.toList,
    fun t ht => ?_, fun k t ht => ?_⟩
  · obtain ⟨init, last, htokens, hlast, hinit⟩ := ended_tokens text
    refine ⟨init, last, htokens, hlast, span_ending htokens hlast, fun t ht => ⟨hinit t ht, ?_⟩⟩
    have hmem : t ∈ tokens text := htokens ▸ List.mem_append_left _ ht
    have htext : t.text ≠ [] := mt (text_eq_nil_iff hmem).1 (hinit t ht)
    exact Nat.lt_add_of_pos_right (Text.byteSize_pos htext)
  · obtain ⟨pre, post, hsplit⟩ := List.append_of_mem ht
    obtain ⟨hstart, hstop⟩ := isValid_span hsplit
    exact ⟨hstart, hstop, hstop.le_utf8ByteSize⟩
  · obtain ⟨hk, rfl⟩ := List.getElem?_eq_some_iff.1 ht
    have hsplit : tokens text =
        (tokens text).take k ++ (tokens text)[k] :: (tokens text).drop (k + 1) := by
      rw [← List.drop_eq_getElem_cons hk, List.take_append_drop]
    obtain ⟨hgap, hafter⟩ := slice?_gap hsplit
    obtain ⟨cs, hdrop, hconsumed⟩ := exists_dropGap_of_tokensFrom hsplit
    refine ⟨_, _, endBefore_tokens text k ▸ hgap, hafter, ?_, fun g rest hrest hmore => ?_⟩
    · rw [← hconsumed, ← hdrop]
      exact isGap_consumed cs
    · exact eq_nil_of_isGap_dropGap hmore (hdrop.trans hrest)

/-- The comments end with the line and with the mark, and the name, which is not closed, with the
text. -/
example : (tokens "né -- x\n/*/ */`b").map (·.span) = [⟨0, 3⟩, ⟨15, 17⟩, ⟨17, 17⟩] := by
  decide +kernel

end SchemaDrift
