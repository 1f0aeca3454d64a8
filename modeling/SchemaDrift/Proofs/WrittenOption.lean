import Mathlib
import SchemaDrift.Grammar.Table
import SchemaDrift.Proofs.OrderedLookup
import SchemaDrift.Proofs.WrittenType

/-!
Table options as they are written. Options are written in the order of their names, each by one of
its spellings; no other spelling in the dictionary stands there.
-/

namespace SchemaDrift

open Parse Grammar

/-! ### Maps built in order -/

namespace OrderedMap

variable {κ β : Type} [Ord κ]

lemma contains_eq_false {m : OrderedMap κ β} {k : κ} (h : ∀ e ∈ m.entries, compare e.1 k = .lt) :
    m.contains k = false := by
  have hnone : m.entries.find? (fun e => compare e.1 k == .eq) = none := by
    rw [List.find?_eq_none]
    intro e he
    rw [h e he]
    decide
  rw [contains, get?, hnone]
  rfl

lemma entries_alter [Std.TransOrd κ] {m : OrderedMap κ β} {k : κ}
    (h : ∀ e ∈ m.entries, compare e.1 k = .lt) (f : Option β → β) :
    (m.alter k f).entries = m.entries ++ [(k, f none)] := by
  change alterEntries k f m.entries = m.entries ++ [(k, f none)]
  generalize m.entries = es at h
  induction es with
  | nil => rfl
  | cons e es ih =>
    have hgt : compare k e.1 = .gt := Std.OrientedCmp.gt_of_lt (h e List.mem_cons_self)
    rw [alterEntries, hgt, List.cons_append, ih fun d hd => h d (.tail _ hd)]

lemma entries_insert [Std.TransOrd κ] {m : OrderedMap κ β} {k : κ}
    (h : ∀ e ∈ m.entries, compare e.1 k = .lt) (v : β) :
    (m.insert k v).entries = m.entries ++ [(k, v)] := entries_alter h _

end OrderedMap

/-! ### Spellings -/

namespace Cursor

/-- A cursor before words. -/
def ofWords (ws : List String) : Cursor := ⟨[], ws.map fun w => ⟨[], [], .word w, 0⟩⟩

section

variable {c : Cursor} {cs rest : List Char} {ws : List String}

lemma hasWords_iff (c : Cursor) (words : List String) : c.hasWords words = true ↔
    ∀ n w, words[n]? = some w → (c.lexemeAt n).isWord w = true := by
  rw [hasWords, List.all_eq_true]
  constructor
  · intro h n w hw
    obtain ⟨hlt, hget⟩ := List.getElem?_eq_some_iff.1 hw
    refine h (w, n) (List.mem_iff_getElem?.2 ⟨n, ?_⟩)
    rw [List.getElem?_zip_eq_some, List.getElem?_range hlt]
    exact ⟨hw, rfl⟩
  · rintro h ⟨w, n⟩ hmem
    obtain ⟨i, hi⟩ := List.mem_iff_getElem?.1 hmem
    rw [List.getElem?_zip_eq_some] at hi
    obtain ⟨hw, hn⟩ := hi
    obtain ⟨hlt, hget⟩ := List.getElem?_eq_some_iff.1 hn
    have hin : i = n := by simpa using hget
    exact h n w (hin ▸ hw)

lemma lexemeAt_ofWords (ws : List String) (n : Nat) :
    (ofWords ws).lexemeAt n = (ws.map Lexeme.word)[n]?.getD .ending := by
  rw [lexemeAt, ofWords, List.getElem?_map, List.getElem?_map]
  rcases ws[n]? with _ | w <;> rfl

lemma At.hasWords_eq (hc : c.At cs) (h : LexRun cs (ws.map .word) rest) {words : List String}
    (hstop : ∀ w ∈ words, (firstLexeme rest).isWord w = false) :
    c.hasWords words = (ofWords ws).hasWords words := by
  have hlexeme (n : Nat) : c.lexemeAt n =
      (ws.map Lexeme.word ++ lexemes rest)[n]?.getD .ending := by
    rw [hc.lexemeAt, h.lexemes_eq]
  have hin {n : Nat} (hn : n < ws.length) : c.lexemeAt n = (ofWords ws).lexemeAt n := by
    rw [hlexeme, lexemeAt_ofWords, List.getElem?_append_left (by simpa using hn)]
  have hout : c.lexemeAt ws.length = firstLexeme rest := by
    rw [hlexeme, List.getElem?_append_right (by simp), firstLexeme, List.headD_eq_head?_getD,
      List.head?_eq_getElem?]
    simp
  rw [Bool.eq_iff_iff, hasWords_iff, hasWords_iff]
  refine ⟨fun hwords n w hw => ?_, fun hwords n w hw => ?_⟩
  · by_cases hn : n < ws.length
    · rw [← hin hn]
      exact hwords n w hw
    · -- One of the words would have to be the token after them.
      have hlen : ws.length < words.length :=
        lt_of_le_of_lt (not_lt.1 hn) (List.getElem?_eq_some_iff.1 hw).1
      have hnext := hwords ws.length _ (List.getElem?_eq_getElem hlen)
      rw [hout, hstop _ (List.getElem_mem hlen)] at hnext
      cases hnext
  · have hn : n < ws.length := by
      by_contra hn
      have hnone := hwords n w hw
      rw [lexemeAt_ofWords, List.getElem?_eq_none (by simpa using hn)] at hnone
      cases hnone
    rw [hin hn]
    exact hwords n w hw

lemma At.move {ls : List Lexeme} (hc : c.At cs) (h : LexRun cs ls rest) :
    (c.move ls.length).At rest := by
  obtain ⟨start, hstart⟩ := hc
  obtain ⟨ts, start', hts, hls⟩ := tokens_of_lexRun h start
  refine ⟨start', ?_⟩
  rw [Cursor.move, hstart, hts, ← hls, List.length_map, List.drop_left]

end

end Cursor

lemma Parse.Takes.acceptWords {cs rest : List Char} {ls : List Lexeme} {words : List String}
    (h : LexRun cs ls rest) (hlen : words.length = ls.length)
    (hwords : ∀ c : Cursor, c.At cs → c.hasWords words = true) :
    Takes (Parse.acceptWords words) cs true rest := by
  intro c hc
  refine ⟨c.move ls.length, ?_, hc.move h, List.drop_suffix _ _⟩
  rw [Parse.acceptWords, if_pos (hwords c hc), hlen]

namespace TableOption

def words (o : TableOption) : List String := o.spellings.getLastD []

lemma words_eq : ∀ o ∈ dictionary, (∀ w ∈ o.words, isPlainWord w = true) ∧
    (" " ++ o.name).toList = o.words.flatMap fun w => ' ' :: w.toList := by decide

lemma exists_words : ∀ o ∈ dictionary, ∃ w ws, o.words = w :: ws := by
  have hwords : ∀ o ∈ dictionary, o.words ≠ [] := by decide
  exact fun o ho => List.exists_cons_of_ne_nil (hwords o ho)

lemma hasWords_ofWords : ∀ o ∈ dictionary, (Cursor.ofWords o.words).hasWords o.words = true := by
  decide

lemma find?_name : ∀ o ∈ dictionary, find? o.name = some o := by decide

lemma spellingAt?_ofWords : ∀ o ∈ dictionary,
    spellingAt? (Cursor.ofWords o.words) = some (o, o.words) := by decide

lemma spellingAt?_congr {c d : Cursor} (h : ∀ words, c.hasWords words = d.hasWords words) :
    spellingAt? c = spellingAt? d := by
  unfold spellingAt?
  simp only [h]

end TableOption

/-! ### One option -/

/-- The entry of an option in the dictionary, with the value as it is stored. -/
structure TableOption.Stores (o : TableOption) (name value : String) : Prop where
  mem : o ∈ dictionary
  name : o.name = name
  accepts : o.accepts value = true
  stored : storedValue o value = value

lemma reaches_optionalComma {α : Type} {m : Unit → Parse α} {n : Parse α} {b : Bool}
    {cs mid : List Char} (hfirst : firstLexeme cs ≠ .comma) (hm : Reaches (m ()) cs n mid) :
    Reaches (if b = true then do
        let _ ← accept .comma
        m ()
      else m ()) cs n mid := by
  rcases b with _ | _
  · exact hm
  · exact .bind (.accept_other hfirst) hm

lemma takes_atEnd (cs : List Char) : Takes atEnd cs
    (decide (firstLexeme cs = .ending) || decide (firstLexeme cs = .semicolon)) cs :=
  .bind (.next cs) (.pure _ cs)

section

variable {o : TableOption} {name v : String} {os : TableOptions} {rest : List Char}

lemma reaches_optionValue (hmem : o ∈ TableOption.dictionary) (os : TableOptions)
    (tail : List Char) : Reaches (nextOption os) ((" " ++ o.name).toList ++ '=' :: tail) (do
      let v ← value ("value for " ++ o.name)
      if !o.accepts v then fault (.optionValue v o.name) 1
      else if os.contains o.name then fault (.duplicateOption o.name) 1
      else return some (os.insert o.name (storedValue o v))) tail := by
  obtain ⟨hplain, hwords⟩ := TableOption.words_eq o hmem
  have hequals : Lexes ('=' :: tail) .equals tail := .punctuation rfl _
  obtain ⟨hrun, -⟩ := lexRun_words (" " ++ o.name) o.words hwords hplain
    (neutral_cons (c := '=') (by decide) tail)
  set cs := (" " ++ o.name).toList ++ '=' :: tail
  have hstop {words : List String} :
      ∀ w ∈ words, (firstLexeme ('=' :: tail)).isWord w = false := by
    intro w _
    rw [hequals.first]
    rfl
  have hspelling (c : Cursor) (hc : c.At cs) : spellingAt? c = some (o, o.words) := by
    rw [TableOption.spellingAt?_congr fun _ => hc.hasWords_eq hrun hstop,
      TableOption.spellingAt?_ofWords o hmem]
  obtain ⟨w, ws, hcons⟩ := TableOption.exists_words o hmem
  have hfirst : firstLexeme cs = .word w := by
    rw [hcons] at hrun
    exact hrun.first
  unfold nextOption
  extract_lets body
  refine reaches_optionalComma (by simp [hfirst]) (.bind (takes_atEnd cs) ?_)
  rw [hfirst, if_neg (by simp)]
  refine .get_bind fun c hc => ?_
  rw [hspelling c hc]
  refine .bind (.acceptWords hrun (by simp) fun c hc => ?_) (.bind (.accept hequals) (.refl _ _))
  rw [hc.hasWords_eq hrun hstop]
  exact TableOption.hasWords_ofWords o hmem

lemma takes_option (h : o.Stores name v) (hv : o.quoted = false → IsValue v)
    (hnew : os.contains name = false) (hneutral : Neutral rest) :
    Takes (nextOption os) (' ' :: ((TableOption.setting name v).toList ++ rest))
      (some (os.insert name v)) rest := by
  obtain ⟨hmem, rfl, haccepts, hstored⟩ := h
  obtain ⟨value, hsql, l, hvalue, hl⟩ : ∃ value : String, TableOption.setting o.name v =
      o.name ++ "=" ++ value ∧ ∃ l, Lexes (value.toList ++ rest) l rest ∧
        (l.IsValue v ∨ l = .string v) := by
    rw [TableOption.setting, TableOption.find?_name o hmem]
    rcases hquoted : o.quoted with _ | _
    · obtain ⟨l, hlexes, hl⟩ := (hv hquoted).lexes hneutral
      exact ⟨v, by simp [TableOption.sql, hquoted], l, hlexes, .inl hl⟩
    · exact ⟨Sql.string v, by simp [TableOption.sql, hquoted], _,
        lexes_string v hneutral.not_quote, .inr rfl⟩
  have htext : ' ' :: ((TableOption.setting o.name v).toList ++ rest) =
      (" " ++ o.name).toList ++ '=' :: (value.toList ++ rest) := by simp [hsql]
  rw [htext]
  refine (reaches_optionValue hmem os _).takes (.bind (.value hvalue hl _) ?_)
  rw [haccepts, if_neg (by simp), hnew, if_neg (by simp), hstored]
  exact .pure _ rest

lemma takes_option_none (hrest : firstLexeme rest = .ending) :
    Takes (nextOption os) rest none rest := by
  unfold nextOption
  extract_lets body
  refine (reaches_optionalComma (by simp [hrest]) (.refl _ _)).takes (.bind (takes_atEnd rest) ?_)
  rw [hrest, if_pos (by simp)]
  exact .pure none rest

end

/-! ### All options -/

namespace TableOptions

def Grammatical (os : TableOptions) : Prop :=
  ∀ e ∈ os.entries, ∃ o : TableOption, o.Stores e.1 e.2

def values (os : TableOptions) : List String :=
  (os.entries.filter fun e => (TableOption.find? e.1).all (!·.quoted)).map (·.2)

/-- The options as written, each behind a space. -/
def text (es : List (String × String)) : List Char :=
  es.flatMap fun e => ' ' :: (TableOption.setting e.1 e.2).toList

lemma text_cons (e : String × String) (es : List (String × String)) :
    text (e :: es) = ' ' :: ((TableOption.setting e.1 e.2).toList ++ text es) := rfl

lemma neutral_text (es : List (String × String)) : Neutral (text es) := by
  rcases es with _ | ⟨e, es⟩
  · simp [text, Neutral]
  · exact neutral_space _

lemma text_entries (os : TableOptions) :
    (if os.isEmpty then "" else " " ++ TableOptions.sql os).toList = text os.entries := by
  have hjoined (e : String × String) (es : List (String × String)) :
      ' ' :: (Text.joined " " ((e :: es).map fun o => TableOption.setting o.1 o.2)).toList =
        text (e :: es) := by
    induction es generalizing e with
    | nil => simp [Text.joined, text]
    | cons d es ih =>
      rw [text_cons, ← ih]
      simp [Text.joined]
  rw [OrderedMap.isEmpty, TableOptions.sql]
  rcases os.entries with _ | ⟨e, es⟩
  · rfl
  · rw [← hjoined]
    simp

/-- The options are added in the order of their names, so each comes last in the map. -/
lemma takes_text {os m : TableOptions} (h : os.Grammatical) (hvalues : ∀ v ∈ os.values, IsValue v)
    {es : List (String × String)} (hes : os.entries = m.entries ++ es) :
    Takes (repeated nextOption m) (text es) os [] := by
  induction es generalizing m with
  | nil =>
    have hsame : m = os := by
      obtain ⟨_, _⟩ := m
      obtain ⟨_, _⟩ := os
      simpa using hes.symm
    rw [hsame]
    exact .repeated_last (takes_option_none firstLexeme_nil)
  | cons e es ih =>
    have hmem : e ∈ os.entries := hes ▸ List.mem_append_right _ List.mem_cons_self
    obtain ⟨o, ho⟩ := h e hmem
    have hincreasing := os.increasing
    rw [hes, List.pairwise_append] at hincreasing
    have hlast : ∀ d ∈ m.entries, compare d.1 e.1 = .lt :=
      fun d hd => hincreasing.2.2 d hd e List.mem_cons_self
    have hvalue : o.quoted = false → IsValue e.2 := by
      refine fun hquoted => hvalues e.2 (List.mem_map.2 ⟨e, List.mem_filter.2 ⟨hmem, ?_⟩, rfl⟩)
      rw [← ho.name, TableOption.find?_name o ho.mem, Option.all_some, hquoted]
      rfl
    have hoption := takes_option ho hvalue (OrderedMap.contains_eq_false hlast) (neutral_text es)
    rw [text_cons]
    refine .repeated_cons hoption ?_ (ih ?_)
    · simp
    · rw [OrderedMap.entries_insert hlast, hes, List.append_assoc, List.singleton_append]

theorem Grammatical.takes {os : TableOptions} (h : os.Grammatical)
    (hvalues : ∀ v ∈ os.values, IsValue v) : Takes (repeated nextOption OrderedMap.empty)
      (if os.isEmpty then "" else " " ++ TableOptions.sql os).toList os [] := by
  rw [text_entries]
  exact takes_text h hvalues rfl

end TableOptions

end SchemaDrift
