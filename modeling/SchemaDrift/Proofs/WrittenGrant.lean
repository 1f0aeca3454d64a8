import Mathlib
import SchemaDrift.Proofs.WrittenAccount

/-!
Grants and revocations as they are written. Privileges are written in the order of their names, so
each one that is read comes last in the map; the right to pass privileges on stands among them or at
the end of the statement.
-/

namespace SchemaDrift

open Parse Grammar

/-! ### Lists -/

lemma Parse.Takes.separated_joined {α : Type} {item : Parse α} {sql : α → String} {rest : List Char}
    {x : α} {xs : List α}
    (h : ∀ y ∈ x :: xs, ∀ b tail, (∀ d ∈ b, Text.isBlank d = true) →
      (tail = rest ∨ ∃ more, tail = ',' :: more) → Takes item (b ++ ((sql y).toList ++ tail)) y tail)
    (hrest : firstLexeme rest ≠ .comma) {b : List Char} (hb : ∀ d ∈ b, Text.isBlank d = true) :
    Takes (separated item) (b ++ ((Text.joined ", " ((x :: xs).map sql)).toList ++ rest)) (x :: xs)
      rest := by
  induction xs generalizing x b with
  | nil => exact .separated_last (h x List.mem_cons_self b rest hb (.inl rfl)) hrest
  | cons y ys ih =>
    have htail := ih (fun z hz => h z (.tail _ hz)) (b := [' ']) (by simp; decide)
    have htext : (Text.joined ", " ((x :: y :: ys).map sql)).toList ++ rest =
        (sql x).toList ++ ',' ::
          ([' '] ++ ((Text.joined ", " ((y :: ys).map sql)).toList ++ rest)) := by
      simp [Text.joined]
    rw [htext]
    set more := [' '] ++ ((Text.joined ", " ((y :: ys).map sql)).toList ++ rest)
    have hcomma : Lexes (',' :: more) .comma more := .punctuation rfl more
    refine .separated_cons (h x List.mem_cons_self b _ hb (.inr ⟨more, rfl⟩)) hcomma ?_ htail
    simp
    omega

/-! ### Names of privileges -/

def privilegeWords : List String := privilegeNames.flatten

/-- The names that privileges are known by: those of the static ones, and words with an underscore
in upper case. -/
def IsPrivilegeName (n : String) : Prop :=
  n ∈ privilegeNames.map privilegeKey ∨
    (∀ c ∈ n.toList, isWordChar c = true) ∧ '_' ∈ n.toList ∧ Text.upper n = n

section

variable {n : String} {b rest : List Char}

lemma exists_words_of_privilegeKey : ∀ n ∈ privilegeNames.map privilegeKey,
    ∃ words ∈ privilegeNames, privilegeKey words = n ∧ (∀ w ∈ words, isPlainWord w = true) ∧
      (" " ++ n).toList = (words.flatMap fun w => ' ' :: w.toList) ∧
      privilegeNames.find? (Cursor.ofWords words).hasWords = some words := by
  decide

lemma takes_staticName (h : n ∈ privilegeNames.map privilegeKey)
    (hb : ∀ d ∈ b, Text.isBlank d = true) (hneutral : Neutral rest)
    (hstop : ∀ w ∈ privilegeWords, (firstLexeme rest).isWord w = false) :
    Takes privilegeName (b ++ (n.toList ++ rest)) n rest := by
  obtain ⟨words, hmem, hkey, hplain, htext, hfind⟩ := exists_words_of_privilegeKey n h
  obtain ⟨hrun, -⟩ := lexRun_words (" " ++ n) words htext hplain hneutral
  obtain ⟨w, ws, rfl⟩ : ∃ w ws, words = w :: ws := by
    have hne : ∀ words ∈ privilegeNames, words ≠ [] := by decide
    exact List.exists_cons_of_ne_nil (hne words hmem)
  have hgap : dropGap .blanks (b ++ (n.toList ++ rest)) =
      dropGap .blanks ((" " ++ n).toList ++ rest) := by
    rw [dropGap_blanks_append hb]
    simp [dropGap_of_isBlank (by decide : Text.isBlank ' ' = true)]
  replace hrun : LexRun (b ++ (n.toList ++ rest)) ((w :: ws).map .word) rest := hrun.congr_gap hgap
  have hwords (c : Cursor) (hc : c.At (b ++ (n.toList ++ rest))) (vs : List String)
      (hvs : vs ∈ privilegeNames) : c.hasWords vs = (Cursor.ofWords (w :: ws)).hasWords vs :=
    hc.hasWords_eq hrun fun v hv => hstop v (List.mem_flatten.2 ⟨vs, hvs, hv⟩)
  refine .get_bind fun c hc => ?_
  have hcongr : privilegeNames.find? c.hasWords = some (w :: ws) := by
    rw [← hfind]
    exact List.find?_congr fun vs hvs => hwords c hc vs hvs
  rw [hcongr]
  refine .bind (.acceptWords hrun (by simp) fun c hc => ?_) ?_
  · rw [hwords c hc _ hmem]
    exact List.find?_some hfind
  · rw [hkey]
    exact .pure n rest

lemma isHexLiteral_of_mark {w : List Char} (hmark : '_' ∈ w) : isHexLiteral w = false := by
  unfold isHexLiteral
  split
  · rename_i x digits
    simp only [List.mem_cons] at hmark
    rcases hmark with hmark | rfl | hmark
    · cases hmark
    · rfl
    · have hdigits : digits.all isHexDigit = false := List.all_eq_false.2 ⟨'_', hmark, by decide⟩
      simp [hdigits]
  · rfl

lemma isScientific_of_mark {w : List Char} (hmark : '_' ∈ w) : isScientific w = false := by
  have hlower : '_' ∈ w.map Char.toLower := List.mem_map.2 ⟨'_', hmark, by decide⟩
  rw [← List.takeWhile_append_dropWhile (p := (· != 'e')) (l := w.map Char.toLower)] at hlower
  unfold isScientific Text.cutFirst
  rcases hdrop : (w.map Char.toLower).dropWhile (· != 'e') with _ | ⟨d, exponent⟩
  · rfl
  · have hd : d = 'e' := by
      have hhead := List.head?_dropWhile_not (· != 'e') (w.map Char.toLower)
      rw [hdrop] at hhead
      simpa using hhead
    have hdigits (cs : List Char) (hcs : '_' ∈ cs) : allDigits cs = false :=
      List.all_eq_false.2 ⟨'_', hcs, by decide⟩
    rw [hdrop, List.mem_append, List.mem_cons, hd] at hlower
    rcases hlower with hmantissa | hmark | hexponent
    · simp [hdigits _ hmantissa]
    · cases hmark
    · simp [hdigits _ hexponent]

lemma spellsWord_of_mark {w : List Char} (hchars : ∀ c ∈ w, isWordChar c = true) (hmark : '_' ∈ w) :
    SpellsWord w :=
  ⟨hchars, List.all_eq_false.2 ⟨'_', hmark, by decide⟩, isHexLiteral_of_mark hmark,
    isScientific_of_mark hmark⟩

lemma takes_dynamicName (hchars : ∀ c ∈ n.toList, isWordChar c = true) (hmark : '_' ∈ n.toList)
    (hupper : Text.upper n = n) (hb : ∀ d ∈ b, Text.isBlank d = true) (hneutral : Neutral rest) :
    Takes privilegeName (b ++ (n.toList ++ rest)) n rest := by
  have hspells := spellsWord_of_mark hchars hmark
  have hword := (hspells.lexes hneutral.not_word).blanks hb
  rw [String.ofList_toList] at hword
  -- No static privilege has an underscore in its name.
  have hother : ∀ words ∈ privilegeNames, ∃ w ∈ words.head?, '_' ∉ (Text.lower w).toList := by
    decide
  refine .get_bind fun c hc => ?_
  have hnone : privilegeNames.find? c.hasWords = none := by
    rw [List.find?_eq_none]
    intro words hmem hwords
    obtain ⟨w, hhead, hw⟩ := hother words hmem
    rw [List.head?_eq_getElem?] at hhead
    have hfirst := (Cursor.hasWords_iff c words).1 hwords 0 w hhead
    rw [hc.lexemeAt_zero, hword.first, Lexeme.isWord, Text.sameName_iff] at hfirst
    rw [← hfirst] at hw
    refine hw ?_
    rw [Text.lower, String.toList_ofList]
    exact List.mem_map.2 ⟨'_', hmark, by decide⟩
  rw [hnone]
  refine .bind (.upperWord? _) ?_
  rw [hword.first, Lexeme.upperWord?, hupper]
  dsimp only
  rw [if_pos (List.contains_iff_mem.2 hmark)]
  exact .bind (.advance hword) (.pure n rest)

lemma IsPrivilegeName.takes (h : IsPrivilegeName n) (hb : ∀ d ∈ b, Text.isBlank d = true)
    (hneutral : Neutral rest) (hstop : ∀ w ∈ privilegeWords, (firstLexeme rest).isWord w = false) :
    Takes privilegeName (b ++ (n.toList ++ rest)) n rest := by
  rcases h with h | ⟨hchars, hmark, hupper⟩
  · exact takes_staticName h hb hneutral hstop
  · exact takes_dynamicName hchars hmark hupper hb hneutral

end

/-! ### Privileges -/

/-- Columns are known by their names in lower case. -/
def Scope.Grammatical : Scope → Prop
  | .whole => True
  | .columns cols _ => ∀ n ∈ cols.toList, Text.lower n = n

def Privileges.Grammatical (ps : Privileges) : Prop :=
  ∀ p ∈ ps.entries, IsPrivilegeName p.1 ∧ p.2.Grammatical

def Scope.names : Scope → List String
  | .whole => []
  | .columns cols _ => cols.toList

lemma Scope.ofNames_toList {cols : OrderedSet String} {h : cols.toList ≠ []}
    (hlower : ∀ n ∈ cols.toList, Text.lower n = n) :
    Scope.ofNames cols.toList = .columns cols h := by
  have hmap : cols.toList.map Text.lower = cols.toList := by
    rw [List.map_congr_left hlower, List.map_id']
  have hsame : OrderedSet.ofList cols.toList = cols := OrderedSet.ext_mem fun _ => OrderedSet.mem_ofList
  rw [Scope.ofNames, hmap, hsame, Scope.ofSet?, dif_pos h, Option.getD_some]

section

variable {p : String × Scope} {b rest : List Char}

lemma takes_privilege (hname : IsPrivilegeName p.1) (hscope : p.2.Grammatical)
    (hcolumns : ∀ n ∈ p.2.names, BareNameIsWord n) (hb : ∀ d ∈ b, Text.isBlank d = true)
    (hneutral : Neutral rest) (hstop : ∀ w ∈ privilegeWords, (firstLexeme rest).isWord w = false)
    (hopen : firstLexeme rest ≠ .openParen) :
    Takes privilege (b ++ ((Grant.privilegeSql p.1 p.2).toList ++ rest)) p rest := by
  obtain ⟨n, scope⟩ := p
  cases scope with
  | whole =>
    refine .bind (hname.takes hb hneutral hstop) (.bind (.accept_other hopen) ?_)
    exact .pure _ rest
  | columns cols hne =>
    obtain ⟨x, xs, hcols⟩ := List.exists_cons_of_ne_nil hne
    set closed := (Text.joined ", " (cols.toList.map Sql.name)).toList ++ ')' :: rest with hclosed
    have htext : (Grant.privilegeSql n (.columns cols hne)).toList ++ rest =
        n.toList ++ ' ' :: '(' :: closed := by simp [Grant.privilegeSql, hclosed]
    have hopen : Lexes (' ' :: '(' :: closed) .openParen closed := (Lexes.punctuation rfl _).space
    have hlist : Takes (separated (identifier "column name")) closed cols.toList (')' :: rest) := by
      rw [hclosed, hcols]
      refine .separated_joined (b := []) (fun y hy b tail hb htail => ?_) ?_ (by simp)
      · have hend : Neutral tail := by
          rcases htail with rfl | ⟨more, rfl⟩ <;> exact neutral_cons (by decide) _
        have hword := hcolumns y (by rw [Scope.names, hcols]; exact hy)
        exact .name ((lexes_name hword fun d hd => .inl (hend d hd)).blanks hb) _
      · rw [(Lexes.punctuation (c := ')') rfl rest).first]
        simp
    rw [htext]
    refine .bind (hname.takes hb (neutral_space _) ?_) (.bind (.accept hopen) ?_)
    · rw [hopen.first]
      exact fun _ _ => rfl
    rw [if_pos rfl]
    refine .bind hlist (.bind (.expect (.punctuation rfl rest) _) ?_)
    rw [Scope.ofNames_toList hscope]
    exact .pure _ rest

end

/-- Privileges are added in the order of their names, so each comes last in the map. -/
lemma entries_foldl_grant {m : Privileges} {es : List (String × Scope)}
    (h : (m.entries ++ es).Pairwise fun a b => compare a.1 b.1 = .lt) :
    (es.foldl (fun ps p => ps.grant p.1 p.2) m).entries = m.entries ++ es := by
  induction es generalizing m with
  | nil => simp
  | cons e es ih =>
    have hlast : ∀ d ∈ m.entries, compare d.1 e.1 = .lt := fun d hd =>
      (List.pairwise_append.1 h).2.2 d hd e List.mem_cons_self
    have hgrant : (m.grant e.1 e.2).entries = m.entries ++ [e] := OrderedMap.entries_alter hlast _
    rw [List.foldl_cons, ih, hgrant, List.append_assoc, List.singleton_append]
    rwa [hgrant, List.append_assoc, List.singleton_append]

lemma foldl_grant_entries (ps : Privileges) :
    ps.entries.foldl (fun (ps : Privileges) p => ps.grant p.1 p.2) OrderedMap.empty = ps := by
  have hincreasing : ((OrderedMap.empty : Privileges).entries ++ ps.entries).Pairwise
      fun a b => compare a.1 b.1 = .lt := ps.increasing
  have hentries := entries_foldl_grant hincreasing
  obtain ⟨entries, increasing⟩ := ps
  generalize hm : List.foldl _ _ _ = m at hentries
  obtain ⟨_, _⟩ := m
  simpa [OrderedMap.empty] using hentries

/-! ### Levels -/

section

variable {n : String} {b rest : List Char}

/-- What stands behind a name in a level. -/
def EndsLevel (rest : List Char) : Prop := ∀ c ∈ rest.head?, isNeutral c = true ∨ c = '.'

lemma lexes_level (hn : BareNameIsWord n) (hb : ∀ d ∈ b, Text.isBlank d = true)
    (hrest : EndsLevel rest) :
    Takes levelPart (b ++ ((Grant.levelSql n).toList ++ rest)) n rest ∧
      ∃ l, (l = .star ∨ l = nameLexeme n) ∧
        Lexes (b ++ ((Grant.levelSql n).toList ++ rest)) l rest := by
  by_cases hstar : n = Grant.everything
  · have htoken : Lexes (b ++ ((Grant.levelSql n).toList ++ rest)) .star rest := by
      rw [Grant.levelSql, if_pos hstar, hstar]
      exact (Lexes.punctuation rfl rest).blanks hb
    refine ⟨.bind (.accept htoken) ?_, .star, .inl rfl, htoken⟩
    rw [if_pos rfl, hstar]
    exact .pure _ rest
  · have htoken : Lexes (b ++ ((Grant.levelSql n).toList ++ rest)) (nameLexeme n) rest := by
      rw [Grant.levelSql, if_neg hstar]
      exact (lexes_name hn hrest).blanks hb
    refine ⟨.bind (.accept_other ?_) ?_, _, .inr rfl, htoken⟩
    · rw [htoken.first, nameLexeme]
      split <;> simp
    · rw [if_neg (by simp)]
      exact .name htoken _

end

namespace Grant

def placeSql (g : Grant) : String :=
  (match g.database? with
    | some d => levelSql d ++ "."
    | none => "") ++ levelSql g.object

def names (g : Grant) : List String :=
  g.database?.toList ++ [g.object] ++ g.privileges.entries.flatMap fun p => p.2.names

section

variable {g : Grant} {rest : List Char}

lemma takes_level (hnames : ∀ n ∈ g.names, BareNameIsWord n) (hneutral : Neutral rest)
    (hdot : firstLexeme rest ≠ .dot) :
    Takes level (' ' :: (g.placeSql.toList ++ rest)) (g.database?, g.object) rest ∧
      ∃ l n, (l = .star ∨ l = nameLexeme n) ∧ firstLexeme (' ' :: (g.placeSql.toList ++ rest)) = l := by
  obtain ⟨verb, account, kind?, database?, object, privileges⟩ := g
  have hblank : ∀ d ∈ [' '], Text.isBlank d = true := by simp; decide
  have hobject : BareNameIsWord object := hnames object (by simp [names])
  have hend : EndsLevel rest := fun c hc => .inl (hneutral c hc)
  rcases database? with _ | d
  · obtain ⟨htakes, l, hl, htoken⟩ := lexes_level hobject hblank hend
    have htext : ' ' :: ((placeSql ⟨verb, account, kind?, none, object, privileges⟩).toList ++ rest) =
        [' '] ++ ((levelSql object).toList ++ rest) := by simp [placeSql]
    rw [htext]
    refine ⟨.bind htakes (.bind (.accept_other hdot) ?_), l, object, hl, htoken.first⟩
    exact .pure _ rest
  · set more := (levelSql object).toList ++ rest
    have hdots : EndsLevel ('.' :: more) := fun c hc => .inr (by simpa using hc.symm)
    obtain ⟨htakes, l, hl, htoken⟩ := lexes_level (hnames d (by simp [names])) hblank hdots
    obtain ⟨htakes', -⟩ := lexes_level (b := []) hobject (by simp) hend
    have htext : ' ' :: ((placeSql ⟨verb, account, kind?, some d, object, privileges⟩).toList ++
        rest) = [' '] ++ ((levelSql d).toList ++ '.' :: more) := by simp [placeSql, more]
    rw [htext]
    refine ⟨.bind htakes (.bind (.accept (.punctuation rfl _)) ?_), l, d, hl, htoken.first⟩
    rw [if_pos rfl]
    exact .bind htakes' (.pure _ rest)

/-- A kind is told from a name, for the words for kinds cannot stand bare as names. -/
lemma takes_kind (hnames : ∀ n ∈ g.names, BareNameIsWord n) (hneutral : Neutral rest)
    (hdot : firstLexeme rest ≠ .dot) : Takes Grammar.objectKind?
      (' ' :: (g.levelsSql.toList ++ rest)) g.objectKind? (' ' :: (g.placeSql.toList ++ rest)) := by
  obtain ⟨-, l, n, hl, hfirst⟩ := takes_level hnames hneutral hdot
  have hword (k : ObjectKind) : isPlainWord k.sql = true ∧ Text.upper k.sql = k.sql := by
    cases k <;> decide
  refine .bind (.upperWord? _) ?_
  cases hkind : g.objectKind? with
  | none =>
    have htext : g.levelsSql = g.placeSql := by
      rcases hdatabase : g.database? with _ | d <;> simp [levelsSql, placeSql, hkind, hdatabase]
    have hother : ∀ w ∈ ["TABLE", "FUNCTION", "PROCEDURE"], l.upperWord? ≠ some w := by
      intro w hw
      have hreserved : ∀ w ∈ ["TABLE", "FUNCTION", "PROCEDURE"], w ∈ Sql.reserved := by decide
      rcases hl with rfl | rfl
      · simp [Lexeme.upperWord?]
      · exact nameLexeme_upperWord? (hreserved w hw)
    rw [htext, hfirst]
    split
    · rename_i heq
      exact absurd heq (hother _ (by simp))
    · rename_i heq
      exact absurd heq (hother _ (by simp))
    · rename_i heq
      exact absurd heq (hother _ (by simp))
    · exact .pure none _
  | some k =>
    have htext : ' ' :: (g.levelsSql.toList ++ rest) =
        ' ' :: (k.sql.toList ++ ' ' :: (g.placeSql.toList ++ rest)) := by
      rcases hdatabase : g.database? with _ | d <;> simp [levelsSql, placeSql, hkind, hdatabase]
    have htoken := (Lexes.word (hword k).1 (neutral_space (g.placeSql.toList ++ rest))).space
    rw [htext, htoken.first, Lexeme.upperWord?, (hword k).2]
    cases k <;> exact .bind (.advance htoken) (.pure _ _)

end

/-! ### Statements -/

structure Grammatical (g : Grant) : Prop where
  nonempty : g.privileges.entries ≠ []
  privileges : Privileges.Grammatical g.privileges

def listed (g : Grant) : Privileges :=
  g.privileges.filter fun name _ => !(g.endsWithOption && name = grantOption)

def optionSql (g : Grant) : String := if g.endsWithOption then " WITH GRANT OPTION" else ""

lemma listed_of_not_endsWithOption {g : Grant} (h : g.endsWithOption = false) :
    g.listed = g.privileges := by
  refine OrderedMap.ext_get? fun n => ?_
  rw [listed, OrderedMap.get?_filter, h]
  rcases g.privileges.get? n <;> rfl

lemma listed_ne_nil {g : Grant} (h : g.Grammatical) : g.listed.entries ≠ [] := by
  rcases hends : g.endsWithOption with _ | _
  · rw [listed_of_not_endsWithOption hends]
    exact h.nonempty
  · -- Of two privileges one is another than that to pass privileges on.
    have hsize : 1 < g.privileges.entries.length := by
      simp only [endsWithOption, Bool.and_eq_true, decide_eq_true_eq] at hends
      exact hends.2
    have hincreasing := g.privileges.increasing
    obtain ⟨p, q, ps, hentries⟩ : ∃ p q ps, g.privileges.entries = p :: q :: ps := by
      rcases hes : g.privileges.entries with _ | ⟨p, _ | ⟨q, ps⟩⟩
      · simp [hes] at hsize
      · simp [hes] at hsize
      · exact ⟨p, q, ps, rfl⟩
    rw [hentries, List.pairwise_cons] at hincreasing
    have hne : p.1 ≠ q.1 := ne_of_compare_lt (hincreasing.1 q List.mem_cons_self)
    intro hnil
    have hall : ∀ r ∈ g.privileges.entries, r.1 = grantOption := by
      intro r hr
      by_contra hother
      have hmem : r ∈ g.listed.entries := List.mem_filter.2 ⟨hr, by simp [hother]⟩
      rw [hnil] at hmem
      cases hmem
    rw [hentries] at hall
    exact hne ((hall p (by simp)).trans (hall q (by simp)).symm)

lemma insert_listed {g : Grant} (h : g.endsWithOption = true)
    (hwhole : ∀ s ∈ g.privileges.get? grantOption, s = .whole) :
    g.listed.insert grantOption .whole = g.privileges := by
  obtain ⟨s, hs⟩ : ∃ s, g.privileges.get? grantOption = some s := by
    simp only [endsWithOption, Bool.and_eq_true] at h
    exact Option.isSome_iff_exists.1 h.1.2
  refine OrderedMap.ext_get? fun n => ?_
  rw [OrderedMap.get?_insert, listed, OrderedMap.get?_filter, h]
  split
  · rename_i hn
    rw [hn, hs, hwhole s hs]
  · rename_i hn
    rcases g.privileges.get? n <;> simp [Option.filter, hn]

lemma optionSql_cases (g : Grant) : g.endsWithOption = false ∧ g.optionSql = "" ∨
    g.endsWithOption = true ∧ g.verb = .grant ∧
      Lexes g.optionSql.toList (.word "WITH") " GRANT OPTION".toList := by
  rw [optionSql]
  rcases hends : g.endsWithOption with _ | _
  · exact .inl ⟨rfl, rfl⟩
  · refine .inr ⟨rfl, ?_, (lexes_spaced " WITH" "WITH" rfl (by decide) (neutral_space _)).1⟩
    simp only [endsWithOption, Bool.and_eq_true, decide_eq_true_eq] at hends
    exact hends.1.1

lemma takes_option {g : Grant} (hwhole : ∀ s ∈ g.privileges.get? grantOption, s = .whole)
    {α : Type} {a : α} {f : Privileges → Parse α} (hf : Takes (f g.privileges) [] a []) :
    Takes (do
      let withOption ← acceptWord "WITH"
      if withOption = true then do
        let granted ← acceptWords ["GRANT", "OPTION"]
        if granted = true then do
          let ps ← pure (g.listed.insert grantOption .whole)
          f ps
        else do
          let ps ← expected "GRANT OPTION"
          f ps
      else do
        let ps ← pure g.listed
        f ps) g.optionSql.toList a [] := by
  obtain ⟨hends, hempty⟩ | ⟨hends, -, hwith⟩ := g.optionSql_cases
  · rw [hempty, listed_of_not_endsWithOption hends]
    refine .bind (.acceptWord_other (by simp [firstLexeme_nil, Lexeme.isWord])) ?_
    exact .bind (.pure _ []) hf
  · obtain ⟨hrun, -⟩ := lexRun_words " GRANT OPTION" ["GRANT", "OPTION"] rfl (by decide)
      neutral_nil
    rw [List.append_nil] at hrun
    rw [insert_listed hends hwhole]
    refine .bind (.acceptWord hwith (by decide)) ?_
    refine .bind (.acceptWords hrun (by simp) fun c hc => ?_) (.bind (.pure _ []) hf)
    rw [hc.hasWords_eq hrun (by simp [firstLexeme_nil, Lexeme.isWord])]
    decide

def opening : GrantVerb → String
  | .grant => "GRANT"
  | .revoke => "REVOKE"

def preposition : GrantVerb → String
  | .grant => "TO"
  | .revoke => "FROM"

lemma toList_sql (g : Grant) : g.sql.toList = (opening g.verb).toList ++
    ([' '] ++ ((Text.joined ", " (g.listed.entries.map fun p => privilegeSql p.1 p.2)).toList ++
      (" ON".toList ++ ' ' :: (g.levelsSql.toList ++ ((" " ++ preposition g.verb).toList ++
        ' ' :: (g.account.sql.toList ++ g.optionSql.toList)))))) := by
  have hrevoke (h : g.verb = .revoke) : g.endsWithOption = false := by simp [endsWithOption, h]
  rw [sql]
  cases hverb : g.verb with
  | grant => simp [listed, OrderedMap.filter, optionSql, opening, preposition]
  | revoke =>
    simp [listed, OrderedMap.filter, optionSql, opening, preposition, hrevoke hverb]

lemma Grammatical.takes_listed {g : Grant} (h : g.Grammatical)
    (hnames : ∀ n ∈ g.names, BareNameIsWord n) {rest : List Char} (hneutral : Neutral rest)
    (hon : firstLexeme rest = .word "ON") : Takes (separated privilege) ([' '] ++
      ((Text.joined ", " (g.listed.entries.map fun p => privilegeSql p.1 p.2)).toList ++ rest))
      g.listed.entries rest := by
  have hmem : ∀ p ∈ g.listed.entries, p ∈ g.privileges.entries := fun p hp =>
    List.mem_of_mem_filter hp
  obtain ⟨q, qs, hlisted⟩ := List.exists_cons_of_ne_nil (listed_ne_nil h)
  rw [hlisted] at hmem ⊢
  refine .separated_joined (fun p hp b tail hb htail => ?_) (by simp [hon]) (by simp; decide)
  have hcolumns : ∀ n ∈ p.2.names, BareNameIsWord n := fun n hn =>
    hnames n (List.mem_append_right _ (List.mem_flatMap.2 ⟨p, hmem p hp, hn⟩))
  have hwords : ∀ w ∈ privilegeWords, (Lexeme.word "ON").isWord w = false := by decide
  obtain ⟨htail, hstop, hopen⟩ : Neutral tail ∧
      (∀ w ∈ privilegeWords, (firstLexeme tail).isWord w = false) ∧
        firstLexeme tail ≠ .openParen := by
    rcases htail with rfl | ⟨more, rfl⟩
    · exact ⟨hneutral, by rwa [hon], by simp [hon]⟩
    · rw [(Lexes.punctuation (c := ',') rfl more).first]
      exact ⟨neutral_cons (by decide) more, fun _ _ => rfl, by simp⟩
  obtain ⟨hname, hscope⟩ := h.privileges p (hmem p hp)
  exact takes_privilege hname hscope hcolumns hb htail hstop hopen

theorem Grammatical.takes {g : Grant} (h : g.Grammatical)
    (hnames : ∀ n ∈ g.names, BareNameIsWord n)
    (hwhole : ∀ s ∈ g.privileges.get? grantOption, s = .whole) :
    Takes (grants g.verb) g.sql.toList [g] [] := by
  rw [toList_sql]
  -- The text from its end on.
  have hoption := fun (f : Privileges → Parse (List Grant)) =>
    takes_option (a := [g]) (f := f) hwhole
  obtain ⟨hquote, hcomma⟩ : g.optionSql.toList.head? ≠ some '\x27' ∧
      firstLexeme g.optionSql.toList ≠ .comma := by
    obtain ⟨-, hempty⟩ | ⟨hends, -, hwith⟩ := g.optionSql_cases
    · simp [hempty, firstLexeme_nil]
    · exact ⟨by simp [optionSql, hends], by simp [hwith.first]⟩
  obtain ⟨haccount, -⟩ := takes_account g.account hquote
  have hwords (verb : GrantVerb) : isPlainWord (opening verb) = true ∧
      isPlainWord (preposition verb) = true := by cases verb <;> decide
  obtain ⟨hto, hneutral⟩ := lexes_spaced (" " ++ preposition g.verb) (preposition g.verb)
    (by simp) (hwords g.verb).2 (neutral_space (g.account.sql.toList ++ g.optionSql.toList))
  set toEnd := (" " ++ preposition g.verb).toList ++
    ' ' :: (g.account.sql.toList ++ g.optionSql.toList)
  have hdot : firstLexeme toEnd ≠ .dot := by simp [hto.first]
  have hkind := takes_kind hnames hneutral hdot
  obtain ⟨hlevel, -⟩ := takes_level hnames hneutral hdot
  obtain ⟨hon, hneutral⟩ := lexes_spaced " ON" "ON" rfl (by decide)
    (neutral_space (g.levelsSql.toList ++ toEnd))
  have hlisted := h.takes_listed hnames hneutral hon.first
  have hopening := Lexes.word (hwords g.verb).1 (neutral_space
    ((Text.joined ", " (g.listed.entries.map fun p => privilegeSql p.1 p.2)).toList ++
      (" ON".toList ++ ' ' :: (g.levelsSql.toList ++ toEnd))))
  refine .bind (.keyword hopening (by cases g.verb <;> decide)) (.bind hlisted ?_)
  rw [foldl_grant_entries]
  refine .bind (.keyword hon (by decide)) (.bind hkind (.bind hlevel ?_))
  refine .bind (.keyword hto (by cases g.verb <;> decide)) ?_
  refine .bind (.separated_last haccount hcomma) ?_
  by_cases hverb : g.verb = .grant
  · rw [if_pos hverb]
    exact hoption _ (.bind Table.takes_ending (.pure [g] []))
  · obtain ⟨hends, hempty⟩ | ⟨-, hgrant, -⟩ := g.optionSql_cases
    · rw [if_neg hverb, hempty, listed_of_not_endsWithOption hends]
      exact .bind (.pure false []) (.bind (.pure _ []) (.bind Table.takes_ending (.pure [g] [])))
    · exact absurd hgrant hverb

end Grant

end SchemaDrift
