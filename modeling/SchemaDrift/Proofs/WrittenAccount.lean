import Mathlib
import SchemaDrift.Proofs.WrittenTable

/-!
Accounts as they are written, and the clauses that declare them. Both parts of an account are written
as strings, whatever characters they consist of; the properties of a certificate stand in a fixed
order, so that reading them one by one builds up the certificate.
-/

namespace SchemaDrift

open Parse Grammar

section

variable {rest : List Char}

lemma Parse.Takes.accountPart {s : String} {cs : List Char} (h : Lexes cs (.string s) rest)
    (what : String) : Takes (Parse.accountPart what) cs s rest := by
  refine taking h ?_ what
  rfl

/-- **An account is read from what is written for it.** -/
lemma takes_account (a : Account) (hrest : rest.head? ≠ some '\x27') :
    Takes account (' ' :: (a.sql.toList ++ rest)) a rest ∧
      firstLexeme (' ' :: (a.sql.toList ++ rest)) = .string a.user := by
  have htext : a.sql.toList ++ rest =
      (Sql.string a.user).toList ++ '@' :: ((Sql.string a.host).toList ++ rest) := by
    simp [Account.sql]
  rw [htext]
  have hat : ('@' :: ((Sql.string a.host).toList ++ rest)).head? ≠ some '\x27' := by simp
  have huser := (lexes_string a.user hat).space
  refine ⟨.bind (.accountPart huser _) (.bind (.accept (.punctuation rfl _)) ?_), huser.first⟩
  rw [if_pos rfl]
  exact .bind (.accountPart (lexes_string a.host hrest) _) (.pure a rest)

/-! ### Certificates -/

def propertySql (p : String × String) : String := p.1 ++ " " ++ Sql.string p.2

def propertyNames : List String := ["SUBJECT", "ISSUER", "CIPHER"]

lemma takes_property {c d : Certificate} {p : String × String} (hname : p.1 ∈ propertyNames)
    (hp : withProperty c p.1 p.2 = some d) (hrest : rest.head? ≠ some '\x27') (otherwise : String) :
    Takes (property otherwise c) (' ' :: ((propertySql p).toList ++ rest)) d rest ∧
      firstLexeme (' ' :: ((propertySql p).toList ++ rest)) = .word p.1 := by
  have hplain : ∀ n ∈ propertyNames, isPlainWord n = true ∧ Text.upper n = n := by decide
  have htext : (propertySql p).toList ++ rest =
      p.1.toList ++ ' ' :: ((Sql.string p.2).toList ++ rest) := by simp [propertySql]
  have hword := (Lexes.word (hplain p.1 hname).1
    (neutral_space ((Sql.string p.2).toList ++ rest))).space
  rw [← htext] at hword
  refine ⟨.bind (.upperWord? _) ?_, hword.first⟩
  rw [hword.first, Lexeme.upperWord?, (hplain p.1 hname).2]
  dsimp only
  have hproperty : ["SUBJECT", "ISSUER", "CIPHER"].contains p.1 = true :=
    List.contains_iff_mem.2 hname
  rw [if_pos hproperty]
  refine .bind (.advance hword) (.bind (.string (lexes_string p.2 hrest).space _) ?_)
  rw [hp]
  exact .pure d rest

def propertiesText (ps : List (String × String)) : List Char :=
  ps.flatMap fun p => " AND ".toList ++ (propertySql p).toList

lemma toList_properties (p : String × String) (ps : List (String × String)) :
    (Text.joined " AND " ((p :: ps).map propertySql)).toList =
      (propertySql p).toList ++ propertiesText ps := by
  induction ps generalizing p with
  | nil => simp [Text.joined, propertiesText]
  | cons q ps ih =>
    have hcons : Text.joined " AND " ((p :: q :: ps).map propertySql) =
        propertySql p ++ " AND " ++ Text.joined " AND " ((q :: ps).map propertySql) := rfl
    rw [hcons, String.toList_append, ih]
    simp [propertiesText]

lemma takes_properties {c d : Certificate} {ps : List (String × String)}
    (hnames : ∀ p ∈ ps, p.1 ∈ propertyNames)
    (h : ps.foldlM (fun c p => withProperty c p.1 p.2) c = some d) :
    Takes (repeated nextProperty c) (propertiesText ps) d [] := by
  induction ps generalizing c with
  | nil =>
    obtain rfl := Option.some.inj h
    refine .repeated_last (.bind (.acceptWord_other ?_) ?_)
    · rw [propertiesText, List.flatMap_nil, firstLexeme_nil]
      rfl
    rw [if_neg (by simp)]
    refine .bind (.upperWord? _) ?_
    rw [propertiesText, List.flatMap_nil, firstLexeme_nil]
    exact .pure none []
  | cons p ps ih =>
    obtain ⟨e, he, hps⟩ := Option.bind_eq_some_iff.1 h
    have hnext : (propertiesText ps).head? ≠ some '\x27' := by
      rcases ps with _ | ⟨q, ps⟩ <;> simp [propertiesText]
    have htext : propertiesText (p :: ps) =
        " AND".toList ++ ' ' :: ((propertySql p).toList ++ propertiesText ps) := by
      simp [propertiesText]
    obtain ⟨hand, -⟩ := lexes_spaced " AND" "AND" rfl (by decide)
      (neutral_space ((propertySql p).toList ++ propertiesText ps))
    rw [htext]
    refine .repeated_cons (.bind (.acceptWord hand (by decide)) ?_) ?_
      (ih (fun q hq => hnames q (.tail _ hq)) hps)
    · extract_lets
      rw [if_pos rfl]
      exact .bind (takes_property (hnames p List.mem_cons_self) he hnext _).1 (.pure _ _)
    · simp
      omega

lemma foldlM_requirements (c : Certificate) :
    c.requirements.foldlM (fun c p => withProperty c p.1 p.2) ⟨none, none, none⟩ = some c := by
  obtain ⟨_ | _, _ | _, _ | _⟩ := c <;> rfl

lemma mem_propertyNames_of_requirements {c : Certificate} {p : String × String}
    (hp : p ∈ c.requirements) : p.1 ∈ propertyNames := by
  obtain ⟨⟨name, value?⟩, hmem, hvalue⟩ := List.mem_filterMap.1 hp
  obtain ⟨value, -, rfl⟩ := Option.map_eq_some_iff.1 hvalue
  simp only [List.mem_cons, Prod.mk.injEq, List.not_mem_nil, or_false] at hmem
  rcases hmem with ⟨rfl, -⟩ | ⟨rfl, -⟩ | ⟨rfl, -⟩ <;> simp [propertyNames]

end

/-! ### Transport -/

/-- Some property is required, if it is a certificate that is. -/
def Transport.Grammatical : Transport → Prop
  | certificate c => c.requirements ≠ []
  | _ => True

/-- A certificate is read from its properties, the first of which tells it from the other
requirements. -/
lemma takes_certificate {c : Certificate} (h : c.requirements ≠ []) :
    Takes transport (' ' :: (Transport.certificate c).sql.toList) (.certificate c) [] := by
  obtain ⟨p, ps, hps⟩ := List.exists_cons_of_ne_nil h
  have hfold := foldlM_requirements c
  rw [hps] at hfold
  obtain ⟨d, hd, hrest⟩ := Option.bind_eq_some_iff.1 hfold
  have hnames : ∀ q ∈ p :: ps, q.1 ∈ propertyNames := fun q hq =>
    mem_propertyNames_of_requirements (hps ▸ hq)
  have hnext : (propertiesText ps).head? ≠ some '\x27' := by
    rcases ps with _ | ⟨q, ps⟩ <;> simp [propertiesText]
  have htext : (Transport.certificate c).sql.toList =
      (propertySql p).toList ++ propertiesText ps := by
    rw [← toList_properties, ← hps]
    rfl
  rw [htext]
  obtain ⟨hproperty, hfirst⟩ := takes_property (hnames p List.mem_cons_self) hd hnext
    "NONE, SSL, X509, SUBJECT, ISSUER or CIPHER"
  have hupper : ∀ n ∈ propertyNames, Text.upper n = n ∧ n ≠ "NONE" ∧ n ≠ "SSL" ∧ n ≠ "X509" := by
    decide
  obtain ⟨hsame, hnone, hssl, hx509⟩ := hupper p.1 (hnames p List.mem_cons_self)
  refine .bind (.upperWord? _) ?_
  rw [hfirst, Lexeme.upperWord?, hsame]
  split
  · rename_i heq
    exact absurd (Option.some.inj heq) hnone
  · rename_i heq
    exact absurd (Option.some.inj heq) hssl
  · rename_i heq
    exact absurd (Option.some.inj heq) hx509
  · refine .bind hproperty (.bind (takes_properties ?_ hrest) (.pure _ []))
    exact fun q hq => hnames q (.tail _ hq)

/-- **A requirement is read from what is written for it.** -/
lemma Transport.Grammatical.takes {t : Transport} (h : t.Grammatical) :
    Takes transport (' ' :: t.sql.toList) t [] := by
  have hword (w : String) (hw : isPlainWord w = true) : Lexes (' ' :: w.toList) (.word w) [] := by
    have hlexes := Lexes.word hw neutral_nil
    rw [List.append_nil] at hlexes
    exact hlexes.space
  cases t with
  | anything =>
    have hnone := hword "NONE" (by decide)
    refine .bind (.upperWord? _) ?_
    rw [Transport.sql, hnone.first]
    exact .bind (.advance hnone) (.pure _ [])
  | ssl =>
    have hssl := hword "SSL" (by decide)
    refine .bind (.upperWord? _) ?_
    rw [Transport.sql, hssl.first]
    exact .bind (.advance hssl) (.pure _ [])
  | x509 =>
    have hx509 := hword "X509" (by decide)
    refine .bind (.upperWord? _) ?_
    rw [Transport.sql, hx509.first]
    exact .bind (.advance hx509) (.pure _ [])
  | certificate c => exact takes_certificate h

/-! ### Clauses -/

section

variable {mid : List Char}

def conditionSql : AccountVerb → Bool → String
  | _, false => ""
  | .create, true => " IF NOT EXISTS"
  | .alter, true => " IF EXISTS"

lemma takes_condition (verb : AccountVerb) (b : Bool) (hmid : Neutral mid)
    (hfirst : (firstLexeme mid).isWord "IF" = false) :
    Neutral ((conditionSql verb b).toList ++ mid) ∧
      Takes (condition verb) ((conditionSql verb b).toList ++ mid) b mid := by
  rcases b with _ | _
  · refine ⟨hmid, .bind (.acceptWord_other hfirst) ?_⟩
    exact .pure false mid
  · obtain ⟨hexists, hneutral⟩ := lexes_spaced " EXISTS" "EXISTS" rfl (by decide) hmid
    cases verb with
    | create =>
      obtain ⟨hnot, hneutral⟩ := lexes_spaced " NOT" "NOT" rfl (by decide) hneutral
      obtain ⟨hif, hneutral⟩ := lexes_spaced " IF" "IF" rfl (by decide) hneutral
      refine ⟨hneutral, .bind (.acceptWord hif (by decide)) ?_⟩
      exact .bind (.keyword hnot (by decide)) (.bind (.keyword hexists (by decide)) (.pure true mid))
    | alter =>
      obtain ⟨hif, hneutral⟩ := lexes_spaced " IF" "IF" rfl (by decide) hneutral
      refine ⟨hneutral, .bind (.acceptWord hif (by decide)) ?_⟩
      exact .bind (.keyword hexists (by decide)) (.pure true mid)

end

def requirementSql : Option Transport → String
  | some t => " REQUIRE " ++ t.sql
  | none => ""

lemma lexes_requirement (transport? : Option Transport) :
    Neutral (requirementSql transport?).toList ∧
      (firstLexeme (requirementSql transport?).toList = .ending ∨
        firstLexeme (requirementSql transport?).toList = .word "REQUIRE") := by
  rcases transport? with _ | t
  · exact ⟨by simp [requirementSql, Neutral], .inl firstLexeme_nil⟩
  · obtain ⟨hrequire, hneutral⟩ := lexes_clause " REQUIRE " "REQUIRE" rfl (by decide) t.sql []
    simp only [List.append_nil] at hrequire hneutral
    exact ⟨hneutral, .inr hrequire.first⟩

lemma takes_requirement {transport? : Option Transport} (h : ∀ t ∈ transport?, t.Grammatical)
    {α : Type} {a : α} {f : Option Transport → Parse α} (hf : Takes (f transport?) [] a []) :
    Takes (do
      let required ← acceptWord "REQUIRE"
      if required = true then do
        let t ← some <$> transport
        f t
      else do
        let t ← pure none
        f t) (requirementSql transport?).toList a [] := by
  rcases transport? with _ | t
  · refine .bind (.acceptWord_other (by simp [requirementSql, firstLexeme_nil, Lexeme.isWord])) ?_
    exact .bind (.pure none []) hf
  · obtain ⟨hrequire, -⟩ := lexes_clause " REQUIRE " "REQUIRE" rfl (by decide) t.sql []
    simp only [List.append_nil] at hrequire
    exact .bind (.acceptWord hrequire (by decide)) (.bind (.map some (h t rfl).takes) hf)

lemma takes_skipToEnd : Takes skipToEnd [] () [] := by
  rintro c ⟨start, hstart⟩
  rw [tokensFrom_of_nil start (by rw [dropGap])] at hstart
  have hmove : c.move 0 = c := rfl
  refine ⟨c, ?_, ⟨start, ?_⟩, List.suffix_refl _⟩
  · rw [skipToEnd, hstart]
    exact congrArg (fun d => Except.ok ((), d)) hmove
  · rw [hstart, tokensFrom_of_nil start (by rw [dropGap])]

namespace AccountClause

def Grammatical (c : AccountClause) : Prop := ∀ t ∈ c.transport?, t.Grammatical

theorem Grammatical.takes {c : AccountClause} (h : c.Grammatical) :
    Takes accounts c.sql.toList [c] [] := by
  obtain ⟨verb, a, conditional, transport?⟩ := c
  -- The text from its end on.
  obtain ⟨hneutral, hfirst⟩ := lexes_requirement transport?
  have hrequirement := fun (f : Option Transport → Parse (List AccountClause)) =>
    takes_requirement (a := [⟨verb, a, conditional, transport?⟩]) (f := f) h
  set tail := (requirementSql transport?).toList with htail
  have hother {w : String} (hw : Text.sameName "REQUIRE" w = false) :
      (firstLexeme tail).isWord w = false := by
    rcases hfirst with hfirst | hfirst <;> rw [hfirst]
    · rfl
    · exact hw
  have hcomma : firstLexeme tail ≠ .comma := by
    rcases hfirst with hfirst | hfirst <;> simp [hfirst]
  have hroles : Takes defaultRoles tail () tail := by
    refine .bind (.acceptWord_other (hother (by decide))) ?_
    exact .pure () tail
  obtain ⟨haccount, hfirst⟩ := takes_account a hneutral.not_quote
  set named := ' ' :: (a.sql.toList ++ tail)
  have hcredentials : Takes credentials tail () tail := by
    refine .bind (.acceptWord_other (hother (by decide))) ?_
    exact .pure () tail
  have hdeclared : Takes declaredAccount named a tail :=
    .bind haccount (.bind hcredentials (.pure a tail))
  -- The words before the account.
  obtain ⟨hneutral, hcondition⟩ := takes_condition verb conditional
    (neutral_space _ : Neutral named) (by rw [hfirst]; rfl)
  obtain ⟨huser, hneutral⟩ := lexes_spaced " USER" "USER" rfl (by decide) hneutral
  set opened := " USER".toList ++ ((conditionSql verb conditional).toList ++ named)
  have htext : (AccountClause.sql ⟨verb, a, conditional, transport?⟩).toList =
      (if verb = .create then "CREATE" else "ALTER").toList ++ opened := by
    rcases verb with _ | _ <;> rcases conditional with _ | _ <;> rcases transport? with _ | t <;>
      simp [AccountClause.sql, opened, conditionSql, named, tail, requirementSql]
  rw [htext]
  cases verb with
  | create =>
    rw [if_pos rfl]
    refine .bind (.acceptWord (Lexes.word (w := "CREATE") (by decide) hneutral) (by decide)) ?_
    refine .bind (.pure _ _) (.bind (.keyword huser (by decide)) (.bind hcondition ?_))
    refine .bind (.separated_last hdeclared hcomma) (.bind hroles (hrequirement _ ?_))
    exact .bind takes_skipToEnd (.bind Table.takes_ending (.pure _ []))
  | alter =>
    rw [if_neg (by decide)]
    have halter := Lexes.word (w := "ALTER") (by decide) hneutral
    refine .bind (.acceptWord_other (by rw [halter.first]; decide)) ?_
    refine .bind (.keyword halter (by decide)) ?_
    refine .bind (.pure _ _) (.bind (.keyword huser (by decide)) (.bind hcondition ?_))
    refine .bind (.separated_last hdeclared hcomma) (.bind hroles (hrequirement _ ?_))
    exact .bind takes_skipToEnd (.bind Table.takes_ending (.pure _ []))

end AccountClause

end SchemaDrift
