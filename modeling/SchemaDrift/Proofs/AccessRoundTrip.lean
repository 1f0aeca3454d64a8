import Mathlib
import SchemaDrift.Proofs.FoundAccess

/-!
The round trip of grants, revocations and clauses on accounts. Whatever a statement lists at once,
each part of it is written as a statement of its own, which is of the same kind and declares that
part alone.
-/

namespace SchemaDrift

open Parse Grammar

/-! ### Kinds -/

namespace Cursor

variable {c : Cursor} {words others : List String}

lemma hasWords_eq_false {n : Nat} {w v : String} (h : c.hasWords words = true)
    (hw : words[n]? = some w) (hv : others[n]? = some v) (hne : Text.sameName w v = false) :
    c.hasWords others = false := by
  by_contra hothers
  have hword := (hasWords_iff c words).1 h n w hw
  have hother := (hasWords_iff c others).1 (by simpa using hothers) n v hv
  cases hl : c.lexemeAt n with
  | word t =>
    rw [hl, Lexeme.isWord, Text.sameName_iff] at hword hother
    rw [← Bool.not_eq_true, Text.sameName_iff, ← hword, ← hother] at hne
    exact hne rfl
  | _ =>
    rw [hl] at hword
    cases hword

end Cursor

/-- The kind of a statement that opens with the verb. -/
def GrantVerb.kind : GrantVerb → StatementKind
  | grant => .grant
  | revoke => .revoke

namespace Statement

variable {c : Cursor}

lemma kindAt_of_hasWords_verb {verb : GrantVerb} (h : c.hasWords [Grant.opening verb] = true) :
    kindAt c = verb.kind := by
  have hother {w : String} (ws : List String) (hne : Text.sameName (Grant.opening verb) w = false) :
      c.hasWords (w :: ws) = false := Cursor.hasWords_eq_false (n := 0) h rfl rfl hne
  unfold kindAt
  cases verb with
  | grant =>
    rw [hother (w := "CREATE") _ (by decide), hother (w := "CREATE") _ (by decide),
      hother (w := "CREATE") _ (by decide), hother (w := "ALTER") _ (by decide)]
    exact if_pos h
  | revoke =>
    rw [hother (w := "CREATE") _ (by decide), hother (w := "CREATE") _ (by decide),
      hother (w := "CREATE") _ (by decide), hother (w := "ALTER") _ (by decide),
      hother (w := "GRANT") _ (by decide)]
    exact if_pos h

lemma kindAt_of_hasWords_user {w : String} (hw : w = "CREATE" ∨ w = "ALTER")
    (h : c.hasWords [w, "USER"] = true) : kindAt c = .account := by
  have htable : c.hasWords ["CREATE", "TABLE"] = false :=
    Cursor.hasWords_eq_false (n := 1) h rfl rfl (by decide)
  have htemporary : c.hasWords ["CREATE", "TEMPORARY", "TABLE"] = false :=
    Cursor.hasWords_eq_false (n := 1) h rfl rfl (by decide)
  unfold kindAt
  rw [htable, htemporary]
  rcases hw with rfl | rfl <;> simp [h]

lemma kindAt_of_grants {verb : GrantVerb} {c' : Cursor} {gs : List Grant}
    (h : Grammar.grants verb c = .ok (gs, c')) :
    kindAt c = verb.kind := by
  obtain ⟨⟨⟩, c₁, hkeyword, -⟩ := exists_of_bind h
  exact kindAt_of_hasWords_verb (hasWords_of_keyword hkeyword).1

lemma kindAt_of_accounts {c' : Cursor} {cs : List AccountClause}
    (h : Grammar.accounts c = .ok (cs, c')) : kindAt c = .account := by
  have hwords {w : String} (hw : w = "CREATE" ∨ w = "ALTER") (hfirst : c.hasWords [w] = true)
      (huser : (c.move 1).hasWords ["USER"] = true) : kindAt c = .account := by
    refine kindAt_of_hasWords_user hw ?_
    have hsplit := c.hasWords_append [w] ["USER"]
    rw [hfirst, Bool.true_and] at hsplit
    exact hsplit.trans huser
  obtain ⟨create, c₁, hcreate, hrest⟩ := exists_of_bind h
  obtain ⟨rfl, hfirst, rfl⟩ | ⟨rfl, rfl⟩ := hasWords_of_acceptWord hcreate
  · obtain ⟨verb, c₂, hverb, hrest⟩ := exists_of_bind hrest
    obtain ⟨-, rfl⟩ := Prod.mk.inj (Except.ok.inj hverb)
    obtain ⟨⟨⟩, c₃, huser, -⟩ := exists_of_bind hrest
    exact hwords (.inl rfl) hfirst (hasWords_of_keyword huser).1
  · obtain ⟨⟨⟩, c₂, halter, hrest⟩ := exists_of_bind hrest
    obtain ⟨hfirst, rfl⟩ := hasWords_of_keyword halter
    obtain ⟨verb, c₃, hverb, hrest⟩ := exists_of_bind hrest
    obtain ⟨-, rfl⟩ := Prod.mk.inj (Except.ok.inj hverb)
    obtain ⟨⟨⟩, c₄, huser, -⟩ := exists_of_bind hrest
    exact hwords (.inr rfl) hfirst (hasWords_of_keyword huser).1

/-! ### Statements -/

theorem grammatical_of_read_grants {real : FloatSize} {text : String} {verb : GrantVerb}
    {gs : List Grant} (h : read real text = .grants verb gs) :
    ∀ g ∈ gs, g.verb = verb ∧ g.Grammatical := by
  unfold read at h
  simp only at h
  split at h
  case h_2 | h_3 =>
    rcases eq_of_outcome h with ⟨a, c', hg, ha⟩ | ⟨fault, hf⟩
    · obtain ⟨rfl, rfl⟩ := Statement.grants.inj ha
      exact Grammar.grammatical_of_grants (Cursor.onText_ofText text) hg
    · contradiction
  case h_1 | h_4 => rcases eq_of_outcome h with ⟨a, c', hg, ha⟩ | ⟨fault, hf⟩ <;> contradiction
  all_goals contradiction

theorem grammatical_of_read_accounts {real : FloatSize} {text : String} {cs : List AccountClause}
    (h : read real text = .accounts cs) : ∀ c ∈ cs, c.Grammatical := by
  unfold read at h
  simp only at h
  split at h
  case h_4 =>
    rcases eq_of_outcome h with ⟨a, c', hg, ha⟩ | ⟨fault, hf⟩
    · obtain rfl := Statement.accounts.inj ha
      exact Grammar.yields_accounts _ _ _ hg
    · contradiction
  case h_1 | h_2 | h_3 =>
    rcases eq_of_outcome h with ⟨a, c', hg, ha⟩ | ⟨fault, hf⟩ <;> contradiction
  all_goals contradiction

end Statement

theorem Grant.Grammatical.read_sql {g : Grant} (h : g.Grammatical)
    (hnames : ∀ n ∈ g.names, BareNameIsWord n)
    (hwhole : ∀ s ∈ g.privileges.get? Grant.grantOption, s = .whole) (real : FloatSize) :
    Statement.read real g.sql = .grants g.verb [g] := by
  obtain ⟨c', hok, -⟩ := h.takes hnames hwhole _ (Cursor.at_ofText g.sql)
  have hkind := Statement.kindAt_of_grants hok
  cases hverb : g.verb with
  | grant | revoke =>
    rw [hverb] at hok hkind
    simp only [Statement.read, hkind, GrantVerb.kind, Statement.outcome, hok]

theorem AccountClause.Grammatical.read_sql {c : AccountClause} (h : c.Grammatical)
    (real : FloatSize) : Statement.read real c.sql = .accounts [c] := by
  obtain ⟨c', hok, -⟩ := h.takes _ (Cursor.at_ofText c.sql)
  simp only [Statement.read, Statement.kindAt_of_accounts hok, Statement.outcome, hok]

/-- **The round trip of grants and clauses on accounts.** Each grant of a statement that was read is
declared by the statement that is written for it, alone and by the same verb, if the right to pass
privileges on reaches the whole object and the names that stand bare are words; each clause of a
statement on accounts, whatever its accounts are called and its certificates require. -/
theorem Statement.read_sql_of_read_access {real real' : FloatSize} {text : String} :
    (∀ verb gs, read real text = .grants verb gs → ∀ g ∈ gs,
      (∀ s ∈ g.privileges.get? Grant.grantOption, s = .whole) →
        (∀ n ∈ g.names, BareNameIsWord n) → read real' g.sql = .grants verb [g]) ∧
    ∀ cs, read real text = .accounts cs → ∀ c ∈ cs, read real' c.sql = .accounts [c] := by
  refine ⟨fun verb gs h g hg hwhole hnames => ?_, fun cs h c hc => ?_⟩
  · obtain ⟨rfl, hgrammatical⟩ := grammatical_of_read_grants h g hg
    exact hgrammatical.read_sql hnames hwhole real'
  · exact (grammatical_of_read_accounts h c hc).read_sql real'

/-- A grant to two accounts, with columns that are listed twice, a dynamic privilege, and a word for
kinds as a name. -/
def reportersText : String :=
  "GRANT select (B, `a`), show view, select(b), Backup_Admin ON TABLE `my db`.`table` " ++
  "TO 'o''neil'@localhost, bob WITH GRANT OPTION"

def Grant.reporter : Grant where
  verb := .grant
  account := ⟨"o'neil", "localhost"⟩
  objectKind? := some .table
  database? := some "my db"
  object := "table"
  privileges := .ofList [("SELECT", .ofNames ["a", "b"]), ("SHOW VIEW", .whole),
    ("BACKUP_ADMIN", .whole), ("GRANT OPTION", .whole)]

/-- A clause whose properties stand in another order. -/
def visitorText : String :=
  "alter user if exists 'a@b'@`%` identified by 'secret' require cipher 'x' and subject '/CN=it''s'"

def AccountClause.visitor : AccountClause :=
  ⟨.alter, ⟨"a@b", "%"⟩, true, some (.certificate ⟨some "/CN=it's", none, some "x"⟩)⟩

theorem Statement.read_sql_of_read_access_reporter :
    read .single reportersText = .grants .grant
      [Grant.reporter, { Grant.reporter with account := ⟨"bob", "%"⟩ }] ∧
    (∀ s ∈ Grant.reporter.privileges.get? Grant.grantOption, s = .whole) ∧
    (∀ n ∈ Grant.reporter.names, BareNameIsWord n) ∧
    read .double Grant.reporter.sql = .grants .grant [Grant.reporter] ∧
    read .single visitorText = .accounts [AccountClause.visitor] ∧
    read .double AccountClause.visitor.sql = .accounts [AccountClause.visitor] := by
  have hgrants : read .single reportersText = .grants .grant
      [Grant.reporter, { Grant.reporter with account := ⟨"bob", "%"⟩ }] := by decide +kernel
  have hwhole : ∀ s ∈ Grant.reporter.privileges.get? Grant.grantOption, s = .whole := by
    decide +kernel
  have hnames : ∀ n ∈ Grant.reporter.names, Sql.isBareName n = true →
      isHexLiteral n.toList = false ∧ isScientific n.toList = false := by decide +kernel
  have haccounts : read .single visitorText = .accounts [AccountClause.visitor] := by
    decide +kernel
  exact ⟨hgrants, hwhole, hnames,
    read_sql_of_read_access.1 _ _ hgrants _ List.mem_cons_self hwhole hnames, haccounts,
    read_sql_of_read_access.2 _ haccounts _ List.mem_cons_self⟩

end SchemaDrift
