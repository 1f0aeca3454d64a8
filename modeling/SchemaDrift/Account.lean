import SchemaDrift.Sql

/-!
Accounts and the statements that declare them. Of such a statement only the accounts and the
requirement on their connections are kept.
-/

namespace SchemaDrift

/-- A user name with the hosts it may come from. -/
structure Account where
  user : String
  host : String
  deriving DecidableEq, Repr, Inhabited

namespace Account

def sql (a : Account) : String := Sql.string a.user ++ "@" ++ Sql.string a.host

/-- The account without quotes, for identification. -/
def key (a : Account) : String := a.user ++ "@" ++ a.host

/-- Accounts are ordered by user, those of one user by host. -/
instance : Ord Account := ⟨compareLex (compareOn user) (compareOn host)⟩

instance : Std.TransOrd Account :=
  inferInstanceAs (Std.TransCmp (compareLex (compareOn user) (compareOn host)))

instance : Std.LawfulEqOrd Account where
  eq_of_compare {a b} h := by
    rw [show compare a b = compareLex (compareOn user) (compareOn host) a b from rfl,
      compareLex_eq_eq] at h
    have h1 : a.user = b.user := Std.LawfulEqCmp.eq_of_compare h.1
    have h2 : a.host = b.host := Std.LawfulEqCmp.eq_of_compare h.2
    cases a; cases b; simp_all

end Account

/-- The properties of a certificate that a connection can be required to show. -/
structure Certificate where
  subject? : Option String
  issuer? : Option String
  cipher? : Option String
  deriving DecidableEq, Repr

namespace Certificate

/-- The properties that are required, in their fixed order. -/
def requirements (c : Certificate) : List (String × String) :=
  [("SUBJECT", c.subject?), ("ISSUER", c.issuer?), ("CIPHER", c.cipher?)].filterMap
    fun (name, value?) => value?.map fun value => (name, value)

def sql (c : Certificate) : String :=
  Text.joined " AND " (c.requirements.map fun (name, value) => name ++ " " ++ Sql.string value)

end Certificate

/-- What the connections of an account are required to be. -/
inductive Transport where
  | anything
  | ssl
  | x509
  | certificate (required : Certificate)
  deriving DecidableEq, Repr

def Transport.sql : Transport → String
  | anything => "NONE"
  | ssl => "SSL"
  | x509 => "X509"
  | certificate c => c.sql

inductive AccountVerb where
  | create
  | alter
  deriving DecidableEq, Repr

/-- One account of a `CREATE USER` or `ALTER USER`. -/
structure AccountClause where
  verb : AccountVerb
  account : Account
  /-- Whether the statement depends on the account's existence. -/
  conditional : Bool
  /-- The requirement, where the statement states one. -/
  transport? : Option Transport
  deriving DecidableEq, Repr

namespace AccountClause

/-- A clause that says nothing but the account. -/
def bare (verb : AccountVerb) (account : Account) : AccountClause := ⟨verb, account, false, none⟩

/-- The requirement on connections; a clause without one requires nothing. -/
def transport (c : AccountClause) : Transport := c.transport?.getD .anything

def sql (c : AccountClause) : String :=
  (match c.verb, c.conditional with
    | .create, false => "CREATE USER "
    | .create, true => "CREATE USER IF NOT EXISTS "
    | .alter, false => "ALTER USER "
    | .alter, true => "ALTER USER IF EXISTS ") ++ c.account.sql ++
  (match c.transport? with
    | some t => " REQUIRE " ++ t.sql
    | none => "")

end AccountClause

end SchemaDrift
