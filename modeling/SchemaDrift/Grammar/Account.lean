import SchemaDrift.Grammar.Privilege

/-!
The grammar of `CREATE USER` and `ALTER USER`. Credentials and account options are read over.
-/

namespace SchemaDrift.Grammar

open Parse

/-- A password after `BY`. -/
def password : Parse Unit := do
  if ← acceptWords ["RANDOM", "PASSWORD"] then return ()
  else
    let _ ← acceptWord "PASSWORD"
    let _ ← string "password"

def credentials : Parse Unit := do
  if ← acceptWord "IDENTIFIED" then
    if ← acceptWord "BY" then
      password
      if ← acceptWord "REPLACE" then
        let _ ← string "current password"
      let _ ← acceptWords ["RETAIN", "CURRENT", "PASSWORD"]
    else if ← acceptWord "WITH" then
      let _ ← value "authentication plugin"
      if ← acceptWord "BY" then password
      else if ← acceptWord "AS" then
        let _ ← string "authentication string"
    else expected "BY or WITH"

/-- An account with its credentials. -/
def declaredAccount : Parse Account := do
  let a ← account
  credentials
  return a

/-- Adds a property to those required of a certificate; none can be required twice. -/
def withProperty (c : Certificate) (name value : String) : Option Certificate :=
  match name with
  | "SUBJECT" => if c.subject?.isSome then none else some { c with subject? := some value }
  | "ISSUER" => if c.issuer?.isSome then none else some { c with issuer? := some value }
  | _ => if c.cipher?.isSome then none else some { c with cipher? := some value }

/-- One property and its value; `otherwise` names what had to stand here. -/
def property (otherwise : String) (c : Certificate) : Parse Certificate := do
  match ← upperWord? with
  | some name =>
    if ["SUBJECT", "ISSUER", "CIPHER"].contains name then
      advance
      let value ← string "quoted value"
      match withProperty c name value with
      | some c => return c
      | none => fault (.duplicateRequirement name) 2
    else expected otherwise
  | none => expected otherwise

/-- The next property, with or without `AND` before it. -/
def nextProperty (c : Certificate) : Parse (Option Certificate) := do
  let more := "SUBJECT, ISSUER or CIPHER after AND"
  if ← acceptWord "AND" then return some (← property more c)
  else
    match ← upperWord? with
    | some "SUBJECT" | some "ISSUER" | some "CIPHER" => return some (← property more c)
    | _ => return none

/-- What follows `REQUIRE`. -/
def transport : Parse Transport := do
  match ← upperWord? with
  | some "NONE" => advance; return .anything
  | some "SSL" => advance; return .ssl
  | some "X509" => advance; return .x509
  | _ =>
    let first ← property "NONE, SSL, X509, SUBJECT, ISSUER or CIPHER" ⟨none, none, none⟩
    return .certificate (← repeated nextProperty first)

/-- `IF NOT EXISTS` of a creation, `IF EXISTS` of a change. -/
def condition (verb : AccountVerb) : Parse Bool := do
  if ← acceptWord "IF" then
    if verb = .create then keyword "NOT"
    keyword "EXISTS"
    return true
  else return false

/-- The roles that accounts start with; they are not kept. -/
def defaultRoles : Parse Unit := do
  if ← acceptWord "DEFAULT" then
    keyword "ROLE"
    let _ ← separated account

/-- A statement on accounts, as one clause for each of them. -/
def accounts : Parse (List AccountClause) := do
  let verb ← if ← acceptWord "CREATE" then pure AccountVerb.create
    else do keyword "ALTER"; pure .alter
  keyword "USER"
  let conditional ← condition verb
  let accounts ← separated declaredAccount
  defaultRoles
  let transport? ← if ← acceptWord "REQUIRE" then some <$> transport else pure none
  skipToEnd
  ending
  return accounts.map fun account => ⟨verb, account, conditional, transport?⟩

end SchemaDrift.Grammar
