import SchemaDrift.Fault

/-!
Servers and sessions. A server is whatever answers queries: each answer may depend on all that was
asked before. A session asks one query after the other and keeps the record of them.
-/

namespace SchemaDrift

/-- A row of an answer, each value as text or null. -/
abbrev Row := List (Option String)

def Row.firstText? (r : Row) : Option String := r.head?.join

/-- What answers a query, given the queries before it: rows, or the reason for refusing it. -/
abbrev Server := (earlier : List String) → (query : String) → Except String (List Row)

/-- A computation that may query a server; its state is the queries so far, in order. -/
abbrev Session := ReaderT Server (StateM (List String))

/-- A session that may fail. -/
abbrev Attempt := ExceptT Fault Session

/-- Sends a query and records it. -/
def Session.ask (query : String) : Session (Except Fault (List Row)) := fun server earlier =>
  ((server earlier query).mapError (.refused query), earlier ++ [query])

/-- Sends a query; a refusal ends the attempt. -/
def Attempt.query (query : String) : Attempt (List Row) := ExceptT.mk (Session.ask query)

/-- A server whose answers do not depend on the past. -/
def Server.ofAnswers (answer : String → Except String (List Row)) : Server := fun _ query =>
  answer query

end SchemaDrift
