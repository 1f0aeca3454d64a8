import Mathlib
import SchemaDrift.Proofs.ColumnReplay

/-!
A server that carries out the alterations of a table. It keeps every text column with its character
set and collation: a column that names neither takes those that the table has by default at that
moment, and keeps them when the default changes. It knows every key by its name. A new default
character set brings its own collation, unless one is named beside it.
-/

namespace SchemaDrift

open Text (lower)

/-! ### What the server keeps -/

namespace Encoding

/-- Character set and collation that an encoding comes to: one that is not named follows from the
other. -/
def resolved (catalog : Catalog) (e : Encoding) : Encoding :=
  ⟨e.effectiveCharset?, e.collation.orElse fun _ =>
    (e.effectiveCharset?.bind catalog.find?).map (·.defaultCollation)⟩

/-- The encoding of a text column that names `e`, in a table whose default is `inForce`. -/
def stored (catalog : Catalog) (e inForce : Encoding) : Encoding :=
  (if e.isEmpty then inForce else e).resolved catalog

end Encoding

/-- A column type with its encoding written out. -/
def ColumnType.stored (catalog : Catalog) (inForce : Encoding) (t : ColumnType) : ColumnType :=
  if t.isTextual then t.withEncoding ((t.encoding?.getD .none).stored catalog inForce) else t

def Column.stored (catalog : Catalog) (inForce : Encoding) (c : Column) : Column :=
  { c with type := c.type.stored catalog inForce }

/-- The encoding that the columns of a table take by default. -/
def Table.encodingInForce (t : Table) : Encoding :=
  if t.defaultEncoding.isEmpty then ⟨some Charset.fallback, none⟩ else t.defaultEncoding

/-- The name by which the server knows a key. -/
def Key.serverName (k : Key) : String :=
  if k.kind = .primary then primaryName else k.name?.getD ""

/-- Options after some are set. A character set that is set without a collation brings its own. -/
def TableOptions.set (catalog : Catalog) (os : TableOptions) (settings : List (String × String)) :
    TableOptions :=
  let os := settings.foldl (fun os s => os.insert s.1 s.2) os
  match settings.lookup "CHARSET", settings.lookup "COLLATE" with
  | some charset, none =>
    match catalog.find? charset with
    | some facts => os.insert "COLLATE" facts.defaultCollation
    | none => os.erase "COLLATE"
  | _, _ => os

/-! ### Carrying out alterations -/

namespace Alteration

/-- What an alteration does to the keys, if it is not stuck: a key that is dropped has to be there,
and one that is added must have a new name. -/
def onKeys : Alteration → List Key → Option (List Key)
  | .dropKey name kind, ks =>
    let target := lower (if kind = .primary then Key.primaryName else name)
    if ks.any fun k => lower k.serverName = target then
      some (ks.filter fun k => lower k.serverName ≠ target)
    else none
  | .addKey _ k, ks =>
    if ks.any fun k' => lower k'.serverName = lower k.serverName then none else some (ks ++ [k])
  | .addColumn _, ks | .modifyColumn .., ks | .dropColumn _, ks | .setOptions _, ks => some ks

def onOptions (catalog : Catalog) : Alteration → TableOptions → TableOptions
  | .setOptions settings, os => os.set catalog settings
  | _, os => os

end Alteration

namespace Table

def alter (catalog : Catalog) (t : Table) (a : Alteration) : Option Table := do
  let columns ← a.onColumns (fun c => lower c.name) (Column.stored catalog t.encodingInForce)
    t.columns
  let keys ← a.onKeys t.keys
  return { t with columns, keys, options := a.onOptions catalog t.options }

/-- A table as the server keeps it: encodings written out, keys with their names. -/
def onServer (catalog : Catalog) (t : Table) : Table :=
  { t with
    columns := t.columns.map (Column.stored catalog t.encodingInForce)
    keys := t.namedKeys.map fun k => k.2.withName k.1 }

lemma foldlM_alter {catalog : Catalog} {as : List Alteration}
    (hoptions : ∀ a ∈ as, ∀ os, a.onOptions catalog os = os) {t : Table} {columns : List Column}
    {keys : List Key}
    (hcolumns : as.foldlM (fun cs a =>
      a.onColumns (fun c => lower c.name) (Column.stored catalog t.encodingInForce) cs) t.columns =
        some columns)
    (hkeys : as.foldlM (fun ks a => a.onKeys ks) t.keys = some keys) :
    as.foldlM (alter catalog) t = some { t with columns, keys } := by
  induction as generalizing t with
  | nil =>
    obtain rfl := Option.some.inj hcolumns
    obtain rfl := Option.some.inj hkeys
    rfl
  | cons a as ih =>
    rw [List.foldlM_cons] at hcolumns hkeys ⊢
    obtain ⟨cs, hcs, hcolumns⟩ := Option.bind_eq_some_iff.1 hcolumns
    obtain ⟨ks, hks, hkeys⟩ := Option.bind_eq_some_iff.1 hkeys
    have hstep : t.alter catalog a = some { t with columns := cs, keys := ks } := by
      simp only [alter, hcs, hks, hoptions a List.mem_cons_self]
      rfl
    rw [hstep]
    exact ih (fun b hb => hoptions b (List.mem_cons_of_mem _ hb)) hcolumns hkeys

end Table

def TablePair.run (p : TablePair) : Option Table :=
  (p.alterations.map (·.alteration)).foldlM (Table.alter p.catalog) (p.live.onServer p.catalog)

end SchemaDrift
