/-!
Finite maps whose entries stand in increasing order of keys. The order is part of the type, so two
maps with the same entries are equal, and a walk over a map meets its keys in order.
-/

namespace SchemaDrift

/-- A finite map as its list of entries, keys strictly increasing. -/
structure OrderedMap (κ : Type) (β : Type) [Ord κ] where
  entries : List (κ × β)
  increasing : entries.Pairwise fun a b => compare a.1 b.1 = .lt
  deriving DecidableEq

namespace OrderedMap

variable {κ β γ : Type} [Ord κ]

def empty : OrderedMap κ β := ⟨[], .nil⟩

instance : Inhabited (OrderedMap κ β) := ⟨empty⟩

def keys (m : OrderedMap κ β) : List κ := m.entries.map (·.1)

def values (m : OrderedMap κ β) : List β := m.entries.map (·.2)

def isEmpty (m : OrderedMap κ β) : Bool := m.entries.isEmpty

def size (m : OrderedMap κ β) : Nat := m.entries.length

def get? (m : OrderedMap κ β) (k : κ) : Option β :=
  (m.entries.find? fun e => compare e.1 k == .eq).map (·.2)

def contains (m : OrderedMap κ β) (k : κ) : Bool := (m.get? k).isSome

/-- Keeps the entries that satisfy `p`. -/
def filter (m : OrderedMap κ β) (p : κ → β → Bool) : OrderedMap κ β :=
  ⟨m.entries.filter fun e => p e.1 e.2, m.increasing.filter _⟩

def erase (m : OrderedMap κ β) (k : κ) : OrderedMap κ β :=
  m.filter fun k' _ => compare k' k != .eq

/-- Replaces every value, or drops its entry. -/
def filterMap (m : OrderedMap κ β) (f : κ → β → Option γ) : OrderedMap κ γ :=
  ⟨m.entries.filterMap fun e => (f e.1 e.2).map (e.1, ·), by
    rw [List.pairwise_filterMap]
    refine m.increasing.imp fun {a b} hab x hx y hy => ?_
    simp only [Option.map_eq_some_iff] at hx hy
    obtain ⟨_, _, rfl⟩ := hx
    obtain ⟨_, _, rfl⟩ := hy
    exact hab⟩

/-- Replaces the value at a key by `f` of the present one, in a list of entries. -/
def alterEntries (k : κ) (f : Option β → β) : List (κ × β) → List (κ × β)
  | [] => [(k, f none)]
  | e :: rest =>
    match compare k e.1 with
    | .lt => (k, f none) :: e :: rest
    | .eq => (e.1, f (some e.2)) :: rest
    | .gt => e :: alterEntries k f rest

theorem fst_alterEntries {k : κ} {f : Option β → β} {es : List (κ × β)} {e : κ × β}
    (h : e ∈ alterEntries k f es) : e.1 = k ∨ ∃ e' ∈ es, e'.1 = e.1 := by
  induction es with
  | nil => simp_all [alterEntries]
  | cons d rest ih =>
    rw [alterEntries] at h
    split at h
    · rcases List.mem_cons.1 h with rfl | h
      · exact .inl rfl
      · exact .inr ⟨e, h, rfl⟩
    · rcases List.mem_cons.1 h with rfl | h
      · exact .inr ⟨d, by simp, rfl⟩
      · exact .inr ⟨e, by simp [h], rfl⟩
    · rcases List.mem_cons.1 h with rfl | h
      · exact .inr ⟨e, by simp, rfl⟩
      · rcases ih h with h | ⟨e', h, he⟩
        · exact .inl h
        · exact .inr ⟨e', by simp [h], he⟩

variable [Std.TransOrd κ]

theorem increasing_alterEntries {k : κ} {f : Option β → β} {es : List (κ × β)}
    (h : es.Pairwise fun a b => compare a.1 b.1 = .lt) :
    (alterEntries k f es).Pairwise fun a b => compare a.1 b.1 = .lt := by
  induction es with
  | nil => simp [alterEntries]
  | cons d rest ih =>
    rw [List.pairwise_cons] at h
    rw [alterEntries]
    split
    · rename_i hlt
      refine List.pairwise_cons.2 ⟨fun e he => ?_, List.pairwise_cons.2 h⟩
      rcases List.mem_cons.1 he with rfl | he
      · exact hlt
      · exact Std.TransCmp.lt_trans hlt (h.1 e he)
    · exact List.pairwise_cons.2 ⟨h.1, h.2⟩
    · rename_i hgt
      refine List.pairwise_cons.2 ⟨fun e he => ?_, ih h.2⟩
      rcases fst_alterEntries he with he | ⟨e', he', heq⟩
      · rw [he]; exact Std.OrientedCmp.lt_of_gt hgt
      · rw [← heq]; exact h.1 e' he'

/-- Sets the value at a key to `f` of the present one. -/
def alter (m : OrderedMap κ β) (k : κ) (f : Option β → β) : OrderedMap κ β :=
  ⟨alterEntries k f m.entries, increasing_alterEntries m.increasing⟩

/-- Sets the value at a key. -/
def insert (m : OrderedMap κ β) (k : κ) (v : β) : OrderedMap κ β := m.alter k fun _ => v

/-- The map of the pairs; of two pairs with one key the later counts. -/
def ofList (es : List (κ × β)) : OrderedMap κ β := es.foldl (fun m e => m.insert e.1 e.2) empty

/-! ### Looking up after a change -/

theorem get?_alter_self (m : OrderedMap κ β) (k : κ) (f : Option β → β) :
    (m.alter k f).get? k = some (f (m.get? k)) := by
  obtain ⟨es, h⟩ := m
  simp only [get?, alter]
  induction es with
  | nil => simp [alterEntries, Std.ReflCmp.compare_self]
  | cons d rest ih =>
    rw [List.pairwise_cons] at h
    rw [alterEntries]
    split
    · rename_i hlt
      have hd : compare d.1 k ≠ .eq := by
        intro he; rw [Std.OrientedCmp.eq_symm he] at hlt; simp at hlt
      have hn : rest.find? (fun e => compare e.1 k == .eq) = none := by
        rw [List.find?_eq_none]
        intro e he hc
        have h1 := h.1 e he
        have h2 := Std.TransCmp.lt_trans hlt h1
        have h3 : compare e.1 k = .eq := by simpa using hc
        rw [Std.OrientedCmp.eq_symm h3] at h2
        simp at h2
      simp [Std.ReflCmp.compare_self, hd, hn]
    · rename_i heq
      have hd : compare d.1 k = .eq := Std.OrientedCmp.eq_symm heq
      simp [hd]
    · rename_i hgt
      have hd : compare d.1 k ≠ .eq := by
        intro he; rw [Std.OrientedCmp.eq_symm he] at hgt; simp at hgt
      simpa [List.find?_cons, hd] using ih h.2

end OrderedMap

end SchemaDrift
