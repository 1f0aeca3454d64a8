import Mathlib
import SchemaDrift.Proofs.IncludeReading

/-!
Cycles of included files. Whether the reading of a file is refused for a cycle is a matter of the files
alone: it is, if all paths lead to files, exactly if a file that can be reached from it can be reached
from itself. A file that is included twice on different ways is no cycle.
-/

namespace SchemaDrift.FileTree

open Relation

variable (t : FileTree)

/-! ### What the files include -/

/-- A line of the first file includes the second. Its path leads from the directory of the first. -/
def Includes (a b : Location) : Prop :=
  ∃ line ∈ t.linesOf a, ∃ target,
    includedPath? line = some target ∧ t.locate a.dropLast target = .ok b

/-- Every path that is included in a file reached from `root` leads to a file. -/
def ResolvesFrom (root : Location) : Prop :=
  ∀ a, ReflTransGen t.Includes root a → ∀ line ∈ t.linesOf a, ∀ target,
    includedPath? line = some target → ∃ b, t.locate a.dropLast target = .ok b

/-- A file reached from `root` includes itself, directly or through others. -/
def HasCycleFrom (root : Location) : Prop :=
  ∃ a, ReflTransGen t.Includes root a ∧ TransGen t.Includes a a

/-- Lines of a file with every line that includes a file replaced by the expansion of that file. The
other lines stay as they are, and all stay in order. -/
inductive Expansion : Location → List (List Char) → List Char → Prop
  | done {a} : Expansion a [] []
  | kept {a line rest text} :
      includedPath? line = none → Expansion a rest text →
      Expansion a (line :: rest) (line ++ '\n' :: text)
  | included {a b line rest target inner text} :
      includedPath? line = some target → t.locate a.dropLast target = .ok b →
      Expansion b (t.linesOf b) inner → Expansion a rest text →
      Expansion a (line :: rest) (inner ++ '\n' :: text)

variable {t}

/-! ### Files that reach no cycle -/

variable (t) in
/-- A file that reaches no cycle, and only paths that lead to files. -/
def Clear (a : Location) : Prop := ¬ t.HasCycleFrom a ∧ t.ResolvesFrom a

variable (t) in
/-- Every path that is included in these lines of a file leads to a clear file. -/
def IncludesClear (a : Location) (lines : List (List Char)) : Prop :=
  ∀ line ∈ lines, ∀ target, includedPath? line = some target →
    ∃ b, t.locate a.dropLast target = .ok b ∧ t.Clear b

lemma HasCycleFrom.step {a : Location} (h : t.HasCycleFrom a) :
    ∃ b, t.Includes a b ∧ t.HasCycleFrom b := by
  obtain ⟨c, hreach, hcycle⟩ := h
  rcases hreach.cases_head with rfl | ⟨b, hab, hbc⟩
  · obtain ⟨b, hab, hba⟩ := TransGen.head'_iff.1 hcycle
    exact ⟨b, hab, a, hba, hcycle⟩
  · exact ⟨b, hab, c, hbc, hcycle⟩

lemma IncludesClear.of_includes {a b : Location} (h : t.IncludesClear a (t.linesOf a))
    (hab : t.Includes a b) : t.Clear b := by
  obtain ⟨line, hline, target, htarget, hlocate⟩ := hab
  obtain ⟨b', hlocate', hclear⟩ := h line hline target htarget
  obtain rfl := Except.ok.inj (hlocate.symm.trans hlocate')
  exact hclear

lemma IncludesClear.clear {a : Location} (h : t.IncludesClear a (t.linesOf a)) : t.Clear a := by
  refine ⟨fun hcycle => ?_, fun c hreach => ?_⟩
  · obtain ⟨b, hab, hb⟩ := hcycle.step
    exact (h.of_includes hab).1 hb
  · rcases hreach.cases_head with rfl | ⟨b, hab, hbc⟩
    · intro line hline target htarget
      obtain ⟨b, hlocate, -⟩ := h line hline target htarget
      exact ⟨b, hlocate⟩
    · exact (h.of_includes hab).2 c hbc

/-! ### What an expansion says about the files -/

lemma Expansion.unique {a : Location} {lines : List (List Char)} {text text' : List Char}
    (h : t.Expansion a lines text) (h' : t.Expansion a lines text') : text = text' := by
  induction h generalizing text' with
  | done =>
    cases h'
    rfl
  | kept hline _ ih =>
    cases h' with
    | kept _ hrest => rw [ih hrest]
    | included hline' => simp [hline] at hline'
  | included hline hlocate _ _ ihinner ihrest =>
    cases h' with
    | kept hline' => simp [hline] at hline'
    | included hline' hlocate' hinner hrest =>
      obtain rfl := Option.some.inj (hline.symm.trans hline')
      obtain rfl := Except.ok.inj (hlocate.symm.trans hlocate')
      rw [ihinner hinner, ihrest hrest]

lemma Expansion.includesClear {a : Location} {lines : List (List Char)} {text : List Char}
    (h : t.Expansion a lines text) : t.IncludesClear a lines := by
  induction h with
  | done => nofun
  | kept hline _ ih =>
    refine List.forall_mem_cons.2 ⟨fun target htarget => ?_, ih⟩
    simp [hline] at htarget
  | @included _ b _ _ _ _ _ hline hlocate _ _ ihinner ihrest =>
    refine List.forall_mem_cons.2 ⟨fun target htarget => ?_, ihrest⟩
    obtain rfl := Option.some.inj (hline.symm.trans htarget)
    exact ⟨b, hlocate, ihinner.clear⟩

/-! ### What a reading says about the files -/

variable (t) in
/-- The text is what is left to read with all included files in it. -/
def Expands : Task → List Char → Prop
  | .path directory target, text =>
    ∃ a, t.locate directory target = .ok a ∧ t.Expansion a (t.linesOf a) text
  | .lines a rest, text => t.Expansion a rest text

lemma Loads.expands {task : Task} {opened after : List Location}
    {result : Except Fault (List Char)} (h : t.Loads task opened result after) {text : List Char}
    (hresult : result = .ok text) : t.Expands task text := by
  induction h generalizing text with
  | missing => cases hresult
  | cycle => cases hresult
  | file hlocate _ _ ih => exact ⟨_, hlocate, ih hresult⟩
  | failed => cases hresult
  | done =>
    cases hresult
    exact .done
  | @kept _ _ _ _ result _ hline _ ih =>
    rcases result with fault | rest
    · cases hresult
    · cases hresult
      exact .kept hline (ih rfl)
  | @included _ _ _ _ _ _ _ result _ hline _ _ ihpath ihrest =>
    obtain ⟨b, hlocate, hinner⟩ := ihpath rfl
    rcases result with fault | rest
    · cases hresult
    · cases hresult
      exact .included hline hlocate hinner (ihrest rfl)
  | broken => cases hresult

variable (t) in
/-- What is left to read belongs to files reached from `root`, and every open file leads to it. -/
def Within (root : Location) (opened : List Location) : Task → Prop
  | .path directory target =>
    match t.locate directory target with
    | .ok b => ReflTransGen t.Includes root b ∧ ∀ a ∈ opened, TransGen t.Includes a b
    | .error _ => ¬ t.ResolvesFrom root
  | .lines a rest =>
    ReflTransGen t.Includes root a ∧ (∀ line ∈ rest, line ∈ t.linesOf a) ∧
      ∀ b ∈ opened, ReflTransGen t.Includes b a

lemma Within.file {root a directory : Location} {opened : List Location} {target : String}
    (h : t.Within root opened (.path directory target)) (hlocate : t.locate directory target = .ok a) :
    t.Within root (a :: opened) (.lines a (t.linesOf a)) := by
  simp only [Within, hlocate] at h
  refine ⟨h.1, fun _ hline => hline, List.forall_mem_cons.2 ⟨.refl, fun b hb => ?_⟩⟩
  exact (h.2 b hb).to_reflTransGen

lemma Within.tail {root a : Location} {opened : List Location} {line : List Char}
    {rest : List (List Char)} (h : t.Within root opened (.lines a (line :: rest))) :
    t.Within root opened (.lines a rest) :=
  ⟨h.1, fun _ hmem => h.2.1 _ (List.mem_cons_of_mem line hmem), h.2.2⟩

lemma Within.included {root a : Location} {opened : List Location} {line : List Char}
    {rest : List (List Char)} {target : String}
    (h : t.Within root opened (.lines a (line :: rest))) (hline : includedPath? line = some target) :
    t.Within root opened (.path a.dropLast target) := by
  obtain ⟨hroot, hlines, hopened⟩ := h
  have hmem := hlines line List.mem_cons_self
  rw [Within]
  split
  next b hlocate =>
    have hab : t.Includes a b := ⟨line, hmem, target, hline, hlocate⟩
    exact ⟨hroot.tail hab, fun c hc => TransGen.tail' (hopened c hc) hab⟩
  next fault hlocate =>
    intro hresolves
    obtain ⟨b, hb⟩ := hresolves a hroot line hmem target hline
    simp [hlocate] at hb

/-- A fault of a file comes from a path that leads nowhere, one of a cycle from a cycle. -/
lemma Loads.reason {root : Location} {task : Task} {opened after : List Location}
    {result : Except Fault (List Char)} (h : t.Loads task opened result after)
    (hwithin : t.Within root opened task) {fault : Fault} (hresult : result = .error fault) :
    ((∃ reason, fault = .file reason) ∧ ¬ t.ResolvesFrom root) ∨
      ((∃ place, fault = .includeCycle place) ∧ t.HasCycleFrom root) := by
  induction h generalizing fault with
  | missing hlocate =>
    cases hresult
    simp only [Within, hlocate] at hwithin
    exact .inl ⟨⟨_, rfl⟩, hwithin⟩
  | cycle hlocate hopened =>
    cases hresult
    simp only [Within, hlocate] at hwithin
    exact .inr ⟨⟨_, rfl⟩, _, hwithin.1, hwithin.2 _ hopened⟩
  | file => cases hresult
  | failed hlocate _ _ ih => exact ih (hwithin.file hlocate) hresult
  | done => cases hresult
  | @kept _ _ _ _ result _ _ _ ih =>
    rcases result with _ | _
    · cases hresult
      exact ih hwithin.tail rfl
    · cases hresult
  | @included _ _ _ _ _ _ _ result _ _ hpath _ _ ih =>
    obtain rfl := hpath.eq_outcome.2 _ rfl
    rcases result with _ | _
    · cases hresult
      exact ih hwithin.tail rfl
    · cases hresult
  | broken hline _ ih => exact ih (hwithin.included hline) hresult

/-! ### Expansion from a root -/

lemma expand_cases {directory root : Location} {path : String}
    (hroot : t.locate directory path = .ok root) :
    (∃ text, t.expand t.files.keys directory path = .ok text ∧
      t.Expansion root (t.linesOf root) text) ∨
    (∃ reason, t.expand t.files.keys directory path = .error (.file reason)) ∧
      ¬ t.ResolvesFrom root ∨
    (∃ place, t.expand t.files.keys directory path = .error (.includeCycle place)) ∧
      t.HasCycleFrom root := by
  obtain ⟨result, after, hloads⟩ := exists_loads_path [] directory path (t := t)
  have hexpand : result = t.expand t.files.keys directory path := by
    simpa [outcome] using hloads.eq_outcome.1
  rw [← hexpand]
  rcases result with fault | text
  · have hwithin : t.Within root [] (.path directory path) := by
      simp only [Within, hroot]
      exact ⟨.refl, List.forall_mem_nil _⟩
    rcases hloads.reason hwithin rfl with ⟨⟨reason, rfl⟩, h⟩ | ⟨⟨place, rfl⟩, h⟩
    · exact .inr (.inl ⟨⟨reason, rfl⟩, h⟩)
    · exact .inr (.inr ⟨⟨place, rfl⟩, h⟩)
  · obtain ⟨a, hlocate, hexpansion⟩ := hloads.expands rfl
    obtain rfl := Except.ok.inj (hroot.symm.trans hlocate)
    exact .inl ⟨text, rfl, hexpansion⟩

lemma clear_of_expand {directory root : Location} {path : String} {text : List Char}
    (hroot : t.locate directory path = .ok root)
    (h : t.expand t.files.keys directory path = .ok text) : t.Clear root := by
  rcases expand_cases hroot with ⟨_, _, hexpansion⟩ | ⟨⟨reason, hfault⟩, -⟩ | ⟨⟨place, hcycle⟩, -⟩
  · exact hexpansion.includesClear.clear
  · simp [h] at hfault
  · simp [h] at hcycle

variable (t) in
/-- **A file is expanded unless it reaches a cycle.** Whatever files are open,

the reading of a path ends, yields what the expansion is, and leaves the files open that were open
before if that is a text;

where all paths that are reached lead to files, the expansion has no fault of a file;

an expansion without such a fault is refused for a cycle exactly if the root reaches one, and
otherwise yields the one text in which every line that includes a file is replaced. -/
theorem expands_unless_cycle (directory : Location) (path : String) {root : Location}
    (hroot : t.locate directory path = .ok root) :
    (∀ opened, (∃ result after, t.Loads (.path directory path) opened result after) ∧
      ∀ result after, t.Loads (.path directory path) opened result after →
        result = t.expand (t.unopened opened) directory path ∧
        ∀ text, result = .ok text → after = opened) ∧
    (t.ResolvesFrom root →
      ∀ reason, t.expand t.files.keys directory path ≠ .error (.file reason)) ∧
    ((∀ reason, t.expand t.files.keys directory path ≠ .error (.file reason)) →
      ((∃ place, t.expand t.files.keys directory path = .error (.includeCycle place)) ↔
        t.HasCycleFrom root) ∧
      (¬ t.HasCycleFrom root → ∃ text, t.expand t.files.keys directory path = .ok text ∧
        ∀ text', t.Expansion root (t.linesOf root) text' ↔ text' = text)) := by
  refine ⟨fun opened => ⟨exists_loads_path opened directory path, fun result after h => ?_⟩, ?_, ?_⟩
  · exact h.eq_outcome
  · rintro hresolves reason hreason
    rcases expand_cases hroot with ⟨text, htext, -⟩ | ⟨-, hfault⟩ | ⟨⟨place, hplace⟩, -⟩
    · simp [htext] at hreason
    · exact hfault hresolves
    · simp [hplace] at hreason
  · intro hfile
    rcases expand_cases hroot with ⟨text, htext, hexpansion⟩ | ⟨⟨reason, hreason⟩, -⟩ | ⟨hplace, hcycle⟩
    · have hacyclic := hexpansion.includesClear.clear.1
      refine ⟨iff_of_false (fun ⟨place, hplace⟩ => ?_) hacyclic, fun _ => ⟨text, htext, ?_⟩⟩
      · simp [htext] at hplace
      · exact fun text' => ⟨fun h => h.unique hexpansion, fun h => h ▸ hexpansion⟩
    · exact absurd hreason (hfile reason)
    · exact ⟨iff_of_true hplace hcycle, fun hacyclic => absurd hcycle hacyclic⟩

/-- Two files that include a third, one of them by a path with a detour. -/
def diamond : FileTree :=
  ofList [("main.sql", "#!include parts/a.sql\n#!include parts/../parts/b.sql\n"),
    ("parts/a.sql", "#!include b.sql\nA\n"), ("parts/b.sql", "B\n")]

/-- Two files that include each other, one of them by a path with a detour. -/
def ring : FileTree :=
  ofList [("a.sql", "#!include parts/b.sql\n"), ("parts/b.sql", "#!include ../parts/../a.sql\n")]

theorem expands_unless_cycle_diamond_ring :
    (diamond.locate [] "main.sql" = .ok ["main.sql"] ∧ diamond.ResolvesFrom ["main.sql"] ∧
      ¬ diamond.HasCycleFrom ["main.sql"] ∧
      diamond.Expansion ["main.sql"] (diamond.linesOf ["main.sql"]) "B\n\nA\n\nB\n\n".toList) ∧
    ring.locate [] "a.sql" = .ok ["a.sql"] ∧ ring.HasCycleFrom ["a.sql"] := by
  have hmain : diamond.locate [] "main.sql" = .ok ["main.sql"] := by decide +kernel
  have htext : diamond.expand diamond.files.keys [] "main.sql" =
      .ok "B\n\nA\n\nB\n\n".toList := by decide +kernel
  have hring : ring.locate [] "a.sql" = .ok ["a.sql"] := by decide +kernel
  have hcycle : ring.expand ring.files.keys [] "a.sql" = .error (.includeCycle "a.sql") := by
    decide +kernel
  obtain ⟨hacyclic, hresolves⟩ := clear_of_expand hmain htext
  obtain ⟨-, hfile, hyields⟩ := expands_unless_cycle diamond [] "main.sql" hmain
  obtain ⟨text, htext', hexpansion⟩ := (hyields (hfile hresolves)).2 hacyclic
  obtain rfl := Except.ok.inj (htext.symm.trans htext')
  obtain ⟨-, -, hrefused⟩ := expands_unless_cycle ring [] "a.sql" hring
  have hfile' : ∀ reason, ring.expand ring.files.keys [] "a.sql" ≠ .error (.file reason) := by
    simp [hcycle]
  exact ⟨⟨hmain, hresolves, hacyclic, (hexpansion _).2 rfl⟩, hring,
    (hrefused hfile').1.1 ⟨_, hcycle⟩⟩

end SchemaDrift.FileTree
