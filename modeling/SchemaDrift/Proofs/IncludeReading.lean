import Mathlib
import SchemaDrift.Proofs.OrderedLookup
import SchemaDrift.Source.Expansion

/-!
How included files are read. A file that is opened goes on a stack and comes off it when its last line
is read; a path that leads to a file on the stack is refused. The reading is described here rule by
rule. It always comes to an end, it yields what the expansion of the path is, and when that is a text
the stack is again what it was before.
-/

namespace SchemaDrift.FileTree

variable (t : FileTree)

/-! ### Files that paths lead to -/

lemma contains_of_follow {spot : Spot} {part : String} {a : Location}
    (h : t.follow spot part = .ok (.file a)) : t.files.contains a = true := by
  unfold follow at h
  split at h
  next => cases h
  next =>
    split_ifs at h
    cases Except.ok.inj h
  next d =>
    dsimp only at h
    split_ifs at h with _ _ _ _ hfile
    · cases Except.ok.inj h
    · cases Except.ok.inj h
    · cases Except.ok.inj h
    · obtain rfl := Spot.file.inj (Except.ok.inj h)
      exact hfile
    · cases Except.ok.inj h

lemma contains_of_foldlM {parts : List String} {spot : Spot} {a : Location}
    (hspot : ∀ b, spot = .file b → t.files.contains b = true)
    (h : parts.foldlM t.follow spot = .ok (.file a)) : t.files.contains a = true := by
  induction parts generalizing spot with
  | nil => exact hspot a (Except.ok.inj h)
  | cons part parts ih =>
    rw [List.foldlM_cons] at h
    rcases hnext : t.follow spot part with fault | next
    · rw [hnext] at h
      cases h
    · rw [hnext] at h
      exact ih (fun b hb => t.contains_of_follow (hb ▸ hnext)) h

lemma contains_of_resolve {directory a : Location} {path : String}
    (h : t.resolve directory path = .ok (.file a)) : t.files.contains a = true := by
  unfold resolve at h
  split_ifs at h
  split at h
  next => cases h
  next => exact t.contains_of_foldlM (fun _ hb => by cases hb) h
  next => exact t.contains_of_foldlM (fun _ hb => by cases hb) h

lemma mem_keys_of_locate {directory a : Location} {path : String}
    (h : t.locate directory path = .ok a) : a ∈ t.files.keys := by
  rw [OrderedMap.mem_keys_iff]
  unfold locate at h
  split at h
  next hresolve =>
    obtain rfl := Except.ok.inj h
    exact t.contains_of_resolve hresolve
  next => cases h
  next => cases h

/-! ### Expansion line by line -/

def linesOf (file : Location) : List (List Char) :=
  Text.lines ((t.files.get? file).getD "").toList

/-- What lines of a file stand for, each with its line break. -/
def expandLines (unopened : List Location) (file : Location) (lines : List (List Char)) :
    Except Fault (List Char) := do
  let expanded ← lines.mapM fun line =>
    match includedPath? line with
    | some target => t.expand unopened file.dropLast target
    | none => .ok line
  return expanded.flatMap (· ++ ['\n'])

variable {t}

lemma expand_of_missing {unopened : List Location} {directory : Location} {path : String}
    {fault : FileFault} (h : t.locate directory path = .error fault) :
    t.expand unopened directory path = .error (.file fault) := by
  rw [expand, h]
  rfl

lemma expand_of_opened {unopened : List Location} {directory a : Location} {path : String}
    (h : t.locate directory path = .ok a) (ha : a ∉ unopened) :
    t.expand unopened directory path = .error (.includeCycle (Text.joined "/" a)) := by
  rw [expand, h]
  simp only [Except.mapError, bind, Except.bind, dif_neg ha]

lemma expand_of_unopened {unopened : List Location} {directory a : Location} {path : String}
    (h : t.locate directory path = .ok a) (ha : a ∈ unopened) :
    t.expand unopened directory path = t.expandLines (unopened.erase a) a (t.linesOf a) := by
  rw [expand, h]
  simp only [Except.mapError, bind, Except.bind, dif_pos ha]
  rfl

@[simp] lemma expandLines_nil (unopened : List Location) (file : Location) :
    t.expandLines unopened file [] = .ok [] := rfl

lemma expandLines_cons (unopened : List Location) (file : Location) (line : List Char)
    (rest : List (List Char)) :
    t.expandLines unopened file (line :: rest) =
      (match includedPath? line with
        | some target => t.expand unopened file.dropLast target
        | none => .ok line).bind fun text =>
          (t.expandLines unopened file rest).map (text ++ '\n' :: ·) := by
  simp only [expandLines, List.mapM_cons, bind_assoc]
  refine congrArg _ (funext fun text => ?_)
  rcases List.mapM _ rest with fault | expanded
  · rfl
  · simp [bind, Except.bind, pure, Except.pure, Except.map]

lemma expandLines_kept {unopened : List Location} {file : Location} {line : List Char}
    {rest : List (List Char)} (h : includedPath? line = none) :
    t.expandLines unopened file (line :: rest) =
      (t.expandLines unopened file rest).map (line ++ '\n' :: ·) := by
  rw [expandLines_cons, h]
  rfl

lemma expandLines_included {unopened : List Location} {file : Location} {line : List Char}
    {rest : List (List Char)} {target : String} (h : includedPath? line = some target) :
    t.expandLines unopened file (line :: rest) =
      (t.expand unopened file.dropLast target).bind fun text =>
        (t.expandLines unopened file rest).map (text ++ '\n' :: ·) := by
  rw [expandLines_cons, h]

/-! ### The stack of open files -/

variable (t)

/-- What is left to read: a path from a directory, or lines of a file. -/
inductive Task where
  | path (directory : Location) (target : String)
  | lines (file : Location) (rest : List (List Char))

/-- Reading with the stack of open files. The stacks are the ones before and after; a fault leaves the
files open that were being read. -/
inductive Loads : Task → List Location → Except Fault (List Char) → List Location → Prop
  | missing {directory target opened fault} :
      t.locate directory target = .error fault →
      Loads (.path directory target) opened (.error (.file fault)) opened
  | cycle {directory target opened a} :
      t.locate directory target = .ok a → a ∈ opened →
      Loads (.path directory target) opened (.error (.includeCycle (Text.joined "/" a))) opened
  | file {directory target opened a text after} :
      t.locate directory target = .ok a → a ∉ opened →
      Loads (.lines a (t.linesOf a)) (a :: opened) (.ok text) after →
      Loads (.path directory target) opened (.ok text) after.tail
  | failed {directory target opened a fault after} :
      t.locate directory target = .ok a → a ∉ opened →
      Loads (.lines a (t.linesOf a)) (a :: opened) (.error fault) after →
      Loads (.path directory target) opened (.error fault) after
  | done {a opened} : Loads (.lines a []) opened (.ok []) opened
  | kept {a line rest opened result after} :
      includedPath? line = none → Loads (.lines a rest) opened result after →
      Loads (.lines a (line :: rest)) opened (result.map (line ++ '\n' :: ·)) after
  | included {a line rest target opened text between result after} :
      includedPath? line = some target →
      Loads (.path a.dropLast target) opened (.ok text) between →
      Loads (.lines a rest) between result after →
      Loads (.lines a (line :: rest)) opened (result.map (text ++ '\n' :: ·)) after
  | broken {a line rest target opened fault after} :
      includedPath? line = some target →
      Loads (.path a.dropLast target) opened (.error fault) after →
      Loads (.lines a (line :: rest)) opened (.error fault) after

def unopened (opened : List Location) : List Location :=
  t.files.keys.filter fun file => !opened.contains file

/-- What the expansion of a task is while these files are open. -/
def outcome (opened : List Location) : Task → Except Fault (List Char)
  | .path directory target => t.expand (t.unopened opened) directory target
  | .lines file rest => t.expandLines (t.unopened opened) file rest

variable {t}

@[simp] lemma unopened_nil : t.unopened [] = t.files.keys := by
  simp [unopened]

@[simp] lemma mem_unopened {opened : List Location} {a : Location} :
    a ∈ t.unopened opened ↔ a ∈ t.files.keys ∧ a ∉ opened := by
  simp [unopened]

lemma erase_unopened (opened : List Location) (a : Location) :
    (t.unopened opened).erase a = t.unopened (a :: opened) := by
  have hnodup : (t.unopened opened).Nodup := t.files.nodup_keys.filter _
  rw [hnodup.erase_eq_filter, unopened, unopened, List.filter_filter]
  refine List.filter_congr fun b _ => ?_
  rw [Bool.eq_iff_iff]
  simp

lemma length_unopened_cons {opened : List Location} {a : Location} (ha : a ∈ t.unopened opened) :
    (t.unopened (a :: opened)).length < (t.unopened opened).length := by
  rw [← erase_unopened, List.length_erase_of_mem ha]
  exact Nat.sub_lt (List.length_pos_of_mem ha) one_pos

lemma Loads.eq_outcome {task : Task} {opened after : List Location}
    {result : Except Fault (List Char)} (h : t.Loads task opened result after) :
    result = t.outcome opened task ∧ ∀ text, result = .ok text → after = opened := by
  induction h with
  | missing hlocate => exact ⟨(expand_of_missing hlocate).symm, nofun⟩
  | cycle hlocate hopened =>
    refine ⟨(expand_of_opened hlocate ?_).symm, nofun⟩
    simp [hopened]
  | file hlocate hclosed _ ih =>
    -- The file is on the stack while it is read, so it is not left to open.
    have hmem := mem_unopened.2 ⟨t.mem_keys_of_locate hlocate, hclosed⟩
    obtain ⟨hresult, hafter⟩ := ih
    refine ⟨?_, fun _ _ => by rw [hafter _ rfl, List.tail_cons]⟩
    rw [outcome, expand_of_unopened hlocate hmem, erase_unopened]
    exact hresult
  | failed hlocate hclosed _ ih =>
    have hmem := mem_unopened.2 ⟨t.mem_keys_of_locate hlocate, hclosed⟩
    refine ⟨?_, nofun⟩
    rw [outcome, expand_of_unopened hlocate hmem, erase_unopened]
    exact ih.1
  | done => exact ⟨rfl, fun _ _ => rfl⟩
  | @kept _ _ _ _ result _ hline _ ih =>
    obtain ⟨hresult, hafter⟩ := ih
    refine ⟨by rw [outcome, expandLines_kept hline, hresult, outcome], ?_⟩
    rcases result with fault | text
    · nofun
    · exact fun _ _ => hafter _ rfl
  | @included _ _ _ _ _ _ between result _ hline _ _ ihpath ihrest =>
    obtain ⟨hpath, hbetween⟩ := ihpath
    -- The included file has closed what it opened.
    obtain rfl := hbetween _ rfl
    obtain ⟨hrest, hafter⟩ := ihrest
    rw [outcome] at hpath
    rw [outcome] at hrest
    refine ⟨?_, ?_⟩
    · rw [outcome, expandLines_included hline, ← hpath, hrest, Except.bind]
    · rcases result with fault | text
      · nofun
      · exact fun _ _ => hafter _ rfl
  | broken hline _ ih =>
    obtain ⟨hpath, -⟩ := ih
    rw [outcome] at hpath
    refine ⟨?_, nofun⟩
    rw [outcome, expandLines_included hline, ← hpath, Except.bind]

lemma exists_loads_lines {opened : List Location}
    (h : ∀ directory target, ∃ result after, t.Loads (.path directory target) opened result after)
    (a : Location) (rest : List (List Char)) :
    ∃ result after, t.Loads (.lines a rest) opened result after := by
  induction rest with
  | nil => exact ⟨_, _, .done⟩
  | cons line rest ih =>
    obtain ⟨result, after, hrest⟩ := ih
    rcases hline : includedPath? line with _ | target
    · exact ⟨_, _, .kept hline hrest⟩
    · obtain ⟨fault | text, between, hpath⟩ := h a.dropLast target
      · exact ⟨_, _, .broken hline hpath⟩
      · obtain rfl := hpath.eq_outcome.2 _ rfl
        exact ⟨_, _, .included hline hpath hrest⟩

/-- Reading ends for every path, whatever is open: each file that it opens leaves fewer to open. -/
lemma exists_loads_path (opened : List Location) (directory : Location) (target : String) :
    ∃ result after, t.Loads (.path directory target) opened result after := by
  induction hn : (t.unopened opened).length using Nat.strong_induction_on
    generalizing opened directory target with
  | _ n ih =>
    subst hn
    rcases hlocate : t.locate directory target with fault | a
    · exact ⟨_, _, .missing hlocate⟩
    · by_cases hopened : a ∈ opened
      · exact ⟨_, _, .cycle hlocate hopened⟩
      · have hmem := mem_unopened.2 ⟨t.mem_keys_of_locate hlocate, hopened⟩
        -- what the lines of the file include is read with one file fewer to open
        have hpaths := fun directory target =>
          ih _ (length_unopened_cons hmem) (a :: opened) directory target rfl
        obtain ⟨fault | text, after, hlines⟩ := exists_loads_lines hpaths a (t.linesOf a)
        · exact ⟨_, _, .failed hlocate hopened hlines⟩
        · exact ⟨_, _, .file hlocate hopened hlines⟩

end SchemaDrift.FileTree
