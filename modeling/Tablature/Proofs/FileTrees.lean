import Tablature.CommandLine.FileTree
import Tablature.Proofs.Delivery
import Tablature.Proofs.Ensures

namespace Tablature

section Names

theorem not_mem_of_mem_splitOn {α : Type} [BEq α] [LawfulBEq α] {x : α} {xs part : List α}
    (member : part ∈ xs.splitOn x) : x ∉ part := by
  induction xs generalizing part with
  | nil =>
    rw [List.mem_singleton.mp member]
    exact List.not_mem_nil
  | cons c cs ih =>
    rw [List.splitOn_cons_eq_if_modifyHead] at member
    split at member
    · rcases List.mem_cons.mp member with rfl | later
      · exact List.not_mem_nil
      · exact ih later
    · next other =>
      cases parts : cs.splitOn x with
      | nil => exact absurd parts (List.splitOn_ne_nil x cs)
      | cons first rest =>
        rw [parts] at ih member
        rcases List.mem_cons.mp member with rfl | later
        · exact List.not_mem_cons_of_ne_of_not_mem (fun same => other (beq_iff_eq.mpr same.symm))
            (ih List.mem_cons_self)
        · exact ih (List.mem_cons_of_mem _ later)

/-- A text that can stand between two slashes of a path. -/
def IsName (name : String) : Prop :=
  name ≠ "" ∧ '/' ∉ name.toList

theorem FileTree.steps_isName {path step : String} (member : step ∈ steps path) : IsName step := by
  obtain ⟨inPath, filled⟩ := List.mem_filter.mp member
  obtain ⟨part, inParts, rfl⟩ := List.mem_map.mp inPath
  refine ⟨bne_iff_ne.mp filled, ?_⟩
  rw [String.toList_ofList]
  exact not_mem_of_mem_splitOn inParts

/-- Names that are joined by slashes are the steps of the path that they make. -/
theorem FileTree.steps_intercalate {names : List String} (each : ∀ name ∈ names, IsName name) :
    steps ("/".intercalate names) = names := by
  have filled : names.filter (· != "") = names :=
    List.filter_eq_self.mpr fun name member => bne_iff_ne.mpr (each name member).1
  have slash : "/".toList = ['/'] := rfl
  rw [steps, String.toList_intercalate, slash]
  by_cases empty : names = []
  · rw [empty]
    rfl
  · have free : ∀ part ∈ names.map String.toList, '/' ∉ part := by
      intro part member
      obtain ⟨name, inNames, rfl⟩ := List.mem_map.mp member
      exact (each name inNames).2
    rw [List.splitOn_intercalate '/' free (mt List.map_eq_nil_iff.mp empty), List.map_map]
    have back : String.ofList ∘ String.toList = id := funext fun name => String.ofList_toList
    rw [back, List.map_id, filled]

end Names

/-- All names on the way to a directory of the tree are names. -/
def Directory.Named : Directory → Prop
  | inner steps => ∀ step ∈ steps, IsName step
  | system _ | around => True

namespace FileTree

variable {tree : FileTree} {place found : Directory} {names : List String} {path name text : String}

theorem parent_named (named : place.Named) : place.parent.Named := by
  cases place with
  | inner steps =>
    cases steps with
    | nil => exact True.intro
    | cons step steps => exact fun other member => named other (List.dropLast_subset _ member)
  | _ => exact True.intro

theorem inner_cases (tree : FileTree) (names : List String) :
    (∃ path text, (path, text) ∈ tree.files ∧ steps path = names ∧ tree.inner names = .file text) ∨
      tree.inner names = .directory (.inner names) ∨ tree.inner names = .nothing := by
  unfold inner
  split
  · next known =>
    have same := List.find?_some known
    exact Or.inl ⟨_, _, List.mem_of_find?_eq_some known, beq_iff_eq.mp same, rfl⟩
  · refine Or.inr ?_
    split
    · exact Or.inl rfl
    · exact Or.inr rfl

/-- What stands under a name in a directory of the tree is given by the names to it. -/
theorem entry_inner {stands : Entry} (there : tree.entry (.inner names) name = .ok stands) :
    stands = tree.inner (names ++ [name]) := by
  unfold entry at there
  split at there
  · cases there
  · exact (Except.ok.inj there).symm

theorem systemEntry_named (there : systemEntry names name = .directory found) : found.Named := by
  unfold systemEntry at there
  split at there
  · split at there <;> cases there
    exact True.intro
  · split at there <;> cases there
  · cases there

theorem entry_named (named : place.Named) (isName : IsName name)
    (there : tree.entry place name = .ok (.directory found)) : found.Named := by
  cases place with
  | inner names =>
    have stands := entry_inner there
    rcases tree.inner_cases (names ++ [name]) with ⟨_, _, _, _, isFile⟩ | isDirectory | nothing
    · cases stands.trans isFile
    · cases stands.trans isDirectory
      intro step member
      rcases List.mem_append.mp member with old | new
      · exact named step old
      · rw [List.mem_singleton.mp new]
        exact isName
    · cases stands.trans nothing
  | system names =>
    unfold entry at there
    split at there
    · cases there
    · exact systemEntry_named (Except.ok.inj there)
  | around =>
    unfold entry at there
    split at there <;> cases there

theorem enter_named (named : place.Named) (isName : IsName name) :
    Ensures Directory.Named (tree.enter place name) := by
  unfold enter
  split
  · exact .ok named
  · split
    · exact .ok (parent_named named)
    · cases there : tree.entry place name with
      | error e => exact .error e
      | ok stands =>
        cases stands with
        | directory next => exact .ok (entry_named named isName there)
        | file | nothing => exact .error _

/-- Where a path leads to a name, all on the way are names too. -/
theorem locate_named (tree : FileTree) (path : String) : Ensures
    (fun e => ∀ place name asDirectory, e = .name place name asDirectory → place.Named ∧ IsName name)
    (tree.locate path) := by
  unfold locate
  split
  · exact .error _
  · split
    · exact .error _
    · have start : (if path.startsWith "/" then Directory.system [] else .inner []).Named := by
        split
        · exact True.intro
        · exact fun _ none => nomatch none
      have enters (place : Directory) (step : String) (isStep : step ∈ (steps path).dropLast)
          (named : place.Named) : Ensures Directory.Named (tree.enter place step) :=
        enter_named named (steps_isName (List.dropLast_subset _ isStep))
      refine (Ensures.foldlM enters start).bind fun place named => ?_
      split
      · exact .ok nofun
      · next step last =>
        split
        · exact .map fun _ _ => nofun
        · refine .ok fun _ _ _ same => ?_
          cases same
          exact ⟨named, steps_isName (List.mem_of_getLast? last)⟩

/-- A path reads as a text where it leads to the name of a file, without a slash after it. -/
theorem read_ok_iff : tree.read path = .ok text ↔ ∃ place name,
    tree.locate path = .ok (.name place name false) ∧ tree.entry place name = .ok (.file text) := by
  unfold read
  rw [bind_eq_ok_iff]
  constructor
  · rintro ⟨pathEnd, located, read⟩
    cases pathEnd with
    | directory place => cases read
    | name place name asDirectory =>
      obtain ⟨stands, there, read⟩ := bind_eq_ok_iff.mp read
      cases stands with
      | directory | nothing => cases read
      | file stored =>
        cases asDirectory with
        | true => cases read
        | false =>
          cases read
          exact ⟨place, name, located, there⟩
  · rintro ⟨place, name, located, there⟩
    exact ⟨_, located, bind_eq_ok_iff.mpr ⟨_, there, rfl⟩⟩

/-- Writing is refused unless a path leads to the name of a file or of nothing, without a slash after it. -/
theorem refusal_eq_none_iff : tree.access.refusal path = none ↔ ∃ place name stands,
    tree.locate path = .ok (.name place name false) ∧ tree.entry place name = .ok stands ∧
      ∀ found, stands ≠ .directory found := by
  have free : tree.access.refusal path = none ↔ tree.checkWrite path = .ok () := by
    unfold access
    dsimp only
    cases tree.checkWrite path with
    | error e => exact ⟨nofun, nofun⟩
    | ok done => exact ⟨fun _ => rfl, fun _ => rfl⟩
  rw [free]
  unfold checkWrite
  rw [bind_eq_ok_iff]
  constructor
  · rintro ⟨pathEnd, located, check⟩
    cases pathEnd with
    | directory place => cases check
    | name place name asDirectory =>
      cases asDirectory with
      | true => cases check
      | false =>
        obtain ⟨stands, there, check⟩ := bind_eq_ok_iff.mp check
        cases stands with
        | directory => cases check
        | file | nothing => exact ⟨place, name, _, located, there, nofun⟩
  · rintro ⟨place, name, stands, located, there, noDirectory⟩
    refine ⟨_, located, bind_eq_ok_iff.mpr ⟨stands, there, ?_⟩⟩
    cases stands with
    | directory found => exact absurd rfl (noDirectory found)
    | file | nothing => rfl

/-- What can be read can be written. -/
theorem refusal_of_read (read : tree.read path = .ok text) : tree.access.refusal path = none := by
  obtain ⟨place, name, located, there⟩ := read_ok_iff.mp read
  exact refusal_eq_none_iff.mpr ⟨place, name, _, located, there, nofun⟩

/-- The tree once a text is written to the file at a path below it, be it there already or not. -/
def store (tree : FileTree) (path text : String) : FileTree :=
  ⟨(path, text) :: tree.files⟩

theorem inner_store_self (tree : FileTree) (path text : String) :
    (tree.store path text).inner (steps path) = .file text := by
  simp only [inner, store, List.find?_cons, BEq.rfl]

/-- A write leaves everything else as it was, but that there may be a directory on the way to the file where
there was nothing. -/
theorem inner_store (other : names ≠ steps path) (stands : tree.inner names ≠ .nothing) (text : String) :
    (tree.store path text).inner names = tree.inner names := by
  have skipped : (steps path == names) = false := beq_eq_false_iff_ne.mpr other.symm
  unfold inner at stands ⊢
  simp only [store, List.find?_cons, skipped, List.any_cons]
  split at stands
  · next known => rw [known]
  · next known =>
    rw [known]
    split at stands
    · next inside =>
      rw [if_pos inside]
      exact if_pos (Bool.or_eq_true_iff.mpr (Or.inr inside))
    · exact absurd rfl stands

section Writing

variable (free : ∀ found, tree.inner (steps path) ≠ .directory found)

include free

/-- Every directory can still be entered. -/
theorem enter_store (text : String) (place : Directory) (step : String) :
    Ensures (fun next => (tree.store path text).enter place step = .ok next) (tree.enter place step) := by
  unfold enter
  split
  · exact .ok rfl
  · split
    · exact .ok rfl
    · cases place with
      | system | around => exact fun _ there => there
      | inner names =>
        intro next entered
        obtain ⟨stands, there, entered⟩ := bind_eq_ok_iff.mp entered
        cases stands with
        | file | nothing => cases entered
        | directory found =>
          cases entered
          have isDirectory := (entry_inner there).symm
          have other : names ++ [step] ≠ steps path := by
            intro same
            rw [same] at isDirectory
            exact free _ isDirectory
          have same : (tree.store path text).inner (names ++ [step]) = tree.inner (names ++ [step]) :=
            inner_store other (by rw [isDirectory]; exact nofun) text
          refine bind_eq_ok_iff.mpr ⟨.directory next, ?_, rfl⟩
          unfold entry at there ⊢
          simp only [same]
          exact there

theorem locate_store (text other : String) :
    Ensures (fun pathEnd => (tree.store path text).locate other = .ok pathEnd) (tree.locate other) := by
  unfold locate
  split
  · exact .error _
  · split
    · exact .error _
    · refine .bind_same (.foldlM_same (enter_store free text) _ _) fun place => ?_
      split
      · exact .ok rfl
      · split
        · intro pathEnd located
          obtain ⟨next, entered, same⟩ := bind_eq_ok_iff.mp located
          exact bind_eq_ok_iff.mpr ⟨next, enter_store free text _ _ next entered, same⟩
        · exact .ok rfl

end Writing

/-- A file of the tree that may be written to stands, or would stand, in a directory of the tree, under a name
that is no directory. -/
theorem writable_cases (free : tree.access.refusal path = none) (known : tree.name? path = some name) :
    ∃ names step, tree.locate path = .ok (.name (.inner names) step false) ∧ steps name = names ++ [step] ∧
      name = "/".intercalate (steps name) ∧ ¬ nameLimit < step.utf8ByteSize ∧
      ∀ found, tree.inner (steps name) ≠ .directory found := by
  obtain ⟨place, step, stands, located, there, noDirectory⟩ := refusal_eq_none_iff.mp free
  obtain ⟨named, isName⟩ := locate_named tree path _ located _ _ _ rfl
  unfold name? at known
  rw [located] at known
  cases place with
  | system | around => cases known
  | inner names =>
    have same : steps name = names ++ [step] := by
      cases known
      refine steps_intercalate fun other member => ?_
      rcases List.mem_append.mp member with old | new
      · exact named other old
      · rw [List.mem_singleton.mp new]
        exact isName
    rw [entry_inner there, ← same] at noDirectory
    refine ⟨names, step, located, same, ?_, ?_, noDirectory⟩
    · rw [same]
      exact (Option.some.inj known).symm
    · unfold entry at there
      split at there
      · cases there
      · next short => exact short

/-- What was written is what is read from then on. -/
theorem read_store (free : tree.access.refusal path = none) (known : tree.name? path = some name) (text : String) :
    (tree.store name text).read path = .ok text := by
  obtain ⟨names, step, located, same, _, short, noDirectory⟩ := writable_cases free known
  refine read_ok_iff.mpr ⟨.inner names, step, locate_store noDirectory text path _ located, ?_⟩
  rw [entry, if_neg short, ← inner_store_self, same]

/-- Every other file reads as before. -/
theorem read_store_other {other old : String} (free : tree.access.refusal path = none)
    (known : tree.name? path = some name) (apart : tree.name? other ≠ some name) (reads : tree.read other = .ok old)
    (text : String) : (tree.store name text).read other = .ok old := by
  obtain ⟨_, _, _, _, joined, _, noDirectory⟩ := writable_cases free known
  obtain ⟨place, step, located, there⟩ := read_ok_iff.mp reads
  refine read_ok_iff.mpr ⟨place, step, locate_store noDirectory text other _ located, ?_⟩
  cases place with
  | system | around => exact there
  | inner names =>
    have elsewhere : names ++ [step] ≠ steps name := by
      intro same
      refine apart ?_
      unfold name?
      rw [located, joined, ← same]
    have stands : tree.inner (names ++ [step]) ≠ .nothing := by
      rw [← entry_inner there]
      exact nofun
    unfold entry at there ⊢
    simp only [inner_store elsewhere stands text]
    exact there

/-- The tree once a run has left it. -/
def after (tree : FileTree) (outcome : Outcome) : FileTree :=
  match outcome.written with
  | none => tree
  | some (path, text) =>
    match tree.name? path with
    | none => tree
    | some name => tree.store name text

end FileTree

namespace CommandLine

/-- A failed run leaves the tree as it was. A successful one with an output in the tree leaves there what the
same run without the argument for the output prints, less the last line break, and every other file as it was. -/
theorem run_leaves (tree : FileTree) (arguments : List String) :
    ((run tree.access arguments).code ≠ 0 → tree.after (run tree.access arguments) = tree) ∧
    ∀ a path name, Arguments.parse arguments = .ok (some a) → a.listDemos = false → a.output = some path →
      tree.name? path = some name → (run tree.access arguments).code = 0 →
      ∃ text i, arguments[i]? = some path ∧ (run tree.access (arguments.eraseIdx i)).stdout = text ++ "\n" ∧
        tree.after (run tree.access (arguments.eraseIdx i)) = tree ∧
        (tree.after (run tree.access arguments)).read path = .ok text ∧
        ∀ other old, tree.name? other ≠ some name → tree.read other = .ok old →
          (tree.after (run tree.access arguments)).read other = .ok old := by
  constructor
  · intro failed
    rcases run_cases tree.access arguments with ⟨_, _, written⟩ | ⟨_, done, _⟩ | ⟨a, _, performed⟩
    · rw [FileTree.after, written]
    · exact absurd done failed
    · exact absurd (perform_ok performed).1 failed
  · intro a path name parsed listing output known done
    obtain ⟨_, free, text, i, written, _, same, printed⟩ := run_outputs parsed listing output done
    have left : tree.after (run tree.access arguments) = tree.store name text := by
      simp only [FileTree.after, written, known]
    refine ⟨text, i, same, ?_⟩
    rw [left, printed]
    exact ⟨rfl, rfl, FileTree.read_store free known text,
      fun other old apart reads => FileTree.read_store_other free known apart reads text⟩

example : (((FileTree.mk [("song.json", "\x7b\x7d")]).after
    (run (FileTree.mk [("song.json", "\x7b\x7d")]).access ["song.json", "--lint", "./out.json"])).read
      "out.json").toOption = some "[]" := by
  decide +kernel

end CommandLine

end Tablature
