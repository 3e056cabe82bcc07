import Tablature.CommandLine.Run

namespace Tablature

namespace Arguments

/-- The places of the arguments that stand without an option. -/
def places : List String → List Nat
  | [] => []
  | "--preview" :: _ :: rest | "--options" :: _ :: rest | "--demo" :: _ :: rest => (places rest).map (· + 2)
  | argument :: rest =>
    match argument.toList with
    | '-' :: _ => (places rest).map (· + 1)
    | _ => 0 :: (places rest).map (· + 1)

/-- How many arguments without an option come before the output. -/
def outputRank (a : Arguments) : Nat :=
  if a.demo.isSome then 0 else 1

/-- The place of the output among all arguments. -/
def outputPlace? (a : Arguments) (arguments : List String) : Option Nat :=
  (places arguments)[a.outputRank]?

/-- An option with its value, and what it sets. -/
inductive Sets : List String → Arguments → Arguments → Prop
  | preview (a : Arguments) {text : String} {address : Address} (read : Address.ofText? text = some address) :
      Sets ["--preview", text] a { a with preview := some address }
  | options (a : Arguments) (path : String) : Sets ["--options", path] a { a with options := some path }
  | demo (a : Arguments) (name : String) : Sets ["--demo", name] a { a with demo := some name }
  | lint (a : Arguments) : Sets ["--lint"] a { a with lint := true }
  | listDemos (a : Arguments) : Sets ["--list-demos"] a { a with listDemos := true }
  | verboseShort (a : Arguments) : Sets ["-v"] a { a with verbose := true }
  | verbose (a : Arguments) : Sets ["--verbose"] a { a with verbose := true }

/-- A command line that is taken in from the left: what its options set, and the arguments without one. -/
inductive Taken : Arguments → List String → Arguments → List String → Prop
  | nil (a : Arguments) : Taken a [] a []
  | option {a b c : Arguments} {lead words texts : List String} (sets : Sets lead a b) (rest : Taken b words c texts) :
      Taken a (lead ++ words) c texts
  | bare {a c : Arguments} {argument : String} {words texts : List String}
      (noOption : ∀ cs, argument.toList ≠ '-' :: cs) (rest : Taken a words c texts) :
      Taken a (argument :: words) c (argument :: texts)

section Steps

variable {a b c : Arguments} {lead words texts positional : List String} {argument : String}

theorem Sets.parseFrom (sets : Sets lead a b) (positional words : List String) :
    parseFrom a positional (lead ++ words) = Arguments.parseFrom b positional words := by
  cases sets with
  | preview _ read =>
    simp only [List.cons_append, List.nil_append, Arguments.parseFrom, read]
  | _ => rfl

theorem Sets.places (sets : Sets lead a b) (words : List String) :
    places (lead ++ words) = (Arguments.places words).map (· + lead.length) := by
  cases sets <;> rfl

theorem Sets.output (sets : Sets lead a b) : b.output = a.output := by
  cases sets <;> rfl

theorem parseFrom_bare (noOption : ∀ cs, argument.toList ≠ '-' :: cs) (a : Arguments) (positional words : List String) :
    parseFrom a positional (argument :: words) = parseFrom a (argument :: positional) words := by
  rw [parseFrom.eq_def]
  split
  case h_1 start => cases start
  case h_14 start =>
    cases start
    split
    · next option => exact absurd option (noOption _)
    · rfl
  -- All other patterns begin with an option.
  all_goals
    next start =>
      cases start
      exact absurd rfl (noOption _)

theorem places_bare (noOption : ∀ cs, argument.toList ≠ '-' :: cs) (words : List String) :
    places (argument :: words) = 0 :: (places words).map (· + 1) := by
  rw [places.eq_def]
  split
  case h_1 start => cases start
  case h_5 start =>
    cases start
    split
    · next option => exact absurd option (noOption _)
    · rfl
  all_goals
    next start =>
      cases start
      exact absurd rfl (noOption _)

theorem Taken.parseFrom (taken : Taken a words c texts) (positional : List String) :
    parseFrom a positional words = some <$> c.assign (positional.reverse ++ texts) := by
  induction taken generalizing positional with
  | nil a => rw [List.append_nil, Arguments.parseFrom]
  | option sets _ ih => exact (sets.parseFrom positional _).trans (ih positional)
  | bare noOption _ ih =>
    rw [parseFrom_bare noOption, ih, List.reverse_cons, List.append_assoc]
    rfl

/-- The command line is taken in, and the arguments without an option get their roles. -/
def Accepted (a : Arguments) (positional words : List String) (result : Arguments) : Prop :=
  ∃ c texts, Taken a words c texts ∧ c.assign (positional.reverse ++ texts) = .ok result

theorem Accepted.option {result : Arguments} (sets : Sets lead a b) (rest : Accepted b positional words result) :
    Accepted a positional (lead ++ words) result := by
  obtain ⟨c, texts, taken, assigned⟩ := rest
  exact ⟨c, texts, .option sets taken, assigned⟩

theorem Accepted.bare {result : Arguments} (noOption : ∀ cs, argument.toList ≠ '-' :: cs)
    (rest : Accepted a (argument :: positional) words result) : Accepted a positional (argument :: words) result := by
  obtain ⟨c, texts, taken, assigned⟩ := rest
  refine ⟨c, argument :: texts, .bare noOption taken, ?_⟩
  rw [List.reverse_cons, List.append_assoc] at assigned
  exact assigned

/-- A command line that is parsed without an error was taken in. -/
theorem accepted_of_parseFrom {result : Arguments} (parsed : parseFrom a positional words = .ok (some result)) :
    Accepted a positional words result := by
  fun_induction parseFrom a positional words with
  | case1 a positional =>
    refine ⟨a, [], .nil a, ?_⟩
    rw [List.append_nil]
    cases assigned : a.assign positional.reverse with
    | error e =>
      rw [assigned] at parsed
      cases parsed
    | ok b =>
      rw [assigned] at parsed
      cases parsed
      rfl
  | case3 _ _ _ _ _ read ih => exact .option (.preview _ read) (ih parsed)
  | case6 _ _ _ _ ih => exact .option (.options _ _) (ih parsed)
  | case8 _ _ _ _ ih => exact .option (.demo _ _) (ih parsed)
  | case9 _ _ _ ih => exact .option (.lint _) (ih parsed)
  | case10 _ _ _ ih => exact .option (.listDemos _) (ih parsed)
  | case11 _ _ _ ih => exact .option (.verboseShort _) (ih parsed)
  | case12 _ _ _ ih => exact .option (.verbose _) (ih parsed)
  | case16 =>
    next noOption ih => exact .bare noOption (ih parsed)
  | _ => cases parsed

theorem Taken.output (taken : Taken a words c texts) : c.output = a.output := by
  induction taken with
  | nil => rfl
  | option sets _ ih => exact ih.trans sets.output
  | bare _ _ ih => exact ih

theorem Taken.length_places (taken : Taken a words c texts) : (places words).length = texts.length := by
  induction taken with
  | nil => rfl
  | option sets _ ih => rw [sets.places, List.length_map, ih]
  | bare noOption _ ih => rw [places_bare noOption, List.length_cons, List.length_map, ih, List.length_cons]

/-- Leaving out an argument without an option leaves the others in their roles. -/
theorem Taken.erase (taken : Taken a words c texts) {k i : Nat} (place : (places words)[k]? = some i) :
    words[i]? = texts[k]? ∧ Taken a (words.eraseIdx i) c (texts.eraseIdx k) := by
  induction taken generalizing k i with
  | nil => cases place
  | @option a b c lead words texts sets _ ih =>
    rw [sets.places, List.getElem?_map] at place
    obtain ⟨j, inner, rfl⟩ := Option.map_eq_some_iff.mp place
    obtain ⟨same, rest⟩ := ih inner
    refine ⟨?_, ?_⟩
    · rw [List.getElem?_append_right (Nat.le_add_left _ _), Nat.add_sub_cancel]
      exact same
    · rw [List.eraseIdx_append_of_length_le (Nat.le_add_left _ _), Nat.add_sub_cancel]
      exact .option sets rest
  | bare noOption taken ih =>
    rw [places_bare noOption] at place
    cases k with
    | zero =>
      cases place
      exact ⟨rfl, taken⟩
    | succ k =>
      rw [List.getElem?_cons_succ, List.getElem?_map] at place
      obtain ⟨j, inner, rfl⟩ := Option.map_eq_some_iff.mp place
      obtain ⟨same, rest⟩ := ih inner
      exact ⟨same, .bare noOption rest⟩

/-- Without the output, the other arguments ask for the same, printed. -/
theorem assign_erase {texts : List String} {a : Arguments} {path : String} (fresh : c.output = none)
    (assigned : c.assign texts = .ok a) (output : a.output = some path) :
    texts[a.outputRank]? = some path ∧ c.assign (texts.eraseIdx a.outputRank) = .ok { a with output := none } := by
  obtain ⟨_, _, demo, _, _, _, _, _⟩ := c
  cases fresh
  cases demo with
  | none =>
    match texts with
    | [] | [_] =>
      cases assigned
      cases output
    | [_, _] =>
      cases assigned
      cases output
      exact ⟨rfl, rfl⟩
    | _ :: _ :: _ :: _ => cases assigned
  | some name =>
    match texts with
    | [] =>
      cases assigned
      cases output
    | [_] =>
      cases assigned
      cases output
      exact ⟨rfl, rfl⟩
    | _ :: _ :: _ => cases assigned

end Steps

/-- Leaving out the output argument changes nothing but where the result goes. -/
theorem parse_eraseOutput {arguments : List String} {a : Arguments} {path : String}
    (parsed : parse arguments = .ok (some a)) (output : a.output = some path) :
    ∃ i, a.outputPlace? arguments = some i ∧ arguments[i]? = some path ∧
      parse (arguments.eraseIdx i) = .ok (some { a with output := none }) := by
  obtain ⟨c, texts, taken, assigned⟩ := accepted_of_parseFrom parsed
  obtain ⟨written, without⟩ := assign_erase taken.output assigned output
  have inside : a.outputRank < (places arguments).length := by
    rw [taken.length_places]
    exact (List.getElem?_eq_some_iff.mp written).1
  have place : a.outputPlace? arguments = some (places arguments)[a.outputRank] := List.getElem?_eq_getElem inside
  obtain ⟨same, rest⟩ := taken.erase place
  refine ⟨_, place, same.trans written, ?_⟩
  rw [parse, rest.parseFrom []]
  exact congrArg (some <$> ·) without

end Arguments

namespace CommandLine

variable {files : FileAccess} {a : Arguments} {outcome : Outcome}

/-- What a run that was not refused leaves: a listing of the demos, or its result where it was asked for. -/
theorem perform_ok (performed : perform files a = .ok outcome) :
    outcome.code = 0 ∧ (a.listDemos = true ∧ outcome.written = none ∨
      a.listDemos = false ∧ ∃ text, result files a = .ok text ∧
        (a.output = none ∧ outcome.stdout = text ++ "\n" ∧ outcome.written = none ∨
          ∃ path, a.output = some path ∧ files.refusal path = none ∧ outcome.stdout = "" ∧
            outcome.written = some (path, text))) := by
  unfold perform at performed
  split at performed
  · next listing =>
    cases performed
    exact ⟨rfl, Or.inl ⟨listing, rfl⟩⟩
  · next listing =>
    cases made : result files a with
    | error e =>
      rw [made] at performed
      cases performed
    | ok text =>
      rw [made] at performed
      have delivered : deliver files a text = .ok outcome := performed
      unfold deliver at delivered
      split at delivered
      · next printed =>
        cases delivered
        exact ⟨rfl, Or.inr ⟨Bool.eq_false_iff.mpr listing, text, rfl, Or.inl ⟨printed, rfl, rfl⟩⟩⟩
      · next path output =>
        split at delivered
        · cases delivered
        · next free =>
          cases delivered
          exact ⟨rfl, Or.inr ⟨Bool.eq_false_iff.mpr listing, text, rfl, Or.inr ⟨path, output, free, rfl, rfl⟩⟩⟩

/-- The result does not depend on where it goes. -/
theorem perform_printed {text : String} (listing : a.listDemos = false) (made : result files a = .ok text) :
    perform files { a with output := none } = .ok { code := 0, stdout := text ++ "\n" } := by
  unfold perform
  rw [if_neg (Bool.eq_false_iff.mp listing)]
  have same : result files { a with output := none } = .ok text := made
  rw [same]
  rfl

variable {arguments : List String}

/-- A run is refused, gives help, or does what was asked for. -/
theorem run_cases (files : FileAccess) (arguments : List String) :
    ((run files arguments).code ≠ 0 ∧ (run files arguments).stdout = "" ∧ (run files arguments).written = none) ∨
      (Arguments.parse arguments = .ok none ∧ (run files arguments).code = 0 ∧
        (run files arguments).written = none) ∨
      ∃ a, Arguments.parse arguments = .ok (some a) ∧ perform files a = .ok (run files arguments) := by
  have failed : (1 : UInt32) ≠ 0 := by decide
  unfold run
  split
  · exact Or.inl ⟨failed, rfl, rfl⟩
  · split
    · exact Or.inl ⟨failed, rfl, rfl⟩
    · next help => exact Or.inr (Or.inl ⟨help, rfl, rfl⟩)
    · next a parsed =>
      cases performed : perform files a with
      | ok outcome => exact Or.inr (Or.inr ⟨a, parsed, performed⟩)
      | error e => exact Or.inl ⟨failed, rfl, rfl⟩

theorem run_of_perform (parsed : Arguments.parse arguments = .ok (some a))
    (performed : perform files a = .ok outcome) : run files arguments = outcome := by
  cases arguments with
  | nil =>
    -- Without any argument there is no input.
    cases parsed
    cases performed
  | cons first rest =>
    unfold run
    rw [parsed, if_neg nofun]
    simp only [performed]

/-- A run writes, where nothing stands in the way, what it prints without the argument for the output. -/
theorem run_outputs {path : String} (parsed : Arguments.parse arguments = .ok (some a))
    (listing : a.listDemos = false) (output : a.output = some path) (done : (run files arguments).code = 0) :
    (run files arguments).stdout = "" ∧ files.refusal path = none ∧
      ∃ text i, (run files arguments).written = some (path, text) ∧ a.outputPlace? arguments = some i ∧
        arguments[i]? = some path ∧ run files (arguments.eraseIdx i) = { code := 0, stdout := text ++ "\n" } := by
  rcases run_cases files arguments with ⟨failed, _⟩ | ⟨help, _⟩ | ⟨b, parsedB, performed⟩
  · exact absurd done failed
  · cases help.symm.trans parsed
  · cases parsed.symm.trans parsedB
    rcases (perform_ok performed).2 with ⟨listed, _⟩ | ⟨_, text, made, ⟨printed, _⟩ | ⟨path', output', free, left⟩⟩
    · cases listing.symm.trans listed
    · cases printed.symm.trans output
    · cases output'.symm.trans output
      obtain ⟨i, place, same, parsedRest⟩ := Arguments.parse_eraseOutput parsed output
      exact ⟨left.1, free, text, i, left.2, place, same, run_of_perform parsedRest (perform_printed listing made)⟩

/-- A failed run writes and prints nothing. A successful one with an output, unless it lists the demos or helps,
prints nothing and writes what the same run without the argument for the output prints, less the last words break.
Listing the demos and helping write nothing. -/
theorem run_delivers (files : FileAccess) (arguments : List String) :
    ((run files arguments).code ≠ 0 → (run files arguments).written = none ∧ (run files arguments).stdout = "") ∧
    (∀ a path, Arguments.parse arguments = .ok (some a) → a.listDemos = false → a.output = some path →
      (run files arguments).code = 0 → (run files arguments).stdout = "" ∧
        ∃ text i, (run files arguments).written = some (path, text) ∧
          a.outputPlace? arguments = some i ∧ arguments[i]? = some path ∧
          (run files (arguments.eraseIdx i)).code = 0 ∧ (run files (arguments.eraseIdx i)).stdout = text ++ "\n" ∧
          (run files (arguments.eraseIdx i)).written = none) ∧
    ((Arguments.parse arguments = .ok none ∨ ∃ a, Arguments.parse arguments = .ok (some a) ∧ a.listDemos = true) →
      (run files arguments).written = none) := by
  refine ⟨fun failed => ?_, fun a path parsed listing output done => ?_, fun noResult => ?_⟩
  · rcases run_cases files arguments with ⟨_, stdout, written⟩ | ⟨_, done, _⟩ | ⟨a, _, performed⟩
    · exact ⟨written, stdout⟩
    · exact absurd done failed
    · exact absurd (perform_ok performed).1 failed
  · obtain ⟨stdout, _, text, i, written, place, same, printed⟩ := run_outputs parsed listing output done
    refine ⟨stdout, text, i, written, place, same, ?_⟩
    rw [printed]
    exact ⟨rfl, rfl, rfl⟩
  · rcases run_cases files arguments with ⟨_, _, written⟩ | ⟨_, _, written⟩ | ⟨a, parsed, performed⟩
    · exact written
    · exact written
    · rcases noResult with help | ⟨b, parsedB, listing⟩
      · cases help.symm.trans parsed
      · cases parsed.symm.trans parsedB
        rcases (perform_ok performed).2 with ⟨_, written⟩ | ⟨other, _⟩
        · exact written
        · cases listing.symm.trans other

/-- One empty document to read, and every file can be written. -/
def oneFile : FileAccess where
  read path := if path = "song.json" then .ok "\x7b\x7d" else .error .notFound
  refusal _ := none

theorem run_delivers_lint : ∃ text, (run oneFile ["song.json", "--lint", "out.json"]).stdout = "" ∧
    (run oneFile ["song.json", "--lint", "out.json"]).written = some ("out.json", text) ∧
    (run oneFile ["song.json", "--lint"]).stdout = text ++ "\n" ∧
    (run oneFile ["song.json", "--lint"]).written = none := by
  have done : (run oneFile ["song.json", "--lint", "out.json"]).code = 0 := by decide +kernel
  obtain ⟨stdout, text, i, written, place, _, _, printed, nothing⟩ :=
    (run_delivers oneFile ["song.json", "--lint", "out.json"]).2.1 _ _ rfl rfl rfl done
  cases place
  exact ⟨text, stdout, written, printed, nothing⟩

end CommandLine

end Tablature
