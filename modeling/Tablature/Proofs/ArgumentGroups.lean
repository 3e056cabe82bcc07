import Mathlib.Data.List.Induction
import Tablature.Proofs.Delivery

namespace Tablature.Arguments

/-- What is taken from a command line at a time: an option with its value, a flag, or an argument without an
option. -/
inductive Group where
  | preview (text : String) (address : Address) (read : Address.ofText? text = some address)
  | options (path : String)
  | demo (name : String)
  | lint
  | listDemos
  | verbose (short : Bool)
  | bare (argument : String) (noOption : ∀ cs, argument.toList ≠ '-' :: cs)

namespace Group

def words : Group → List String
  | preview text _ _ => ["--preview", text]
  | options path => ["--options", path]
  | demo name => ["--demo", name]
  | lint => ["--lint"]
  | listDemos => ["--list-demos"]
  | verbose true => ["-v"]
  | verbose false => ["--verbose"]
  | bare argument _ => [argument]

def address? : Group → Option Address
  | preview _ address _ => some address
  | _ => none

def path? : Group → Option String
  | options path => some path
  | _ => none

def name? : Group → Option String
  | demo name => some name
  | _ => none

def bare? : Group → Option String
  | bare argument _ => some argument
  | _ => none

def isLint : Group → Bool
  | lint => true
  | _ => false

def listsDemos : Group → Bool
  | listDemos => true
  | _ => false

def isVerbose : Group → Bool
  | verbose _ => true
  | _ => false

end Group

/-- What groups ask for. The last value of an option counts, the place of a flag does not. -/
def asked (groups : List Group) : Arguments where
  demo := (groups.filterMap Group.name?).getLast?
  preview := (groups.filterMap Group.address?).getLast?
  options := (groups.filterMap Group.path?).getLast?
  lint := groups.any Group.isLint
  listDemos := groups.any Group.listsDemos
  verbose := groups.any Group.isVerbose

/-- The roles of the arguments without an option: an input, unless there is a demo, and an output. -/
def roles (a : Arguments) (texts : List String) : Except ArgumentError Arguments :=
  match texts[a.outputRank + 1]? with
  | some extra => .error (.unexpected extra)
  | none => .ok { a with input := if a.demo.isSome then none else texts[0]?, output := texts[a.outputRank]? }

/-- The words with a meaning of their own. -/
def knownOptions : List String :=
  ["--preview", "--options", "--demo", "--lint", "--list-demos", "-v", "--verbose", "-h", "--help"]

/-- A command line begins with an argument that is refused. -/
inductive Offends : List String → ArgumentError → Prop
  | noAddress : Offends ["--preview"] .noAddress
  | noOptionsFile : Offends ["--options"] .noOptionsFile
  | noDemoName : Offends ["--demo"] .noDemoName
  | badAddress {text : String} {rest : List String} (unread : Address.ofText? text = none) :
      Offends ("--preview" :: text :: rest) (.badAddress text)
  | unknownOption {argument : String} {cs : List Char} {rest : List String} (option : argument.toList = '-' :: cs)
      (unknown : argument ∉ knownOptions) : Offends (argument :: rest) (.unknownOption argument)

/-- Where a command line is taken in no further: it has ended, asks for help or offends. -/
inductive Halts : List String → Prop
  | ended : Halts []
  | helped {flag : String} {rest : List String} (help : flag ∈ ["-h", "--help"]) : Halts (flag :: rest)
  | offended {rest : List String} {error : ArgumentError} (offends : Offends rest error) : Halts rest

def Divides (words : List String) : Prop :=
  ∃ (groups : List Group) (rest : List String), words = groups.flatMap Group.words ++ rest ∧ Halts rest

section Steps

variable {a : Arguments} {groups others : List Group} {words rest : List String} {error : ArgumentError}

/-- What a group changes. -/
def follow (a : Arguments) : Group → Arguments
  | .preview _ address _ => { a with preview := some address }
  | .options path => { a with options := some path }
  | .demo name => { a with demo := some name }
  | .lint => { a with lint := true }
  | .listDemos => { a with listDemos := true }
  | .verbose _ => { a with verbose := true }
  | .bare .. => a

theorem parseFrom_group (g : Group) (a : Arguments) (positional rest : List String) :
    parseFrom a positional (g.words ++ rest) = parseFrom (a.follow g) (g.bare?.toList ++ positional) rest := by
  cases g with
  | preview text address read => exact (Sets.preview a read).parseFrom positional rest
  | options path => exact (Sets.options a path).parseFrom positional rest
  | demo name => exact (Sets.demo a name).parseFrom positional rest
  | lint => exact (Sets.lint a).parseFrom positional rest
  | listDemos => exact (Sets.listDemos a).parseFrom positional rest
  | verbose short =>
    cases short with
    | true => exact (Sets.verboseShort a).parseFrom positional rest
    | false => exact (Sets.verbose a).parseFrom positional rest
  | bare argument noOption => exact parseFrom_bare noOption a positional rest

/-- Groups are taken in one after the other, whatever comes after them. -/
theorem parseFrom_groups (groups : List Group) (a : Arguments) (positional rest : List String) :
    parseFrom a positional (groups.flatMap Group.words ++ rest) =
      parseFrom (groups.foldl follow a) ((groups.filterMap Group.bare?).reverse ++ positional) rest := by
  induction groups generalizing a positional with
  | nil => rfl
  | cons g groups ih =>
    rw [List.flatMap_cons, List.append_assoc, parseFrom_group, ih, List.foldl_cons]
    congr 1
    cases bare : g.bare? with
    | none => rw [List.filterMap_cons_none bare, Option.toList_none, List.nil_append]
    | some text =>
      rw [List.filterMap_cons_some bare, List.reverse_cons, List.append_assoc, Option.toList_some]

theorem asked_concat (groups : List Group) (g : Group) : asked (groups ++ [g]) = (asked groups).follow g := by
  cases g <;>
    simp [asked, follow, Group.name?, Group.address?, Group.path?, Group.isLint, Group.listsDemos, Group.isVerbose]

theorem foldl_follow (groups : List Group) : groups.foldl follow {} = asked groups := by
  induction groups using List.reverseRecOn with
  | nil => rfl
  | append_singleton groups g ih => rw [List.foldl_append, List.foldl_cons, List.foldl_nil, ih, asked_concat]

theorem assign_eq (fresh : a.output = none) (texts : List String) : a.assign texts = a.roles texts := by
  obtain ⟨_, output, demo, _, _, _, _, _⟩ := a
  cases fresh
  cases demo with
  | none => match texts with | [] | [_] | [_, _] | _ :: _ :: _ :: _ => rfl
  | some name => match texts with | [] | [_] | _ :: _ :: _ => rfl

theorem parse_groups (groups : List Group) : parse (groups.flatMap Group.words) =
    some <$> (asked groups).roles (groups.filterMap Group.bare?) := by
  have taken := parseFrom_groups groups {} [] []
  rw [List.append_nil, List.append_nil, foldl_follow, parseFrom, List.reverse_reverse] at taken
  rw [parse, taken, assign_eq rfl]

theorem parseFrom_unknown {argument : String} {cs : List Char} (option : argument.toList = '-' :: cs)
    (unknown : argument ∉ knownOptions) (a : Arguments) (positional rest : List String) :
    parseFrom a positional (argument :: rest) = .error (.unknownOption argument) := by
  rw [parseFrom.eq_def]
  split
  case h_1 start => cases start
  case h_14 start =>
    cases start
    rw [option]
    rfl
  -- All other patterns begin with a known option.
  all_goals
    next start =>
      cases start
      exact absurd (by decide) unknown

theorem Offends.parseFrom (offends : Offends rest error) (a : Arguments) (positional : List String) :
    parseFrom a positional rest = .error error := by
  cases offends with
  | badAddress unread => rw [Arguments.parseFrom, unread]
  | unknownOption option unknown => exact parseFrom_unknown option unknown a positional _
  | _ => rfl

theorem parseFrom_help {flag : String} (help : flag ∈ ["-h", "--help"]) (a : Arguments)
    (positional rest : List String) : parseFrom a positional (flag :: rest) = .ok none := by
  simp only [List.mem_cons, List.not_mem_nil, or_false] at help
  rcases help with rfl | rfl <;> rfl

theorem Divides.group (g : Group) (divides : Divides words) : Divides (g.words ++ words) := by
  obtain ⟨groups, rest, rfl, halts⟩ := divides
  exact ⟨g :: groups, rest, (List.append_assoc ..).symm, halts⟩

/-- Every command line falls into groups up to where it halts. -/
theorem divides (words : List String) : Divides words := by
  have steps (a : Arguments) (positional : List String) : Divides words := by
    fun_induction parseFrom a positional words with
    | case1 => exact ⟨[], [], rfl, .ended⟩
    | case2 => exact ⟨[], _, rfl, .offended .noAddress⟩
    | case3 _ _ _ _ _ read ih => exact ih.group (.preview _ _ read)
    | case4 _ _ _ _ unread => exact ⟨[], _, rfl, .offended (.badAddress unread)⟩
    | case5 => exact ⟨[], _, rfl, .offended .noOptionsFile⟩
    | case6 _ _ path _ ih => exact ih.group (.options path)
    | case7 => exact ⟨[], _, rfl, .offended .noDemoName⟩
    | case8 _ _ name _ ih => exact ih.group (.demo name)
    | case9 _ _ _ ih => exact ih.group .lint
    | case10 _ _ _ ih => exact ih.group .listDemos
    | case11 _ _ _ ih => exact ih.group (.verbose true)
    | case12 _ _ _ ih => exact ih.group (.verbose false)
    | case13 => exact ⟨[], _, rfl, .helped (by decide)⟩
    | case14 => exact ⟨[], _, rfl, .helped (by decide)⟩
    | case15 _ _ argument rest noAddress preview noFile options noName demo lint listDemos v verbose h help cs
        option =>
      have other {flag : String} (alone : argument = flag → rest = [] → False)
          (valued : ∀ value later, argument = flag → rest = value :: later → False) : argument ≠ flag := by
        intro same
        cases rest with
        | nil => exact alone same rfl
        | cons value later => exact valued value later same rfl
      refine ⟨[], _, rfl, .offended (.unknownOption option ?_)⟩
      simp only [knownOptions, List.mem_cons, List.not_mem_nil, or_false, not_or]
      exact ⟨other noAddress preview, other noFile options, other noName demo, lint, listDemos, v, verbose, h, help⟩
    | case16 =>
      next noOption ih => exact ih.group (.bare _ noOption)
  exact steps {} []

theorem asked_perm (same : groups.Perm others)
    (name : (groups.filterMap Group.name?).getLast? = (others.filterMap Group.name?).getLast?)
    (address : (groups.filterMap Group.address?).getLast? = (others.filterMap Group.address?).getLast?)
    (path : (groups.filterMap Group.path?).getLast? = (others.filterMap Group.path?).getLast?) :
    asked groups = asked others := by
  rw [asked, asked, name, address, path, same.any_eq, same.any_eq, same.any_eq]

end Steps

/-- A command line that falls into groups asks for what they ask for together, whatever their order, as long as the
arguments without an option keep theirs and each option its last value; one argument too many is refused.
Any other command line asks for help or is refused for the first argument that offends. -/
theorem arguments_regroup :
    (∀ groups : List Group, parse (groups.flatMap Group.words) =
        some <$> (asked groups).roles (groups.filterMap Group.bare?)) ∧
      (∀ extra, (ArgumentError.unexpected extra).message = "Unexpected argument: " ++ extra) ∧
      (∀ groups others : List Group, groups.Perm others →
        groups.filterMap Group.bare? = others.filterMap Group.bare? →
        (groups.filterMap Group.name?).getLast? = (others.filterMap Group.name?).getLast? →
        (groups.filterMap Group.address?).getLast? = (others.filterMap Group.address?).getLast? →
        (groups.filterMap Group.path?).getLast? = (others.filterMap Group.path?).getLast? →
        parse (groups.flatMap Group.words) = parse (others.flatMap Group.words)) ∧
      ∀ words, (∃ groups : List Group, words = groups.flatMap Group.words) ∨
        (∃ (groups : List Group) (flag : String) (rest : List String), flag ∈ ["-h", "--help"] ∧
          words = groups.flatMap Group.words ++ flag :: rest ∧ parse words = .ok none) ∨
        ∃ (groups : List Group) (rest : List String) (error : ArgumentError),
          words = groups.flatMap Group.words ++ rest ∧ Offends rest error ∧ parse words = .error error := by
  refine ⟨parse_groups, fun _ => rfl, ?_, fun words => ?_⟩
  · intro groups others same bare name address path
    rw [parse_groups, parse_groups, asked_perm same name address path, bare]
  · obtain ⟨groups, rest, rfl, halts⟩ := divides words
    cases halts with
    | ended => exact Or.inl ⟨groups, List.append_nil _⟩
    | helped help =>
      refine Or.inr (Or.inl ⟨groups, _, _, help, rfl, ?_⟩)
      rw [parse, parseFrom_groups, parseFrom_help help]
    | offended offends =>
      refine Or.inr (Or.inr ⟨groups, _, _, rfl, offends, ?_⟩)
      rw [parse, parseFrom_groups, offends.parseFrom]

theorem arguments_regroup_verbose : parse ["-v", "song.json", "--preview", "0:1", "out.json"] =
      parse ["song.json", "--preview", "0:1", "out.json", "-v"] ∧
    parse ["song.json", "--demo", "-v", "--options", "--lint", "out.json"] =
      .error (.unexpected "out.json") := by
  have bare {text : String} (solid : text.toList.head? ≠ some '-') : ∀ cs, text.toList ≠ '-' :: cs :=
    fun cs same => solid (congrArg List.head? same)
  let song : Group := .bare "song.json" (bare (by decide))
  let out : Group := .bare "out.json" (bare (by decide))
  let verse : Group := .preview "0:1" ⟨0, some 1, none⟩ (by decide)
  obtain ⟨reads, _, regroups, _⟩ := arguments_regroup
  refine ⟨regroups [.verbose true, song, verse, out] [song, verse, out, .verbose true] ?_ rfl rfl rfl rfl, ?_⟩
  · exact (List.perm_append_singleton _ _).symm
  · exact reads [song, .demo "-v", .options "--lint", out]

end Tablature.Arguments
