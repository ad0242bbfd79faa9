import SqlTidy.Cli.Plan

/-! What a command line asks for. Switches of the command, settings of the log level and words
stand in any order, behind the name of the command and before it. Reading them gives the words in
their order and for each switch its last setting, whatever stands between them. The name is found
behind what is passed over on the way to it: a flag without a value takes the next argument along,
so that a switch right before the name hides it. -/
namespace SqlTidy.Cli
open Ascii

/-- The log level, set in one argument or in two. -/
structure LogLevel where
  value : Bytes
  apart : Bool

def LogLevel.arguments (level : LogLevel) : List Bytes :=
  if level.apart then [utf8 "--log-level",level.value] else [utf8 "--log-level=" ++ level.value]

/-- A piece of a command line: a switch that is turned on, or set to a value; the log level; or a
word, which does not begin with a dash unless it is one. -/
inductive Piece (command : Command) where
  | on (flag : Flag) (known : flag ∈ command.switches)
  | set (flag : Flag) (known : flag ∈ command.switches) (spelling : Bytes) (value : Bool)
      (reads : truth? spelling = some value)
  | level (setting : LogLevel)
  | word (text : Bytes) (plain : text = [dash] ∨ text.head? ≠ some dash)

namespace Piece

variable {command : Command}

def arguments : Piece command → List Bytes
  | on flag _ => [dash :: dash :: utf8 flag.name]
  | set flag _ spelling _ _ => [dash :: dash :: (utf8 flag.name ++ equals :: spelling)]
  | level setting => setting.arguments
  | word text _ => [text]

def setting? : Piece command → Option (String × Bool)
  | on flag _ => some (flag.name,true)
  | set flag _ _ value _ => some (flag.name,value)
  | _ => none

def word? : Piece command → Option Bytes
  | word text _ => some text
  | _ => none

end Piece

/-- A flag without a value of its own. -/
def Bare (argument : Bytes) : Prop :=
  equals ∉ argument ∧ argument ≠ [dash,dash] ∧
    ((∃ letter, argument = [dash,letter]) ∨ ∃ name, argument = dash :: dash :: name)

/-- Arguments that are passed over while the name of the command is looked for: a bare flag takes
the next one along, whatever that is, and any other flag stands for itself. -/
inductive Passed : List Bytes → Prop where
  | none : Passed []
  | taking (flag next : Bytes) (rest : List Bytes) (bare : Bare flag) (passed : Passed rest) :
      Passed (flag :: next :: rest)
  | alone (argument : Bytes) (rest : List Bytes) (dashed : argument = [] ∨ argument.head? = some dash)
      (goesOn : argument ≠ [dash,dash]) (whole : ¬Bare argument) (passed : Passed rest) : Passed (argument :: rest)

/-- A command line. What stands before the name of the command is passed over. Two dashes may end
the flags; what follows them is words, whatever they begin with. -/
structure Line where
  command : Command
  before : List (Piece command)
  passed : Passed (before.flatMap Piece.arguments)
  behind : List (Piece command)
  closed : Option (List Bytes) := none

namespace Line

/-- The arguments up to the end of the flags. -/
def front (line : Line) : List Bytes :=
  line.before.flatMap Piece.arguments ++ utf8 line.command.name :: line.behind.flatMap Piece.arguments

def arguments (line : Line) : List Bytes :=
  line.front ++ match line.closed with
    | none => []
    | some words => [dash,dash] :: words

def pieces (line : Line) : List (Piece line.command) := line.before ++ line.behind

def words (line : Line) : List Bytes := line.pieces.filterMap Piece.word? ++ line.closed.getD []

/-- Whether a switch is on: its last setting counts. -/
def isOn (line : Line) (name : String) : Bool :=
  ((line.pieces.filterMap Piece.setting?).reverse.lookup name).getD false

def options (line : Line) : Options := ⟨line.isOn "extract",line.isOn "remove-limit",line.isOn "quote"⟩

end Line

section Flags

/-- A flag among others that is found by its name. -/
structure Flag.Named (flags : List Flag) (flag : Flag) : Prop where
  found : flags.find? (fun other => utf8 other.name == utf8 flag.name) = some flag
  begins : ∃ b rest, utf8 flag.name = b :: rest ∧ b ≠ dash
  solid : equals ∉ utf8 flag.name

theorem named_flags (topic : Topic) (flag : Flag) (known : flag ∈ topic.flags) : flag.Named topic.flags := by
  have all : ∀ flag ∈ topic.flags,
      topic.flags.find? (fun other => utf8 other.name == utf8 flag.name) = some flag ∧
        (utf8 flag.name).head?.any (· != dash) = true ∧ equals ∉ utf8 flag.name := by
    cases topic with
    | root => decide +kernel
    | help => decide +kernel
    | command command => cases command <;> decide +kernel
  obtain ⟨found,first,solid⟩ := all flag known
  obtain ⟨b,head,other⟩ := (Option.any_eq_true ..).mp first
  obtain ⟨rest,split⟩ := List.head?_eq_some_iff.mp head
  exact ⟨found,⟨b,rest,split,bne_iff_ne.mp other⟩,solid⟩

theorem mem_flags (command : Command) (flag : Flag) (known : flag ∈ command.switches) :
    flag ∈ (Topic.command command).flags ∧ flag.takesValue = false ∧ flag.name ≠ "help" := by
  have all : ∀ flag ∈ command.switches,
      flag ∈ (Topic.command command).flags ∧ flag.takesValue = false ∧ flag.name ≠ "help" := by
    cases command <;> decide +kernel
  exact all flag known

theorem plain_of_begins (text : Bytes) (begins : ∀ b ∈ text.head?, b ≠ dash ∧ b ≠ equals) :
    ¬(text.head? == some dash || text.head? == some equals) = true := by
  rw [Bool.or_eq_true,beq_iff_eq,beq_iff_eq]
  rintro (first | first)
  · exact (begins dash first).1 rfl
  · exact (begins equals first).2 rfl

theorem readLong_unknown (flags : List Flag) (given : Given) (text : Bytes)
    (begins : ∀ b ∈ text.head?, b ≠ dash ∧ b ≠ equals)
    (missing : ∀ flag ∈ flags, utf8 flag.name ≠ text.takeWhile (· != equals)) :
    readLong flags given (dash :: dash :: text) = .error (.unknown (text.takeWhile (· != equals))) := by
  have none : flags.find? (fun flag => utf8 flag.name == text.takeWhile (· != equals)) = none :=
    List.find?_eq_none.mpr fun flag listed => by simpa using missing flag listed
  simp only [readLong,List.drop_succ_cons,List.drop_zero,if_neg (plain_of_begins text begins),none]

section Named

variable {flags : List Flag} {flag : Flag} (named : flag.Named flags) (given : Given)
include named

theorem Flag.Named.plain (rest : Bytes) : ∀ b ∈ (utf8 flag.name ++ rest).head?, b ≠ dash ∧ b ≠ equals := by
  obtain ⟨b,letters,split,other⟩ := named.begins
  intro first head
  rw [split,List.cons_append,List.head?_cons,Option.mem_some_iff] at head
  exact head ▸ ⟨other,fun same => named.solid (split ▸ same ▸ List.mem_cons_self)⟩

/-- The name of a flag ends where the argument does, or at an equals sign. -/
theorem Flag.Named.cut (rest : Bytes) (stop : ∀ b ∈ rest.head?, b = equals) :
    (utf8 flag.name ++ rest).takeWhile (· != equals) = utf8 flag.name ∧
      (utf8 flag.name ++ rest).dropWhile (· != equals) = rest := by
  have other : ∀ b ∈ utf8 flag.name, (b != equals) = true :=
    fun _ member => bne_iff_ne.mpr fun same => named.solid (same ▸ member)
  rw [List.takeWhile_append_of_pos other,List.dropWhile_append_of_pos other]
  cases rest with
  | nil => simp
  | cons b rest =>
    obtain rfl := stop b rfl
    simp

theorem Flag.Named.readLong_bare : readLong flags given (dash :: dash :: utf8 flag.name) =
    .ok (if flag.takesValue then (some flag,given) else (none,given.turn flag true)) := by
  have plain := named.plain []
  obtain ⟨name,rest⟩ := named.cut [] (by simp)
  rw [List.append_nil] at plain name rest
  simp only [readLong,List.drop_succ_cons,List.drop_zero,if_neg (plain_of_begins _ plain),name,rest,named.found]

theorem Flag.Named.readLong_valued (value : Bytes) :
    readLong flags given (dash :: dash :: (utf8 flag.name ++ equals :: value)) =
      if flag.takesValue then .ok (none,given) else (turnTo given flag value).map (none,·) := by
  obtain ⟨name,rest⟩ := named.cut (equals :: value) (by simp)
  simp only [readLong,List.drop_succ_cons,List.drop_zero,if_neg (plain_of_begins _ (named.plain _)),name,rest,named.found]

end Named

end Flags

section Reading

variable (flags : List Flag) (given : Given) (rest : List Bytes)

theorem readFlags_long (text : Bytes) (some : text ≠ []) :
    readFlags flags none given ((dash :: dash :: text) :: rest) =
      (readLong flags given (dash :: dash :: text)).bind fun read => readFlags flags read.1 read.2 rest := by
  obtain ⟨b,letters,rfl⟩ := List.exists_cons_of_ne_nil some
  simp only [dash,readFlags]
  cases readLong flags given (0x2D :: 0x2D :: b :: letters) <;> rfl

theorem readFlags_word (text : Bytes) (plain : text = [dash] ∨ text.head? ≠ some dash) :
    readFlags flags none given (text :: rest) = readFlags flags none (given.withWords [text]) rest := by
  rw [readFlags.eq_def]
  rcases plain with rfl | other
  · rfl
  · cases text with
    | nil => rfl
    | cons b text =>
      have solid : b ≠ 0x2D := fun same => other (congrArg some same)
      simp only
      split
      next same => exact absurd (List.cons.inj same).1 solid
      next same => exact absurd (List.cons.inj same).1 solid
      next same => exact absurd (List.cons.inj same).1 solid
      next => rfl

theorem readFlags_closed : readFlags flags none given ([dash,dash] :: rest) = .ok (given.withWords rest) := rfl

end Reading

section Pieces

variable {command : Command}

/-- What is given once a piece is read. -/
def Given.take (given : Given) (piece : Piece command) : Given where
  switches := piece.setting?.toList ++ given.switches
  words := given.words ++ piece.word?.toList

theorem readFlags_level (topic : Topic) (given : Given) (setting : LogLevel) (rest : List Bytes) :
    readFlags topic.flags none given (setting.arguments ++ rest) = readFlags topic.flags none given rest := by
  have named := named_flags topic logLevelFlag (by simp [Topic.flags])
  have some : utf8 logLevelFlag.name ≠ [] := by decide
  unfold LogLevel.arguments
  split
  next =>
    refine (readFlags_long _ given _ _ some).trans ?_
    rw [named.readLong_bare]
    rfl
  next =>
    have bytes : utf8 "--log-level=" ++ setting.value =
        dash :: dash :: (utf8 logLevelFlag.name ++ equals :: setting.value) := by
      have split : utf8 "--log-level=" = dash :: dash :: (utf8 logLevelFlag.name ++ [equals]) := by decide
      rw [split]
      simp
    rw [bytes,List.singleton_append,readFlags_long _ _ _ _ (by simp),named.readLong_valued]
    rfl

theorem readFlags_piece (given : Given) (piece : Piece command) (rest : List Bytes) :
    readFlags (Topic.command command).flags none given (piece.arguments ++ rest) =
      readFlags (Topic.command command).flags none (given.take piece) rest := by
  cases piece with
  | on flag known =>
    obtain ⟨listed,switch,_⟩ := mem_flags command flag known
    have named := named_flags _ flag listed
    have some : utf8 flag.name ≠ [] := by
      obtain ⟨b,letters,split,_⟩ := named.begins
      simp [split]
    refine (readFlags_long _ given rest _ some).trans ?_
    rw [named.readLong_bare,switch]
    simp [Given.take,Piece.setting?,Piece.word?,Given.turn,Except.bind]
  | set flag known spelling value reads =>
    obtain ⟨listed,switch,_⟩ := mem_flags command flag known
    refine (readFlags_long _ given rest _ (by simp)).trans ?_
    rw [(named_flags _ flag listed).readLong_valued,switch,turnTo,reads]
    simp [Given.take,Piece.setting?,Piece.word?,Given.turn,Except.map,Except.bind]
  | level setting =>
    have same : given.take (Piece.level setting : Piece command) = given := by
      simp [Given.take,Piece.setting?,Piece.word?]
    rw [same]
    exact readFlags_level _ given setting rest
  | word text plain => exact readFlags_word _ given rest text plain

/-- The pieces are read one by one: settings are collected from the last to the first, words in
their order. -/
theorem readFlags_pieces (given : Given) (pieces : List (Piece command)) (rest : List Bytes) :
    readFlags (Topic.command command).flags none given (pieces.flatMap Piece.arguments ++ rest) =
      readFlags (Topic.command command).flags none
        ⟨(pieces.filterMap Piece.setting?).reverse ++ given.switches,given.words ++ pieces.filterMap Piece.word?⟩
        rest := by
  induction pieces generalizing given with
  | nil => simp
  | cons piece pieces ih =>
    have settings : ((piece :: pieces).filterMap Piece.setting?).reverse =
        (pieces.filterMap Piece.setting?).reverse ++ piece.setting?.toList := by
      cases found : piece.setting? <;> simp [found]
    have words : (piece :: pieces).filterMap Piece.word? = piece.word?.toList ++ pieces.filterMap Piece.word? := by
      cases found : piece.word? <;> simp [found]
    rw [List.flatMap_cons,List.append_assoc,readFlags_piece,ih,settings,words,List.append_assoc,← List.append_assoc given.words]
    rfl

end Pieces

section Locating

theorem takesNext_iff (argument : Bytes) (goesOn : argument ≠ [dash,dash]) :
    takesNext [] argument = true ↔ Bare argument := by
  unfold takesNext Bare
  rw [Bool.and_eq_true,Bool.not_eq_true',← Bool.not_eq_true,List.contains_iff_mem]
  refine and_congr_right fun _ => ?_
  split
  next => exact ⟨fun _ => ⟨goesOn,.inr ⟨_,rfl⟩⟩,fun _ => rfl⟩
  next => exact ⟨fun _ => ⟨goesOn,.inl ⟨_,rfl⟩⟩,fun _ => rfl⟩
  next long short =>
    refine ⟨fun taken => Bool.noConfusion taken,?_⟩
    rintro ⟨_,⟨letter,rfl⟩ | ⟨name,rfl⟩⟩
    · exact absurd rfl (short letter)
    · exact absurd rfl (long name)

theorem takesNext_eq_false (argument : Bytes) (goesOn : argument ≠ [dash,dash]) (whole : ¬Bare argument) :
    takesNext [] argument = false :=
  Bool.eq_false_iff.mpr fun taken => whole ((takesNext_iff argument goesOn).mp taken)

theorem words_passed (front rest : List Bytes) (passed : Passed front) (some : rest ≠ []) :
    words [] (front ++ rest) = words [] rest := by
  induction passed with
  | none => rfl
  | taking flag next front bare _ ih =>
    have taken := (takesNext_iff flag bare.2.1).mpr bare
    obtain ⟨first,more,later⟩ := List.exists_cons_of_ne_nil (List.append_ne_nil_of_right_ne_nil front some)
    rw [List.cons_append,List.cons_append,← ih,later,words.eq_def]
    simp [taken,bare.2.1]
  | alone argument front dashed goesOn whole _ ih =>
    have skipped : (argument.isEmpty || argument.head? == Option.some dash) = true := by
      rcases dashed with rfl | first
      · rfl
      · simp [first]
    rw [List.cons_append,← ih,words.eq_def]
    simp [takesNext_eq_false argument goesOn whole,goesOn,skipped]

/-- Among flags alone there is no word. -/
theorem words_dashed (rest : List Bytes) (dashed : ∀ argument ∈ rest, argument.head? = some dash) :
    words [] rest = [] := by
  fun_induction words [] rest with
  | case1 => rfl
  | case2 => rfl
  | case3 _ _ _ _ _ _ ih => exact ih fun argument member => dashed argument (.tail _ (.tail _ member))
  | case4 => rfl
  | case5 _ _ _ _ _ ih => exact ih fun argument member => dashed argument (.tail _ member)
  | case6 argument _ _ _ word => simp [dashed argument List.mem_cons_self] at word

theorem words_taken (flag next : Bytes) (rest : List Bytes) (bare : Bare flag)
    (dashed : ∀ argument ∈ rest, argument.head? = some dash) : words [] (flag :: next :: rest) = [] := by
  have taken := (takesNext_iff flag bare.2.1).mpr bare
  rw [words.eq_def]
  cases rest with
  | nil => simp [taken]
  | cons argument rest => simp [taken,words_dashed _ dashed]

section Name

variable (name : Bytes) (rest : List Bytes) (begins : ∃ b letters, name = b :: letters ∧ b ≠ dash)
include begins

theorem takesNext_name : takesNext [] name = false ∧ (name == [dash,dash]) = false ∧
    (name.isEmpty || name.head? == some dash) = false := by
  obtain ⟨b,letters,rfl,other⟩ := begins
  have goesOn : b :: letters ≠ [dash,dash] := fun same => other (List.cons.inj same).1
  refine ⟨takesNext_eq_false _ goesOn ?_,beq_eq_false_iff_ne.mpr goesOn,by simp [other]⟩
  rintro ⟨_,_,⟨_,same⟩ | ⟨_,same⟩⟩
  · exact other (List.cons.inj same).1
  · exact other (List.cons.inj same).1

theorem words_name : words [] (name :: rest) = name :: words [] rest := by
  obtain ⟨no,other,word⟩ := takesNext_name name begins
  rw [words.eq_def]
  simp [no,other,word]

theorem without_passed (front : List Bytes) (passed : Passed front) :
    without [] name (front ++ name :: rest) = front ++ rest := by
  induction passed with
  | none =>
    obtain ⟨no,other,word⟩ := takesNext_name name begins
    rw [Bool.or_eq_false_iff] at word
    rw [List.nil_append,List.nil_append,without.eq_def]
    simp [no,other,bne,word.2]
  | taking flag next front bare _ ih =>
    have taken := (takesNext_iff flag bare.2.1).mpr bare
    rw [List.cons_append,List.cons_append,List.cons_append,List.cons_append,← ih,without.eq_def]
    simp [taken,bare.2.1]
  | alone argument front dashed goesOn whole _ ih =>
    have kept : (argument == name && argument.head? != some dash) = false := by
      rcases dashed with rfl | first
      · obtain ⟨b,letters,rfl,_⟩ := begins
        rfl
      · simp [first]
    rw [List.cons_append,List.cons_append,← ih,without.eq_def]
    simp only [takesNext_eq_false argument goesOn whole,beq_eq_false_iff_ne.mpr goesOn,kept]
    simp

end Name

end Locating

section Plans

namespace Line

variable (line : Line)

/-- What the pieces of a line give. -/
def given : Given where
  switches := (line.pieces.filterMap Piece.setting?).reverse
  words := line.pieces.filterMap Piece.word?

/-- Once the name is found, the arguments before and behind it are read as those of its command. -/
theorem locate_front (rest : List Bytes) : locate (line.front ++ rest) =
    .ok (.command line.command,line.pieces.flatMap Piece.arguments ++ rest) := by
  have begins : ∃ b letters, utf8 line.command.name = b :: letters ∧ b ≠ dash := by
    cases line.command <;> exact ⟨_,_,rfl,by decide⟩
  have named : Topic.ofName? (utf8 line.command.name) = some (.command line.command) := by
    cases line.command <;> decide +kernel
  have split : line.front ++ rest = line.before.flatMap Piece.arguments ++
      utf8 line.command.name :: (line.behind.flatMap Piece.arguments ++ rest) := by simp [front]
  simp only [split,locate,words_passed _ _ line.passed (List.cons_ne_nil _ _),
    words_name _ _ begins,named,without_passed _ _ begins _ line.passed]
  simp [pieces]

theorem readFlags_front (rest : List Bytes) :
    readFlags (Topic.command line.command).flags none {} (line.pieces.flatMap Piece.arguments ++ rest) =
      readFlags (Topic.command line.command).flags none line.given rest := by
  rw [readFlags_pieces]
  simp [given]

theorem plan_front (rest : List Bytes) (after : Given)
    (read : readFlags (Topic.command line.command).flags none line.given rest = .ok after) :
    plan (line.front ++ rest) = planFor (.command line.command) after := by
  simp only [plan,line.locate_front,line.readFlags_front,read]

theorem plan_front_error (rest : List Bytes) (fault : FlagFault)
    (read : readFlags (Topic.command line.command).flags none line.given rest = .error fault) :
    plan (line.front ++ rest) = .refuse (.flags fault) := by
  simp only [plan,line.locate_front,line.readFlags_front,read]

theorem plan_arguments :
    plan line.arguments = planFor (.command line.command) ⟨line.given.switches,line.words⟩ := by
  unfold arguments
  apply plan_front
  cases closed : line.closed with
  | none => simp [readFlags,words,given,closed]
  | some words => simp [readFlags_closed,Line.words,given,closed,Given.withWords]

/-- No piece asks for help. -/
theorem help_off (words : List Bytes) : Given.isOn ⟨line.given.switches,words⟩ "help" = false := by
  have absent : line.given.switches.lookup "help" = none := by
    rw [List.lookup_eq_none_iff]
    intro setting member
    obtain ⟨piece,_,sets⟩ := List.mem_filterMap.mp (List.mem_reverse.mp member)
    cases piece with
    | on flag known =>
      obtain rfl := Option.some.inj sets
      simpa using (mem_flags _ flag known).2.2.symm
    | set flag known spelling value reads =>
      obtain rfl := Option.some.inj sets
      simpa using (mem_flags _ flag known).2.2.symm
    | level setting => simp [Piece.setting?] at sets
    | word text plain => simp [Piece.setting?] at sets
  rw [Given.isOn,absent]
  rfl

/-- A line asks for the transform of its command with the options it sets, on the input that its
words name. -/
theorem plan_of_input (input : Input) (named : inputOf line.words = .ok input) :
    plan line.arguments = .transform line.command line.options input := by
  rw [plan_arguments,planFor,line.help_off]
  simp only [Bool.false_eq_true,if_false,named]
  rfl

theorem plan_of_refusal (refusal : Refusal) (refused : inputOf line.words = .error refusal) :
    plan line.arguments = .refuse refusal := by
  rw [plan_arguments,planFor,line.help_off]
  simp only [Bool.false_eq_true,if_false,refused]

/-- A flag that the command does not have is refused, whatever stands behind it. -/
theorem plan_of_unknown (text : Bytes) (rest : List Bytes) (some : text ≠ [])
    (begins : ∀ b ∈ text.head?, b ≠ dash ∧ b ≠ equals)
    (unnamed : ∀ flag ∈ (Topic.command line.command).flags, utf8 flag.name ≠ text.takeWhile (· != equals)) :
    plan (line.front ++ (dash :: dash :: text) :: rest) =
      .refuse (.flags (.unknown (text.takeWhile (· != equals)))) := by
  apply plan_front_error
  rw [readFlags_long _ _ _ _ some,readLong_unknown _ _ text begins unnamed]
  rfl

end Line

section Hidden

variable {command : Command} (flag : Flag) (known : flag ∈ command.switches)
include known

theorem unnamed_switch : ∀ other ∈ Topic.root.flags, utf8 other.name ≠ utf8 flag.name := by
  have all : ∀ flag ∈ command.switches, ∀ other ∈ Topic.root.flags, utf8 other.name ≠ utf8 flag.name := by
    cases command <;> decide +kernel
  exact all flag known

theorem readFlags_root_switch (given : Given) (rest : List Bytes) (value : Bytes)
    (stop : ∀ b ∈ value.head?, b = equals) :
    readFlags Topic.root.flags none given ((dash :: dash :: (utf8 flag.name ++ value)) :: rest) =
      .error (.unknown (utf8 flag.name)) := by
  have named := named_flags _ flag (mem_flags command flag known).1
  obtain ⟨b,letters,split,_⟩ := named.begins
  have cut := (named.cut value stop).1
  rw [readFlags_long _ _ _ _ (by simp [split]),readLong_unknown _ _ _ (named.plain value),cut]
  · rfl
  · rw [cut]
    exact unnamed_switch flag known

/-- The program as a whole has none of the switches of a command. -/
theorem readFlags_root (before : List (Piece command)) (given : Given) (rest : List Bytes) :
    ∃ other ∈ command.switches, readFlags Topic.root.flags none given
      (before.flatMap Piece.arguments ++ (dash :: dash :: utf8 flag.name) :: rest) = .error (.unknown (utf8 other.name)) := by
  induction before generalizing given with
  | nil =>
    have refused := readFlags_root_switch flag known given rest [] (by simp)
    rw [List.append_nil] at refused
    exact ⟨flag,known,refused⟩
  | cons piece before ih =>
    rw [List.flatMap_cons,List.append_assoc]
    cases piece with
    | on other listed =>
      have refused := readFlags_root_switch other listed given
        (before.flatMap Piece.arguments ++ (dash :: dash :: utf8 flag.name) :: rest) [] (by simp)
      rw [List.append_nil] at refused
      exact ⟨other,listed,refused⟩
    | set other listed spelling value reads =>
      exact ⟨other,listed,readFlags_root_switch other listed given _ (equals :: spelling) (by simp)⟩
    | level setting =>
      obtain ⟨other,listed,refused⟩ := ih given
      exact ⟨other,listed,(readFlags_level .root given setting _).trans refused⟩
    | word text plain =>
      obtain ⟨other,listed,refused⟩ := ih (given.withWords [text])
      exact ⟨other,listed,(readFlags_word _ given _ text plain).trans refused⟩

/-- A switch right before the name takes it along. No command is found then, unless a word follows. -/
theorem plan_hidden (before : List (Piece command)) (passed : Passed (before.flatMap Piece.arguments))
    (rest : List Bytes) (dashed : ∀ argument ∈ rest, argument.head? = some dash) :
    ∃ other ∈ command.switches, plan (before.flatMap Piece.arguments ++
      (dash :: dash :: utf8 flag.name) :: utf8 command.name :: rest) = .refuse (.flags (.unknown (utf8 other.name))) := by
  obtain ⟨b,letters,split,_⟩ := (named_flags _ flag (mem_flags command flag known).1).begins
  have solid := (named_flags _ flag (mem_flags command flag known).1).solid
  have bare : Bare (dash :: dash :: utf8 flag.name) :=
    ⟨by simp [solid,dash,equals],by simp [split],.inr ⟨_,rfl⟩⟩
  obtain ⟨other,listed,refused⟩ := readFlags_root flag known before {} (utf8 command.name :: rest)
  refine ⟨other,listed,?_⟩
  simp only [plan,locate,words_passed _ _ passed (List.cons_ne_nil _ _),words_taken _ _ rest bare dashed,refused]

end Hidden

end Plans

end SqlTidy.Cli
