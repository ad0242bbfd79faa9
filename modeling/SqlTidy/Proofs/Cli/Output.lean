import SqlTidy.Cli.Run
import SqlTidy.Proofs.Cli.Arguments
import SqlTidy.Proofs.Sql.Shape

/-! What a run prints. A command prints the transform of its input and a newline, whichever way
the input comes and however its switches are written; a run that fails prints nothing. -/
namespace SqlTidy.Cli
open Ascii

/-- The text that words behind a command stand for: standard input if there is none, or a dash;
else the file of that name. -/
inductive World.Supplies (world : World) : List Bytes → Bytes → Prop where
  | absent (works : world.inputFault = none) : Supplies world [] world.input
  | dashed (works : world.inputFault = none) : Supplies world [[dash]] world.input
  | file (path text : Bytes) (named : path ≠ [dash]) (readable : world.file path = .ok text) :
      Supplies world [path] text

/-- The report of a run that prints a result, with a newline at the end unless there is one. -/
def Report.printing (result : Bytes) : Report :=
  ⟨none,if [newline] <:+ result then result else result ++ [newline]⟩

section Input

theorem inputOf_file (path : Bytes) (named : path ≠ [dash]) : inputOf [path] = .ok (.file path) := by
  simp [inputOf,named]

theorem World.Supplies.read {world : World} {words : List Bytes} {text : Bytes} (supplies : world.Supplies words text) :
    ∃ input, inputOf words = .ok input ∧ world.read input = .ok text := by
  cases supplies with
  | absent works => exact ⟨.standard,rfl,by simp [World.read,works]⟩
  | dashed works => exact ⟨.standard,rfl,by simp [World.read,works]⟩
  | file path text named readable => exact ⟨.file path,inputOf_file path named,by simp [World.read,readable]⟩

theorem inputOf_many (words : List Bytes) (many : 1 < words.length) :
    inputOf words = .error (.tooManyArguments words.length) := by
  obtain _ | ⟨first,_ | ⟨second,words⟩⟩ := words
  · simp at many
  · simp at many
  · rfl

end Input

section Ending

theorem printing_eq (text : Bytes) : Report.printing text = ⟨none,ended text⟩ := by
  have last : (text.getLast? == some newline) = true ↔ [newline] <:+ text := by
    rw [beq_iff_eq,List.getLast?_eq_some_iff]
    exact exists_congr fun front => eq_comm
  simp only [Report.printing,ended,last]

/-- A text on one line is printed with the only newline at its end. -/
theorem printing_line (text : Bytes) (line : newline ∉ text) :
    (Report.printing text).output.count newline = 1 ∧ (Report.printing text).output.getLast? = some newline := by
  have ongoing : ¬[newline] <:+ text := fun ends => line (ends.subset List.mem_cons_self)
  rw [Report.printing,if_neg ongoing,List.count_append,List.count_eq_zero_of_not_mem line,List.getLast?_concat]
  exact ⟨rfl,rfl⟩

theorem newline_not_mem_sanitize (options : Options) (text : Bytes) : newline ∉ (sanitize options text).sql :=
  (finish_keeps Shaped (fun _ => Shaped.removeLimit) (fun _ => Shaped.addQuotes) options _ (shaped_clean _)).line

end Ending

section Runs

variable (world : World)

theorem perform_fails (plan : Plan) (failed : (world.perform plan).fault.isSome = true) :
    (world.perform plan).output = [] := by
  cases plan with
  | explain text => simp [World.perform,World.explain] at failed
  | refuse refusal => rfl
  | transform command options input =>
    simp only [World.perform] at failed ⊢
    split at failed
    next => rfl
    next =>
      simp only [World.write] at failed ⊢
      split at failed
      next => rfl
      next => simp at failed

theorem run_line (line : Line) (text : Bytes) (supplies : world.Supplies line.words text)
    (works : world.outputFault = none) :
    run world line.arguments = .printing (line.command.apply line.options text) := by
  obtain ⟨input,named,read⟩ := supplies.read
  rw [run,line.plan_of_input input named,World.perform,read,printing_eq]
  simp only [World.write,works]

end Runs

/-- A command line prints the transform of its input, with a newline at the end unless there is
one: the output depends on the command, on the switches that are on and on the input alone. After
cleaning and sanitizing the newline at the end is the only one. A run that fails prints nothing;
so it is if the file cannot be read, if there is more than one word, if a flag is unknown, and if a
switch right before the name of the command takes it along. -/
theorem run_prints_result :
    (∀ (line : Line) (world : World) (text : Bytes), world.Supplies line.words text → world.outputFault = none →
      (line.command = .clean → run world line.arguments = .printing (clean text)) ∧
      (line.command = .removeLimit → run world line.arguments = .printing (removeLimit text)) ∧
      (line.command = .addQuotes → run world line.arguments = .printing (addQuotes text)) ∧
      (line.command = .sanitize → run world line.arguments = .printing (sanitize line.options text).sql) ∧
      (line.command = .clean ∨ line.command = .sanitize →
        (run world line.arguments).output.count newline = 1 ∧
        (run world line.arguments).output.getLast? = some newline)) ∧
    (∀ (world : World) (arguments : List Bytes), (run world arguments).fault.isSome = true →
      (run world arguments).output = []) ∧
    (∀ (line : Line) (world : World) (path : Bytes) (fault : PathFault), line.words = [path] → path ≠ [dash] →
      world.file path = .error fault → run world line.arguments = ⟨some (.file path fault),[]⟩) ∧
    (∀ (line : Line) (world : World), 1 < line.words.length →
      run world line.arguments = ⟨some (.refused (.tooManyArguments line.words.length)),[]⟩) ∧
    (∀ (line : Line) (world : World) (text : Bytes) (rest : List Bytes), text ≠ [] →
      (∀ b ∈ text.head?, b ≠ dash ∧ b ≠ equals) →
      (∀ flag ∈ (Topic.command line.command).flags, utf8 flag.name ≠ text.takeWhile (· != equals)) →
      run world (line.front ++ (dash :: dash :: text) :: rest) =
        ⟨some (.refused (.flags (.unknown (text.takeWhile (· != equals))))),[]⟩) ∧
    (∀ (command : Command) (before : List (Piece command)) (flag : Flag) (world : World) (rest : List Bytes),
      Passed (before.flatMap Piece.arguments) → flag ∈ command.switches →
      (∀ argument ∈ rest, argument.head? = some dash) → ∃ other ∈ command.switches,
      run world (before.flatMap Piece.arguments ++ (dash :: dash :: utf8 flag.name) :: utf8 command.name :: rest) =
        ⟨some (.refused (.flags (.unknown (utf8 other.name)))),[]⟩) := by
  refine ⟨?_,?_,?_,?_,?_,?_⟩
  · intro line world text supplies works
    have printed := run_line world line text supplies works
    refine ⟨fun cleans => ?_,fun removes => ?_,fun quotes => ?_,fun sanitizes => ?_,?_⟩
    · rw [printed,cleans]
      rfl
    · rw [printed,removes]
      rfl
    · rw [printed,quotes]
      rfl
    · rw [printed,sanitizes]
      rfl
    · rintro (cleans | sanitizes)
      · rw [printed,cleans]
        exact printing_line _ (shaped_clean text).line
      · rw [printed,sanitizes]
        exact printing_line _ (newline_not_mem_sanitize line.options text)
  · exact fun world arguments failed => perform_fails world (plan arguments) failed
  · intro line world path fault words named unreadable
    have input := inputOf_file path named
    rw [← words] at input
    rw [run,line.plan_of_input _ input]
    simp only [World.perform,World.read,unreadable]
  · intro line world many
    rw [run,line.plan_of_refusal _ (inputOf_many line.words many)]
    rfl
  · intro line world text rest some begins unnamed
    rw [run,line.plan_of_unknown text rest some begins unnamed]
    rfl
  · intro command before flag world rest passed known dashed
    obtain ⟨other,listed,hidden⟩ := plan_hidden flag known before passed rest dashed
    exact ⟨other,listed,by rw [run,hidden]; rfl⟩

/-- A file between the switches for it, two of which stand before the name; then one that is
missing, one with a word too many, one with a switch that cleaning does not have, and one with a
switch right before the name. -/
theorem run_prints_result_file :
    let text := utf8 "Try:\n```sql\nSELECT `a`\nLIMIT 5;\n```\n"
    let world : World := { file := fun path => if path = utf8 "r.md" then .ok text else .error .missing }
    run world [utf8 "--log-level",utf8 "debug",utf8 "--quote",utf8 "--extract=T",utf8 "sanitize",utf8 "r.md",
      utf8 "--remove-limit"] = ⟨none,utf8 "SELECT \"a\"\n"⟩ ∧
    run world [utf8 "clean",utf8 "s.md"] = ⟨some (.file (utf8 "s.md") .missing),[]⟩ ∧
    run world [utf8 "clean",utf8 "r.md",utf8 "-"] = ⟨some (.refused (.tooManyArguments 2)),[]⟩ ∧
    run world [utf8 "clean",utf8 "--quote",utf8 "r.md"] = ⟨some (.refused (.flags (.unknown (utf8 "quote")))),[]⟩ ∧
    ∃ other ∈ Command.switches .sanitize, run world [utf8 "--quote",utf8 "sanitize",utf8 "--extract"] =
      ⟨some (.refused (.flags (.unknown (utf8 other.name)))),[]⟩ := by
  intro text world
  have present : world.file (utf8 "r.md") = .ok text := by simp [world]
  have absent : world.file (utf8 "s.md") = .error .missing := by
    have other : utf8 "s.md" ≠ utf8 "r.md" := by decide
    simp [world,other]
  let quote : Flag := { name := "quote", usage := "replace backtick quotes with double quotes" }
  obtain ⟨prints,_,missing,many,unknown,hidden⟩ := run_prints_result
  refine ⟨?_,?_,?_,?_,?_⟩
  · let line : Line :=
      { command := .sanitize
        before :=
          [.level ⟨utf8 "debug",true⟩,.on quote (by decide),
            .set { name := "extract", usage := "use the fenced SQL block when the input contains one" } (by decide)
              (utf8 "T") true (by decide)]
        passed := .taking _ _ _ ⟨by decide,by decide,.inr ⟨_,rfl⟩⟩ (.taking _ _ _ ⟨by decide,by decide,.inr ⟨_,rfl⟩⟩ .none)
        behind :=
          [.word (utf8 "r.md") (.inr (by decide)),
            .on { name := "remove-limit", usage := "remove a trailing LIMIT clause" } (by decide)] }
    have supplies : world.Supplies line.words text := .file (utf8 "r.md") text (by decide) present
    have result : (sanitize line.options text).sql = utf8 "SELECT \"a\"" := by decide +kernel
    have printed := (prints line world text supplies rfl).2.2.2.1 rfl
    rw [result] at printed
    exact printed
  · let line : Line :=
      { command := .clean, before := [], passed := .none, behind := [.word (utf8 "s.md") (.inr (by decide))] }
    exact missing line world (utf8 "s.md") .missing rfl (by decide) absent
  · let line : Line :=
      { command := .clean, before := [], passed := .none,
        behind := [.word (utf8 "r.md") (.inr (by decide)),.word (utf8 "-") (.inl (by decide))] }
    exact many line world (by decide)
  · let line : Line := { command := .clean, before := [], passed := .none, behind := [] }
    exact unknown line world (utf8 "quote") [utf8 "r.md"] (by decide) (by decide +kernel) (by decide +kernel)
  · exact hidden .sanitize [] quote world [utf8 "--extract"] .none (by decide) (by decide +kernel)

/-- The same switch behind the name of the command and right before it. -/
theorem switch_hides_name :
    let world : World := { input := utf8 "SELECT `a`" }
    (run world [utf8 "sanitize",utf8 "--quote"]).output = utf8 "SELECT \"a\"\n" ∧
    (run world [utf8 "--quote",utf8 "sanitize"]).output = [] ∧
    (run world [utf8 "--quote",utf8 "sanitize"]).fault.map RunFault.message = some (utf8 "unknown flag: --quote") := by
  refine ⟨?_,?_,?_⟩ <;> decide +kernel

end SqlTidy.Cli
