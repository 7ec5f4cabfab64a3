import Mathlib.Data.List.Nodup
import Mathlib.Data.List.Perm.Basic
import ResourceQuery.CommandLine
import ResourceQuery.Proofs.JsonFaithfulness

/-! The ways to ask for a check. A statement is given as an argument, or it is read from the input,
and the options stand around it in any order. The options are read back from their words wherever
they stand (`readArguments_words`), so a check comes to what reading the statement comes to,
whichever way it was asked for (`paths_agree`). How it is shown counts only where there is a tree to
show, and the wish for a log changes nothing but the log (`checks_logged`). -/
namespace ResourceQuery.Invocations
open CommandLine CanonicalRoundTrip JsonFaithfulness

variable {name text : String} {flags others : List Flag} {arguments : List Argument}
  {statement : Option String} {tree : Tree} {words words' : List String} {input input' : Input}

/-! ## Arguments and their words -/

def flagWord : Flag → String
  | .json => "--json"
  | .pretty => "--pretty"
  | .syntaxOnly => "--syntax-only"

/-- What is typed for an argument. -/
def word : Argument → String
  | .value text => text
  | .flag flag => flagWord flag
  | .name text => "--name=" ++ text
  | .verbose => "--verbose"
  | .help => "--help"
  | .version => "--version"

/-- A word for an option is an option by itself, and wants no further word. -/
theorem readOption_word {argument : Argument} (option : ∀ text, argument ≠ .value text) :
    word argument ≠ "--" ∧ isOption (word argument) = true ∧
      readOption (word argument) = some ([argument], false) := by
  cases argument with
  | value text => exact absurd rfl (option text)
  | flag flag => cases flag <;> decide +kernel
  | verbose | help | version => decide +kernel
  | name text =>
    have chars : (word (.name text)).toList = "--name=".toList ++ text.toList :=
      String.toList_append
    refine ⟨fun same => ?_, ?_, ?_⟩
    · rw [same] at chars
      cases chars
    · rw [isOption, chars]
      rfl
    · have key : "name=".toList ++ text.toList = "name".toList ++ '=' :: text.toList := rfl
      rw [readOption, chars]
      change readLong ("name=".toList ++ text.toList) = _
      simp [readLong, String.ofList_toList]

/-- Words are read back as the arguments that they were written for, in their order, as far as
nothing stops the reading. -/
theorem readArguments_words
    (values : ∀ text, .value text ∈ arguments → isOption text = false)
    (on : ∀ argument ∈ arguments, argument.isLast = false) :
    readArguments (arguments.map word) = some arguments := by
  induction arguments with
  | nil => rfl
  | cons argument arguments ih =>
    have others := ih (fun text member => values text (List.mem_cons_of_mem _ member))
      fun other member => on other (List.mem_cons_of_mem _ member)
    rw [List.map_cons, readArguments]
    by_cases value : ∃ text, argument = .value text
    · obtain ⟨text, rfl⟩ := value
      have plain := values text List.mem_cons_self
      have ends : word (.value text) ≠ "--" := by
        rintro rfl
        cases plain
      rw [if_neg ends]
      simp [word, plain, others]
    · obtain ⟨ends, option, read⟩ := readOption_word fun text same => value ⟨text, same⟩
      rw [if_neg ends, if_pos option, read]
      simp [others, on argument List.mem_cons_self]

/-- What a check is asked for with: a statement, unless the input is meant, a name and some flags.
-/
def request (statement : Option String) (name : String) (flags : List Flag) : List Argument :=
  statement.toList.map .value ++ .name name :: flags.map .flag

theorem values_request (statement : Option String) (name : String) (flags : List Flag) :
    values (request statement name flags) = statement.toList := by
  simp [values, request, List.filterMap_map]

theorem names_request (statement : Option String) (name : String) (flags : List Flag) :
    names (request statement name flags) = [name] := by
  simp [names, request, List.filterMap_map]

theorem mem_request {flag : Flag} : .flag flag ∈ request statement name flags ↔ flag ∈ flags := by
  simp [request]

theorem request_nodup (once : flags.Nodup) : (request statement name flags).Nodup := by
  have flagged : (flags.map Argument.flag).Nodup :=
    once.map fun one other same => Argument.flag.inj same
  cases statement <;> simp [request, flagged]

/-- The view that some flags ask for. -/
def viewOf (flags : List Flag) : View :=
  .ofWishes (Flag.json ∈ flags) (Flag.pretty ∈ flags) (Flag.syntaxOnly ∈ flags)

/-- No part of a request asks for anything but the check. -/
theorem request_plain {argument : Argument} (member : argument ∈ request statement name flags) :
    argument.isLeading = false ∧ argument.isLast = false := by
  simp only [request, List.mem_append, List.mem_map, Option.mem_toList, List.mem_cons] at member
  rcases member with ⟨text, -, rfl⟩ | rfl | ⟨flag, -, rfl⟩ <;> exact ⟨rfl, rfl⟩

/-- A request is understood in whichever order its parts stand. -/
theorem readCheck_request (once : flags.Nodup)
    (order : arguments.Perm (request statement name flags)) :
    readCheck arguments = some (.run (.check statement name (viewOf flags)) false) := by
  have value : values arguments = statement.toList := by
    have perm : (values arguments).Perm statement.toList :=
      values_request statement name flags ▸ order.filterMap _
    cases statement with
    | none => exact List.perm_nil.mp perm
    | some text => exact List.perm_singleton.mp perm
  have title : names arguments = [name] :=
    List.perm_singleton.mp (names_request statement name flags ▸ order.filterMap _)
  have given (flag : Flag) : arguments.contains (.flag flag) = decide (flag ∈ flags) := by
    rw [Bool.eq_iff_iff, List.contains_iff_mem, decide_eq_true_iff, order.mem_iff, mem_request]
  have twice (argument : Argument) : arguments.count argument ≤ 1 :=
    List.nodup_iff_count_le_one.mp (order.nodup_iff.mpr (request_nodup once)) _
  have plain (argument : Argument) (leading : argument.isLeading = true) :
      argument ∉ arguments := by
    intro member
    rw [(request_plain (order.subset member)).1] at leading
    cases leading
  have only : atMostOne statement.toList = some statement := by cases statement <;> rfl
  have named : atMostOne [name] = some (some name) := rfl
  simp only [readCheck, value, title, only, named, given]
  simp [twice, viewOf, Request.ofArguments?, plain .version rfl, plain .help rfl,
    plain .verbose rfl]

/-- A request for a check is understood, whatever its statement is. -/
theorem readCommand_request (once : flags.Nodup)
    (order : arguments.Perm (request statement name flags))
    (plain : ∀ text, statement = some text → isOption text = false) :
    readCommand ("check" :: arguments.map word) =
      some (.run (.check statement name (viewOf flags)) false) := by
  have read : readArguments (arguments.map word) = some arguments := by
    refine readArguments_words (fun text member => ?_)
      fun argument member => (request_plain (order.subset member)).2
    have member := order.subset member
    simp only [request, List.mem_append, List.mem_map, Option.mem_toList, List.mem_cons,
      reduceCtorEq, and_false, exists_false, or_false, Argument.value.injEq, exists_eq_right]
      at member
    exact plain text member
  simp [readCommand, read, readCheck_request once order]

/-! ## In front of a command -/

section Front
variable {command : String} (first : leads command = false)
include first

/-- Where nothing stands in front of it, the command is all that counts. -/
theorem read_command (words : List String) :
    Request.read? (command :: words) = readCommand (command :: words) := by
  simp [Request.read?, first, readArguments]

/-- The wish for a log may stand in front of it. -/
theorem read_verbose (words : List String) : Request.read? ("--verbose" :: command :: words) =
    (readCommand (command :: words)).map Request.logged := by
  have option : leads "--verbose" = true := by decide +kernel
  have front : readArguments ["--verbose"] = some [.verbose] := by decide +kernel
  cases read : readCommand (command :: words) <;>
    simp [Request.read?, first, option, front, Argument.isLeading, read]

end Front

/-! ## What a check comes to -/

/-- What is shown of a tree. -/
def shown (flags : List Flag) (tree : Tree) : String :=
  if .syntaxOnly ∈ flags then "Syntax is valid"
  else if .json ∈ flags then
    tree.renderJson (if .pretty ∈ flags then .indented else .compact)
  else tree.canonical

/-- How a check ends, by what reading the statement comes to. -/
def due (flags : List Flag) : Except Diagnostic Tree → Outcome
  | .ok tree => .done 0 (shown flags tree ++ "\n") ""
  | .error d => .done 1 "" (d.message ++ "\n  at " ++ d.location ++ "\n")

theorem show_viewOf (flags : List Flag) (tree : Tree) :
    ((viewOf flags).show tree).text = shown flags tree := by
  by_cases verdict : Flag.syntaxOnly ∈ flags
  · simp [viewOf, View.ofWishes, shown, verdict, View.show, Finding.text]
  by_cases json : Flag.json ∈ flags
  · simp [viewOf, View.ofWishes, shown, verdict, json, View.show, Finding.text]
  · simp [viewOf, View.ofWishes, shown, verdict, json, View.show, Finding.text]

/-- The tree that a text is read as is shown the same whichever source it belongs to. -/
theorem due_handle (flags : List Flag) (handle : Nat) (name text : String) :
    due flags (Tree.parse handle name text) = due flags (Tree.parse 0 name text) := by
  unfold Tree.parse Tree.ofSource
  cases readStatement text with
  | error refusal => rfl
  | ok statement =>
    have canonical (source : Source) : (statement.bind source).canonical = statement.canonical :=
      congrArg String.ofList (spelling_mapOrigins statement)
    have json (source : Source) : (statement.bind source).toJson = statement.toJson :=
      @toJson_mapOrigins (Origin.bind source) (fun _ => rfl) statement
    simp [due, shown, Tree.canonical, Tree.renderJson, Tree.toJson, canonical, json]

theorem check_run (meant : statementText input statement = .ok (some text)) :
    (Command.check statement name (viewOf flags)).run input =
      due flags (Tree.parse 0 name text) := by
  have checked : (Command.check statement name (viewOf flags)).output input =
      ResourceQuery.check (viewOf flags) name (some text) >>= fun finding =>
        pure (finding.text ++ "\n") := by
    rw [Command.output, meant]
    rfl
  rw [Command.run, checked, ResourceQuery.check]
  cases Tree.parse 0 name text with
  | error d => rfl
  | ok tree =>
    rw [due, ← show_viewOf]
    rfl

/-! ## Which flags count -/

/-- The wish for the verdict alone wins over the others. -/
theorem due_verdict (one : .syntaxOnly ∈ flags) (other : .syntaxOnly ∈ others)
    (read : Except Diagnostic Tree) : due flags read = due others read := by
  cases read with
  | error d => rfl
  | ok tree => simp [due, shown, one, other]

/-- The indented layout has a line break where the compact one has none. -/
theorem layouts_differ (tree : Tree) : tree.renderJson .indented ≠ tree.renderJson .compact := by
  intro same
  have chars := congrArg (·.toList[1]?) same
  simp [Tree.renderJson, Tree.toJson, Json.render, Json.chars, Json.fields, Json.Layout.lineBreak,
    Json.stringText] at chars

/-- The wish for the indented layout counts where a tree is shown as JSON, and nowhere else. -/
theorem due_pretty (same : ∀ flag, flag ≠ .pretty → (flag ∈ flags ↔ flag ∈ others))
    (indented : .pretty ∈ flags) (compact : .pretty ∉ others) (read : Except Diagnostic Tree) :
    due flags read ≠ due others read ↔
      (∃ tree, read = .ok tree) ∧ .json ∈ flags ∧ .syntaxOnly ∉ flags := by
  have json := same .json (by decide)
  have verdict := same .syntaxOnly (by decide)
  cases read with
  | error d => simp [due]
  | ok tree =>
    by_cases alone : Flag.syntaxOnly ∈ flags
    · simp [due_verdict alone (verdict.mp alone), alone]
    by_cases tagged : Flag.json ∈ flags
    · have differ : tree.renderJson .indented ++ "\n" ≠ tree.renderJson .compact ++ "\n" :=
        fun together => layouts_differ tree ((String.append_left_inj _).mp together)
      simp [due, shown, alone, tagged, indented, compact, ← json, ← verdict, differ]
    · simp [due, shown, alone, tagged, ← json, ← verdict]

/-! ## Where the statement comes from -/

theorem read_input (text : String) : String.fromUTF8? text.toUTF8 = some text := by
  have valid : text.toUTF8.IsValidUTF8 := text.isValidUTF8
  rw [String.fromUTF8?, dif_pos valid]
  rfl

/-- A hyphen and a missing statement mean the input, and the input is the text. -/
theorem text_piped (asked : statement = some "-" ∨ statement = none ∧ input.isTerminal = false)
    (bytes : input.bytes = text.toUTF8) : statementText input statement = .ok (some text) := by
  rw [statementText, if_pos asked, bytes, read_input]

theorem text_given (plain : text ≠ "-") (input : Input) :
    statementText input (some text) = .ok (some text) := by
  simp [statementText, plain]

/-- A text that does not start with a hyphen is no option. -/
theorem plain_value (plain : text.toList.head? ≠ some '-') :
    isOption text = false ∧ text ≠ "-" := by
  constructor
  · unfold isOption
    split
    · rename_i starts
      simp [starts] at plain
    · rfl
  · rintro rfl
    exact plain rfl

/-- The ways to have a text checked under a name. Where the input is not read, it may be anything.
-/
inductive Checks (name : String) (flags : List Flag) (text : String) : List String → Input → Prop
  where
  | argument {arguments : List Argument} (order : arguments.Perm (request (some text) name flags))
      (input : Input) : Checks name flags text ("check" :: arguments.map word) input
  | hyphen {arguments : List Argument} (order : arguments.Perm (request (some "-") name flags))
      (isTerminal : Bool) :
      Checks name flags text ("check" :: arguments.map word) ⟨isTerminal, text.toUTF8⟩
  | piped {arguments : List Argument} (order : arguments.Perm (request none name flags)) :
      Checks name flags text ("check" :: arguments.map word) ⟨false, text.toUTF8⟩

/-- However it is asked for, it is a check of the text, and no log is asked for. -/
theorem checks_understood (plain : text.toList.head? ≠ some '-') (once : flags.Nodup)
    (asked : Checks name flags text words input) : ∃ others statement, words = "check" :: others ∧
      readCommand words = some (.run (.check statement name (viewOf flags)) false) ∧
      statementText input statement = .ok (some text) := by
  obtain ⟨value, more⟩ := plain_value plain
  cases asked with
  | argument order input =>
    exact ⟨_, _, rfl, readCommand_request once order fun _ given => Option.some.inj given ▸ value,
      text_given more input⟩
  | hyphen order isTerminal =>
    exact ⟨_, _, rfl, readCommand_request once order fun _ given => Option.some.inj given ▸ rfl,
      text_piped (.inl rfl) rfl⟩
  | piped order =>
    exact ⟨_, _, rfl, readCommand_request once order (fun _ given => by cases given),
      text_piped (.inr ⟨rfl, rfl⟩) rfl⟩

/-- So a check ends as reading the statement does. -/
theorem checks_run (plain : text.toList.head? ≠ some '-') (once : flags.Nodup)
    (asked : Checks name flags text words input) :
    run words input = due flags (Tree.parse 0 name text) := by
  obtain ⟨others, statement, rfl, read, meant⟩ := checks_understood plain once asked
  rw [run, read_command (by decide +kernel), read]
  exact check_run meant

/-- Whoever asks for a log as well gets it, with what is logged while the text is read, and nothing
else changes. Nothing is logged otherwise. -/
theorem checks_logged (plain : text.toList.head? ≠ some '-') (once : flags.Nodup)
    (asked : Checks name flags text words input) :
    run ("--verbose" :: words) input = run words input ∧
      log ("--verbose" :: words) input = Tree.log name text ∧ log words input = [] := by
  obtain ⟨others, statement, rfl, read, meant⟩ := checks_understood plain once asked
  have check : leads "check" = false := by decide +kernel
  have logs : (Command.check statement name (viewOf flags)).log input = Tree.log name text := by
    rw [Command.log, meant]
  simp only [run, log, read_command check, read_verbose check, read, Option.map_some,
    Request.logged, Request.grant, logs, and_self]

/-- The ways to have the tokens of a text listed. -/
inductive Lists (text : String) : List String → Input → Prop where
  | argument (input : Input) : Lists text ["tokens", text] input
  | hyphen (isTerminal : Bool) : Lists text ["tokens", "-"] ⟨isTerminal, text.toUTF8⟩
  | piped : Lists text ["tokens"] ⟨false, text.toUTF8⟩

/-- Any text has tokens, so a listing always succeeds. -/
theorem lists_run (plain : text.toList.head? ≠ some '-') (asked : Lists text words input) :
    run words input = .done 0 (tokenListing text) "" := by
  obtain ⟨value, more⟩ := plain_value plain
  have listed {statement : Option String} {input : Input}
      (meant : statementText input statement = .ok (some text)) :
      (Command.tokens statement).run input = .done 0 (tokenListing text) "" := by
    rw [Command.run, Command.output, meant]
    rfl
  cases asked with
  | argument input =>
    have read : readArguments [text] = some [.value text] :=
      @readArguments_words [.value text] (by simpa using value) (by simp [Argument.isLast])
    have understood : Request.read? ["tokens", text] = some (.run (.tokens (some text)) false) := by
      rw [read_command (by decide +kernel)]
      simp [readCommand, read, readValues, values, atMostOne, Argument.isCommon,
        Request.ofArguments?]
    rw [run, understood]
    exact listed (text_given more input)
  | hyphen isTerminal =>
    have understood : Request.read? ["tokens", "-"] = some (.run (.tokens (some "-")) false) := by
      decide +kernel
    rw [run, understood]
    exact listed (text_piped (.inl rfl) rfl)
  | piped =>
    have understood : Request.read? ["tokens"] = some (.run (.tokens none) false) := by
      decide +kernel
    rw [run, understood]
    exact listed (text_piped (.inr ⟨rfl, rfl⟩) rfl)

/-! ## All paths -/

/-- How a check ends: by its exit code, and by what it prints to its two streams. -/
structure Ends (flags : List Flag) (read : Except Diagnostic Tree) (code : Nat)
    (out err : String) : Prop where
  accepts : code = 0 ↔ ∃ tree, read = .ok tree
  shows : ∀ tree, read = .ok tree → out = shown flags tree ++ "\n" ∧ err = ""
  /-- No flag has a part in how a failure is reported. -/
  reports : ∀ d, read = .error d →
    code = 1 ∧ out = "" ∧ err = d.message ++ "\n  at " ++ d.location ++ "\n"

theorem due_ends (flags : List Flag) (read : Except Diagnostic Tree) :
    ∃ code out err, due flags read = .done code out err ∧ Ends flags read code out err := by
  cases read with
  | error d => exact ⟨_, _, _, rfl, by simp, by simp, by simp⟩
  | ok tree => exact ⟨_, _, _, rfl, by simp, by simp, by simp⟩

/-- **All paths agree.** A text that does not start with a hyphen is checked alike as an argument,
behind a hyphen and from a pipe, in whatever order the options stand: with exit code 0 and nothing
but what the flags ask for if it is a statement, and else with exit code 1 and nothing but a report,
in which the flags have no part. Of two checks that differ in the wish for the indented layout, the
ends differ only where a tree is shown as JSON, and the wish for the verdict alone wins over all
others. Its tokens are listed alike on all paths, and that never fails. -/
theorem paths_agree (plain : text.toList.head? ≠ some '-') (name : String) :
    (∀ flags : List Flag, flags.Nodup → ∃ code out err,
      (∀ words input, Checks name flags text words input →
        run words input = .done code out err) ∧
      ∀ handle, Ends flags (Tree.parse handle name text) code out err) ∧
    (∀ flags others : List Flag, flags.Nodup → others.Nodup → ∀ words words' input input',
      Checks name flags text words input → Checks name others text words' input' →
      (.syntaxOnly ∈ flags → .syntaxOnly ∈ others → run words input = run words' input') ∧
      ((∀ flag, flag ≠ .pretty → (flag ∈ flags ↔ flag ∈ others)) → .pretty ∈ flags →
        .pretty ∉ others → (run words input ≠ run words' input' ↔
          (∃ tree, Tree.parse 0 name text = .ok tree) ∧ .json ∈ flags ∧ .syntaxOnly ∉ flags))) ∧
    ∃ out, ∀ words input, Lists text words input → run words input = .done 0 out "" := by
  refine ⟨fun flags once => ?_,
    fun flags others once once' words words' input input' one other => ?_, _,
    fun words input asked => lists_run plain asked⟩
  · obtain ⟨code, out, err, ended, -⟩ := due_ends flags (Tree.parse 0 name text)
    refine ⟨code, out, err, fun words input asked => (checks_run plain once asked).trans ended,
      fun handle => ?_⟩
    obtain ⟨_, _, _, same, ends⟩ := due_ends flags (Tree.parse handle name text)
    rw [due_handle, ended] at same
    cases same
    exact ends
  · rw [checks_run plain once one, checks_run plain once' other]
    exact ⟨fun alone alone' => due_verdict alone alone' _,
      fun same indented compact => due_pretty same indented compact _⟩

/-- The options stand in three orders, and the input that is not read is no text. -/
theorem paths_agree_json : "eq(é,1)".toList.head? ≠ some '-' ∧ ∃ tree,
    Tree.parse 0 "a=b" "eq(é,1)" = .ok tree ∧
    run ["check", "--json", "eq(é,1)", "--name=a=b"] ⟨false, ⟨#[0xFF]⟩⟩ =
      .done 0 (tree.renderJson .compact ++ "\n") "" ∧
    run ["check", "--name=a=b", "--json", "-"] ⟨true, "eq(é,1)".toUTF8⟩ =
      .done 0 (tree.renderJson .compact ++ "\n") "" ∧
    run ["check", "--name=a=b", "--json"] ⟨false, "eq(é,1)".toUTF8⟩ =
      .done 0 (tree.renderJson .compact ++ "\n") "" := by
  have plain : "eq(é,1)".toList.head? ≠ some '-' := by decide
  have accepted : (Tree.parse 0 "a=b" "eq(é,1)").toOption.isSome := by decide +kernel
  obtain ⟨code, out, err, alike, ends⟩ := (paths_agree plain "a=b").1 [.json] (by decide)
  cases read : Tree.parse 0 "a=b" "eq(é,1)" with
  | error d => simp [read, Except.toOption] at accepted
  | ok tree =>
    obtain rfl := (ends 0).accepts.mpr ⟨tree, read⟩
    obtain ⟨rfl, rfl⟩ := (ends 0).shows tree read
    have first : [.flag .json, .value "eq(é,1)", .name "a=b"].Perm
        (request (some "eq(é,1)") "a=b" [.json]) := by decide
    have second : [.name "a=b", .flag .json, .value "-"].Perm
        (request (some "-") "a=b" [.json]) := by decide
    exact ⟨plain, tree, rfl, alike _ _ (.argument first _), alike _ _ (.hyphen second _),
      alike _ _ (.piped (List.Perm.refl _))⟩

end ResourceQuery.Invocations
