import Setters.Proofs.CommandLine.Compiling

/-!
# What `validate` tells of each schema

Schemas are judged one after the other, and the only thing that one hands on to the next is the
standard input, which the first hyphen reads to its end. `verdicts_eq_mapIdx` turns this walk into
a table: what stands in each place is said of that place alone. So no schema stands in the way of
another one, as `run_validate_judgesEach` says, and a schema is reported to be sound exactly when
it can be compiled.

What is told of a schema is said by `Session.Judges`, of the loaders and of validation, and there
is always one such word (`judges_iff`).
-/

namespace Setters

/-- What there is to tell of an argument: that its schema is sound, what validation finds, or why
there is no schema. -/
inductive Session.Judges (session : Session) (argument : String) : String → Prop where
  | sound {schema : Schema} : session.Loads argument schema → schema.validate = .ok () →
      session.Judges argument "ok"
  | invalid {schema : Schema} {fault : ValidationFault} : session.Loads argument schema →
      schema.validate = .error fault → session.Judges argument fault.message
  | refused {word : String} : session.Refuses argument word → session.Judges argument word

/-- What is left of a session behind some schemas: a hyphen among them has read the standard input
to its end. -/
def Session.behind (session : Session) (schemas : List String) : Session :=
  { session with input := if "-" ∈ schemas then .text "" else session.input }

/-- Whether a word is told of each schema, as it is judged behind the ones before it. -/
def Session.JudgesAll (session : Session) (schemas words : List String) : Prop :=
  words.length = schemas.length ∧ ∀ i argument word, schemas[i]? = some argument →
    words[i]? = some word → (session.behind (schemas.take i)).Judges argument word

/-- The line that tells a word of an argument. -/
def reportLine (argument word : String) : String :=
  argument ++ ": " ++ word ++ "\n"

/-- Whether a result has one line for each schema, in their order, with what there is to tell of
it. The status says whether all schemas are sound, and no file changes. -/
structure Session.JudgesEach (session : Session) (schemas : List String) (result : Result) :
    Prop where
  reports : ∃ words, session.JudgesAll schemas words ∧
    result.output = String.join (List.zipWith reportLine schemas words) ∧
    (result.status.code = 0 ∧ (∀ word ∈ words, word = "ok") ∨
      result.status.code = 1 ∧ ∃ word ∈ words, word ≠ "ok")
  files : session.files.SameFiles result.files

variable {session : Session} {job : CompileJob} {argument word : String} {schemas : List String}

/-! ### Words -/

theorem append_ne_ok {start : String} (first : Char) (hstart : start.toList.head? = some first)
    (hfirst : first ≠ 'o') (rest : String) : start ++ rest ≠ "ok" := by
  intro h
  have hhead := congrArg (fun text => text.toList.head?) h
  have hboth : some first = some 'o' := by simpa [hstart] using hhead
  exact hfirst (Option.some.inj hboth)

theorem LoadFault.report_ne_ok (fault : LoadFault) : fault.report ≠ "ok" := by
  cases fault with
  | unreadable path fault =>
    have htext : (LoadFault.unreadable path fault).report =
        "failed to read " ++ (path.text ++ ": " ++ fault.message) := by
      rw [← String.append_assoc, ← String.append_assoc]
      rfl
    rw [htext]
    exact append_ne_ok 'f' (by decide) (by decide) _
  | notText => decide
  | json fault => exact append_ne_ok 'i' (by decide) (by decide) _
  | toml source fault => exact append_ne_ok 'i' (by decide) (by decide) _
  | unsupportedFormat path =>
    have htext : (LoadFault.unsupportedFormat path).report =
        "unsupported schema format: " ++ (path.text ++ " (expected .json or .toml)") :=
      String.append_assoc
    rw [htext]
    exact append_ne_ok 'u' (by decide) (by decide) _

theorem ValidationFault.message_ne_ok (fault : ValidationFault) : fault.message ≠ "ok" := by
  cases fault with
  | emptyFieldName location =>
    have htext : (ValidationFault.emptyFieldName location).message =
        "empty field name in `" ++ (location ++ "`") := String.append_assoc
    rw [htext]
    exact append_ne_ok 'e' (by decide) (by decide) _
  | emptyParameter location =>
    have htext : (ValidationFault.emptyParameter location).message =
        "modifier `" ++ (location ++ "` has an empty parameter name") := String.append_assoc
    rw [htext]
    exact append_ne_ok 'm' (by decide) (by decide) _
  | duplicateDeclaration location name first second =>
    have htext : (ValidationFault.duplicateDeclaration location name first second).message =
        "declaration `" ++ (name ++ "` in `" ++ location ++
          "` is generated by both `" ++ first ++ "` and `" ++ second ++ "`") := by
      simp only [← String.append_assoc]
      rfl
    rw [htext]
    exact append_ne_ok 'd' (by decide) (by decide) _

/-- No fault reads like the word for a sound schema. -/
theorem verdictWord_eq_ok_iff {verdict : Except SchemaFault Unit} :
    verdictWord verdict = "ok" ↔ verdict.isOk = true := by
  cases verdict with
  | ok u => exact ⟨fun _ => rfl, fun _ => rfl⟩
  | error fault =>
    have hne : fault.message ≠ "ok" := by
      cases fault with
      | load fault => exact fault.report_ne_ok
      | invalid fault => exact fault.message_ne_ok
    exact ⟨fun h => absurd h hne, fun h => nomatch h⟩

/-! ### What is told of an argument -/

def Session.wordOn (session : Session) (argument : String) : String :=
  verdictWord ((SchemaSource.ofArgument argument).check (session.files.read session.place)
    session.input)

theorem wordOn_eq (session : Session) (argument : String) :
    session.wordOn argument = verdictWord
      (match session.load argument with
        | .error fault => .error (.load fault)
        | .ok schema => schema.validate.mapError .invalid) :=
  rfl

/-- There is one word to tell of an argument, and the program tells it. -/
theorem judges_iff : session.Judges argument word ↔ session.wordOn argument = word := by
  rw [wordOn_eq]
  constructor
  · intro h
    cases h with
    | sound hloads hvalid =>
      rw [load_eq_ok_iff.mpr hloads]
      simp only [hvalid]
      rfl
    | invalid hloads hfault =>
      rw [load_eq_ok_iff.mpr hloads]
      simp only [hfault]
      rfl
    | refused hrefuses =>
      obtain ⟨fault, hload, rfl⟩ := refuses_iff.mp hrefuses
      rw [hload]
      rfl
  · rintro rfl
    cases hload : session.load argument with
    | error fault => exact .refused (refuses_iff.mpr ⟨fault, hload, rfl⟩)
    | ok schema =>
      have hloads := load_eq_ok_iff.mp hload
      cases hvalid : schema.validate with
      | error fault =>
        simp only [hvalid]
        exact .invalid hloads hvalid
      | ok u =>
        simp only [hvalid]
        exact .sound hloads hvalid

theorem existsUnique_judges (session : Session) (argument : String) :
    ∃! word, session.Judges argument word :=
  ⟨_, judges_iff.mpr rfl, fun _ h => (judges_iff.mp h).symm⟩

/-- No other word than the one for it is told of a sound schema, nor that one of another. -/
theorem judges_ok_iff :
    session.Judges argument "ok" ↔
      ∃ schema, session.Loads argument schema ∧ schema.validate = .ok () := by
  constructor
  · intro h
    generalize hword : "ok" = word at h
    cases h with
    | sound hloads hvalid => exact ⟨_, hloads, hvalid⟩
    | invalid _ _ => exact absurd hword.symm (ValidationFault.message_ne_ok _)
    | refused hrefuses =>
      obtain ⟨fault, -, rfl⟩ := refuses_iff.mp hrefuses
      exact absurd hword.symm fault.report_ne_ok
  · rintro ⟨schema, hloads, hvalid⟩
    exact .sound hloads hvalid

/-- What is told of a file does not hang on the standard input. -/
theorem judges_of_file (hfile : argument ≠ "-") (input : FileContent) :
    session.Judges argument word ↔
      Session.Judges { session with input := input } argument word := by
  have hword : session.wordOn argument =
      Session.wordOn { session with input := input } argument := by
    simp [Session.wordOn, SchemaSource.ofArgument, hfile, SchemaSource.check, SchemaSource.load]
  rw [judges_iff, judges_iff, hword]

/-! ### One schema after the other -/

theorem verdicts_eq_mapIdx (read : ReadFile) (input : FileContent) (schemas : List String) :
    verdicts read input schemas = schemas.mapIdx fun i argument =>
      (argument, (SchemaSource.ofArgument argument).check read
        (if "-" ∈ schemas.take i then .text "" else input)) := by
  induction schemas generalizing input with
  | nil => rfl
  | cons first rest ih =>
    -- what the first schema leaves is what its place in the list says is left for the others
    have hleft : ∀ i, (if "-" ∈ rest.take i then FileContent.text ""
          else (SchemaSource.ofArgument first).inputAfter input) =
        if "-" ∈ (first :: rest).take (i + 1) then .text "" else input := by
      intro i
      by_cases hfirst : first = "-"
      · simp [hfirst, SchemaSource.ofArgument, SchemaSource.inputAfter]
      · simp [hfirst, Ne.symm hfirst, SchemaSource.ofArgument, SchemaSource.inputAfter]
    rw [List.mapIdx_cons]
    show (first, _) :: verdicts read _ rest = _
    rw [ih]
    simp only [hleft, List.take_zero, List.not_mem_nil, if_false]

def Session.verdictsOn (session : Session) (schemas : List String) :
    List (String × Except SchemaFault Unit) :=
  verdicts (session.files.read session.place) session.input schemas

def Session.wordsOn (session : Session) (schemas : List String) : List String :=
  (session.verdictsOn schemas).map fun verdict => verdictWord verdict.2

theorem wordsOn_eq_mapIdx (session : Session) (schemas : List String) :
    session.wordsOn schemas =
      schemas.mapIdx fun i argument => (session.behind (schemas.take i)).wordOn argument := by
  rw [Session.wordsOn, Session.verdictsOn, verdicts_eq_mapIdx]
  apply List.ext_getElem?
  intro i
  simp only [List.getElem?_map, List.getElem?_mapIdx, Option.map_map]
  rfl

theorem judgesAll_wordsOn (session : Session) (schemas : List String) :
    session.JudgesAll schemas (session.wordsOn schemas) := by
  rw [wordsOn_eq_mapIdx]
  refine ⟨List.length_mapIdx, fun i argument word hargument hword => ?_⟩
  rw [List.getElem?_mapIdx, hargument] at hword
  exact judges_iff.mpr (Option.some.inj hword)

theorem lines_verdictsOn (session : Session) (schemas : List String) :
    (session.verdictsOn schemas).map verdictLine =
      List.zipWith reportLine schemas (session.wordsOn schemas) := by
  have harguments : schemas = (session.verdictsOn schemas).map (·.1) := by
    rw [Session.verdictsOn, verdicts_eq_mapIdx]
    apply List.ext_getElem?
    intro i
    simp [List.getElem?_mapIdx, Function.comp_def]
  have hzip : List.zipWith reportLine ((session.verdictsOn schemas).map (·.1))
      ((session.verdictsOn schemas).map fun verdict => verdictWord verdict.2) =
        (session.verdictsOn schemas).map verdictLine := by
    rw [List.zipWith_map, List.zipWith_self]
    rfl
  rw [← harguments] at hzip
  exact hzip.symm

theorem all_verdictsOn_iff (session : Session) (schemas : List String) :
    (session.verdictsOn schemas).all (·.2.isOk) = true ↔
      ∀ word ∈ session.wordsOn schemas, word = "ok" := by
  rw [List.all_eq_true, Session.wordsOn, List.forall_mem_map]
  exact forall₂_congr fun verdict _ => verdictWord_eq_ok_iff.symm

/-! ### The command -/

theorem runCommand_validate (session : Session) (schemas : List String) :
    session.JudgesEach schemas (session.runCommand (.validate schemas)) := by
  have hall := all_verdictsOn_iff session schemas
  have hrun : session.runCommand (.validate schemas) =
      ⟨if (session.verdictsOn schemas).all (·.2.isOk) then .success else .failure,
        String.join ((session.verdictsOn schemas).map verdictLine), session.files⟩ := rfl
  rw [hrun, lines_verdictsOn]
  refine ⟨⟨session.wordsOn schemas, judgesAll_wordsOn session schemas, rfl, ?_⟩,
    FileTree.SameFiles.refl session.files⟩
  cases hverdict : (session.verdictsOn schemas).all (·.2.isOk) with
  | true => exact .inl ⟨rfl, hall.mp hverdict⟩
  | false =>
    refine .inr ⟨rfl, ?_⟩
    by_contra hnone
    have hsound : ∀ word ∈ session.wordsOn schemas, word = "ok" := by
      intro word hword
      by_contra hne
      exact hnone ⟨word, hword, hne⟩
    rw [hall.mpr hsound] at hverdict
    cases hverdict

theorem reportLine_inj {other : String} :
    reportLine argument word = reportLine argument other ↔ word = other := by
  constructor
  · intro h
    have hchars := congrArg String.toList h
    simp only [reportLine, String.toList_append] at hchars
    have hwords := List.append_cancel_left (List.append_cancel_right hchars)
    exact String.toList_inj.mp hwords
  · rintro rfl
    rfl

/-- A schema that is judged alone is sound exactly when a job without a file succeeds on it. -/
theorem output_validate_iff (session : Session) (hout : job.out = none) :
    (session.runCommand (.validate [job.schema])).output = reportLine job.schema "ok" ↔
      (session.runCommand (.compile job)).status.code = 0 := by
  have houtput : (session.runCommand (.validate [job.schema])).output =
      reportLine job.schema (session.wordOn job.schema) := by
    show String.join [verdictLine _] = _
    simp only [String.join_cons, String.join_nil, String.append_empty]
    rfl
  rw [houtput, reportLine_inj, ← judges_iff, judges_ok_iff,
    (runCommand_compile_allOrNothing session job).judged hout]

/-- Any schemas can be given to `validate`, which tells of each what there is to tell of it behind
the ones before: one line for each, the word for its schema, the files and what is left of the
standard input. A schema that is judged alone is reported to be sound exactly when it can be
compiled, which can be asked of any schema as well. -/
theorem run_validate_judgesEach (session : Session) (schemas : List String) :
    (∀ arguments, Command.ofArguments arguments = some (.validate schemas) ↔
        ValidateSpelledBy schemas arguments) ∧
      (schemas ≠ [] → ValidateSpelledBy schemas ("validate" :: "--" :: schemas)) ∧
      (∀ arguments, ValidateSpelledBy schemas arguments →
        session.JudgesEach schemas (session.run arguments)) ∧
      (∀ argument, ∃! word, session.Judges argument word) ∧
      (∀ argument, argument ≠ "-" → ∀ input word, session.Judges argument word ↔
        Session.Judges { session with input := input } argument word) ∧
      (∀ argument, (CompileJob.mk argument none none .pretty).SpelledBy
        ["compile", "--", argument]) ∧
      ∀ (alone compiling : List String) (job : CompileJob), ValidateSpelledBy [job.schema] alone →
        job.SpelledBy compiling → job.out = none →
          ((session.run alone).output = reportLine job.schema "ok" ↔
            (session.run compiling).status.code = 0) := by
  refine ⟨fun arguments => ofArguments_validate_iff, ?_, ?_, existsUnique_judges session, ?_,
    CompileJob.spelledBy_behind, ?_⟩
  · intro hschemas
    exact ⟨hschemas, _, rfl, .rest schemas⟩
  · intro arguments harguments
    rw [run_of_arguments (ofArguments_validate_iff.mpr harguments)]
    exact runCommand_validate session schemas
  · intro argument hfile input word
    exact judges_of_file hfile input
  · intro alone compiling job halone hcompiling hout
    rw [run_of_arguments (ofArguments_validate_iff.mpr halone),
      run_of_arguments (ofArguments_compile_iff.mpr hcompiling)]
    exact output_validate_iff session hout

/-- A directory with a sound schema and one that is none, and another one that is none in the
standard input. -/
def mixedSession : Session :=
  ⟨⟨[(["bad.json"], .file (.text "[\n 1]")), (["good.json"], .file (.text "\x7b\x7d"))]⟩, [],
    .text "\x7b\"help\":\n5\x7d"⟩

def mixedSchemas : List String :=
  ["-", "good.json", "bad.json", "none.toml", "-"]

/-- The second hyphen finds nothing left, and the sound schema is reported between others. -/
theorem run_validate_mixedSession :
    (mixedSession.run ["validate", "-", "good.json", "bad.json", "--", "none.toml", "-"]).output =
        "-: invalid JSON schema: invalid type: integer `5`, expected a string" ++
          " at line 2 column 1\n" ++
        "good.json: ok\n" ++
        "bad.json: invalid JSON schema: invalid type: integer `1`, expected a string" ++
          " at line 2 column 2\n" ++
        "none.toml: failed to read none.toml: No such file or directory (os error 2)\n" ++
        "-: invalid JSON schema: EOF while parsing a value at line 1 column 0\n" ∧
      mixedSession.JudgesEach mixedSchemas
        (mixedSession.run ["validate", "-", "good.json", "bad.json", "--", "none.toml", "-"]) ∧
      ((mixedSession.run ["validate", "good.json"]).output = reportLine "good.json" "ok" ↔
        (mixedSession.run ["compile", "--compact", "good.json"]).status.code = 0) := by
  obtain ⟨hmany, -, hjudges, -⟩ := run_validate_judgesEach mixedSession mixedSchemas
  obtain ⟨hone, -, -, -, -, -, halone⟩ := run_validate_judgesEach mixedSession ["good.json"]
  have hmixed : ValidateSpelledBy mixedSchemas
      ["validate", "-", "good.json", "bad.json", "--", "none.toml", "-"] :=
    (hmany _).mp (by decide +kernel)
  have hgood : ValidateSpelledBy ["good.json"] ["validate", "good.json"] :=
    (hone _).mp (by decide +kernel)
  have hcompiling : (CompileJob.mk "good.json" none none .compact).SpelledBy
      ["compile", "--compact", "good.json"] := ofArguments_compile_iff.mp (by decide +kernel)
  have hsound := halone ["validate", "good.json"] ["compile", "--compact", "good.json"]
    ⟨"good.json", none, none, .compact⟩ hgood hcompiling rfl
  exact ⟨by decide +kernel, hjudges _ hmixed, hsound⟩

end Setters
