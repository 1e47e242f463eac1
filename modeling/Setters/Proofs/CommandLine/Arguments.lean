import Mathlib.Data.List.Basic
import Setters.CommandLine

/-!
# What arguments spell

The ways in which a command can be written, said without the reader: an item is written in one or
two arguments, items stand one behind the other, and behind a double hyphen there are only schemas.
The reader takes exactly the arguments that are written in this way, and makes of them the job, or
the schemas, that they tell: `ofArguments_compile_iff` and `ofArguments_validate_iff`.

An argument is told by its form, so the form is inverted first (`toList_of_long` and its like);
what an argument means, what the reader does with items and what a draft has gathered from them
follow in that order.
-/

namespace Setters

variable {text value letters : String} {option : ValueOption} {item : CompileItem}
  {items : List CompileItem} {arguments schemas : List String} {draft draft' : CompileDraft}
  {job : CompileJob}

/-! ### Ways of writing -/

/-- Whether an argument is no option: it has no hyphen in front, or is nothing but that. -/
def Unhyphened (text : String) : Prop :=
  text.toList.head? ≠ some '-' ∨ text = "-"

def ValueOption.longFlag : ValueOption → String
  | .name => "--name"
  | .out => "--out"

def ValueOption.shortFlag : ValueOption → String
  | .name => "-n"
  | .out => "-o"

/-- The arguments in which an item may be written. -/
inductive CompileItem.Spells : CompileItem → List String → Prop where
  | schema {text : String} : Unhyphened text → Spells (.schema text) [text]
  | compact : Spells .compact ["--compact"]
  | apart {option : ValueOption} {flag value : String} :
      flag = option.longFlag ∨ flag = option.shortFlag → Unhyphened value →
      Spells (.option option value) [flag, value]
  | long {option : ValueOption} {value : String} :
      Spells (.option option value) [option.longFlag ++ "=" ++ value]
  | short {option : ValueOption} {value : String} :
      Spells (.option option value) [option.shortFlag ++ "=" ++ value]
  | joined {option : ValueOption} {value : String} : value ≠ "" → value.toList.head? ≠ some '=' →
      Spells (.option option value) [option.shortFlag ++ value]

/-- Whether arguments are items one behind the other, and schemas behind a double hyphen. -/
inductive SpellsItems : List CompileItem → List String → Prop where
  | nil : SpellsItems [] []
  | schemas (texts : List String) : SpellsItems (texts.map .schema) ("--" :: texts)
  | cons {item : CompileItem} {items : List CompileItem} {first rest : List String} :
      item.Spells first → SpellsItems items rest → SpellsItems (item :: items) (first ++ rest)

def CompileJob.Has (job : CompileJob) : CompileItem → Prop
  | .schema text => job.schema = text
  | .option .name value => job.name = some value
  | .option .out value => job.out = some ⟨value⟩
  | .compact => job.layout = .compact

/-- Whether a job is what some items tell: they are the parts of the job, no two are about the
same, and a file to write has a name. -/
structure CompileJob.ToldBy (job : CompileJob) (items : List CompileItem) : Prop where
  parts : ∀ item, item ∈ items ↔ job.Has item
  once : (items.map CompileItem.key).Nodup
  named : job.out ≠ some ⟨""⟩

def CompileJob.SpelledBy (job : CompileJob) (arguments : List String) : Prop :=
  ∃ items rest, arguments = "compile" :: rest ∧ SpellsItems items rest ∧ job.ToldBy items

/-- Whether arguments are schemas one behind the other, with a double hyphen among them at most. -/
inductive SpellsSchemas : List String → List String → Prop where
  | nil : SpellsSchemas [] []
  | rest (texts : List String) : SpellsSchemas texts ("--" :: texts)
  | cons {text : String} {schemas arguments : List String} :
      Unhyphened text → SpellsSchemas schemas arguments →
      SpellsSchemas (text :: schemas) (text :: arguments)

/-- Whether arguments are a way of asking for the judgement of some schemas. -/
def ValidateSpelledBy (schemas arguments : List String) : Prop :=
  schemas ≠ [] ∧ ∃ rest, arguments = "validate" :: rest ∧ SpellsSchemas schemas rest

/-! ### Forms of arguments -/

namespace Argument

theorem ofLong_cases (cs : List Char) :
    ∃ word value, ofLong cs = .long word value ∧
      cs = word.toList ++ value.elim [] fun text => '=' :: text.toList := by
  have hcut := List.takeWhile_append_dropWhile (p := (· != '=')) (l := cs)
  rw [ofLong]
  split
  · rename_i hdrop
    rw [hdrop, List.append_nil] at hcut
    exact ⟨_, _, rfl, by simp [hcut]⟩
  · rename_i c rest hdrop
    have hhead := List.head?_dropWhile_not (· != '=') cs
    rw [hdrop] at hhead
    obtain rfl : c = '=' := by simpa using hhead
    rw [hdrop] at hcut
    exact ⟨_, _, rfl, by simp [hcut]⟩

/-- The four forms of an argument, each with what the argument looks like. -/
theorem ofText_cases (text : String) :
    text = "--" ∧ ofText text = .separator ∨
      (∃ word value, ofText text = .long word value ∧
        text.toList = '-' :: '-' :: (word.toList ++ value.elim [] fun text => '=' :: text.toList)) ∨
      (∃ letter rest, ofText text = .short letter rest ∧
        text.toList = '-' :: letter :: rest.toList) ∨
      Unhyphened text ∧ ofText text = .plain text := by
  rw [ofText]
  split
  · rename_i hchars
    exact .inl ⟨String.toList_inj.mp hchars, rfl⟩
  · rename_i cs _ hchars
    obtain ⟨word, value, hlong, rfl⟩ := ofLong_cases cs
    exact .inr (.inl ⟨word, value, hlong, hchars⟩)
  · rename_i letter rest _ _ hchars
    exact .inr (.inr (.inl ⟨letter, _, rfl, by rw [hchars, String.toList_ofList]⟩))
  · rename_i hlone hlong hshort
    refine .inr (.inr (.inr ⟨?_, rfl⟩))
    rw [Unhyphened]
    by_contra hnot
    obtain ⟨hhead, hne⟩ := not_or.mp hnot
    obtain ⟨rest, hchars⟩ := List.head?_eq_some_iff.mp (not_not.mp hhead)
    cases rest with
    | nil => exact hne (String.toList_inj.mp hchars)
    | cons letter rest => exact hshort letter rest hchars

theorem eq_of_separator (h : ofText text = .separator) : text = "--" := by
  have hcases := ofText_cases text
  rw [h] at hcases
  simpa using hcases

theorem toList_of_long {word : String} {value : Option String}
    (h : ofText text = .long word value) :
    text.toList = '-' :: '-' :: (word.toList ++ value.elim [] fun text => '=' :: text.toList) := by
  have hcases := ofText_cases text
  rw [h] at hcases
  simpa using hcases

theorem toList_of_short {letter : Char} {rest : String} (h : ofText text = .short letter rest) :
    text.toList = '-' :: letter :: rest.toList := by
  have hcases := ofText_cases text
  rw [h] at hcases
  simpa using hcases

theorem ofText_eq_plain_iff {other : String} :
    ofText text = .plain other ↔ other = text ∧ Unhyphened text := by
  constructor
  · intro h
    have hcases := ofText_cases text
    rw [h] at hcases
    simpa [and_comm] using hcases
  · rintro ⟨rfl, hhead | rfl⟩
    · rw [ofText]
      split
      · rename_i hchars
        simp [hchars] at hhead
      · rename_i hchars
        simp [hchars] at hhead
      · rename_i hchars
        simp [hchars] at hhead
      · rfl
    · rfl

theorem isPlain_iff : (ofText text).isPlain = true ↔ Unhyphened text := by
  constructor
  · intro h
    cases hform : ofText text with
    | plain other => exact (ofText_eq_plain_iff.mp hform).2
    | separator | long | short =>
      rw [hform] at h
      cases h
  · intro h
    rw [ofText_eq_plain_iff.mpr ⟨rfl, h⟩]
    rfl

end Argument

/-! ### Meanings of arguments -/

def CompileWord.WrittenAs : CompileWord → String → Prop
  | .separator, text => text = "--"
  | .item item, text => item.Spells [text]
  | .pending option, text => text = option.longFlag ∨ text = option.shortFlag

theorem letterValue_cases (rest : String) :
    (rest = "" ∧ letterValue rest = none) ∨
      (∃ value, rest = "=" ++ value ∧ letterValue rest = some value) ∨
      rest ≠ "" ∧ rest.toList.head? ≠ some '=' ∧ letterValue rest = some rest := by
  rw [letterValue]
  split
  · rename_i hchars
    exact .inl ⟨String.toList_inj.mp hchars, rfl⟩
  · rename_i value hchars
    refine .inr (.inl ⟨String.ofList value, ?_, rfl⟩)
    simp [← String.toList_inj, hchars]
  · rename_i hempty hequals
    refine .inr (.inr ⟨?_, ?_, rfl⟩)
    · rintro rfl
      exact hempty rfl
    · intro hhead
      obtain ⟨value, hchars⟩ := List.head?_eq_some_iff.mp hhead
      exact hequals value hchars

namespace ValueOption

/-- What is written for an option by its word. -/
theorem writtenAs_long (option : ValueOption) (value : Option String)
    (hchars : text.toList =
      option.longFlag.toList ++ value.elim [] fun text => '=' :: text.toList) :
    (option.word value).WrittenAs text := by
  cases value with
  | none =>
    have htext : text = option.longFlag := by
      rw [← String.toList_inj, hchars, Option.elim_none, List.append_nil]
    exact .inl htext
  | some value =>
    have htext : text = option.longFlag ++ "=" ++ value := by
      rw [← String.toList_inj, hchars]
      simp
    rw [htext]
    exact .long

/-- What is written for an option by its letter. -/
theorem writtenAs_short (option : ValueOption) {rest : String}
    (hchars : text.toList = option.shortFlag.toList ++ rest.toList) :
    (option.word (letterValue rest)).WrittenAs text := by
  have htext : text = option.shortFlag ++ rest := by
    rw [← String.toList_inj, hchars, String.toList_append]
  rcases letterValue_cases rest with ⟨rfl, hvalue⟩ | ⟨value, rfl, hvalue⟩ | ⟨hne, hhead, hvalue⟩
  · rw [hvalue, htext, String.append_empty]
    exact .inr rfl
  · rw [hvalue, htext, ← String.append_assoc]
    exact .short
  · rw [hvalue, htext]
    exact .joined hne hhead

end ValueOption

namespace Argument

theorem writtenAs_of_compileWord? {word : CompileWord}
    (h : (ofText text).compileWord? = some word) : word.WrittenAs text := by
  rw [compileWord?.eq_def] at h
  split at h
  · rename_i hform
    obtain rfl := Option.some.inj h
    exact eq_of_separator hform
  · rename_i hform
    obtain rfl := Option.some.inj h
    obtain rfl : text = "--compact" := String.toList_inj.mp (toList_of_long hform)
    exact .compact
  · rename_i hform
    obtain rfl := Option.some.inj h
    exact ValueOption.name.writtenAs_long _ (toList_of_long hform)
  · rename_i hform
    obtain rfl := Option.some.inj h
    exact ValueOption.out.writtenAs_long _ (toList_of_long hform)
  · rename_i hform
    obtain rfl := Option.some.inj h
    exact ValueOption.name.writtenAs_short (toList_of_short hform)
  · rename_i hform
    obtain rfl := Option.some.inj h
    exact ValueOption.out.writtenAs_short (toList_of_short hform)
  · rename_i hform
    obtain rfl := Option.some.inj h
    obtain ⟨rfl, hplain⟩ := ofText_eq_plain_iff.mp hform
    exact .schema hplain
  · cases h
  · cases h

theorem word_long (option : ValueOption) (value : String) :
    (ofText (option.longFlag ++ "=" ++ value)).isHelp = false ∧
      (ofText (option.longFlag ++ "=" ++ value)).compileWord? =
        some (.item (.option option value)) := by
  cases option with
  | name =>
    have hform : ofText ("--name" ++ "=" ++ value) = .long "name" (some value) := by
      simp [ofText, ofLong]
    exact hform ▸ ⟨rfl, rfl⟩
  | out =>
    have hform : ofText ("--out" ++ "=" ++ value) = .long "out" (some value) := by
      simp [ofText, ofLong]
    exact hform ▸ ⟨rfl, rfl⟩

theorem word_short (option : ValueOption) (rest : String) :
    (ofText (option.shortFlag ++ rest)).isHelp = false ∧
      (ofText (option.shortFlag ++ rest)).compileWord? =
        some (option.word (letterValue rest)) := by
  cases option with
  | name =>
    have hform : ofText ("-n" ++ rest) = .short 'n' rest := by
      simp [ofText]
    exact hform ▸ ⟨rfl, rfl⟩
  | out =>
    have hform : ofText ("-o" ++ rest) = .short 'o' rest := by
      simp [ofText]
    exact hform ▸ ⟨rfl, rfl⟩

theorem word_of_writtenAs {word : CompileWord} (h : word.WrittenAs text) :
    (ofText text).isHelp = false ∧ (ofText text).compileWord? = some word := by
  cases word with
  | separator =>
    obtain rfl : text = "--" := h
    exact ⟨rfl, rfl⟩
  | pending option =>
    rcases h with rfl | rfl
    · cases option <;> exact ⟨by decide, by decide⟩
    · cases option <;> exact ⟨by decide, by decide⟩
  | item item =>
    cases h with
    | schema hplain =>
      rw [ofText_eq_plain_iff.mpr ⟨rfl, hplain⟩]
      exact ⟨rfl, rfl⟩
    | compact => exact ⟨by decide, by decide⟩
    | long => exact word_long _ _
    | @short option value =>
      have hword := word_short option ("=" ++ value)
      have hvalue : letterValue ("=" ++ value) = some value := by simp [letterValue]
      rwa [hvalue, ← String.append_assoc] at hword
    | @joined option value hne hhead =>
      have hword := word_short option value
      have hvalue : letterValue value = some value := by
        rcases letterValue_cases value with ⟨hempty, -⟩ | ⟨_, rfl, -⟩ | ⟨-, -, hvalue⟩
        · exact absurd hempty hne
        · exact absurd (by simp) hhead
        · exact hvalue
      rwa [hvalue] at hword

end Argument

/-! ### Reading items -/

namespace CompileDraft

theorem exists_of_bind {α β ε : Type} {result : Except ε α} {next : α → Except ε β} {b : β}
    (h : result.bind next = .ok b) : ∃ a, result = .ok a ∧ next a = .ok b := by
  cases result with
  | error fault => cases h
  | ok a => exact ⟨a, rfl, h⟩

theorem read_single (h : item.Spells [text]) (draft : CompileDraft) (rest : List String) :
    draft.read (text :: rest) = (draft.add item).bind (read · rest) := by
  have hwritten : (CompileWord.item item).WrittenAs text := h
  obtain ⟨hhelp, hword⟩ := Argument.word_of_writtenAs hwritten
  simp [read, hhelp, hword]

/-- What is told in front is taken into account first. -/
theorem read_item {first : List String} (h : item.Spells first) (draft : CompileDraft)
    (rest : List String) : draft.read (first ++ rest) = (draft.add item).bind (read · rest) := by
  cases h with
  | schema hplain => exact read_single (.schema hplain) draft rest
  | compact => exact read_single .compact draft rest
  | long => exact read_single .long draft rest
  | short => exact read_single .short draft rest
  | joined hne hhead => exact read_single (.joined hne hhead) draft rest
  | @apart option flag value hflag hplain =>
    have hpending : (CompileWord.pending option).WrittenAs flag := hflag
    obtain ⟨hhelp, hword⟩ := Argument.word_of_writtenAs hpending
    simp [read, hhelp, hword, Argument.isPlain_iff.mpr hplain]

theorem read_of_spellsItems (h : SpellsItems items arguments) (draft : CompileDraft) :
    draft.read arguments = items.foldlM add draft := by
  induction h generalizing draft with
  | nil => rfl
  | schemas texts => simp [read, show Argument.ofText "--" = .separator from rfl,
      Argument.isHelp, Argument.compileWord?]
  | cons hitem _ ih =>
    rw [read_item hitem, List.foldlM_cons]
    cases draft.add _ with
    | error stop => rfl
    | ok draft' => exact ih draft'

theorem exists_spellsItems_of_read (h : draft.read arguments = .ok draft') :
    ∃ items, SpellsItems items arguments := by
  -- along the reader, which goes on only behind what it has taken into account
  fun_induction read draft arguments with
  | case1 => exact ⟨[], .nil⟩
  | case2 | case3 | case6 | case8 => cases h
  | case4 draft text rest argument hhelp hword =>
    obtain rfl : text = "--" := Argument.writtenAs_of_compileWord? hword
    exact ⟨_, .schemas rest⟩
  | case5 draft text rest argument hhelp item hword ih =>
    obtain ⟨middle, -, hread⟩ := exists_of_bind h
    obtain ⟨items, hitems⟩ := ih middle hread
    exact ⟨item :: items, .cons (Argument.writtenAs_of_compileWord? hword) hitems⟩
  | case7 draft text argument hhelp option hword value rest hplain ih =>
    obtain ⟨middle, -, hread⟩ := exists_of_bind h
    obtain ⟨items, hitems⟩ := ih middle hread
    have hflag := Argument.writtenAs_of_compileWord? hword
    have hvalue := Argument.isPlain_iff.mp hplain
    exact ⟨_ :: items, .cons (.apart hflag hvalue) hitems⟩

/-! ### What a draft has gathered -/

/-- Whether an item has been taken into account. -/
def Has (draft : CompileDraft) : CompileItem → Prop
  | .schema text => draft.schema = some text
  | .option .name value => draft.name = some value
  | .option .out value => draft.out = some ⟨value⟩
  | .compact => draft.compact = true

theorem ext_of_has (h : ∀ item, draft'.Has item ↔ draft.Has item) : draft' = draft := by
  have hschema : draft'.schema = draft.schema := Option.ext fun text => h (.schema text)
  have hname : draft'.name = draft.name := Option.ext fun value => h (.option .name value)
  have hout : draft'.out = draft.out := Option.ext fun path => h (.option .out path.text)
  have hcompact : draft'.compact = draft.compact := Bool.eq_iff_iff.mpr (h .compact)
  cases draft
  cases draft'
  simp_all

theorem knows_iff {key : CompileKey} :
    draft.knows key = true ↔ ∃ item, draft.Has item ∧ item.key = key := by
  constructor
  · intro h
    match key with
    | .schema =>
      obtain ⟨text, htext⟩ := Option.isSome_iff_exists.mp h
      exact ⟨.schema text, htext, rfl⟩
    | .option .name =>
      obtain ⟨value, hvalue⟩ := Option.isSome_iff_exists.mp h
      exact ⟨.option .name value, hvalue, rfl⟩
    | .option .out =>
      obtain ⟨path, hpath⟩ := Option.isSome_iff_exists.mp h
      exact ⟨.option .out path.text, hpath, rfl⟩
    | .compact => exact ⟨.compact, h, rfl⟩
  · rintro ⟨item, hitem, rfl⟩
    match item with
    | .schema text => exact Option.isSome_iff_exists.mpr ⟨text, hitem⟩
    | .option .name value => exact Option.isSome_iff_exists.mpr ⟨value, hitem⟩
    | .option .out value => exact Option.isSome_iff_exists.mpr ⟨⟨value⟩, hitem⟩
    | .compact => exact hitem

/-- What is put to a draft that knows nothing about it is added, and nothing else changes. -/
theorem has_put (h : draft.knows item.key = false) (other : CompileItem) :
    (draft.put item).Has other ↔ item = other ∨ draft.Has other := by
  match item with
  | .schema text =>
    have hnone : draft.schema = none := by simpa [knows, CompileItem.key] using h
    rcases other with other | ⟨_ | _, other⟩ | _ <;> simp [Has, put, hnone]
  | .option .name value =>
    have hnone : draft.name = none := by simpa [knows, CompileItem.key] using h
    rcases other with other | ⟨_ | _, other⟩ | _ <;> simp [Has, put, hnone]
  | .option .out value =>
    have hnone : draft.out = none := by simpa [knows, CompileItem.key] using h
    rcases other with other | ⟨_ | _, other⟩ | _ <;> simp [Has, put, hnone]
  | .compact =>
    rcases other with other | ⟨_ | _, other⟩ | _ <;> simp [Has, put]

theorem knows_put (h : draft.knows item.key = false) (key : CompileKey) :
    (draft.put item).knows key = false ↔ item.key ≠ key ∧ draft.knows key = false := by
  simp only [← Bool.not_eq_true, knows_iff, has_put h, not_exists, not_and]
  constructor
  · intro hnone
    exact ⟨hnone item (.inl rfl), fun other hother => hnone other (.inr hother)⟩
  · rintro ⟨hkey, hnone⟩ other (rfl | hother)
    · exact hkey
    · exact hnone other hother

theorem add_eq_ok_iff :
    draft.add item = .ok draft' ↔
      draft.knows item.key = false ∧ item ≠ .option .out "" ∧ draft.put item = draft' := by
  rw [add]
  cases hknows : draft.knows item.key with
  | true => simp
  | false => by_cases hitem : item = .option .out "" <;> simp [hitem]

theorem foldlM_add_cons :
    (item :: items).foldlM add draft = .ok draft' ↔
      draft.knows item.key = false ∧ item ≠ .option .out "" ∧
        items.foldlM add (draft.put item) = .ok draft' := by
  rw [List.foldlM_cons]
  constructor
  · intro h
    obtain ⟨middle, hadd, hrest⟩ := exists_of_bind h
    obtain ⟨hknows, hitem, rfl⟩ := add_eq_ok_iff.mp hadd
    exact ⟨hknows, hitem, hrest⟩
  · rintro ⟨hknows, hitem, hrest⟩
    rw [add_eq_ok_iff.mpr ⟨hknows, hitem, rfl⟩]
    exact hrest

/-- Items are taken into account exactly if no two are about the same, nor one about the same as
what is known, and no file is without a name. Then the draft has them and what it had before. -/
theorem foldlM_add_eq_ok_iff :
    items.foldlM add draft = .ok draft' ↔
      (items.map CompileItem.key).Nodup ∧ (∀ item ∈ items, draft.knows item.key = false) ∧
        .option .out "" ∉ items ∧ ∀ other, draft'.Has other ↔ other ∈ items ∨ draft.Has other := by
  induction items generalizing draft with
  | nil =>
    constructor
    · intro h
      obtain rfl := Except.ok.inj h
      simp
    · rintro ⟨-, -, -, hsame⟩
      have hdraft : draft = draft' := ext_of_has fun other => by simpa using (hsame other).symm
      exact congrArg Except.ok hdraft
  | cons item items ih =>
    rw [foldlM_add_cons, ih, List.map_cons, List.nodup_cons, List.forall_mem_cons, List.mem_cons,
      not_or, List.mem_map]
    constructor
    · rintro ⟨hknows, hitem, hnodup, hfree, hnamed, hhas⟩
      have hboth := fun other hother => (knows_put hknows _).mp (hfree other hother)
      have hnew : ¬∃ other ∈ items, other.key = item.key := by
        rintro ⟨other, hother, hkey⟩
        exact (hboth other hother).1 hkey.symm
      refine ⟨⟨hnew, hnodup⟩, ⟨hknows, fun other hother => (hboth other hother).2⟩,
        ⟨Ne.symm hitem, hnamed⟩, fun other => ?_⟩
      rw [hhas, has_put hknows, List.mem_cons, eq_comm (a := item)]
      tauto
    · rintro ⟨⟨hnew, hnodup⟩, ⟨hknows, hfree⟩, ⟨hitem, hnamed⟩, hhas⟩
      refine ⟨hknows, Ne.symm hitem, hnodup, fun other hother => ?_, hnamed, fun other => ?_⟩
      · refine (knows_put hknows _).mpr ⟨fun hkey => ?_, hfree other hother⟩
        exact hnew ⟨other, hother, hkey.symm⟩
      · rw [hhas, has_put hknows, List.mem_cons, eq_comm (a := item)]
        tauto

end CompileDraft

/-! ### Jobs -/

namespace CompileJob

def asDraft (job : CompileJob) : CompileDraft :=
  ⟨some job.schema, job.name, job.out, job.layout = .compact⟩

theorem has_asDraft (job : CompileJob) (item : CompileItem) :
    job.asDraft.Has item ↔ job.Has item := by
  rcases item with text | ⟨_ | _, value⟩ | _ <;> simp [CompileDraft.Has, Has, asDraft]

theorem finish_eq_some_iff : draft.finish = some job ↔ draft = job.asDraft := by
  constructor
  · intro h
    obtain ⟨schema, hschema, rfl⟩ := Option.map_eq_some_iff.mp h
    cases draft with | mk _ name out compact =>
    obtain rfl := hschema
    cases compact <;> rfl
  · rintro rfl
    cases job with | mk schema name out layout =>
    cases layout <;> rfl

/-- A draft that knew nothing before has gathered a job from the items that tell it. -/
theorem foldlM_add_iff : items.foldlM CompileDraft.add {} = .ok job.asDraft ↔ job.ToldBy items := by
  have hempty : ∀ item, ¬CompileDraft.Has {} item := by
    rintro (text | ⟨_ | _, value⟩ | _) <;> simp [CompileDraft.Has]
  have hunknown : ∀ key, CompileDraft.knows {} key = false := by
    rintro (_ | ⟨_ | _⟩ | _) <;> rfl
  rw [CompileDraft.foldlM_add_eq_ok_iff]
  simp only [has_asDraft, hempty, hunknown, or_false, implies_true, true_and]
  constructor
  · rintro ⟨honce, hnamed, hparts⟩
    have hout : job.out ≠ some ⟨""⟩ := fun hout => hnamed ((hparts (.option .out "")).mp hout)
    exact ⟨fun item => (hparts item).symm, honce, hout⟩
  · rintro ⟨hparts, honce, hnamed⟩
    have hitem : .option .out "" ∉ items := fun hitem => hnamed ((hparts _).mp hitem)
    exact ⟨honce, hitem, fun item => (hparts item).symm⟩

end CompileJob

/-! ### Schemas of `validate` -/

theorem readSchemaList_of_spellsSchemas (h : SpellsSchemas schemas arguments) :
    readSchemaList arguments = .ok schemas := by
  induction h with
  | nil => rfl
  | rest texts =>
    have hform : Argument.ofText "--" = .separator := rfl
    simp [readSchemaList, hform, Argument.isHelp]
  | cons hplain _ ih =>
    have hform := Argument.ofText_eq_plain_iff.mpr ⟨rfl, hplain⟩
    simp [readSchemaList, hform, Argument.isHelp, ih, Except.map]

theorem spellsSchemas_of_readSchemaList (h : readSchemaList arguments = .ok schemas) :
    SpellsSchemas schemas arguments := by
  induction arguments generalizing schemas with
  | nil =>
    obtain rfl := Except.ok.inj h
    exact .nil
  | cons text rest ih =>
    rw [readSchemaList] at h
    split at h
    · cases h
    · split at h
      · rename_i hform
        obtain rfl := Except.ok.inj h
        rw [Argument.eq_of_separator hform]
        exact .rest _
      · rename_i hform
        obtain ⟨rfl, hplain⟩ := Argument.ofText_eq_plain_iff.mp hform
        cases hrest : readSchemaList rest with
        | error stop =>
          rw [hrest] at h
          cases h
        | ok schemas =>
          rw [hrest] at h
          obtain rfl := Except.ok.inj h
          exact .cons hplain (ih hrest)
      · cases h
      · cases h

/-! ### Commands -/

theorem exists_of_command? {stop : Stop} {topic : Topic} {command : Command}
    (h : stop.command? topic = some command) : command = .help topic := by
  cases stop with
  | misuse => cases h
  | help => exact (Option.some.inj h).symm

/-- The first argument names the command, unless it is help that is asked for. -/
theorem ofArguments_cases {command : Command} (h : Command.ofArguments arguments = some command) :
    (∃ rest draft job, arguments = "compile" :: rest ∧ command = .compile job ∧
        CompileDraft.read {} rest = .ok draft ∧ draft.finish = some job) ∨
      (∃ rest schemas, arguments = "validate" :: rest ∧ command = .validate schemas ∧
        schemas ≠ [] ∧ readSchemaList rest = .ok schemas) ∨
      ∃ topic, command = .help topic := by
  rw [Command.ofArguments.eq_def] at h
  split at h
  · split at h
    · exact .inr (.inr ⟨_, exists_of_command? h⟩)
    · rename_i hread
      obtain ⟨job, hjob, rfl⟩ := Option.map_eq_some_iff.mp h
      exact .inl ⟨_, _, job, rfl, rfl, hread, hjob⟩
  · split at h
    · exact .inr (.inr ⟨_, exists_of_command? h⟩)
    · cases h
    · rename_i hne hread
      obtain rfl := Option.some.inj h
      exact .inr (.inl ⟨_, _, rfl, rfl, hne, hread⟩)
  · obtain ⟨topic, -, rfl⟩ := Option.map_eq_some_iff.mp h
    exact .inr (.inr ⟨topic, rfl⟩)
  · split at h
    · exact .inr (.inr ⟨.program, (Option.some.inj h).symm⟩)
    · cases h
  · cases h

/-- The arguments that are taken for a job are those in which it can be written. -/
theorem ofArguments_compile_iff :
    Command.ofArguments arguments = some (.compile job) ↔ job.SpelledBy arguments := by
  constructor
  · intro h
    obtain ⟨rest, draft, _, rfl, heq, hread, hfinish⟩ | ⟨_, _, -, heq, -⟩ | ⟨_, heq⟩ :=
      ofArguments_cases h
    · obtain rfl := Command.compile.inj heq
      obtain rfl := CompileJob.finish_eq_some_iff.mp hfinish
      obtain ⟨items, hitems⟩ := CompileDraft.exists_spellsItems_of_read hread
      rw [CompileDraft.read_of_spellsItems hitems] at hread
      exact ⟨items, rest, rfl, hitems, CompileJob.foldlM_add_iff.mp hread⟩
    · cases heq
    · cases heq
  · rintro ⟨items, rest, rfl, hitems, htold⟩
    have hread := CompileJob.foldlM_add_iff.mpr htold
    rw [← CompileDraft.read_of_spellsItems hitems] at hread
    simp [Command.ofArguments, hread, CompileJob.finish_eq_some_iff]

/-- The arguments that are taken for schemas to judge are those that ask for it. -/
theorem ofArguments_validate_iff :
    Command.ofArguments arguments = some (.validate schemas) ↔
      ValidateSpelledBy schemas arguments := by
  constructor
  · intro h
    obtain ⟨_, _, _, -, heq, -⟩ | ⟨rest, _, rfl, heq, hne, hread⟩ | ⟨_, heq⟩ := ofArguments_cases h
    · cases heq
    · obtain rfl := Command.validate.inj heq
      exact ⟨hne, rest, rfl, spellsSchemas_of_readSchemaList hread⟩
    · cases heq
  · rintro ⟨hne, rest, rfl, hspells⟩
    have hread := readSchemaList_of_spellsSchemas hspells
    cases schemas with
    | nil => exact absurd rfl hne
    | cons first others => simp [Command.ofArguments, hread]

/-- Every text can be given as a schema. -/
theorem CompileJob.spelledBy_behind (schema : String) :
    (CompileJob.mk schema none none .pretty).SpelledBy ["compile", "--", schema] := by
  refine ⟨[.schema schema], ["--", schema], rfl, .schemas [schema], ⟨?_, by simp, by simp⟩⟩
  rintro (text | ⟨_ | _, value⟩ | _) <;> simp [Has, eq_comm]

end Setters
