import ReactiveSheet.Proofs.Showing
import ReactiveSheet.Proofs.Spelling

/-! # Accepted command lines

The choices that a line spells tell what it configures. Each setting keeps at most one value, so an
accepted line leaves one source and at most one bound on the sweeps.
-/

namespace ReactiveSheet.CommandLine

set_option autoImplicit false

open Program (exists_of_bind_eq_ok)

/-- The values that a setting is given, in the order of the choices. -/
def valuesOf (setting : Setting) (choices : List Choice) : List String :=
  choices.filterMap fun choice =>
    match choice with
    | .switch _ => none
    | .setting other value => if other = setting then some value else none

theorem valuesOf_cons (setting : Setting) (choice : Choice) (choices : List Choice) :
    valuesOf setting (choice :: choices) = valuesOf setting [choice] ++ valuesOf setting choices :=
  List.filterMap_append (l := [choice])

namespace Given

/-- The settings that can be told from the choices keep all the values that they are given. -/
structure Takes (given : Given) (choices : List Choice) (result : Given) : Prop where
  file : result.file.toList = given.file.toList ++ valuesOf .file choices
  cells : result.cells.toList = given.cells.toList ++ valuesOf .cells choices
  maxPasses : result.maxPasses.toList.map some = given.maxPasses.toList.map some ++
    (valuesOf .maxPasses choices).map (Index.read? ·.toList)

theorem takes_nil (given : Given) : given.Takes [] given := by
  constructor <;> exact (List.append_nil _).symm

theorem Takes.cons {given next result : Given} {choice : Choice} {choices : List Choice}
    (hFirst : given.Takes [choice] next) (hRest : next.Takes choices result) :
    given.Takes (choice :: choices) result := by
  constructor
  · rw [hRest.file, hFirst.file, valuesOf_cons _ choice choices, List.append_assoc]
  · rw [hRest.cells, hFirst.cells, valuesOf_cons _ choice choices, List.append_assoc]
  · rw [hRest.maxPasses, hFirst.maxPasses, valuesOf_cons _ choice choices, List.map_append,
      List.append_assoc]

theorem Puts.takes {given next : Given} {setting : Setting} {value : String}
    (h : Puts given setting value next) : given.Takes [.setting setting value] next := by
  cases h with
  | file hNone | cells hNone => constructor <;> simp [valuesOf, hNone]
  | format => constructor <;> simp [valuesOf]
  | maxPasses hNone hText => constructor <;> simp [valuesOf, hNone, hText]

theorem takes_of_turnOn {given next : Given} {switch : Switch}
    (h : given.turnOn switch = .ok next) : given.Takes [.switch switch] next := by
  have hKept : next.file = given.file ∧ next.cells = given.cells ∧
      next.maxPasses = given.maxPasses := by
    cases switch with
    | batch | verbose =>
      rw [turnOn] at h
      split_ifs at h
      obtain rfl := Except.ok.inj h
      exact ⟨rfl, rfl, rfl⟩
    | help | version => cases h
  constructor <;> simp [valuesOf, hKept]

theorem takes_of_choose? {given next : Given} {choice : Choice}
    (h : given.choose? choice = some next) : given.Takes [choice] next := by
  cases choice with
  | switch switch => exact takes_of_turnOn (toOption_eq_some_iff.mp h)
  | setting setting value => exact (puts_of_put (toOption_eq_some_iff.mp h)).takes

theorem takes_of_chooseAll? {given result : Given} {choices : List Choice}
    (h : given.chooseAll? choices = some result) : given.Takes choices result := by
  induction choices generalizing given with
  | nil =>
    obtain rfl := Option.some.inj h
    exact given.takes_nil
  | cons choice choices ih =>
    rw [chooseAll?_cons] at h
    obtain ⟨next, hNext, hRest⟩ := Option.bind_eq_some_iff.mp h
    exact (takes_of_choose? hNext).cons (ih hRest)

end Given

/-! ## The source -/

/-- The choices name a source, once and no other. -/
inductive NamesSource (choices : List Choice) : Source → Prop
  | inline {text : String} (hCells : valuesOf .cells choices = [text])
      (hFile : valuesOf .file choices = []) : NamesSource choices (.inline text)
  | file {path : String} (hFile : valuesOf .file choices = [path])
      (hCells : valuesOf .cells choices = []) : NamesSource choices (.file path)

/-- Exactly one of the two is given, which leaves no empty text. -/
theorem Options.checkSource_eq_ok_iff {given : Given} :
    checkSource given = .ok () ↔ given.file.isSome = !given.cells.isSome := by
  unfold checkSource
  split <;> simp [*]

theorem namesSource {given : Given} {choices : List Choice}
    (hTakes : Given.nothing.Takes choices given)
    (hSource : given.file.isSome = !given.cells.isSome) :
    NamesSource choices (Options.source given) := by
  have hFile : valuesOf .file choices = given.file.toList := hTakes.file.symm
  have hCells : valuesOf .cells choices = given.cells.toList := hTakes.cells.symm
  rw [Options.source]
  cases hGiven : given.cells with
  | some text =>
    rw [hGiven] at hSource hCells
    have hNoFile : given.file = none := by simpa using hSource
    rw [hNoFile] at hFile
    exact .inline hCells hFile
  | none =>
    rw [hGiven] at hSource hCells
    obtain ⟨path, hPath⟩ := Option.isSome_iff_exists.mp hSource
    rw [hPath] at hFile ⊢
    exact .file hFile hCells

/-! ## The bound on the sweeps -/

/-- The bound that is asked for: by the choices, else by the environment, else the usual one. -/
inductive AsksFor (choices : List Choice) (environment : Option String) : Nat → Prop
  | choice {text : String} {passes : Nat} (hChoices : valuesOf .maxPasses choices = [text])
      (hText : Index.read? text.toList = some passes) : AsksFor choices environment passes
  | environment {text : String} {passes : Nat} (hChoices : valuesOf .maxPasses choices = [])
      (hEnvironment : environment = some text) (hText : Index.read? text.toList = some passes) :
      AsksFor choices environment passes
  | usual (hChoices : valuesOf .maxPasses choices = []) (hEnvironment : environment = none) :
      AsksFor choices environment 1000

theorem Given.readMaxPasses_eq_ok_iff {text : String} {passes : Nat} :
    readMaxPasses text = .ok passes ↔ Index.read? text.toList = some passes := by
  unfold readMaxPasses
  split <;> simp [*]

theorem asksFor {given : Given} {choices : List Choice} {environment : Option String}
    {passes : Nat} (hTakes : Given.nothing.Takes choices given)
    (hPasses : Options.maxPasses given environment = .ok passes) :
    AsksFor choices environment passes := by
  have hChoices : (valuesOf .maxPasses choices).map (Index.read? ·.toList) =
      given.maxPasses.toList.map some := hTakes.maxPasses.symm
  unfold Options.maxPasses at hPasses
  split at hPasses
  · rename_i hGiven
    rw [hGiven] at hChoices
    obtain rfl := Except.ok.inj hPasses
    obtain ⟨text, hText, hRead⟩ := List.map_eq_singleton_iff.mp hChoices
    exact .choice hText hRead
  · rename_i text hGiven
    rw [hGiven] at hChoices
    exact .environment (List.map_eq_nil_iff.mp hChoices) rfl
      (Given.readMaxPasses_eq_ok_iff.mp hPasses)
  · rename_i hGiven
    rw [hGiven] at hChoices
    obtain rfl := Except.ok.inj hPasses
    exact .usual (List.map_eq_nil_iff.mp hChoices) rfl

/-! ## The line -/

theorem ofWord?_cells : Name.ofWord? "cells" = some (.setting .cells) := by
  decide

theorem ofWord?_batch : Name.ofWord? "batch" = some (.switch .batch) := by
  decide

namespace Options

variable {environment : Option String} {options : Options}

theorem ofGiven_eq_ok_iff {given : Given} : ofGiven given environment = .ok options ↔
    ∃ passes, maxPasses given environment = .ok passes ∧ checkSource given = .ok () ∧
      options = ⟨⟨source given, if given.batch then .batch else .interactive, max passes 1⟩,
        given.format.getD .text, given.verbose⟩ := by
  constructor
  · intro h
    obtain ⟨passes, hPasses, hChecked⟩ := exists_of_bind_eq_ok h
    obtain ⟨_, hSource, hOptions⟩ := exists_of_bind_eq_ok hChecked
    exact ⟨passes, hPasses, hSource, (Except.ok.inj hOptions).symm⟩
  · rintro ⟨passes, hPasses, hSource, rfl⟩
    rw [ofGiven, hPasses]
    change (checkSource given).bind _ = _
    rw [hSource]
    rfl

theorem read_eq_ok_iff {arguments : List String} : read arguments environment = .ok options ↔
    ∃ given, Reading.start.taken? arguments = some given ∧
      ofGiven given environment = .ok options := by
  constructor
  · intro h
    obtain ⟨given, hGiven, hOptions⟩ := exists_of_bind_eq_ok h
    exact ⟨given, toOption_eq_some_iff.mpr hGiven, hOptions⟩
  · rintro ⟨given, hGiven, hOptions⟩
    rw [read, toOption_eq_some_iff.mp hGiven]
    exact hOptions

/-- Arguments that spell the same choices are read alike. -/
theorem read_eq_ok_iff_of_spells {arguments : List String} {choices : List Choice}
    (h : Spells none arguments choices) : read arguments environment = .ok options ↔
      ∃ given, Given.nothing.chooseAll? choices = some given ∧
        ofGiven given environment = .ok options := by
  rw [read_eq_ok_iff, ← h.taken?_eq]
  rfl

/-- An accepted line gives a file or inline definitions and not both, by one choice of those it
spells, and it leaves room for a sweep. -/
theorem accepted_line_names_one_source {arguments : List String}
    (hRead : read arguments environment = .ok options) :
    (∃ given, Reading.start.readAll arguments = .ok given ∧
      given.file.isSome = !given.cells.isSome ∧ options.config.source = source given) ∧
    1 ≤ options.config.maxPasses ∧
    (∃ choices, Spells none arguments choices) ∧
    ∀ choices, Spells none arguments choices → NamesSource choices options.config.source ∧
      ∃ passes, AsksFor choices environment passes ∧ options.config.maxPasses = max 1 passes := by
  obtain ⟨given, hTaken, hGiven⟩ := read_eq_ok_iff.mp hRead
  obtain ⟨passes, hPasses, hChecked, rfl⟩ := ofGiven_eq_ok_iff.mp hGiven
  have hSource := checkSource_eq_ok_iff.mp hChecked
  refine ⟨⟨given, toOption_eq_some_iff.mp hTaken, hSource, rfl⟩, le_max_right passes 1,
    exists_spells hTaken, ?_⟩
  intro choices hSpells
  have hTakes := Given.takes_of_chooseAll? ((hSpells.taken?_eq .nothing).symm.trans hTaken)
  exact ⟨namesSource hTakes hSource, passes, asksFor hTakes hPasses, max_comm passes 1⟩

/-- Switches and inline definitions in one argument, and a bound that is too low. -/
theorem accepted_line_names_one_source_of_letters :
    let arguments := ["-vc=1,={0}", "--max-passes", "0", "--batch"]
    let choices : List Choice := [.switch .verbose, .setting .cells "1,={0}",
      .setting .maxPasses "0", .switch .batch]
    read arguments (some "x") = .ok ⟨⟨.inline "1,={0}", .batch, 1⟩, .text, true⟩ ∧
      Spells none arguments choices ∧ NamesSource choices (.inline "1,={0}") ∧
      ∃ passes, AsksFor choices (some "x") passes ∧ 1 = max 1 passes := by
  intro arguments choices
  have hRead : read arguments (some "x") =
      .ok ⟨⟨.inline "1,={0}", .batch, 1⟩, .text, true⟩ := by decide +kernel
  have hBatch : Spells none ["--batch"] [.switch .batch] :=
    .switch ofWord?_batch .done
  have hBound : Spells none ["--max-passes", "0", "--batch"]
      [.setting .maxPasses "0", .switch .batch] :=
    .setting (by decide +kernel : Name.ofWord? "max-passes" = some (.setting .maxPasses))
      (.value (by decide) hBatch)
  have hLetters : Letters "vc=1,={0}".toList
      [.switch .verbose, .setting .cells "1,={0}"] none :=
    .switch rfl (.equals rfl "1,={0}".toList)
  have hSpells : Spells none arguments choices := .letters (by decide) hLetters hBound
  obtain ⟨_, _, _, hNames⟩ := accepted_line_names_one_source hRead
  exact ⟨hRead, hSpells, hNames choices hSpells⟩

end Options

/-! ## Inline definitions -/

section Inline

variable {text : String} {arguments : List String} {choices : List Choice}

theorem spells_cells_equals (text : String) (hRest : Spells none arguments choices) :
    Spells none (("--cells=" ++ text) :: arguments) (.setting .cells text :: choices) :=
  .equals ofWord?_cells text hRest

theorem spells_cells {option : String} (hOption : option ∈ ["--cells", "-c"])
    (hText : ¬ IsOption text) (hRest : Spells none arguments choices) :
    Spells none (option :: text :: arguments) (.setting .cells text :: choices) := by
  have hValue : Spells (some .cells) (text :: arguments) (.setting .cells text :: choices) :=
    .value hText hRest
  simp only [List.mem_cons, List.not_mem_nil, or_false] at hOption
  obtain rfl | rfl := hOption
  · exact .setting ofWord?_cells hValue
  · exact .letters (List.cons_ne_nil 'c' []) (.waiting rfl) hValue

theorem taken?_cells_of_isOption {option : String} (hOption : option ∈ ["--cells", "-c"])
    (hText : IsOption text) (arguments : List String) :
    Reading.start.taken? (option :: text :: arguments) = none := by
  simp only [List.mem_cons, List.not_mem_nil, or_false] at hOption
  obtain rfl | rfl := hOption
  · exact (Reading.taken?_word_setting .nothing ofWord?_cells _).trans
      (Reading.taken?_of_isOption .nothing .cells hText arguments)
  · exact (Reading.taken?_letters (List.cons_ne_nil 'c' []) (.waiting rfl) .nothing _).trans
      (Reading.taken?_of_isOption .nothing .cells hText arguments)

/-- The arguments that ask for a mode. -/
def asking : Mode → List String
  | .interactive => []
  | .batch => ["--batch"]

theorem exists_spells_asking (mode : Mode) : ∃ choices, Spells none (asking mode) choices ∧
    ∀ text, Given.nothing.chooseAll? (.setting .cells text :: choices) =
      some { Given.nothing with cells := some text, batch := mode = .batch } := by
  cases mode with
  | interactive => exact ⟨[], .done, fun _ => rfl⟩
  | batch => exact ⟨[.switch .batch], .switch ofWord?_batch .done, fun _ => rfl⟩

end Inline

namespace Options

/-- Inline definitions are taken as they stand, whatever they are, behind an equals sign. In an
argument of their own they must not look like an option. -/
theorem inline_text_is_taken {environment : Option String} {passes : Nat}
    (hEnvironment : maxPasses .nothing environment = .ok passes) (text : String) (mode : Mode) :
    let options : Options := ⟨⟨.inline text, mode, max passes 1⟩, .text, false⟩
    read (("--cells=" ++ text) :: asking mode) environment = .ok options ∧
    ∀ option ∈ ["--cells", "-c"],
      (¬ IsOption text → read (option :: text :: asking mode) environment = .ok options) ∧
      (IsOption text →
        ∃ stop, read (option :: text :: asking mode) environment = .error stop) := by
  intro options
  obtain ⟨choices, hAsking, hChosen⟩ := exists_spells_asking mode
  have hRead : ∀ {arguments}, Spells none arguments (.setting .cells text :: choices) →
      read arguments environment = .ok options := by
    intro arguments hSpells
    refine (read_eq_ok_iff_of_spells hSpells).mpr ⟨_, hChosen text, ofGiven_eq_ok_iff.mpr ?_⟩
    refine ⟨passes, hEnvironment, rfl, ?_⟩
    cases mode <;> rfl
  refine ⟨hRead (spells_cells_equals text hAsking), fun option hOption => ⟨?_, ?_⟩⟩
  · exact fun hText => hRead (spells_cells hOption hText hAsking)
  · intro hText
    cases hStop : read (option :: text :: asking mode) environment with
    | error stop => exact ⟨stop, rfl⟩
    | ok options =>
      obtain ⟨given, hTaken, _⟩ := read_eq_ok_iff.mp hStop
      rw [taken?_cells_of_isOption hOption hText] at hTaken
      cases hTaken

theorem inline_text_is_taken_of_pair :
    let options : Options := ⟨⟨.inline "1, ={0}", .batch, 1000⟩, .text, false⟩
    maxPasses .nothing none = .ok 1000 ∧ ¬ IsOption "1, ={0}" ∧
      read ["--cells=1, ={0}", "--batch"] none = .ok options ∧
      read ["--cells", "1, ={0}", "--batch"] none = .ok options ∧
      read ["-c", "1, ={0}", "--batch"] none = .ok options := by
  intro options
  have hEnvironment : maxPasses .nothing none = .ok 1000 := rfl
  have hText : ¬ IsOption "1, ={0}" := by decide
  obtain ⟨hEquals, hOthers⟩ := inline_text_is_taken hEnvironment "1, ={0}" .batch
  exact ⟨hEnvironment, hText, hEquals, (hOthers "--cells" (by simp)).1 hText,
    (hOthers "-c" (by simp)).1 hText⟩

/-- A text that starts with a negative number. -/
theorem negative_text_is_refused :
    read ["--cells", "-1, ={0}"] none = .error .unknownArgument ∧
      read ["-c", "-1, ={0}"] none = .error .unknownArgument ∧
      read ["--cells=-1, ={0}"] none =
        .ok ⟨⟨.inline "-1, ={0}", .interactive, 1000⟩, .text, false⟩ := by
  decide +kernel

end Options

end ReactiveSheet.CommandLine
