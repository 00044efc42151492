import ReactiveSheet.Proofs.PendingSettings

/-! # What arguments spell

Arguments spell choices: a switch is turned on or a setting is given a value, and most choices can
be spelled in more than one way. The reader takes over the choices that the arguments spell, one
after another, and refuses arguments that spell none.
-/

namespace ReactiveSheet.CommandLine

set_option autoImplicit false

inductive Choice where
  | switch (switch : Switch)
  | setting (setting : Setting) (value : String)
  deriving DecidableEq

/-- Letters behind a dash, the choices they make, and the setting they leave without a value. -/
inductive Letters : List Char → List Choice → Option Setting → Prop
  | done : Letters [] [] none
  | switch {letter : Char} {text : List Char} {switch : Switch} {choices : List Choice}
      {waiting : Option Setting} (hName : Name.ofLetter? letter = some (.switch switch))
      (hRest : Letters text choices waiting) :
      Letters (letter :: text) (.switch switch :: choices) waiting
  | attached {letter : Char} {value : List Char} {setting : Setting}
      (hName : Name.ofLetter? letter = some (.setting setting)) (hValue : value ≠ [])
      (hMark : value.head? ≠ some '=') :
      Letters (letter :: value) [.setting setting (String.ofList value)] none
  | equals {letter : Char} {setting : Setting}
      (hName : Name.ofLetter? letter = some (.setting setting)) (value : List Char) :
      Letters (letter :: '=' :: value) [.setting setting (String.ofList value)] none
  | waiting {letter : Char} {setting : Setting}
      (hName : Name.ofLetter? letter = some (.setting setting)) : Letters [letter] [] (some setting)

/-- The choices that arguments spell when a setting waits for its value in them, or none does. -/
inductive Spells : Option Setting → List String → List Choice → Prop
  | done : Spells none [] []
  | value {setting : Setting} {value : String} {arguments : List String} {choices : List Choice}
      (hValue : ¬ IsOption value) (hRest : Spells none arguments choices) :
      Spells (some setting) (value :: arguments) (.setting setting value :: choices)
  | file {path : String} {arguments : List String} {choices : List Choice}
      (hPath : ¬ IsOption path) (hRest : Spells none arguments choices) :
      Spells none (path :: arguments) (.setting .file path :: choices)
  | files (paths : List String) : Spells none ("--" :: paths) (paths.map (.setting .file))
  | switch {word : String} {switch : Switch} {arguments : List String} {choices : List Choice}
      (hName : Name.ofWord? word = some (.switch switch)) (hRest : Spells none arguments choices) :
      Spells none (("--" ++ word) :: arguments) (.switch switch :: choices)
  | equals {word : String} {setting : Setting} {arguments : List String} {choices : List Choice}
      (hName : Name.ofWord? word = some (.setting setting)) (value : String)
      (hRest : Spells none arguments choices) :
      Spells none (("--" ++ word ++ "=" ++ value) :: arguments) (.setting setting value :: choices)
  | setting {word : String} {setting : Setting} {arguments : List String} {choices : List Choice}
      (hName : Name.ofWord? word = some (.setting setting))
      (hRest : Spells (some setting) arguments choices) :
      Spells none (("--" ++ word) :: arguments) choices
  | letters {text : List Char} {waiting : Option Setting} {arguments : List String}
      {first choices : List Choice} (hText : text ≠ []) (hLetters : Letters text first waiting)
      (hRest : Spells waiting arguments choices) :
      Spells none (String.ofList ('-' :: text) :: arguments) (first ++ choices)

namespace Given

def choose? (given : Given) : Choice → Option Given
  | .switch switch => (given.turnOn switch).toOption
  | .setting setting value => (given.put setting value).toOption

def chooseAll? (given : Given) (choices : List Choice) : Option Given :=
  choices.foldlM choose? given

theorem chooseAll?_cons (given : Given) (choice : Choice) (choices : List Choice) :
    given.chooseAll? (choice :: choices) =
      (given.choose? choice).bind (·.chooseAll? choices) :=
  List.foldlM_cons ..

theorem chooseAll?_singleton (given : Given) (choice : Choice) :
    given.chooseAll? [choice] = given.choose? choice :=
  Option.bind_fun_some _

theorem chooseAll?_append (given : Given) (first choices : List Choice) :
    given.chooseAll? (first ++ choices) =
      (given.chooseAll? first).bind (·.chooseAll? choices) :=
  List.foldlM_append ..

end Given

namespace Reading

def awaiting (given : Given) (waiting : Option Setting) : Reading :=
  ⟨given, waiting.map (⟨·, none⟩), false⟩

/-! ## What each argument says -/

theorem bind_taken?_readFile (given : Given) (onlyFiles : Bool) (path : String)
    (arguments : List String) :
    ((Reading.mk given none onlyFiles).readFile path).toOption.bind (·.taken? arguments) =
      (given.choose? (.setting .file path)).bind fun next =>
        (Reading.mk next none onlyFiles).taken? arguments := by
  have hFilled : ∀ other, (Reading.mk given (some ⟨.file, some path⟩) onlyFiles).pending ≠
      some ⟨other, none⟩ := fun _ => nofun
  cases hFile : given.file with
  | some other => simp [readFile, hasFile, Given.choose?, Given.put, hFile, Except.toOption]
  | none =>
    have hRead : (Reading.mk given none onlyFiles).readFile path =
        .ok ⟨given, some ⟨.file, some path⟩, onlyFiles⟩ := by
      simp [readFile, hasFile, hFile, expect, settle]
    rw [hRead]
    exact taken?_eq_settled hFilled arguments

theorem taken?_files (given : Given) (paths : List String) :
    (Reading.mk given none true).taken? paths =
      given.chooseAll? (paths.map (.setting .file)) := by
  induction paths generalizing given with
  | nil => rfl
  | cons path paths ih =>
    rw [taken?_cons, read_files rfl, bind_taken?_readFile, List.map_cons, Given.chooseAll?_cons]
    exact congrArg _ (funext ih)

theorem taken?_path (given : Given) {path : String} (hPath : ¬ IsOption path)
    (arguments : List String) : (awaiting given none).taken? (path :: arguments) =
      (given.choose? (.setting .file path)).bind fun next =>
        (awaiting next none).taken? arguments := by
  rw [taken?_cons, read_plain rfl hPath]
  exact bind_taken?_readFile given false path arguments

theorem taken?_value (given : Given) (setting : Setting) {value : String}
    (hValue : ¬ IsOption value) (arguments : List String) :
    (awaiting given (some setting)).taken? (value :: arguments) =
      (given.choose? (.setting setting value)).bind fun next =>
        (awaiting next none).taken? arguments := by
  rw [taken?_cons, read_plain rfl hValue]
  have hFilled : ∀ other, (Reading.mk given (some ⟨setting, some value⟩) false).pending ≠
      some ⟨other, none⟩ := fun _ => nofun
  exact taken?_eq_settled hFilled arguments

theorem taken?_of_isOption (given : Given) (setting : Setting) {argument : String}
    (hArgument : IsOption argument) (arguments : List String) :
    (awaiting given (some setting)).taken? (argument :: arguments) = none := by
  cases form argument with
  | plain hPlain => exact absurd hArgument hPlain
  | dashes hDashes =>
    subst hDashes
    rw [taken?_cons, read_dashes rfl]
    cases arguments with
    | nil => rfl
    | cons path paths => exact (settles_of_onlyFiles rfl path).taken?_cons paths
  | word hText hWord => exact (settles_of_word rfl hText hWord).taken?_cons arguments
  | letters hLetter hLetters =>
    exact (settles_of_letters rfl hLetter hLetters).taken?_cons arguments

theorem toList_of_ofWord? {word : String} {name : Name} (h : Name.ofWord? word = some name) :
    word.toList ≠ [] ∧ '=' ∉ word.toList := by
  unfold Name.ofWord? at h
  split at h <;> first | decide | cases h

theorem ne_mark_of_mem_word {word : String} {name : Name} (hName : Name.ofWord? word = some name) :
    ∀ c ∈ word.toList, (c != '=') = true := by
  intro c hc
  simpa using fun hMark : c = '=' => (toList_of_ofWord? hName).2 (hMark ▸ hc)

theorem split_word {word : String} {name : Name} (hName : Name.ofWord? word = some name) :
    word.toList.takeWhile (· != '=') = word.toList ∧ word.toList.dropWhile (· != '=') = [] :=
  ⟨List.takeWhile_eq_self_iff.mpr (ne_mark_of_mem_word hName),
    List.dropWhile_eq_nil_iff.mpr (ne_mark_of_mem_word hName)⟩

theorem split_word_equals {word : String} {name : Name} (hName : Name.ofWord? word = some name)
    (value : List Char) :
    (word.toList ++ '=' :: value).takeWhile (· != '=') = word.toList ∧
      (word.toList ++ '=' :: value).dropWhile (· != '=') = '=' :: value := by
  rw [List.takeWhile_append_of_pos (ne_mark_of_mem_word hName),
    List.dropWhile_append_of_pos (ne_mark_of_mem_word hName)]
  simp

theorem readWord_switch (reading : Reading) {word : String} {switch : Switch}
    (hName : Name.ofWord? word = some (.switch switch)) :
    reading.readWord word.toList = reading.turnOn switch := by
  obtain ⟨hTake, hDrop⟩ := split_word hName
  simp only [readWord, hTake, hDrop, String.ofList_toList, hName]

theorem readWord_setting (reading : Reading) {word : String} {setting : Setting}
    (hName : Name.ofWord? word = some (.setting setting)) :
    reading.readWord word.toList = reading.expect setting none := by
  obtain ⟨hTake, hDrop⟩ := split_word hName
  simp only [readWord, hTake, hDrop, String.ofList_toList, hName]

theorem readWord_equals (reading : Reading) {word : String} {setting : Setting}
    (hName : Name.ofWord? word = some (.setting setting)) (value : String) :
    reading.readWord (word.toList ++ '=' :: value.toList) = reading.put setting value := by
  obtain ⟨hTake, hDrop⟩ := split_word_equals hName value.toList
  simp only [readWord, hTake, hDrop, String.ofList_toList, hName]

theorem toOption_turnOn (given : Given) (switch : Switch) :
    ((awaiting given none).turnOn switch).toOption =
      (given.choose? (.switch switch)).map (awaiting · none) := by
  change ((given.turnOn switch).bind fun next => .ok (awaiting next none)).toOption = _
  rw [Given.choose?]
  cases given.turnOn switch <;> rfl

theorem toOption_put (given : Given) (setting : Setting) (value : String) :
    ((awaiting given none).put setting value).toOption =
      (given.choose? (.setting setting value)).map (awaiting · none) := by
  change ((given.put setting value).bind fun next => .ok (awaiting next none)).toOption = _
  rw [Given.choose?]
  cases given.put setting value <;> rfl

theorem toList_word (word : String) : ("--" ++ word).toList = '-' :: '-' :: word.toList :=
  String.toList_append

theorem taken?_word_switch (given : Given) {word : String} {switch : Switch}
    (hName : Name.ofWord? word = some (.switch switch)) (arguments : List String) :
    (awaiting given none).taken? (("--" ++ word) :: arguments) =
      (given.choose? (.switch switch)).bind fun next => (awaiting next none).taken? arguments := by
  rw [taken?_cons, read_word rfl (toList_of_ofWord? hName).1 (toList_word word),
    readWord_switch _ hName, toOption_turnOn, Option.bind_map]
  rfl

theorem taken?_word_setting (given : Given) {word : String} {setting : Setting}
    (hName : Name.ofWord? word = some (.setting setting)) (arguments : List String) :
    (awaiting given none).taken? (("--" ++ word) :: arguments) =
      (awaiting given (some setting)).taken? arguments := by
  rw [taken?_cons, read_word rfl (toList_of_ofWord? hName).1 (toList_word word),
    readWord_setting _ hName]
  rfl

theorem taken?_word_equals (given : Given) {word : String} {setting : Setting}
    (hName : Name.ofWord? word = some (.setting setting)) (value : String)
    (arguments : List String) :
    (awaiting given none).taken? (("--" ++ word ++ "=" ++ value) :: arguments) =
      (given.choose? (.setting setting value)).bind fun next =>
        (awaiting next none).taken? arguments := by
  have hText : ("--" ++ word ++ "=" ++ value).toList =
      '-' :: '-' :: (word.toList ++ '=' :: value.toList) := by simp
  rw [taken?_cons, read_word rfl (by simp) hText, readWord_equals _ hName, toOption_put,
    Option.bind_map]
  rfl

theorem dropEquals_of_head? {text : List Char} (h : text.head? ≠ some '=') :
    dropEquals text = text := by
  unfold dropEquals
  split
  · exact absurd rfl h
  · rfl

end Reading

theorem Letters.ne_dash {letter : Char} {text : List Char} {choices : List Choice}
    {waiting : Option Setting} (h : Letters (letter :: text) choices waiting) : letter ≠ '-' := by
  rintro rfl
  have hDash : Name.ofLetter? '-' = none := by decide
  cases h <;> simp [hDash] at *

theorem Letters.toOption_readLetters {text : List Char} {choices : List Choice}
    {waiting : Option Setting} (h : Letters text choices waiting) (given : Given) :
    ((Reading.awaiting given none).readLetters text).toOption =
      (given.chooseAll? choices).map (Reading.awaiting · waiting) := by
  induction h generalizing given with
  | done => rfl
  | switch hName hRest ih =>
    rw [Reading.readLetters, hName]
    dsimp only
    rw [toOption_bind, Reading.toOption_turnOn, Given.chooseAll?_cons, Option.bind_map,
      Option.map_bind]
    exact congrArg _ (funext ih)
  | attached hName hValue hMark =>
    rw [Reading.readLetters, hName]
    dsimp only
    rw [if_neg (by simpa using hValue), Reading.dropEquals_of_head? hMark, Reading.toOption_put,
      Given.chooseAll?_singleton]
  | equals hName value =>
    rw [Reading.readLetters, hName]
    dsimp only
    rw [if_neg (by simp), Reading.dropEquals, Reading.toOption_put, Given.chooseAll?_singleton]
  | waiting hName =>
    rw [Reading.readLetters, hName]
    rfl

namespace Reading

theorem exists_letters {text : List Char} {given : Given} {next : Reading}
    (h : ((awaiting given none).readLetters text).toOption = some next) :
    ∃ choices waiting after, Letters text choices waiting ∧ next = awaiting after waiting := by
  induction text generalizing given with
  | nil =>
    obtain rfl := Option.some.inj h
    exact ⟨_, _, _, .done, rfl⟩
  | cons letter text ih =>
    rw [readLetters] at h
    split at h
    · cases h
    · rw [toOption_bind, toOption_turnOn, Option.bind_map] at h
      obtain ⟨after, _, hRest⟩ := Option.bind_eq_some_iff.mp h
      obtain ⟨choices, waiting, last, hLetters, hNext⟩ := ih hRest
      exact ⟨_, _, _, .switch ‹_› hLetters, hNext⟩
    · split_ifs at h with hText
      · obtain rfl := List.isEmpty_iff.mp hText
        obtain rfl := Option.some.inj h
        exact ⟨_, _, _, .waiting ‹_›, rfl⟩
      · rw [toOption_put] at h
        obtain ⟨after, _, rfl⟩ := Option.map_eq_some_iff.mp h
        by_cases hMark : text.head? = some '='
        · obtain ⟨value, rfl⟩ := List.head?_eq_some_iff.mp hMark
          exact ⟨_, _, _, .equals ‹_› value, rfl⟩
        · exact ⟨_, _, _, .attached ‹_› (by simpa using hText) hMark, rfl⟩

theorem taken?_letters {text : List Char} {first : List Choice} {waiting : Option Setting}
    (hText : text ≠ []) (hLetters : Letters text first waiting) (given : Given)
    (arguments : List String) :
    (awaiting given none).taken? (String.ofList ('-' :: text) :: arguments) =
      (given.chooseAll? first).bind fun next => (awaiting next waiting).taken? arguments := by
  obtain ⟨letter, text, rfl⟩ := List.exists_cons_of_ne_nil hText
  rw [taken?_cons, read_letters rfl hLetters.ne_dash String.toList_ofList,
    hLetters.toOption_readLetters, Option.bind_map]
  rfl

end Reading

/-! ## What all arguments say -/

theorem Spells.taken?_eq {waiting : Option Setting} {arguments : List String}
    {choices : List Choice} (h : Spells waiting arguments choices) (given : Given) :
    (Reading.awaiting given waiting).taken? arguments = given.chooseAll? choices := by
  induction h generalizing given with
  | done => rfl
  | value hValue _ ih =>
    rw [Reading.taken?_value given _ hValue, Given.chooseAll?_cons]
    exact congrArg _ (funext ih)
  | file hPath _ ih =>
    rw [Reading.taken?_path given hPath, Given.chooseAll?_cons]
    exact congrArg _ (funext ih)
  | files paths =>
    rw [Reading.taken?_cons, Reading.read_dashes rfl]
    exact Reading.taken?_files given paths
  | switch hName _ ih =>
    rw [Reading.taken?_word_switch given hName, Given.chooseAll?_cons]
    exact congrArg _ (funext ih)
  | equals hName value _ ih =>
    rw [Reading.taken?_word_equals given hName, Given.chooseAll?_cons]
    exact congrArg _ (funext ih)
  | setting hName _ ih =>
    rw [Reading.taken?_word_setting given hName]
    exact ih given
  | letters hText hLetters _ ih =>
    rw [Reading.taken?_letters hText hLetters, Given.chooseAll?_append]
    exact congrArg _ (funext ih)

section Word

variable {argument : String} {text : List Char}

theorem eq_word (hArgument : argument.toList = '-' :: '-' :: text)
    (hEnd : text.dropWhile (· != '=') = []) :
    argument = "--" ++ String.ofList (text.takeWhile (· != '=')) := by
  have hSplit : text.takeWhile (· != '=') ++ text.dropWhile (· != '=') = text :=
    List.takeWhile_append_dropWhile
  rw [hEnd, List.append_nil] at hSplit
  rw [← String.toList_inj, Reading.toList_word, String.toList_ofList, hSplit, hArgument]

theorem eq_word_equals (hArgument : argument.toList = '-' :: '-' :: text) {mark : Char}
    {value : List Char} (hMark : text.dropWhile (· != '=') = mark :: value) :
    argument = "--" ++ String.ofList (text.takeWhile (· != '=')) ++ "=" ++ String.ofList value := by
  have hSplit : text.takeWhile (· != '=') ++ text.dropWhile (· != '=') = text :=
    List.takeWhile_append_dropWhile
  have hEquals : mark = '=' := by
    have hHead := List.head?_dropWhile_not (· != '=') text
    simpa [hMark] using hHead
  rw [hMark, hEquals] at hSplit
  rw [← String.toList_inj, hArgument]
  simp [hSplit]

theorem exists_spells_word {given next : Given} {arguments : List String} (hText : text ≠ [])
    (hArgument : argument.toList = '-' :: '-' :: text)
    (h : (Reading.awaiting given none).taken? (argument :: arguments) = some next)
    (hRest : ∀ given waiting, (Reading.awaiting given waiting).taken? arguments = some next →
      ∃ choices, Spells waiting arguments choices) :
    ∃ choices, Spells none (argument :: arguments) choices := by
  rw [Reading.taken?_cons, Reading.read_word rfl hText hArgument] at h
  obtain ⟨reading, hRead, hReading⟩ := Option.bind_eq_some_iff.mp h
  rw [Reading.readWord] at hRead
  split at hRead
  · cases hRead
  · rename_i switch hName hEnd
    rw [Reading.toOption_turnOn] at hRead
    obtain ⟨after, _, rfl⟩ := Option.map_eq_some_iff.mp hRead
    obtain ⟨choices, hSpells⟩ := hRest _ none hReading
    exact eq_word hArgument hEnd ▸ ⟨_, .switch hName hSpells⟩
  · cases hRead
  · rename_i setting hName hEnd
    obtain rfl := Option.some.inj hRead
    obtain ⟨choices, hSpells⟩ := hRest given (some setting) hReading
    exact eq_word hArgument hEnd ▸ ⟨_, .setting hName hSpells⟩
  · rename_i setting _ value hName hMark
    rw [Reading.toOption_put] at hRead
    obtain ⟨after, _, rfl⟩ := Option.map_eq_some_iff.mp hRead
    obtain ⟨choices, hSpells⟩ := hRest _ none hReading
    exact eq_word_equals hArgument hMark ▸ ⟨_, .equals hName _ hSpells⟩

end Word

theorem exists_spells {given next : Given} {waiting : Option Setting} {arguments : List String}
    (h : (Reading.awaiting given waiting).taken? arguments = some next) :
    ∃ choices, Spells waiting arguments choices := by
  -- The first argument decides which setting waits in the others, if one does.
  induction arguments generalizing given waiting with
  | nil =>
    cases waiting with
    | none => exact ⟨[], .done⟩
    | some setting => cases h
  | cons argument arguments ih =>
    cases waiting with
    | some setting =>
      by_cases hOption : IsOption argument
      · rw [Reading.taken?_of_isOption given setting hOption] at h
        cases h
      · rw [Reading.taken?_value given setting hOption] at h
        obtain ⟨after, _, hRest⟩ := Option.bind_eq_some_iff.mp h
        obtain ⟨choices, hSpells⟩ := ih hRest
        exact ⟨_, .value hOption hSpells⟩
    | none =>
      cases form argument with
      | plain hPlain =>
        rw [Reading.taken?_path given hPlain] at h
        obtain ⟨after, _, hRest⟩ := Option.bind_eq_some_iff.mp h
        obtain ⟨choices, hSpells⟩ := ih hRest
        exact ⟨_, .file hPlain hSpells⟩
      | dashes hDashes => exact hDashes ▸ ⟨_, .files arguments⟩
      | word hText hWord => exact exists_spells_word hText hWord h fun _ _ => ih
      | letters hLetter hLetters =>
        rw [Reading.taken?_cons, Reading.read_letters rfl hLetter hLetters] at h
        obtain ⟨reading, hRead, hRest⟩ := Option.bind_eq_some_iff.mp h
        obtain ⟨first, waiting, after, hFirst, rfl⟩ := Reading.exists_letters hRead
        obtain ⟨choices, hSpells⟩ := ih hRest
        have hArgument : argument = String.ofList ('-' :: _) :=
          String.toList_inj.mp (hLetters.trans String.toList_ofList.symm)
        exact hArgument ▸ ⟨_, .letters (List.cons_ne_nil _ _) hFirst hSpells⟩

/-- Arguments are accepted if they spell choices that can be taken over one after another. -/
theorem taken?_eq_some_iff {given next : Given} {waiting : Option Setting}
    {arguments : List String} : (Reading.awaiting given waiting).taken? arguments = some next ↔
      ∃ choices, Spells waiting arguments choices ∧ given.chooseAll? choices = some next := by
  constructor
  · intro h
    obtain ⟨choices, hSpells⟩ := exists_spells h
    exact ⟨choices, hSpells, (hSpells.taken?_eq given).symm.trans h⟩
  · rintro ⟨choices, hSpells, hChosen⟩
    rw [hSpells.taken?_eq, hChosen]

end ReactiveSheet.CommandLine
