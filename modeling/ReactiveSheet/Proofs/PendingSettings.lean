import Mathlib
import ReactiveSheet.CommandLine.Reading

/-! # What is pending

A setting is only taken over behind its argument. Up to what is wrong with the arguments, it makes
no difference when: what is pending may be taken over at once.
-/

namespace ReactiveSheet.CommandLine

set_option autoImplicit false

/-- One dash alone is no option. -/
def IsOption (argument : String) : Prop :=
  ∃ c text, argument.toList = '-' :: c :: text

theorem isOption_iff {argument : String} :
    IsOption argument ↔ argument.toList.head? = some '-' ∧ 1 < argument.toList.length := by
  unfold IsOption
  constructor
  · rintro ⟨c, text, hArgument⟩
    simp [hArgument]
  · rintro ⟨hDash, hLength⟩
    obtain ⟨text, hArgument⟩ := List.head?_eq_some_iff.mp hDash
    cases text with
    | nil => simp [hArgument] at hLength
    | cons c text => exact ⟨c, text, hArgument⟩

instance (argument : String) : Decidable (IsOption argument) :=
  decidable_of_iff _ isOption_iff.symm

inductive Form (argument : String) : Prop
  | plain (hPlain : ¬ IsOption argument)
  | dashes (hArgument : argument = "--")
  | word {text : List Char} (hText : text ≠ []) (hArgument : argument.toList = '-' :: '-' :: text)
  | letters {letter : Char} {text : List Char} (hLetter : letter ≠ '-')
      (hArgument : argument.toList = '-' :: letter :: text)

theorem form (argument : String) : Form argument := by
  by_cases hOption : IsOption argument
  · obtain ⟨letter, text, hArgument⟩ := hOption
    by_cases hLetter : letter = '-'
    · subst hLetter
      by_cases hText : text = []
      · subst hText
        exact .dashes (String.toList_inj.mp hArgument)
      · exact .word hText hArgument
    · exact .letters hLetter hArgument
  · exact .plain hOption

theorem toOption_bind {ε α β : Type} (first : Except ε α) (next : α → Except ε β) :
    (first.bind next).toOption = first.toOption.bind fun a => (next a).toOption := by
  cases first <;> rfl

theorem toOption_eq_some_iff {ε α : Type} {result : Except ε α} {a : α} :
    result.toOption = some a ↔ result = .ok a := by
  cases result <;> simp [Except.toOption]

namespace Given

/-- All that giving a value to a setting can do. -/
inductive Puts (given : Given) : Setting → String → Given → Prop
  | file {path : String} (hNone : given.file = none) :
      Puts given .file path { given with file := some path }
  | cells {text : String} (hNone : given.cells = none) :
      Puts given .cells text { given with cells := some text }
  | format {word : String} {format : Format} (hNone : given.format = none)
      (hWord : Format.ofWord? word = some format) :
      Puts given .format word { given with format := some format }
  | maxPasses {text : String} {passes : Nat} (hNone : given.maxPasses = none)
      (hText : Index.read? text.toList = some passes) :
      Puts given .maxPasses text { given with maxPasses := some passes }

theorem puts_of_put {given next : Given} {setting : Setting} {value : String}
    (h : given.put setting value = .ok next) : Puts given setting value next := by
  cases setting with
  | file =>
    rw [put] at h
    split_ifs at h with hFile hValue
    obtain rfl := Except.ok.inj h
    exact .file (by simpa using hFile)
  | cells =>
    rw [put] at h
    split_ifs at h with hCells
    obtain rfl := Except.ok.inj h
    exact .cells (by simpa using hCells)
  | format =>
    rw [put] at h
    split_ifs at h with hFormat
    split at h
    · obtain rfl := Except.ok.inj h
      exact .format (by simpa using hFormat) ‹_›
    · cases h
  | maxPasses =>
    rw [put, readMaxPasses] at h
    split_ifs at h with hPasses
    split at h
    · obtain rfl := Except.ok.inj h
      exact .maxPasses (by simpa using hPasses) ‹_›
    · cases h

end Given

namespace Reading

/-- What the arguments come to if nothing is wrong with them. -/
def taken? (reading : Reading) (arguments : List String) : Option Given :=
  (reading.readAll arguments).toOption

/-- The same place in the arguments with nothing pending. -/
def settledWith (reading : Reading) (given : Given) : Reading :=
  ⟨given, none, reading.onlyFiles⟩

theorem taken?_cons (reading : Reading) (argument : String) (arguments : List String) :
    reading.taken? (argument :: arguments) =
      (reading.read argument).toOption.bind (·.taken? arguments) :=
  toOption_bind ..

section Settling

variable (reading : Reading)

theorem turnOn_eq (switch : Switch) : reading.turnOn switch =
    reading.settle.bind fun given => (reading.settledWith given).turnOn switch := rfl

theorem put_eq (setting : Setting) (value : String) : reading.put setting value =
    reading.settle.bind fun given => (reading.settledWith given).put setting value := rfl

theorem expect_eq (setting : Setting) (value : Option String) : reading.expect setting value =
    reading.settle.bind fun given => (reading.settledWith given).expect setting value := rfl

theorem file_of_settle {given : Given} (h : reading.settle = .ok given) :
    given.file.isSome = reading.hasFile := by
  obtain ⟨before, pending, onlyFiles⟩ := reading
  rcases pending with _ | ⟨setting, _ | value⟩
  · obtain rfl := Except.ok.inj h
    simp [hasFile]
  · cases h
  · have hPut : before.put setting value = .ok given := h
    cases Given.puts_of_put hPut <;> simp [hasFile]

theorem toOption_readFile (path : String) : (reading.readFile path).toOption =
    reading.settle.toOption.bind fun given =>
      ((reading.settledWith given).readFile path).toOption := by
  have hHere : ∀ given, reading.settle = .ok given →
      (reading.settledWith given).hasFile = reading.hasFile := by
    intro given h
    rw [← reading.file_of_settle h]
    simp [hasFile, settledWith]
  cases hSettle : reading.settle with
  | error stop =>
    rw [readFile, expect_eq, hSettle]
    split <;> rfl
  | ok given =>
    rw [readFile, expect_eq, hSettle]
    simp only [Except.toOption, Option.bind_some]
    rw [readFile, hHere given hSettle]
    rfl

theorem toOption_readWord (text : List Char) : (reading.readWord text).toOption =
    reading.settle.toOption.bind fun given =>
      ((reading.settledWith given).readWord text).toOption := by
  unfold readWord
  dsimp only
  split
  · simp [Except.toOption]
  · rw [turnOn_eq, toOption_bind]
  · simp [Except.toOption]
  · rw [expect_eq, toOption_bind]
  · rw [put_eq, toOption_bind]

theorem toOption_readLetters {text : List Char} (hText : text ≠ []) :
    (reading.readLetters text).toOption = reading.settle.toOption.bind fun given =>
      ((reading.settledWith given).readLetters text).toOption := by
  obtain ⟨letter, text, rfl⟩ := List.exists_cons_of_ne_nil hText
  simp only [readLetters]
  split
  · simp [Except.toOption]
  · rw [turnOn_eq]
    cases reading.settle <;> rfl
  · split_ifs
    · rw [expect_eq, toOption_bind]
    · rw [put_eq, toOption_bind]

end Settling

theorem read_files {reading : Reading} (h : reading.onlyFiles = true) (path : String) :
    reading.read path = reading.readFile path :=
  if_pos h

section

variable {reading : Reading} {argument : String} (hReading : reading.onlyFiles = false)

include hReading

theorem read_dashes : reading.read "--" = .ok { reading with onlyFiles := true } := by
  rw [read, hReading]
  rfl

theorem read_word {text : List Char} (hText : text ≠ [])
    (hArgument : argument.toList = '-' :: '-' :: text) :
    reading.read argument = reading.readWord text := by
  obtain ⟨c, text, rfl⟩ := List.exists_cons_of_ne_nil hText
  rw [read, hReading, hArgument]
  rfl

theorem read_letters {letter : Char} {text : List Char} (hLetter : letter ≠ '-')
    (hArgument : argument.toList = '-' :: letter :: text) :
    reading.read argument = reading.readLetters (letter :: text) := by
  rw [read, hReading, hArgument, if_neg Bool.false_ne_true]
  split
  · rename_i hDashes
    exact absurd (List.cons.inj (List.cons.inj hDashes).2).1 hLetter
  · rename_i hDashes
    exact absurd (List.cons.inj (List.cons.inj hDashes).2).1 hLetter
  · rename_i hDash
    rw [(List.cons.inj hDash).2]
  · rename_i hPlain
    exact absurd rfl (hPlain letter text)

theorem read_plain (hArgument : ¬ IsOption argument) :
    reading.read argument = reading.readPlain argument := by
  rw [read, hReading, if_neg Bool.false_ne_true]
  split
  · exact absurd ⟨_, _, ‹_›⟩ hArgument
  · exact absurd ⟨_, _, ‹_›⟩ hArgument
  · exact absurd ⟨_, _, ‹_›⟩ hArgument
  · rfl

end

/-! ## Taking over first -/

/-- An argument finds nothing pending, or what is pending is taken over first. -/
def Settles (reading : Reading) (argument : String) : Prop :=
  (reading.read argument).toOption = reading.settle.toOption.bind fun given =>
    ((reading.settledWith given).read argument).toOption

theorem Settles.taken?_cons {reading : Reading} {argument : String} (h : reading.Settles argument)
    (arguments : List String) : reading.taken? (argument :: arguments) =
      reading.settle.toOption.bind fun given =>
        (reading.settledWith given).taken? (argument :: arguments) := by
  rw [Reading.taken?_cons, h, Option.bind_assoc]
  simp only [Reading.taken?_cons]

theorem settles_of_onlyFiles {reading : Reading} (h : reading.onlyFiles = true) (path : String) :
    reading.Settles path := by
  rw [Settles, read_files h, toOption_readFile]
  have hSettled : ∀ given, (reading.settledWith given).onlyFiles = true := fun _ => h
  simp only [read_files (hSettled _)]

theorem settles_of_word {reading : Reading} (hReading : reading.onlyFiles = false)
    {argument : String} {text : List Char} (hText : text ≠ [])
    (hArgument : argument.toList = '-' :: '-' :: text) : reading.Settles argument := by
  have hSettled : ∀ given, (reading.settledWith given).onlyFiles = false := fun _ => hReading
  simp only [Settles, read_word hReading hText hArgument, read_word (hSettled _) hText hArgument]
  exact reading.toOption_readWord text

theorem settles_of_letters {reading : Reading} (hReading : reading.onlyFiles = false)
    {argument : String} {letter : Char} {text : List Char} (hLetter : letter ≠ '-')
    (hArgument : argument.toList = '-' :: letter :: text) : reading.Settles argument := by
  have hSettled : ∀ given, (reading.settledWith given).onlyFiles = false := fun _ => hReading
  simp only [Settles, read_letters hReading hLetter hArgument,
    read_letters (hSettled _) hLetter hArgument]
  exact reading.toOption_readLetters (List.cons_ne_nil letter text)

theorem readPlain_of_not_waiting {reading : Reading}
    (h : ∀ setting, reading.pending ≠ some ⟨setting, none⟩) (argument : String) :
    reading.readPlain argument = reading.readFile argument := by
  unfold readPlain
  split
  · exact absurd ‹_› (h _)
  · rfl

theorem settles_of_plain {reading : Reading} (hReading : reading.onlyFiles = false)
    (h : ∀ setting, reading.pending ≠ some ⟨setting, none⟩) {argument : String}
    (hArgument : ¬ IsOption argument) : reading.Settles argument := by
  have hSettled : ∀ given, (reading.settledWith given).onlyFiles = false := fun _ => hReading
  have hNothing : ∀ given setting, (reading.settledWith given).pending ≠ some ⟨setting, none⟩ :=
    fun _ _ => nofun
  simp only [Settles, read_plain hReading hArgument, read_plain (hSettled _) hArgument,
    readPlain_of_not_waiting h, readPlain_of_not_waiting (hNothing _)]
  exact reading.toOption_readFile argument

theorem taken?_eq_settled {reading : Reading}
    (h : ∀ setting, reading.pending ≠ some ⟨setting, none⟩) (arguments : List String) :
    reading.taken? arguments = reading.settle.toOption.bind fun given =>
      (reading.settledWith given).taken? arguments := by
  induction arguments generalizing reading with
  | nil => exact (Option.bind_fun_some _).symm
  | cons argument arguments ih =>
    cases hReading : reading.onlyFiles with
    | true => exact (settles_of_onlyFiles hReading argument).taken?_cons arguments
    | false =>
      cases form argument with
      | plain hPlain => exact (settles_of_plain hReading h hPlain).taken?_cons arguments
      | dashes hArgument =>
        -- Nothing is taken over yet, so the arguments behind decide.
        subst hArgument
        have hSettled : ∀ given, (reading.settledWith given).onlyFiles = false := fun _ => hReading
        simp only [taken?_cons, read_dashes hReading, read_dashes (hSettled _)]
        exact ih h
      | word hText hArgument =>
        exact (settles_of_word hReading hText hArgument).taken?_cons arguments
      | letters hLetter hArgument =>
        exact (settles_of_letters hReading hLetter hArgument).taken?_cons arguments

end Reading

end ReactiveSheet.CommandLine
