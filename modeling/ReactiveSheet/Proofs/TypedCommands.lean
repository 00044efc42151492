import ReactiveSheet.Proofs.ReadBack
import ReactiveSheet.Proofs.Words
import ReactiveSheet.Shell.Command

/-! # How typed lines are read

A line is read by its words: the first one names a command in either case of its letters, and the
others have to be as many as the command takes and of the right kind. Each outcome is tied to the
lines that have it, and what a command to set an input looks like can be typed.
-/

namespace ReactiveSheet

set_option autoImplicit false

open Text (Spaced IsGap IsWord)

namespace Verb

def names : Verb → List String
  | print => ["print", "p", "1"]
  | set => ["set", "2"]
  | inspect => ["show"]
  | help => ["help", "h", "?"]
  | quit => ["quit", "q", "exit", "3"]

/-- The word is a name of the command, with each of the letters in either case. -/
def Named (verb : Verb) (word : List Char) : Prop :=
  ∃ name ∈ verb.names,
    List.Forall₂ (fun letter c => c = letter ∨ c = letter.toUpper) name.toList word

theorem ofName?_eq_some_iff {name : String} {verb : Verb} :
    ofName? name = some verb ↔ name ∈ verb.names := by
  constructor
  · intro h
    rw [ofName?] at h
    split_ifs at h with hPrint hSet hInspect hHelp hQuit
    · exact Option.some.inj h ▸ hPrint
    · exact Option.some.inj h ▸ hSet
    · exact Option.some.inj h ▸ hInspect
    · exact Option.some.inj h ▸ hHelp
    · exact Option.some.inj h ▸ hQuit
  · have hNames : ∀ name ∈ verb.names, ofName? name = some verb := by
      cases verb <;> decide
    exact hNames name

theorem toLower_eq_iff {c letter : Char} (h : letter.toLower = letter) :
    c.toLower = letter ↔ c = letter ∨ c = letter.toUpper := by
  constructor
  · rintro rfl
    by_cases hUpper : c.isUpper = true
    -- A capital is not a small letter, so it is what its own small letter is raised to.
    · right
      rw [Char.toUpper_toLower_eq_toUpper, Char.toUpper_eq_of_not_isLower]
      intro hLower
      simp only [Char.isUpper, Char.isLower, Bool.and_eq_true, decide_eq_true_eq] at hUpper hLower
      exact absurd (UInt32.le_trans hLower.1 hUpper.2) (by decide)
    · exact .inl (Char.toLower_eq_of_not_isUpper hUpper).symm
  · rintro (rfl | rfl)
    · exact h
    · rw [Char.toLower_toUpper_eq_toLower, h]

theorem map_toLower_eq_iff {name word : List Char} (h : name.map Char.toLower = name) :
    word.map Char.toLower = name ↔
      List.Forall₂ (fun letter c => c = letter ∨ c = letter.toUpper) name word := by
  induction name generalizing word with
  | nil => simp
  | cons letter name ih =>
    rw [List.map_cons, List.cons_eq_cons] at h
    cases word with
    | nil => simp
    | cons c word =>
      rw [List.map_cons, List.cons_eq_cons, List.forall₂_cons, toLower_eq_iff h.1, ih h.2]

theorem named_iff {verb : Verb} {word : List Char} :
    verb.Named word ↔ ofName? (String.ofList (word.map Char.toLower)) = some verb := by
  have hLower : ∀ name ∈ verb.names, name.toList.map Char.toLower = name.toList := by
    cases verb <;> decide
  rw [ofName?_eq_some_iff]
  constructor
  · rintro ⟨name, hName, hLetters⟩
    rw [(map_toLower_eq_iff (hLower name hName)).mpr hLetters, String.ofList_toList]
    exact hName
  · intro h
    exact ⟨_, h, (map_toLower_eq_iff (hLower _ h)).mp String.toList_ofList.symm⟩

end Verb

namespace Command

/-- What the words of a line come to. -/
inductive Reads (line : String) : Except CommandError Command → Prop
  | empty (hBlank : IsGap line.toList) : Reads line (.error .empty)
  | unknown {name : List Char} {arguments : List (List Char)}
      (hWords : Spaced (name :: arguments) line.toList) (hName : ∀ verb : Verb, ¬ verb.Named name) :
      Reads line (.error (.unknown (String.ofList (name.map Char.toLower))))
  | print {name : List Char} {arguments : List (List Char)}
      (hWords : Spaced (name :: arguments) line.toList) (hName : Verb.print.Named name) :
      Reads line (.ok .print)
  | help {name : List Char} {arguments : List (List Char)}
      (hWords : Spaced (name :: arguments) line.toList) (hName : Verb.help.Named name) :
      Reads line (.ok .help)
  | quit {name : List Char} {arguments : List (List Char)}
      (hWords : Spaced (name :: arguments) line.toList) (hName : Verb.quit.Named name) :
      Reads line (.ok .quit)
  | setUsage {name : List Char} {arguments : List (List Char)}
      (hWords : Spaced (name :: arguments) line.toList) (hName : Verb.set.Named name)
      (hCount : arguments.length ≠ 2) : Reads line (.error (.usage "set <index> <value>"))
  | setIndex {name first second : List Char} (hWords : Spaced [name, first, second] line.toList)
      (hName : Verb.set.Named name) (hIndex : Index.read? first = none) :
      Reads line (.error (.invalidIndex (String.ofList first)))
  | setValue {name first second : List Char} {index : Nat}
      (hWords : Spaced [name, first, second] line.toList) (hName : Verb.set.Named name)
      (hIndex : Index.read? first = some index)
      (hValue : ∀ value, Number.read? second = some value → value.isFinite = false) :
      Reads line (.error (.invalidNumber (String.ofList second)))
  | set {name first second : List Char} {index : Nat} {value : Float}
      (hWords : Spaced [name, first, second] line.toList) (hName : Verb.set.Named name)
      (hIndex : Index.read? first = some index) (hValue : Number.read? second = some value)
      (hFinite : value.isFinite = true) : Reads line (.ok (.set index value))
  | inspectUsage {name : List Char} {arguments : List (List Char)}
      (hWords : Spaced (name :: arguments) line.toList) (hName : Verb.inspect.Named name)
      (hCount : arguments.length ≠ 1) : Reads line (.error (.usage "show <index>"))
  | inspectIndex {name first : List Char} (hWords : Spaced [name, first] line.toList)
      (hName : Verb.inspect.Named name) (hIndex : Index.read? first = none) :
      Reads line (.error (.invalidIndex (String.ofList first)))
  | inspect {name first : List Char} {index : Nat} (hWords : Spaced [name, first] line.toList)
      (hName : Verb.inspect.Named name) (hIndex : Index.read? first = some index) :
      Reads line (.ok (.inspect index))

section

variable {line : String} {name : List Char} {arguments : List (List Char)}

theorem readValue_of_not_finite {word : List Char}
    (h : ∀ value, Number.read? word = some value → value.isFinite = false) :
    readValue word = .error (.invalidNumber (String.ofList word)) := by
  rw [readValue]
  split
  · rename_i value hValue
    rw [h value hValue]
    rfl
  · rfl

theorem readValue_of_finite {word : List Char} {value : Float}
    (h : Number.read? word = some value) (hFinite : value.isFinite = true) :
    readValue word = .ok value := by
  rw [readValue, h]
  exact if_pos hFinite

theorem readSet_of_length (h : arguments.length ≠ 2) :
    readSet arguments = .error (.usage "set <index> <value>") := by
  unfold readSet
  split
  · exact absurd rfl h
  · rfl

theorem readSet_pair {first second : List Char} {index : Nat}
    (h : Index.read? first = some index) :
    readSet [first, second] = (readValue second).map (.set index) := by
  rw [readSet, readIndex, h]
  cases readValue second <;> rfl

theorem readInspect_of_length (h : arguments.length ≠ 1) :
    readInspect arguments = .error (.usage "show <index>") := by
  unfold readInspect
  split
  · exact absurd rfl h
  · rfl

theorem reads_readSet (hWords : Spaced (name :: arguments) line.toList)
    (hName : Verb.set.Named name) : Reads line (readSet arguments) := by
  by_cases hCount : arguments.length = 2
  · obtain ⟨first, second, rfl⟩ := List.length_eq_two.mp hCount
    cases hIndex : Index.read? first with
    | none =>
      rw [readSet, readIndex, hIndex]
      exact .setIndex hWords hName hIndex
    | some index =>
      rw [readSet_pair hIndex]
      by_cases hValue : ∃ value, Number.read? second = some value ∧ value.isFinite = true
      · obtain ⟨value, hRead, hFinite⟩ := hValue
        rw [readValue_of_finite hRead hFinite]
        exact .set hWords hName hIndex hRead hFinite
      · have hNone : ∀ value, Number.read? second = some value → value.isFinite = false := by
          simpa using hValue
        rw [readValue_of_not_finite hNone]
        exact .setValue hWords hName hIndex hNone
  · rw [readSet_of_length hCount]
    exact .setUsage hWords hName hCount

theorem reads_readInspect (hWords : Spaced (name :: arguments) line.toList)
    (hName : Verb.inspect.Named name) : Reads line (readInspect arguments) := by
  by_cases hCount : arguments.length = 1
  · obtain ⟨first, rfl⟩ := List.length_eq_one_iff.mp hCount
    cases hIndex : Index.read? first with
    | none =>
      rw [readInspect, readIndex, hIndex]
      exact .inspectIndex hWords hName hIndex
    | some index =>
      rw [readInspect, readIndex, hIndex]
      exact .inspect hWords hName hIndex
  · rw [readInspect_of_length hCount]
    exact .inspectUsage hWords hName hCount

theorem parse_of_named {verb : Verb} (hWords : Spaced (name :: arguments) line.toList)
    (hName : verb.Named name) : parse line =
      match verb with
      | .print => .ok .print
      | .set => readSet arguments
      | .inspect => readInspect arguments
      | .help => .ok .help
      | .quit => .ok .quit := by
  rw [parse, hWords.words_eq]
  dsimp only
  rw [Verb.named_iff.mp hName]
  cases verb <;> rfl

theorem parse_of_not_named (hWords : Spaced (name :: arguments) line.toList)
    (hName : ∀ verb : Verb, ¬ verb.Named name) :
    parse line = .error (.unknown (String.ofList (name.map Char.toLower))) := by
  have hVerb : Verb.ofName? (String.ofList (name.map Char.toLower)) = none := by
    rw [Option.eq_none_iff_forall_ne_some]
    exact fun verb h => hName verb (Verb.named_iff.mpr h)
  rw [parse, hWords.words_eq]
  dsimp only
  rw [hVerb]

theorem parse_of_isGap (h : IsGap line.toList) : parse line = .error .empty := by
  rw [parse, (Spaced.none h).words_eq]

theorem reads_parse (line : String) : Reads line (parse line) := by
  cases hLine : Text.words line.toList with
  | nil =>
    cases Text.spaced_iff.mpr hLine with
    | none hBlank =>
      rw [parse_of_isGap hBlank]
      exact .empty hBlank
  | cons name arguments =>
    have hWords := Text.spaced_iff.mpr hLine
    by_cases hNamed : ∃ verb : Verb, verb.Named name
    · obtain ⟨verb, hName⟩ := hNamed
      rw [parse_of_named hWords hName]
      cases verb with
      | print => exact .print hWords hName
      | set => exact reads_readSet hWords hName
      | inspect => exact reads_readInspect hWords hName
      | help => exact .help hWords hName
      | quit => exact .quit hWords hName
    · have hNone : ∀ verb : Verb, ¬ verb.Named name := not_exists.mp hNamed
      rw [parse_of_not_named hWords hNone]
      exact .unknown hWords hNone

theorem Reads.parse_eq {result : Except CommandError Command} (h : Reads line result) :
    parse line = result := by
  cases h with
  | empty hBlank => exact parse_of_isGap hBlank
  | unknown hWords hName => exact parse_of_not_named hWords hName
  | print hWords hName => exact parse_of_named hWords hName
  | help hWords hName => exact parse_of_named hWords hName
  | quit hWords hName => exact parse_of_named hWords hName
  | setUsage hWords hName hCount =>
    rw [parse_of_named hWords hName]
    exact readSet_of_length hCount
  | setIndex hWords hName hIndex =>
    rw [parse_of_named hWords hName, readSet, readIndex, hIndex]
    rfl
  | setValue hWords hName hIndex hValue =>
    rw [parse_of_named hWords hName, readSet_pair hIndex, readValue_of_not_finite hValue]
    rfl
  | set hWords hName hIndex hValue hFinite =>
    rw [parse_of_named hWords hName, readSet_pair hIndex, readValue_of_finite hValue hFinite]
    rfl
  | inspectUsage hWords hName hCount =>
    rw [parse_of_named hWords hName]
    exact readInspect_of_length hCount
  | inspectIndex hWords hName hIndex =>
    rw [parse_of_named hWords hName, readInspect, readIndex, hIndex]
    rfl
  | inspect hWords hName hIndex =>
    rw [parse_of_named hWords hName, readInspect, readIndex, hIndex]
    rfl

/-- Each line is read in exactly one way. -/
theorem parse_eq_iff {result : Except CommandError Command} :
    parse line = result ↔ Reads line result :=
  ⟨fun h => h ▸ reads_parse line, Reads.parse_eq⟩

end

/-! ## A command that is typed -/

theorem isBlank_of_mem_head? {gap : List Char} (h : IsGap gap) (hNonempty : gap ≠ [])
    (rest : List Char) : ∀ c ∈ (gap ++ rest).head?, Text.isBlank c = true := by
  obtain ⟨c, gap, rfl⟩ := List.exists_cons_of_ne_nil hNonempty
  rintro _ ⟨⟩
  exact h c List.mem_cons_self

theorem isWord_toString (index : Nat) : IsWord (toString index).toList where
  nonempty := by
    rw [Index.toList_toString]
    exact Nat.toDigits_ne_nil
  visible _ hc := Number.isBlank_of_isDigit (Index.isDigit_of_mem_toString hc)

theorem isWord_plain (value : Float) : IsWord (Number.plain value) where
  nonempty := Number.plain_ne_nil value
  visible _ hc := Number.isBlank_of_isWritten (Number.isWritten_of_mem_plain hc)

/-- The line that sets an input, with blanks around the words. -/
def setLine (front first second back : List Char) (index : Nat) (value : Float) : String :=
  String.ofList (front ++ ['s', 'e', 't'] ++ first ++ (toString index).toList ++ second ++
    Number.plain value ++ back)

section

variable {front first second back : List Char} {index : Nat} {value : Float}

theorem spaced_setLine (hFront : IsGap front) (hFirst : IsGap first) (hFirstNonempty : first ≠ [])
    (hSecond : IsGap second) (hSecondNonempty : second ≠ []) (hBack : IsGap back) :
    Spaced [['s', 'e', 't'], (toString index).toList, Number.plain value]
      (setLine front first second back index value).toList := by
  have hVisible : ['s', 'e', 't'].all (fun c => !Text.isBlank c) = true := by decide
  have hName : IsWord ['s', 'e', 't'] := ⟨by decide, by simpa using hVisible⟩
  have hValue : Spaced [Number.plain value] (second ++ (Number.plain value ++ back)) :=
    .word hSecond (isWord_plain value) (fun c hc => hBack c (List.mem_of_mem_head? hc))
      (.none hBack)
  have hIndex := Spaced.word hFirst (isWord_toString index)
    (isBlank_of_mem_head? hSecond hSecondNonempty _) hValue
  rw [setLine, String.toList_ofList]
  simp only [List.append_assoc]
  exact .word hFront hName (isBlank_of_mem_head? hFirst hFirstNonempty _) hIndex

theorem parse_setLine (hFront : IsGap front) (hFirst : IsGap first) (hFirstNonempty : first ≠ [])
    (hSecond : IsGap second) (hSecondNonempty : second ≠ []) (hBack : IsGap back)
    (hIndex : index < Index.bound) (hFinite : value.isFinite = true) :
    parse (setLine front first second back index value) = .ok (.set index value) := by
  have hWords : Spaced [['s', 'e', 't'], (toString index).toList, Number.plain value]
      (setLine front first second back index value).toList :=
    spaced_setLine hFront hFirst hFirstNonempty hSecond hSecondNonempty hBack
  have hName : Verb.set.Named ['s', 'e', 't'] := Verb.named_iff.mpr (by decide)
  exact (Reads.set hWords hName (Index.read?_toString hIndex) (Number.read?_plain value)
    hFinite).parse_eq

end

/-- A line sets an input if its words say so, and then the number is finite. Other lines that begin
with a word for setting or showing are answered by the first thing that is wrong with them: how many
words there are, then the index, then the number. -/
theorem set_commands_are_read_exactly :
    (∀ (line : String) (index : Nat) (value : Float),
      parse line = .ok (.set index value) ↔ ∃ name first second : List Char,
        Spaced [name, first, second] line.toList ∧ Verb.set.Named name ∧
          Index.read? first = some index ∧ Number.read? second = some value ∧
            value.isFinite = true) ∧
    (∀ line : String, parse line = .error .empty ↔ IsGap line.toList) ∧
    (∀ line form : String, parse line = .error (.usage form) ↔
      ∃ (name : List Char) (arguments : List (List Char)),
        Spaced (name :: arguments) line.toList ∧
          (Verb.set.Named name ∧ arguments.length ≠ 2 ∧ form = "set <index> <value>" ∨
            Verb.inspect.Named name ∧ arguments.length ≠ 1 ∧ form = "show <index>")) ∧
    (∀ (line : String) (name first second : List Char),
      Spaced [name, first, second] line.toList → Verb.set.Named name → Index.read? first = none →
        parse line = .error (.invalidIndex (String.ofList first))) ∧
    (∀ line text : String, parse line = .error (.invalidNumber text) ↔
      ∃ (name first second : List Char) (index : Nat),
        Spaced [name, first, second] line.toList ∧ Verb.set.Named name ∧
          Index.read? first = some index ∧
            (∀ value, Number.read? second = some value → value.isFinite = false) ∧
              text = String.ofList second) ∧
    ∀ (front first second back : List Char) (index : Nat) (value : Float),
      IsGap front → IsGap first → first ≠ [] → IsGap second → second ≠ [] → IsGap back →
        index < 2 ^ 64 → value.isFinite = true →
          parse (setLine front first second back index value) = .ok (.set index value) := by
  refine ⟨?_, ?_, ?_, ?_, ?_, ?_⟩
  · intro line index value
    rw [parse_eq_iff]
    constructor
    · intro h
      cases h with
      | set hWords hName hIndex hValue hFinite =>
        exact ⟨_, _, _, hWords, hName, hIndex, hValue, hFinite⟩
    · rintro ⟨name, first, second, hWords, hName, hIndex, hValue, hFinite⟩
      exact .set hWords hName hIndex hValue hFinite
  · intro line
    rw [parse_eq_iff]
    exact ⟨fun h => by cases h with | empty hBlank => exact hBlank, .empty⟩
  · intro line form
    rw [parse_eq_iff]
    constructor
    · intro h
      cases h with
      | setUsage hWords hName hCount => exact ⟨_, _, hWords, .inl ⟨hName, hCount, rfl⟩⟩
      | inspectUsage hWords hName hCount => exact ⟨_, _, hWords, .inr ⟨hName, hCount, rfl⟩⟩
    · rintro ⟨name, arguments, hWords, ⟨hName, hCount, rfl⟩ | ⟨hName, hCount, rfl⟩⟩
      · exact .setUsage hWords hName hCount
      · exact .inspectUsage hWords hName hCount
  · intro line name first second hWords hName hIndex
    exact (Reads.setIndex hWords hName hIndex).parse_eq
  · intro line text
    rw [parse_eq_iff]
    constructor
    · intro h
      cases h with
      | setValue hWords hName hIndex hValue =>
        exact ⟨_, _, _, _, hWords, hName, hIndex, hValue, rfl⟩
    · rintro ⟨name, first, second, index, hWords, hName, hIndex, hValue, rfl⟩
      exact .setValue hWords hName hIndex hValue
  · intro front first second back index value hFront hFirst hFirstNonempty hSecond hSecondNonempty
      hBack hIndex hFinite
    exact parse_setLine hFront hFirst hFirstNonempty hSecond hSecondNonempty hBack hIndex hFinite

/-- Wide blanks, a number too small to tell from zero, one that is too large, and the last index. -/
theorem set_commands_are_read_exactly_of_bounds :
    parse "\u2003SeT\t+7\u3000-1e-400\r" = .ok (.set 7 (-0)) ∧
      parse "\u3000\n" = .error .empty ∧
      parse "2 0" = .error (.usage "set <index> <value>") ∧
      parse "2 x 1e999" = .error (.invalidIndex "x") ∧
      parse "2 0 1e999" = .error (.invalidNumber "1e999") ∧
      parse (setLine [] ['\t', ' '] ['\u2028'] ['\r'] 18446744073709551615 0.1) =
        .ok (.set 18446744073709551615 0.1) := by
  obtain ⟨hSet, hEmpty, hUsage, hIndex, hNumber, hTyped⟩ := set_commands_are_read_exactly
  have hName : Verb.set.Named ['2'] := Verb.named_iff.mpr (by decide)
  refine ⟨?_, ?_, ?_, ?_, ?_, ?_⟩
  · exact (hSet _ _ _).mpr ⟨['S', 'e', 'T'], ['+', '7'], ['-', '1', 'e', '-', '4', '0', '0'],
      Text.spaced_iff.mpr (by decide), Verb.named_iff.mpr (by decide), by decide,
      by decide +kernel, by decide⟩
  · exact (hEmpty _).mpr (List.all_eq_true.mp (by decide))
  · exact (hUsage _ _).mpr ⟨['2'], [['0']], Text.spaced_iff.mpr (by decide),
      .inl ⟨hName, by decide, rfl⟩⟩
  · exact hIndex _ ['2'] ['x'] ['1', 'e', '9', '9', '9'] (Text.spaced_iff.mpr (by decide)) hName
      (by decide)
  · refine (hNumber _ _).mpr ⟨['2'], ['0'], ['1', 'e', '9', '9', '9'], 0,
      Text.spaced_iff.mpr (by decide), hName, by decide, ?_, rfl⟩
    intro value hValue
    obtain rfl : Number.infinity = value := Option.some.inj (.trans (by decide +kernel) hValue)
    decide
  · exact hTyped _ _ _ _ _ _ (List.all_eq_true.mp (by decide)) (List.all_eq_true.mp (by decide))
      (by decide) (List.all_eq_true.mp (by decide)) (by decide) (List.all_eq_true.mp (by decide))
      (by decide) (by decide)

end Command

end ReactiveSheet
