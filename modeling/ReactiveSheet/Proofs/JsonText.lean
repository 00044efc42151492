import Mathlib
import ReactiveSheet.Number.Literal

/-! # Reading JSON

A text is cut into tokens: the marks, the quoted texts, and the words between them. The tokens are
read one after another, with a stack of the arrays and objects that are still open. A quoted text is
read only if nothing in it is escaped.
-/

namespace ReactiveSheet

set_option autoImplicit false

inductive Json where
  | null
  | boolean (value : Bool)
  /-- A number is kept as it is written. -/
  | number (text : String)
  | string (text : String)
  | array (items : List Json)
  | object (fields : List (String × Json))

namespace Json

/-! ## Tokens -/

inductive Mark where
  | openArray
  | closeArray
  | openObject
  | closeObject
  | comma
  | colon

def Mark.ofChar? : Char → Option Mark
  | '[' => some openArray
  | ']' => some closeArray
  | '\x7b' => some openObject
  | '\x7d' => some closeObject
  | ',' => some comma
  | ':' => some colon
  | _ => none

inductive Token where
  | mark (mark : Mark)
  | word (text : List Char)
  | quoted (text : List Char)

def isBlank (c : Char) : Bool :=
  [' ', '\n', '\r', '\t'].contains c

/-- The other characters end a word. -/
def inWord (c : Char) : Bool :=
  c != '"' && !isBlank c && (Mark.ofChar? c).isNone

/-- Control characters are not allowed, and a backslash would start an escape. -/
def inQuotes (c : Char) : Bool :=
  c != '"' && c != '\\' && ' ' ≤ c

/-- What stands directly before the next character and is not over yet. -/
inductive Pending where
  | word (text : List Char)
  | quoted (text : List Char)

def endWord (word : List Char) (tokens : List Token) : List Token :=
  if word.isEmpty then tokens else .word word :: tokens

def tokens? : Pending → List Char → Option (List Token)
  | .word word, [] => some (endWord word [])
  | .quoted _, [] => none
  | .word word, c :: rest =>
    if inWord c then tokens? (.word (word ++ [c])) rest
    else
      let next := if c == '"' then Pending.quoted [] else .word []
      (tokens? next rest).map fun tokens =>
        endWord word ((Mark.ofChar? c).toList.map Token.mark ++ tokens)
  | .quoted text, c :: rest =>
    if c == '"' then (tokens? (.word []) rest).map (.quoted text :: ·)
    else if inQuotes c then tokens? (.quoted (text ++ [c])) rest
    else none

/-! ## Values -/

/-- A number has no zero in front that could be left out, and digits on both sides of a point. -/
def isNumber (text : List Char) : Bool :=
  let unsigned := if text.head? == some '-' then text.tail else text
  let whole := unsigned.takeWhile Char.isDigit
  let behind := unsigned.dropWhile Char.isDigit
  let (places, power) := Number.readFraction behind
  (whole == ['0'] || whole.head?.any (· != '0')) &&
    (behind.head? != some '.' || !places.isEmpty) && (Number.readExponent? power).isSome

def scalar? (word : List Char) : Option Json :=
  if word == ['n', 'u', 'l', 'l'] then some null
  else if word == ['t', 'r', 'u', 'e'] then some (boolean true)
  else if word == ['f', 'a', 'l', 's', 'e'] then some (boolean false)
  else if isNumber word then some (number (String.ofList word))
  else none

/-- An array or an object that is open, with what is complete in it. -/
inductive Frame where
  | array (items : List Json)
  | object (fields : List (String × Json)) (name : String)

/-- What is due next, inside the frames. -/
inductive State where
  | value (frames : List Frame)
  | name (fields : List (String × Json)) (frames : List Frame)
  | colon (fields : List (String × Json)) (name : String) (frames : List Frame)
  | done (value : Json) (frames : List Frame)

def step : State → Token → Option State
  | .value (.array [] :: frames), .mark .closeArray => some (.done (.array []) frames)
  | .value frames, .mark .openArray => some (.value (.array [] :: frames))
  | .value frames, .mark .openObject => some (.name [] frames)
  | .value frames, .quoted text => some (.done (.string (String.ofList text)) frames)
  | .value frames, .word word => (scalar? word).map (.done · frames)
  | .name [] frames, .mark .closeObject => some (.done (.object []) frames)
  | .name fields frames, .quoted text => some (.colon fields (String.ofList text) frames)
  | .colon fields name frames, .mark .colon => some (.value (.object fields name :: frames))
  | .done value (.array items :: frames), .mark .comma =>
    some (.value (.array (items ++ [value]) :: frames))
  | .done value (.array items :: frames), .mark .closeArray =>
    some (.done (.array (items ++ [value])) frames)
  | .done value (.object fields name :: frames), .mark .comma =>
    some (.name (fields ++ [(name, value)]) frames)
  | .done value (.object fields name :: frames), .mark .closeObject =>
    some (.done (.object (fields ++ [(name, value)])) frames)
  | _, _ => none

def advance? (state : State) (text : List Char) : Option State :=
  (tokens? (.word []) text).bind fun tokens => tokens.foldlM step state

/-- The whole text is one value. -/
def read? (text : List Char) : Option Json :=
  match advance? (.value []) text with
  | some (.done value []) => some value
  | _ => none

example : read? "[-1.5e+3, null]".toList = some (.array [.number "-1.5e+3", .null]) := by rfl
example : (read? "[1, 02]".toList).isSome = false := by decide

/-! ## One token -/

theorem mem_of_ofChar? {c : Char} {mark : Mark} (h : Mark.ofChar? c = some mark) :
    c ∈ ['[', ']', '\x7b', '\x7d', ',', ':'] := by
  unfold Mark.ofChar? at h
  split at h <;> simp at h ⊢

theorem mem_of_not_inWord {c : Char} (h : inWord c = false) :
    c ∈ ['"', ' ', '\n', '\r', '\t', '[', ']', '\x7b', '\x7d', ',', ':'] := by
  rw [inWord, Bool.and_eq_false_iff, Bool.and_eq_false_iff] at h
  rcases h with (hQuote | hBlank) | hMark
  · simp_all
  · rw [Bool.not_eq_false', isBlank, List.contains_iff_mem] at hBlank
    simp only [List.mem_cons] at hBlank ⊢
    tauto
  · rw [Option.isNone_eq_false_iff, Option.isSome_iff_exists] at hMark
    obtain ⟨mark, hSome⟩ := hMark
    have hMem := mem_of_ofChar? hSome
    simp only [List.mem_cons] at hMem ⊢
    tauto

theorem scalar?_of_isNumber {word : List Char} (h : isNumber word = true) :
    scalar? word = some (.number (String.ofList word)) := by
  have hWords : ∀ other : List Char, isNumber other = false → (word == other) = false := by
    intro other hOther
    rw [beq_eq_false_iff_ne]
    rintro rfl
    rw [h] at hOther
    cases hOther
  rw [scalar?, hWords _ (by decide), hWords _ (by decide), hWords _ (by decide), h]
  rfl

def IsGap (text : List Char) : Prop :=
  text.all isBlank = true

theorem isGap_cons {c : Char} {gap : List Char} :
    IsGap (c :: gap) ↔ isBlank c = true ∧ IsGap gap := by
  simp [IsGap]

/-- A word that stands before the text ends there. -/
def EndsWord (text : List Char) : Prop :=
  ∀ c ∈ text.head?, inWord c = false

theorem endsWord_nil : EndsWord [] := by
  simp [EndsWord]

theorem endsWord_cons {c : Char} (h : inWord c = false) (rest : List Char) :
    EndsWord (c :: rest) := by
  simp [EndsWord, h]

theorem IsGap.endsWord_append {gap rest : List Char} (h : IsGap gap) (hRest : EndsWord rest) :
    EndsWord (gap ++ rest) := by
  cases gap with
  | nil => exact hRest
  | cons c gap =>
    apply endsWord_cons
    simp [inWord, (isGap_cons.mp h).1]

section

variable {state : State} {c : Char} {rest : List Char}

theorem advance?_nil (state : State) : advance? state [] = some state :=
  rfl

theorem advance?_of_tokens {token : Token} {text : List Char}
    (h : tokens? (.word []) text = (tokens? (.word []) rest).map (token :: ·)) :
    advance? state text = (step state token).bind (advance? · rest) := by
  rw [advance?, h]
  cases hTokens : tokens? (.word []) rest with
  | none => cases hStep : step state token <;> simp [advance?, hTokens]
  | some tokens => cases hStep : step state token <;> simp [advance?, hTokens, hStep]

theorem advance?_mark {mark : Mark} (h : Mark.ofChar? c = some mark) (rest : List Char) :
    advance? state (c :: rest) = (step state (.mark mark)).bind (advance? · rest) := by
  have hWord : inWord c = false := by simp [inWord, h]
  have hQuote : (c == '"') = false := by
    rw [beq_eq_false_iff_ne]
    rintro rfl
    cases h
  apply advance?_of_tokens
  simp [tokens?, hWord, hQuote, h, endWord]

theorem advance?_blank (h : isBlank c = true) (rest : List Char) :
    advance? state (c :: rest) = advance? state rest := by
  have hWord : inWord c = false := by simp [inWord, h]
  have hCases : c = ' ' ∨ c = '\n' ∨ c = '\r' ∨ c = '\t' := by simpa [isBlank] using h
  have hNone : (c == '"') = false ∧ Mark.ofChar? c = none := by
    rcases hCases with rfl | rfl | rfl | rfl <;> decide
  have hTokens : tokens? (.word []) (c :: rest) = tokens? (.word []) rest := by
    simp [tokens?, hWord, hNone, endWord]
  rw [advance?, hTokens, advance?]

theorem advance?_gap {gap : List Char} (h : IsGap gap) (rest : List Char) :
    advance? state (gap ++ rest) = advance? state rest := by
  induction gap with
  | nil => rfl
  | cons c gap ih =>
    obtain ⟨hBlank, hGap⟩ := isGap_cons.mp h
    rw [List.cons_append, advance?_blank hBlank, ih hGap]

theorem tokens?_word_append {word : List Char} (h : ∀ c ∈ word, inWord c = true)
    (before rest : List Char) :
    tokens? (.word before) (word ++ rest) = tokens? (.word (before ++ word)) rest := by
  induction word generalizing before with
  | nil => simp
  | cons c word ih =>
    rw [List.cons_append, tokens?, if_pos (h c List.mem_cons_self),
      ih fun d hd => h d (List.mem_cons_of_mem _ hd), List.append_assoc]
    rfl

theorem tokens?_of_endsWord (h : EndsWord rest) (word : List Char) :
    tokens? (.word word) rest = (tokens? (.word []) rest).map (endWord word) := by
  cases rest with
  | nil => rfl
  | cons c rest =>
    have hWord : inWord c = false := h c rfl
    simp only [tokens?, hWord, Bool.false_eq_true, if_false, Option.map_map]
    rfl

theorem advance?_word {word : List Char} (h : ∀ c ∈ word, inWord c = true) (hNonempty : word ≠ [])
    (hEnd : EndsWord rest) :
    advance? state (word ++ rest) = (step state (.word word)).bind (advance? · rest) := by
  apply advance?_of_tokens
  have hOwn : endWord word = (.word word :: ·) := by
    funext tokens
    simp [endWord, hNonempty]
  rw [tokens?_word_append h, List.nil_append, tokens?_of_endsWord hEnd, hOwn]

theorem tokens?_quoted_append {text : List Char} (h : ∀ c ∈ text, inQuotes c = true)
    (before rest : List Char) :
    tokens? (.quoted before) (text ++ '"' :: rest) =
      (tokens? (.word []) rest).map (.quoted (before ++ text) :: ·) := by
  induction text generalizing before with
  | nil => simp [tokens?]
  | cons c text ih =>
    have hc := h c List.mem_cons_self
    have hQuote : (c == '"') = false := by
      rw [beq_eq_false_iff_ne]
      rintro rfl
      cases hc
    rw [List.cons_append, tokens?, hQuote, hc]
    simp only [Bool.false_eq_true, if_false, if_true]
    rw [ih fun d hd => h d (List.mem_cons_of_mem _ hd), List.append_assoc]
    rfl

theorem advance?_quoted {text : List Char} (h : ∀ c ∈ text, inQuotes c = true)
    (rest : List Char) :
    advance? state ('"' :: (text ++ '"' :: rest)) =
      (step state (.quoted text)).bind (advance? · rest) := by
  apply advance?_of_tokens
  have hQuote : inWord '"' = false := by decide
  have hStart : tokens? (.word []) ('"' :: (text ++ '"' :: rest)) =
      tokens? (.quoted []) (text ++ '"' :: rest) := by
    simp [tokens?, hQuote, endWord, Mark.ofChar?]
  rw [hStart, tokens?_quoted_append h, List.nil_append]

end

/-! ## One value -/

/-- The text is read as the value wherever one is due, if no word goes on behind it. -/
def Writes (text : List Char) (value : Json) : Prop :=
  ∀ frames rest, EndsWord rest →
    advance? (.value frames) (text ++ rest) = advance? (.done value frames) rest

theorem Writes.read?_eq {text : List Char} {value : Json} (h : Writes text value) :
    read? text = some value := by
  have hAdvance := h [] [] endsWord_nil
  rw [List.append_nil, advance?_nil] at hAdvance
  rw [read?, hAdvance]

theorem Writes.append_gap {text gap : List Char} {value : Json} (h : Writes text value)
    (hGap : IsGap gap) : Writes (text ++ gap) value := by
  intro frames rest hEnd
  rw [List.append_assoc, h frames _ (hGap.endsWord_append hEnd), advance?_gap hGap]

theorem Writes.gap_append {text gap : List Char} {value : Json} (h : Writes text value)
    (hGap : IsGap gap) : Writes (gap ++ text) value := by
  intro frames rest hEnd
  rw [List.append_assoc, advance?_gap hGap, h frames rest hEnd]

theorem writes_scalar {word : List Char} {value : Json} (h : ∀ c ∈ word, inWord c = true)
    (hNonempty : word ≠ []) (hScalar : scalar? word = some value) : Writes word value := by
  intro frames rest hEnd
  rw [advance?_word h hNonempty hEnd, step, hScalar]
  rfl

/-! ## Lists of values -/

/-- The states while a list is read: an item is due, an item is complete, the list is complete. -/
structure Listed {β : Type} (mark : Mark) (due : List β → State) (full : List β → β → State)
    (closed : List β → State) : Prop where
  comma : ∀ before item, step (full before item) (.mark .comma) = some (due (before ++ [item]))
  close : ∀ before item, step (full before item) (.mark mark) = some (closed (before ++ [item]))
  empty : step (due []) (.mark mark) = some (closed [])

theorem listed_array (frames : List Frame) :
    Listed .closeArray (fun items => .value (.array items :: frames))
      (fun items item => .done item (.array items :: frames))
      (fun items => .done (.array items) frames) :=
  ⟨fun _ _ => rfl, fun _ _ => rfl, rfl⟩

theorem listed_object (frames : List Frame) :
    Listed .closeObject (fun fields => .name fields frames)
      (fun fields field => .done field.2 (.object fields field.1 :: frames))
      (fun fields => .done (.object fields) frames) :=
  ⟨fun _ _ => rfl, fun _ _ => rfl, rfl⟩

section

variable {β : Type} {mark : Mark} {due closed : List β → State} {full : List β → β → State}
  {close : Char} {gap ending : List Char}

theorem Listed.advance?_items (h : Listed mark due full closed)
    (hMark : Mark.ofChar? close = some mark) (hGap : IsGap gap) (hEnding : IsGap ending)
    {first : List Char × β} {items : List (List Char × β)}
    (hItems : ∀ item ∈ first :: items, ∀ before rest, EndsWord rest →
      advance? (due before) (item.1 ++ rest) = advance? (full before item.2) rest)
    (before : List β) (rest : List Char) :
    advance? (due before)
      ((',' :: gap).intercalate ((first :: items).map Prod.fst) ++ (ending ++ close :: rest)) =
        advance? (closed (before ++ (first :: items).map Prod.snd)) rest := by
  have hFirst := hItems first List.mem_cons_self before
  -- The items that are complete are kept in the state, so they stay general in the induction.
  induction items generalizing first before with
  | nil =>
    have hEnd : EndsWord (ending ++ close :: rest) :=
      hEnding.endsWord_append (endsWord_cons (by simp [inWord, hMark]) rest)
    rw [List.map_cons, List.map_nil, List.intercalate_singleton, hFirst _ hEnd,
      advance?_gap hEnding, advance?_mark hMark, h.close]
    rfl
  | cons second items ih =>
    have hEnd := endsWord_cons (by decide : inWord ',' = false)
    have hRest := ih (fun item hItem => hItems item (List.mem_cons_of_mem _ hItem))
      (before ++ [first.2]) (hItems second (by simp) _)
    rw [List.map_cons, List.map_cons, List.intercalate_cons_cons, List.append_assoc,
      List.append_assoc, List.cons_append, hFirst _ (hEnd _), advance?_mark rfl, h.comma,
      Option.bind_some, advance?_gap hGap, ← List.map_cons, hRest, List.append_assoc]
    rfl

/-- A list is read between its brackets, with any blanks in it, if each of its items is. -/
theorem Listed.advance?_list (h : Listed mark due full closed)
    (hMark : Mark.ofChar? close = some mark) (hGap : IsGap gap)
    (hEnding : IsGap ending) {items : List (List Char × β)}
    (hItems : ∀ item ∈ items, ∀ before rest, EndsWord rest →
      advance? (due before) (item.1 ++ rest) = advance? (full before item.2) rest)
    (rest : List Char) :
    advance? (due [])
      ((',' :: gap).intercalate (items.map Prod.fst) ++ (ending ++ close :: rest)) =
        advance? (closed (items.map Prod.snd)) rest := by
  cases items with
  | nil =>
    rw [List.map_nil, List.intercalate_nil, List.nil_append, advance?_gap hEnding,
      advance?_mark hMark, h.empty]
    rfl
  | cons first items => exact h.advance?_items hMark hGap hEnding hItems [] rest

end

/-- The text is read as the field wherever one is due, if no word goes on behind it. -/
def WritesField (text : List Char) (field : String × Json) : Prop :=
  ∀ fields frames rest, EndsWord rest →
    advance? (.name fields frames) (text ++ rest) =
      advance? (.done field.2 (.object fields field.1 :: frames)) rest

theorem Writes.field {start name gap text : List Char} {value : Json} (h : Writes text value)
    (hStart : IsGap start) (hName : name.all inQuotes = true)
    (hGap : IsGap gap) :
    WritesField (start ++ '"' :: name ++ '"' :: ':' :: gap ++ text)
      (String.ofList name, value) := by
  intro fields frames rest hEnd
  have hQuoted : step (.name fields frames) (.quoted name) =
      some (.colon fields (String.ofList name) frames) := by
    cases fields <;> rfl
  have hValue := h.gap_append hGap (.object fields (String.ofList name) :: frames) rest hEnd
  simp only [List.append_assoc, List.cons_append] at hValue ⊢
  rw [advance?_gap hStart, advance?_quoted (List.all_eq_true.mp hName), hQuoted,
    Option.bind_some, advance?_mark rfl]
  exact hValue

section

variable {start gap ending : List Char} (hStart : IsGap start)
  (hGap : IsGap gap) (hEnding : IsGap ending)

include hStart hGap hEnding

theorem writes_array {items : List (List Char × Json)}
    (hItems : ∀ item ∈ items, Writes item.1 item.2) :
    Writes ('[' :: start ++ (',' :: gap).intercalate (items.map Prod.fst) ++ ending ++ [']'])
      (.array (items.map Prod.snd)) := by
  intro frames rest _
  have hOpen : step (.value frames) (.mark .openArray) = some (.value (.array [] :: frames)) := by
    simp [step]
  have hMark : Mark.ofChar? ']' = some .closeArray := rfl
  have hList := (listed_array frames).advance?_list hMark hGap hEnding
    (fun item hItem before rest => hItems item hItem _ rest) rest
  simp only [List.append_assoc, List.cons_append, List.nil_append]
  rw [advance?_mark rfl, hOpen, Option.bind_some, advance?_gap hStart, hList]

theorem writes_object {items : List (List Char × (String × Json))}
    (hItems : ∀ item ∈ items, WritesField item.1 item.2) :
    Writes ('\x7b' :: start ++ (',' :: gap).intercalate (items.map Prod.fst) ++ ending ++ ['\x7d'])
      (.object (items.map Prod.snd)) := by
  intro frames rest _
  have hOpen : step (.value frames) (.mark .openObject) = some (.name [] frames) := by
    simp [step]
  have hMark : Mark.ofChar? '\x7d' = some .closeObject := rfl
  have hList := (listed_object frames).advance?_list hMark hGap hEnding
    (fun item hItem before rest => hItems item hItem before frames rest) rest
  simp only [List.append_assoc, List.cons_append, List.nil_append]
  rw [advance?_mark rfl, hOpen, Option.bind_some, advance?_gap hStart, hList]

end

end Json

end ReactiveSheet
