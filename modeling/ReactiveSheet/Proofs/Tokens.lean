import ReactiveSheet.Proofs.LeftToRight
import Mathlib.Algebra.Group.Nat.Even
import Mathlib.Data.List.Defs

/-! # Tokens

The tokens of an expression as one flat list: the text is cut at the bytes where its operators
start and end, and the list is evaluated two tokens at a time. Such a list can be empty, it can end
with an operator, and any text can stand where an operator should. The list that is cut from a text
is never like this, so its evaluation finds every token that it looks for and skips none.
-/

namespace ReactiveSheet

set_option autoImplicit false

/-- The text between two places counted in bytes. There is none if a place is not between two
characters or if the places are in the wrong order. -/
def Text.slice? (text : String) (start stop : String.Pos.Raw) : Option String := do
  let first ← text.pos? start
  let last ← text.pos? stop
  let slice ← text.slice? first last
  return slice.copy

theorem Text.pos?_rawEndPos {text before after : String} (h : text = before ++ after) :
    text.pos? before.rawEndPos = some (.ofEqAppend h) := by
  have hValid : before.rawEndPos.IsValid text :=
    String.Pos.Raw.isValid_iff_exists_append.mpr ⟨before, after, h, rfl⟩
  rw [String.pos?, String.Slice.pos?,
    dif_pos (String.Pos.Raw.isValidForSlice_eq_true_iff.mpr hValid.toSlice)]
  rfl

theorem Text.slice?_append {text before token after : String}
    (h : text = before ++ token ++ after) :
    slice? text before.rawEndPos (before ++ token).rawEndPos = some token := by
  have hStart : text = before ++ (token ++ after) := by rw [h, String.append_assoc]
  obtain ⟨hOrder, hSlice⟩ := String.copy_slice_eq_iff_splits.mpr
    ⟨before, after, String.Pos.splits_ofEqAppend hStart, String.Pos.splits_ofEqAppend h⟩
  rw [slice?, pos?_rawEndPos hStart, pos?_rawEndPos h]
  simp [String.slice?, hOrder, hSlice]

theorem Text.rawEndPos_append_singleton (text : String) (c : Char) :
    (text ++ String.singleton c).rawEndPos = text.rawEndPos + c := by
  rw [String.append_singleton, String.rawEndPos_push]

namespace Tokens

/-- The characters at which a text is cut. -/
def operators : List Char := ['+', '-', '*', '/']

theorem mem_operators_iff {c : Char} : c ∈ operators ↔ Operator.isSymbol c = true :=
  Operator.isSymbol_iff_mem.symm

structure Span where
  start : String.Pos.Raw
  stop : String.Pos.Raw

/-- Where the operators are in the part of a text that begins at the offset. -/
def spans (offset : String.Pos.Raw) : List Char → List Span
  | [] => []
  | c :: rest =>
    if c ∈ operators then ⟨offset, offset + c⟩ :: spans (offset + c) rest
    else spans (offset + c) rest

/-- The tokens of the part of the text that begins at `last`. -/
def cutFrom? (text : String) (last : String.Pos.Raw) : List Span → Option (List String)
  | [] => do
    let operand ← Text.slice? text last text.rawEndPos
    return [operand]
  | span :: later => do
    let operand ← Text.slice? text last span.start
    let operator ← Text.slice? text span.start span.stop
    let tokens ← cutFrom? text span.stop later
    return operand :: operator :: tokens

def cut? (text : String) : Option (List String) :=
  cutFrom? text 0 (spans 0 text.toList)

def operate? (x : Float) (operator : String) (y : Float) : Option Float :=
  match operator with
  | "+" => some (x + y)
  | "-" => some (x - y)
  | "*" => some (x * y)
  | "/" => some (x / y)
  | _ => none

/-- A chunk is an operator and its operand, or an operator alone at the end. What is no operator is
skipped together with its operand and reported. -/
def step? (report : String → Diagnostic) (done : Evaluation) (chunk : List String) :
    Option Evaluation := do
  let operator ← chunk[0]?
  match operate? done.value operator (Chain.operandValue (chunk[1]?.getD "").toList) with
  | some x => return { done with value := x }
  | none => return { done with diagnostics := done.diagnostics ++ [report operator] }

/-- Evaluates tokens when `raised` has been reported already. There is no value if a token that is
looked for is not there. -/
def evaluate? (report : String → Diagnostic) (tokens : List String) (raised : List Diagnostic) :
    Option Evaluation := do
  let first ← tokens[0]?
  (tokens.tail.toChunks 2).foldlM (step? report) ⟨Chain.operandValue first.toList, raised⟩

example : evaluate? (fun token => .unknownOperator token.front) ["4", "%", "2", "+", "1"] [] =
    some ⟨5, [.unknownOperator '%']⟩ := by decide +kernel

end Tokens

namespace Chain

def texts (chain : Chain) : List String :=
  chain.tokens.map String.ofList

theorem texts_cons (first : List Char) (link : Char × List Char)
    (rest : List (Char × List Char)) : texts ⟨first, link :: rest⟩ =
      String.ofList first :: String.singleton link.1 :: texts ⟨link.2, rest⟩ := by
  rw [String.singleton_eq_ofList]
  rfl

theorem join_texts_ofText (text : String) : String.join (ofText text.toList).texts = text := by
  rw [← String.toList_inj, String.toList_join, texts, List.flatMap_map]
  simpa [List.flatMap_id'] using flatten_tokens_ofText text.toList

def operands (chain : Chain) : List (List Char) :=
  chain.first :: chain.rest.map Prod.snd

theorem not_isSymbol_of_mem_operands {text operand : List Char}
    (h : operand ∈ (ofText text).operands) : ∀ c ∈ operand, Operator.isSymbol c = false := by
  induction text generalizing operand with
  | nil =>
    obtain rfl := List.mem_singleton.mp h
    exact fun _ hc => absurd hc List.not_mem_nil
  | cons c text ih =>
    rw [ofText_cons, prepend] at h
    split at h
    · rcases List.mem_cons.mp h with rfl | h
      · exact fun _ hc => absurd hc List.not_mem_nil
      · exact ih h
    · rename_i hSymbol
      rcases List.mem_cons.mp h with rfl | h
      · exact List.forall_mem_cons.mpr ⟨Bool.eq_false_iff.mpr hSymbol, ih List.mem_cons_self⟩
      · exact ih (List.mem_cons_of_mem _ h)

end Chain

namespace Tokens

/-! ## Cutting -/

/-- What stands behind the last operator and has been passed already belongs to the operand that
comes next. -/
theorem cutFrom?_spans {text : String} (before operand : String) (rest : List Char)
    (h : text = before ++ operand ++ String.ofList rest) :
    cutFrom? text before.rawEndPos (spans (before ++ operand).rawEndPos rest) =
      some (Chain.texts
        ⟨operand.toList ++ (Chain.ofText rest).first, (Chain.ofText rest).rest⟩) := by
  induction rest generalizing before operand with
  | nil =>
    have hText : before ++ operand = text := by rw [h, String.ofList_nil, String.append_empty]
    have hOperand := Text.slice?_append h
    rw [hText] at hOperand
    rw [spans, cutFrom?, hOperand]
    simp [Chain.ofText, Chain.texts, Chain.tokens]
  | cons c rest ih =>
    have hText : text = before ++ operand ++ String.singleton c ++ String.ofList rest := by
      rw [h, String.ofList_cons, ← String.append_assoc]
    rw [spans, ← Text.rawEndPos_append_singleton, Chain.ofText_cons, Chain.prepend]
    by_cases hOperator : c ∈ operators
    · have hTokens := ih (before ++ operand ++ String.singleton c) ""
        (by rw [String.append_empty, hText])
      rw [String.append_empty] at hTokens
      rw [if_pos hOperator, if_pos (mem_operators_iff.mp hOperator), cutFrom?,
        Text.slice?_append h, Text.slice?_append hText, hTokens]
      simp [Chain.texts_cons]
    · have hTokens := ih before (operand ++ String.singleton c)
        (by rw [hText, ← String.append_assoc])
      rw [← String.append_assoc] at hTokens
      rw [if_neg hOperator, if_neg (mt mem_operators_iff.mpr hOperator), hTokens]
      simp

theorem cut?_eq (text : String) : cut? text = some (Chain.ofText text.toList).texts := by
  have h : text = "" ++ "" ++ String.ofList text.toList := by simp
  exact cutFrom?_spans "" "" text.toList h

/-- Operands and operators take turns, with an operand at both ends. -/
structure Alternate (tokens : List String) : Prop where
  odd_length : Odd tokens.length
  operator : ∀ (i : Nat) token, tokens[i]? = some token → Odd i →
    ∃ c ∈ operators, token = String.singleton c
  operand : ∀ (i : Nat) token, tokens[i]? = some token → Even i →
    ∀ c ∈ operators, c ∉ token.toList

namespace Alternate

theorem singleton {operand : String} (h : ∀ c ∈ operators, c ∉ operand.toList) :
    Alternate [operand] where
  odd_length := odd_one
  operator := by
    intro i token hToken hOdd
    obtain ⟨hIndex, _⟩ := List.getElem?_eq_some_iff.mp hToken
    obtain rfl : i = 0 := by simpa using hIndex
    exact absurd hOdd (by decide)
  operand := by
    intro i token hToken _
    obtain rfl := List.mem_singleton.mp (List.mem_of_getElem? hToken)
    exact h

theorem cons {operand : String} {c : Char} {tokens : List String} (hTokens : Alternate tokens)
    (hOperand : ∀ d ∈ operators, d ∉ operand.toList) (hOperator : c ∈ operators) :
    Alternate (operand :: String.singleton c :: tokens) where
  odd_length := hTokens.odd_length.add_even even_two
  operator := by
    intro i token hToken hOdd
    match i with
    | 0 => exact absurd hOdd (by decide)
    | 1 => exact ⟨c, hOperator, (Option.some.inj hToken).symm⟩
    | i + 2 => exact hTokens.operator i token hToken (by simpa [Nat.odd_add] using hOdd)
  operand := by
    intro i token hToken hEven
    match i with
    | 0 =>
      obtain rfl := Option.some.inj hToken
      exact hOperand
    | 1 => exact absurd hEven (by decide)
    | i + 2 => exact hTokens.operand i token hToken (by simpa [Nat.even_add] using hEven)

end Alternate

theorem operators_not_mem {operand : List Char} (h : ∀ c ∈ operand, Operator.isSymbol c = false) :
    ∀ c ∈ operators, c ∉ (String.ofList operand).toList := by
  intro c hOperator hMem
  rw [String.toList_ofList] at hMem
  have hSymbol := mem_operators_iff.mp hOperator
  rw [h c hMem] at hSymbol
  cases hSymbol

theorem alternate_texts {chain : Chain}
    (hOperands : ∀ operand ∈ chain.operands, ∀ c ∈ operand, Operator.isSymbol c = false)
    (hSymbols : ∀ link ∈ chain.rest, Operator.isSymbol link.1 = true) :
    Alternate chain.texts := by
  obtain ⟨first, rest⟩ := chain
  have hFirst := operators_not_mem (hOperands first List.mem_cons_self)
  induction rest generalizing first with
  | nil => exact .singleton hFirst
  | cons link rest ih =>
    obtain ⟨hSymbol, hSymbols⟩ := List.forall_mem_cons.mp hSymbols
    have hLater := (List.forall_mem_cons.mp hOperands).2
    have hNext := operators_not_mem (hLater link.2 List.mem_cons_self)
    rw [Chain.texts_cons]
    exact (ih link.2 hLater hSymbols hNext).cons hFirst (mem_operators_iff.mpr hSymbol)

/-! ## Evaluation -/

theorem toChunks_go {α : Type} (n : Nat) (l : List α) (chunk : Array α) (chunks : Array (List α)) :
    List.toChunks.go n l chunk chunks = chunks.toList ++ List.toChunks.go n l chunk #[] := by
  induction l generalizing chunk chunks with
  | nil => simp [List.toChunks.go]
  | cons a l ih =>
    rw [List.toChunks.go, List.toChunks.go]
    split
    · rw [ih, ih _ (#[].push _)]
      simp
    · exact ih _ _

theorem toChunks_two {α : Type} (a b : α) (l : List α) :
    (a :: b :: l).toChunks 2 = [a, b] :: l.toChunks 2 := by
  cases l with
  | nil => rfl
  | cons c l =>
    change List.toChunks.go 2 l #[c] #[[a, b]] = [a, b] :: List.toChunks.go 2 l #[c] #[]
    exact toChunks_go ..

/-- The two tokens of a link. -/
def chunkOf (link : Char × List Char) : List String :=
  [String.singleton link.1, String.ofList link.2]

theorem toChunks_tail_texts (chain : Chain) :
    chain.texts.tail.toChunks 2 = chain.rest.map chunkOf := by
  obtain ⟨first, rest⟩ := chain
  induction rest generalizing first with
  | nil => rfl
  | cons link rest ih =>
    have hTexts : Chain.texts ⟨link.2, rest⟩ =
        String.ofList link.2 :: (Chain.texts ⟨link.2, rest⟩).tail := rfl
    rw [Chain.texts_cons, List.tail_cons, hTexts, toChunks_two, ih, List.map_cons, chunkOf]

theorem operate?_singleton {c : Char} {operator : Operator}
    (h : Operator.ofSymbol? c = some operator) (x y : Float) :
    operate? x (String.singleton c) y = some (operator.apply x y) := by
  rw [Operator.ofSymbol?.eq_def] at h
  split at h
  all_goals cases h <;> rfl

theorem step?_chunkOf (report : String → Diagnostic) (done : Evaluation) {link : Char × List Char}
    (h : Operator.isSymbol link.1 = true) :
    step? report done (chunkOf link) = some (Chain.step done link) := by
  obtain ⟨operator, hOperator, hStep⟩ := Chain.step_of_isSymbol h
  rw [hStep]
  simp [step?, chunkOf, operate?_singleton hOperator]

theorem foldlM_step? (report : String → Diagnostic) {links : List (Char × List Char)}
    (h : ∀ link ∈ links, Operator.isSymbol link.1 = true) (done : Evaluation) :
    (links.map chunkOf).foldlM (step? report) done = some (links.foldl Chain.step done) := by
  induction links generalizing done with
  | nil => rfl
  | cons link links ih =>
    rw [List.map_cons, List.foldlM_cons, step?_chunkOf report done (h link List.mem_cons_self)]
    exact ih (List.forall_mem_cons.mp h).2 _

theorem evaluate?_texts (report : String → Diagnostic) {chain : Chain}
    (h : ∀ link ∈ chain.rest, Operator.isSymbol link.1 = true) (raised : List Diagnostic) :
    evaluate? report chain.texts raised = some (chain.evaluate raised) := by
  have hFirst : chain.texts[0]? = some (String.ofList chain.first) := rfl
  rw [evaluate?, hFirst, toChunks_tail_texts, Chain.evaluate, ← foldlM_step? report h]
  simp

theorem exists_of_mem_toChunks {chain : Chain}
    (h : ∀ link ∈ chain.rest, Operator.isSymbol link.1 = true) {chunk : List String}
    (hChunk : chunk ∈ chain.texts.tail.toChunks 2) : ∃ operator operand,
      chunk = [operator, operand] ∧ ∀ x y, (operate? x operator y).isSome = true := by
  rw [toChunks_tail_texts] at hChunk
  obtain ⟨link, hLink, rfl⟩ := List.mem_map.mp hChunk
  obtain ⟨operator, hOperator⟩ := Option.isSome_iff_exists.mp (h link hLink)
  refine ⟨_, _, rfl, fun x y => ?_⟩
  rw [operate?_singleton hOperator, Option.isSome_some]

/-- Nothing of a text is lost when it is cut, and operands and operators take turns. So there is a
first token, every chunk has an operator and an operand, and the value is found without a report. -/
theorem alternate_and_evaluate (text : String) :
    (∃ tokens, cut? text = some tokens ∧ tokens = (Chain.ofText text.toList).texts ∧
      Alternate tokens ∧ String.join tokens = text) ∧
    ∃ tokens, cut? (String.ofList (Text.compact text.toList)) = some tokens ∧
      (∃ first, tokens[0]? = some first) ∧
      (∀ chunk ∈ tokens.tail.toChunks 2, ∃ operator operand, chunk = [operator, operand] ∧
        ∀ x y, (operate? x operator y).isSome = true) ∧
      ∀ report raised,
        evaluate? report tokens raised = some (Expression.evaluate text.toList raised) ∧
        (Expression.evaluate text.toList raised).diagnostics = raised := by
  have hSymbols (part : List Char) : ∀ link ∈ (Chain.ofText part).rest,
      Operator.isSymbol link.1 = true := fun _ => Chain.isSymbol_of_mem_ofText
  have hAlternate : Alternate (Chain.ofText text.toList).texts :=
    alternate_texts (fun _ => Chain.not_isSymbol_of_mem_operands) (hSymbols _)
  have hCompact := cut?_eq (String.ofList (Text.compact text.toList))
  rw [String.toList_ofList] at hCompact
  refine ⟨⟨_, cut?_eq text, rfl, hAlternate, Chain.join_texts_ofText text⟩, _, hCompact,
    ⟨_, rfl⟩, fun chunk hChunk => exists_of_mem_toChunks (hSymbols _) hChunk, ?_⟩
  intro report raised
  refine ⟨evaluate?_texts report (hSymbols _) raised, ?_⟩
  rw [Expression.evaluate_eq]

/-- Operators at both ends and side by side, and a character of two bytes. -/
theorem alternate_and_evaluate_of_edges :
    let tokens := ["", "-", "é", "*", "", "/", "5", "+", ""]
    cut? "-é*/5+" = some tokens ∧ Alternate tokens ∧ String.join tokens = "-é*/5+" ∧
      ["/", "5"] ∈ tokens.tail.toChunks 2 ∧ ∀ x y, (operate? x "/" y).isSome = true := by
  intro tokens
  have hTexts : (Chain.ofText "-é*/5+".toList).texts = tokens := by decide
  have hCompact : String.ofList (Text.compact "-é*/5+".toList) = "-é*/5+" := by decide
  have hChunk : ["/", "5"] ∈ tokens.tail.toChunks 2 := by decide
  obtain ⟨⟨found, hCut, rfl, hAlternate, hJoin⟩, others, hOthers, _, hChunks, _⟩ :=
    alternate_and_evaluate "-é*/5+"
  rw [hTexts] at hCut hAlternate hJoin
  obtain rfl : others = tokens := by
    rw [hCompact, hCut] at hOthers
    exact (Option.some.inj hOthers).symm
  obtain ⟨operator, operand, hEq, hOperate⟩ := hChunks _ hChunk
  obtain ⟨rfl, rfl⟩ : "/" = operator ∧ "5" = operand := by simpa using hEq
  exact ⟨hCut, hAlternate, hJoin, hChunk, hOperate⟩

end Tokens

end ReactiveSheet
