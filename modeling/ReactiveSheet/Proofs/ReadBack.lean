import ReactiveSheet.Proofs.DecimalValue
import ReactiveSheet.Text.Blank

/-! # Reading back what is written

A float is written as digits with a sign and at most one point, or as a word. What is written is
read as the float again, and it has no blanks and no other signs in it.
-/

namespace ReactiveSheet.Number

set_option autoImplicit false

open Float.Model (UnpackedFloat)
open Float.Model.UnpackedFloat (Sign)

/-- Texts of digits that are read as the decimal, with a point between them or none. -/
inductive Spelled (d : Decimal) : List Char → Prop
  | whole {digits : List Char} (hDigits : ∀ c ∈ digits, c.isDigit = true)
      (hNonempty : digits ≠ []) (hValue : Decimal.ofDigits digits 0 = d) : Spelled d digits
  | fraction {whole places : List Char} (hWhole : ∀ c ∈ whole, c.isDigit = true)
      (hPlaces : ∀ c ∈ places, c.isDigit = true) (hNonempty : whole ≠ [])
      (hValue : Decimal.ofDigits (whole ++ places) (-places.length) = d) :
      Spelled d (whole ++ '.' :: places)

theorem isDigit_of_mem_zeros {count : Nat} {c : Char} (h : c ∈ List.replicate count '0') :
    c.isDigit = true := by
  rw [List.eq_of_mem_replicate h]
  decide

theorem spelled_spellOut {d : Decimal} (h : d.IsReduced) :
    Spelled d (Layout.spellOut [] d.digits d.exponent) := by
  have hDigits := d.isDigit_digits
  have hNonempty : d.digits ≠ [] := Nat.toDigits_ne_nil
  rw [Layout.spellOut]
  split
  · rename_i hExponent
    rw [List.append_nil]
    apply Spelled.whole
    · exact List.forall_mem_append.mpr ⟨hDigits, fun _ => isDigit_of_mem_zeros⟩
    · simp [hNonempty]
    · exact h.ofDigits_append_zeros (Int.toNat_of_nonneg hExponent).symm
  · rename_i hExponent
    dsimp only
    split
    · rename_i hShort
      apply Spelled.fraction
      · exact fun c hc => hDigits c (List.mem_of_mem_take hc)
      · exact fun c hc => hDigits c (List.mem_of_mem_drop hc)
      · rw [← List.length_pos_iff_ne_nil, List.length_take]
        omega
      · rw [List.take_append_drop, List.length_drop]
        exact h.ofDigits_digits (by omega)
    · rename_i hLong
      change Spelled d (['0'] ++ '.' :: _)
      apply Spelled.fraction
      · simp
      · exact List.forall_mem_append.mpr ⟨fun _ => isDigit_of_mem_zeros, hDigits⟩
      · exact List.cons_ne_nil '0' []
      · exact h.ofDigits_zeros_append (by omega)

theorem takeWhile_digits {digits : List Char} (h : ∀ c ∈ digits, c.isDigit = true) :
    digits.takeWhile Char.isDigit = digits ∧ digits.dropWhile Char.isDigit = [] := by
  rw [List.takeWhile_eq_self_iff, List.dropWhile_eq_nil_iff]
  exact ⟨h, h⟩

theorem Spelled.readDecimal?_eq {d : Decimal} {text : List Char} (h : Spelled d text) :
    readDecimal? text = some d := by
  cases h with
  | whole hDigits hNonempty hValue =>
    obtain ⟨hTake, hDrop⟩ := takeWhile_digits hDigits
    simp [readDecimal?, hTake, hDrop, readFraction, readExponent?, hNonempty, hValue]
  | @fraction whole places hWhole hPlaces hNonempty hValue =>
    obtain ⟨hTake, hDrop⟩ := takeWhile_digits hPlaces
    have hTakeAll : (whole ++ '.' :: places).takeWhile Char.isDigit = whole := by
      rw [List.takeWhile_append_of_pos hWhole, List.takeWhile_cons_of_neg (by decide),
        List.append_nil]
    have hDropAll : (whole ++ '.' :: places).dropWhile Char.isDigit = '.' :: places := by
      rw [List.dropWhile_append_of_pos hWhole, List.dropWhile_cons_of_neg (by decide)]
    simp [readDecimal?, hTakeAll, hDropAll, readFraction, hTake, hDrop, readExponent?, hNonempty,
      hValue]

theorem Spelled.exists_digit {d : Decimal} {text : List Char} (h : Spelled d text) :
    ∃ c rest, c.isDigit = true ∧ text = c :: rest := by
  have hFirst : ∀ digits : List Char, (∀ c ∈ digits, c.isDigit = true) → digits ≠ [] →
      ∃ c rest, c.isDigit = true ∧ digits = c :: rest := by
    intro digits hDigits hNonempty
    obtain ⟨c, rest, rfl⟩ := List.exists_cons_of_ne_nil hNonempty
    exact ⟨c, rest, hDigits c List.mem_cons_self, rfl⟩
  cases h with
  | whole hDigits hNonempty => exact hFirst _ hDigits hNonempty
  | fraction hWhole _ hNonempty =>
    obtain ⟨c, rest, hc, rfl⟩ := hFirst _ hWhole hNonempty
    exact ⟨c, _, hc, rfl⟩

theorem Spelled.isDigit_or_point {d : Decimal} {text : List Char} (h : Spelled d text) :
    ∀ c ∈ text, c.isDigit = true ∨ c = '.' := by
  intro c hc
  cases h with
  | whole hDigits => exact .inl (hDigits c hc)
  | fraction hWhole hPlaces =>
    rcases List.mem_append.mp hc with hc | hc
    · exact .inl (hWhole c hc)
    · rcases List.mem_cons.mp hc with rfl | hc
      · exact .inr rfl
      · exact .inl (hPlaces c hc)

theorem ne_of_isDigit {c d : Char} (hc : c.isDigit = true) (hd : d.isDigit = false) : c ≠ d := by
  rintro rfl
  rw [hc] at hd
  cases hd

theorem readMagnitude?_of_digit {c : Char} (h : c.isDigit = true) (rest : List Char) :
    readMagnitude? (c :: rest) = (readDecimal? (c :: rest)).map Decimal.toFloat := by
  have hLower : c.toLower = c := by
    apply Char.toLower_eq_of_not_isUpper
    simp only [Char.isDigit, Char.isUpper, Bool.and_eq_true, decide_eq_true_eq] at h ⊢
    rintro ⟨hLow, _⟩
    have hDigit : c.toNat ≤ 57 := h.2
    have hLetter : 65 ≤ c.toNat := hLow
    omega
  have hn : c ≠ 'n' := ne_of_isDigit h (by decide)
  have hi : c ≠ 'i' := ne_of_isDigit h (by decide)
  simp [readMagnitude?, hLower, hn, hi]

theorem readSign_of_digit {c : Char} (h : c.isDigit = true) (rest : List Char) :
    readSign (c :: rest) = (false, c :: rest) := by
  rw [readSign]
  · rintro _ ⟨⟩
    exact absurd h (by decide)
  · rintro _ ⟨⟩
    exact absurd h (by decide)

/-- A float with the sign and the absolute value. -/
def signed : Sign → Float → Float
  | .positive, x => x
  | .negative, x => -x

theorem read?_sign_append {c : Char} (h : c.isDigit = true) (rest : List Char) (s : Sign) :
    read? (sign s ++ c :: rest) =
      (readDecimal? (c :: rest)).map fun d => signed s d.toFloat := by
  cases s with
  | positive =>
    rw [sign, List.nil_append, read?, readSign_of_digit h]
    dsimp only
    rw [readMagnitude?_of_digit h, Option.map_map]
    rfl
  | negative =>
    change (readMagnitude? (c :: rest)).map (fun x => if true then -x else x) = _
    rw [readMagnitude?_of_digit h, Option.map_map]
    rfl

section

variable {x : Float} {s : Sign}

theorem eq_of_unpack {u : UnpackedFloat} (h : x.toModel.unpack = u) :
    x = .ofModel (.pack u) := by
  obtain ⟨bits, hValid⟩ := x
  have hPack := UnpackedFloat.pack_unpack_of_valid hValid (by decide)
  rw [← h]
  simp only [Float.Model.pack, Float.Model.unpack, hPack]

theorem unpack_of_isFinite (h : x.isFinite = true) :
    (∃ s, x.toModel.unpack = .zero s) ∨ ∃ s m e hm, x.toModel.unpack = .finite s m e hm := by
  rw [Float.isFinite, Float.Model.isFinite] at h
  cases hUnpack : x.toModel.unpack with
  | notANumber =>
    rw [hUnpack] at h
    cases h
  | infinity s =>
    rw [hUnpack] at h
    cases h
  | zero s => exact .inl ⟨s, rfl⟩
  | finite s m e hm => exact .inr ⟨s, m, e, hm, rfl⟩

theorem eq_of_not_isFinite (h : x.isFinite = false) :
    x = notANumber ∨ x = infinity ∨ x = -infinity := by
  rw [Float.isFinite, Float.Model.isFinite] at h
  cases hUnpack : x.toModel.unpack with
  | notANumber => exact .inl (eq_of_unpack hUnpack)
  | infinity s =>
    cases s with
    | positive => exact .inr (.inl (eq_of_unpack hUnpack))
    | negative => exact .inr (.inr (eq_of_unpack hUnpack))
  | zero s =>
    rw [hUnpack] at h
    cases h
  | finite s m e hm =>
    rw [hUnpack] at h
    cases h

theorem isFinite_eq_false_iff : x.isFinite = false ↔ x.isNaN = true ∨ x.isInf = true := by
  change x.toModel.unpack.isFinite = false ↔
    x.toModel.unpack.isNaN = true ∨ x.toModel.unpack.isInf = true
  cases x.toModel.unpack <;>
    simp [UnpackedFloat.isFinite, UnpackedFloat.isNaN, UnpackedFloat.isInf]

variable {m : Nat} {e : Int} {hm : 0 < m}

theorem abs_of_unpack_finite (h : x.toModel.unpack = .finite s m e hm) :
    x.abs = .ofModel (.pack (.finite .positive m e hm)) := by
  rw [Float.abs, Float.Model.abs, h]
  rfl

theorem unpack_pack_positive (h : x.toModel.unpack = .finite s m e hm) :
    (Float.Model.pack (.finite .positive m e hm)).unpack = .finite .positive m e hm :=
  Binary.unpack_pack_of_unpack h .positive

theorem signed_abs_of_unpack_finite (h : x.toModel.unpack = .finite s m e hm) :
    signed s x.abs = x := by
  rw [abs_of_unpack_finite h, eq_of_unpack h]
  cases s with
  | positive => rfl
  | negative =>
    change Float.ofModel (.pack (Float.Model.pack (.finite .positive m e hm)).unpack.neg) = _
    rw [unpack_pack_positive h]
    rfl

theorem abs_ne_zero_of_unpack_finite (h : x.toModel.unpack = .finite s m e hm) : x.abs ≠ 0 := by
  intro hZero
  rw [abs_of_unpack_finite h] at hZero
  have hUnpack := congrArg (fun y : Float => y.toModel.unpack) hZero
  dsimp only at hUnpack
  rw [unpack_pack_positive h] at hUnpack
  cases hUnpack

theorem plain_of_unpack_finite (h : x.toModel.unpack = .finite s m e hm) :
    ∃ d text, plain x = sign s ++ text ∧ Spelled d text ∧ d.toFloat = x.abs := by
  obtain ⟨hFloat, hReduced⟩ := shortest_spec Layout.plain.tie
    (Binary.canonical_of_unpack h) (abs_of_unpack_finite h) (abs_ne_zero_of_unpack_finite h)
  refine ⟨_, _, ?_, spelled_spellOut hReduced, hFloat⟩
  rw [plain, write?, h, Option.getD_some]
  rfl

/-- The text that a number is written with is read as the number. -/
theorem read?_plain (x : Float) : read? (plain x) = some x := by
  cases hUnpack : x.toModel.unpack with
  | notANumber =>
    rw [eq_of_unpack hUnpack]
    decide
  | infinity s =>
    rw [eq_of_unpack hUnpack]
    cases s <;> decide
  | zero s =>
    rw [eq_of_unpack hUnpack]
    cases s <;> decide
  | finite s m e hm =>
    obtain ⟨d, text, hText, hSpelled, hFloat⟩ := plain_of_unpack_finite hUnpack
    obtain ⟨c, rest, hDigit, rfl⟩ := hSpelled.exists_digit
    rw [hText, read?_sign_append hDigit, hSpelled.readDecimal?_eq, Option.map_some, hFloat,
      signed_abs_of_unpack_finite hUnpack]

end

/-! ## The characters of a written number -/

def isWritten (c : Char) : Bool :=
  c.isDigit || ['.', '-', 'i', 'n', 'f', 'N', 'a'].contains c

theorem isWritten_of_mem_sign {s : Sign} {c : Char} (h : c ∈ sign s) : isWritten c = true := by
  cases s with
  | positive => cases h
  | negative =>
    obtain rfl := List.mem_singleton.mp h
    decide

theorem isWritten_of_mem_plain {x : Float} {c : Char} (h : c ∈ plain x) : isWritten c = true := by
  cases hUnpack : x.toModel.unpack with
  | notANumber =>
    rw [eq_of_unpack hUnpack] at h
    exact List.all_eq_true.mp (by decide) c h
  | infinity s =>
    rw [eq_of_unpack hUnpack] at h
    cases s <;> exact List.all_eq_true.mp (by decide) c h
  | zero s =>
    rw [eq_of_unpack hUnpack] at h
    cases s <;> exact List.all_eq_true.mp (by decide) c h
  | finite s m e hm =>
    obtain ⟨d, text, hText, hSpelled, _⟩ := plain_of_unpack_finite hUnpack
    rw [hText] at h
    rcases List.mem_append.mp h with h | h
    · exact isWritten_of_mem_sign h
    · rcases hSpelled.isDigit_or_point c h with hDigit | rfl
      · rw [isWritten, hDigit, Bool.true_or]
      · decide

theorem isBlank_of_isWritten {c : Char} (h : isWritten c = true) : Text.isBlank c = false := by
  have hSmall : c.toNat < 123 := by
    rw [isWritten, Bool.or_eq_true, List.contains_iff_mem] at h
    rcases h with hDigit | hMem
    · simp only [Char.isDigit, Bool.and_eq_true, decide_eq_true_eq] at hDigit
      have hHigh : c.toNat ≤ 57 := hDigit.2
      omega
    · have hWord : ['.', '-', 'i', 'n', 'f', 'N', 'a'].all (·.toNat < 123) = true := by decide
      exact of_decide_eq_true (List.all_eq_true.mp hWord c hMem)
  have hTable : ∀ n < 123, isWritten (.ofNat n) = true → Text.isBlank (.ofNat n) = false := by
    decide
  have hOwn := hTable c.toNat hSmall
  rw [Char.ofNat_toNat] at hOwn
  exact hOwn h

theorem isBlank_of_isDigit {c : Char} (h : c.isDigit = true) : Text.isBlank c = false :=
  isBlank_of_isWritten (by rw [isWritten, h, Bool.true_or])

theorem not_mem_plain {c : Char} (h : isWritten c = false) (x : Float) : c ∉ plain x := by
  intro hMem
  rw [isWritten_of_mem_plain hMem] at h
  cases h

theorem plain_ne_nil (x : Float) : plain x ≠ [] := by
  intro hNil
  have hRead := read?_plain x
  rw [hNil] at hRead
  cases hRead

end ReactiveSheet.Number
