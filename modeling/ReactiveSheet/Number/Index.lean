/-! # Cell indices

An index is a whole number that fits in 64 bits.
-/

namespace ReactiveSheet.Index

set_option autoImplicit false

/-- The number of indices. -/
def bound : Nat := Nat.pow 2 64

def digits : List Char → List Char
  | '+' :: rest => rest
  | text => text

/-- Reads ASCII digits behind an optional plus sign. -/
def read? (text : List Char) : Option Nat :=
  let digits := digits text
  if digits.isEmpty || !digits.all Char.isDigit then none
  else
    let index := Nat.ofDigitChars 10 digits 0
    if index < bound then some index else none

theorem lt_bound_of_read? {text : List Char} {index : Nat} (h : read? text = some index) :
    index < bound := by
  simp only [read?] at h
  split at h
  · cases h
  · split at h
    · rename_i hBound
      exact Option.some.inj h ▸ hBound
    · cases h

theorem digits_of_isDigit {text : List Char} (h : ∀ c ∈ text, c.isDigit = true) :
    digits text = text := by
  unfold digits
  split
  · exact absurd (h '+' List.mem_cons_self) (by decide)
  · rfl

theorem toList_toString (index : Nat) : (toString index).toList = Nat.toDigits 10 index := by
  rw [Nat.toString_eq_repr, Nat.toList_repr]

theorem isDigit_of_mem_toString {index : Nat} {c : Char} (h : c ∈ (toString index).toList) :
    c.isDigit = true := by
  rw [toList_toString] at h
  exact Nat.isDigit_of_mem_toDigits (by decide) (by decide) h

theorem not_mem_toString {c : Char} (h : c.isDigit = false) (index : Nat) :
    c ∉ (toString index).toList := by
  intro hMem
  rw [isDigit_of_mem_toString hMem] at h
  cases h

/-- An index is read from its own digits. -/
theorem read?_toString {index : Nat} (h : index < bound) :
    read? (toString index).toList = some index := by
  have hDigits : ∀ c ∈ Nat.toDigits 10 index, c.isDigit = true := fun _ =>
    Nat.isDigit_of_mem_toDigits (by decide) (by decide)
  have hNonempty : Nat.toDigits 10 index ≠ [] := Nat.toDigits_ne_nil
  have hValue : Nat.ofDigitChars 10 (Nat.toDigits 10 index) 0 = index :=
    Nat.ofDigitChars_ten_toDigits
  rw [toList_toString]
  simpa [read?, digits_of_isDigit hDigits, hValue, h, hNonempty] using hDigits

end ReactiveSheet.Index
