import ScriptStore.Coercion

/-!
# Laws of loose comparison

When a value counts as changed against a value before it.  A value that is absent or false in a
condition counts as changed always, also against itself.  Any other value is left as it is exactly
if the new value has the same text and is true in a condition or is the empty text
(`Json.changed_eq_false_iff`).

As only arrays are true in a condition and still may have an empty text, they are the only values
that can be replaced by an empty text without a change (`Json.comparison_in_closed_form`).
-/

namespace ScriptStore

/-! ## Texts of numbers -/

theorem Decimal.plain_ne_nil (d : Decimal) : d.plain ≠ [] := by
  unfold plain
  split
  · exact List.append_ne_nil_of_left_ne_nil Nat.toDigits_ne_nil _
  · dsimp only
    split
    · exact List.append_ne_nil_of_right_ne_nil _ (List.cons_ne_nil _ _)
    · exact List.cons_ne_nil _ _

namespace Json

theorem doubleText_ne_empty (x : Binary64) : doubleText x ≠ "" := by
  unfold doubleText
  dsimp only
  split
  · decide
  · split
    all_goals
      rw [Ne, String.ofList_eq_empty_iff]
      exact List.append_ne_nil_of_right_ne_nil _ (Decimal.plain_ne_nil _)

theorem numberText_ne_empty (n : Number) : numberText n ≠ "" := by
  cases n with
  | int value fits =>
    rw [numberText, Ne, String.ofList_eq_empty_iff]
    exact List.append_ne_nil_of_right_ne_nil _ Nat.toDigits_ne_nil
  | float value => exact doubleText_ne_empty value

/-- Of the values that are true in a condition only arrays can have an empty text. -/
theorem exists_items_of_text_eq_empty {value : Json} (htruthy : value.truthy = true)
    (htext : value.text = "") : ∃ items, value = .arr items := by
  cases value with
  | null => cases htruthy
  | bool b =>
    cases b with
    | false => cases htruthy
    | true => exact absurd htext (by decide)
  | num n => exact absurd htext (numberText_ne_empty n)
  | str s =>
    obtain rfl : s = "" := htext
    cases htruthy
  | arr items => exact ⟨items, rfl⟩
  | obj fields =>
    have hshown : "[object Object]" = "" := htext
    exact absurd hshown (by decide)

/-! ## Absent and false values -/

theorem changed_none (new : Json) : changed none new = true := by
  rw [changed, Option.any_none, Bool.not_false, Bool.or_true]

/-- A value that is false in a condition counts as changed, whatever comes after it. -/
theorem changed_of_not_truthy {old : Json} (h : old.truthy = false) (new : Json) :
    changed (some old) new = true := by
  rw [changed, Option.any_some, h, Bool.not_false, Bool.or_true]

/-- A value that is left counts as true in a condition. -/
theorem truthy_of_not_changed {old : Option Json} {new : Json} (h : changed old new = false) :
    ∃ value, old = some value ∧ value.truthy = true := by
  cases old with
  | none =>
    rw [changed_none] at h
    cases h
  | some value =>
    refine ⟨value, rfl, ?_⟩
    cases htruthy : value.truthy with
    | true => rfl
    | false =>
      rw [changed_of_not_truthy htruthy] at h
      cases h

/-- Against itself a value counts as changed exactly if it is false in a condition. -/
theorem changed_self (value : Json) : changed (some value) value = !value.truthy := by
  cases htruthy : value.truthy with
  | false => exact changed_of_not_truthy htruthy value
  | true =>
    have hold : oldOperand (some value) = .str value.text := by rw [oldOperand, if_pos htruthy]
    have hnew : newOperand value = .str value.text := by rw [newOperand, if_pos htruthy]
    have heq : strictEq (.str value.text) (.str value.text) = true := beq_self_eq_true value.text
    rw [changed, hold, hnew, heq, Option.any_some, htruthy]
    rfl

/-! ## The closed form -/

/-- Without coercion a text equals nothing but itself. -/
theorem strictEq_str_iff (text : String) (value : Json) :
    strictEq (.str text) value = true ↔ value = .str text := by
  cases value with
  | str other =>
    show (text == other) = true ↔ _
    rw [beq_iff_eq, str.injEq, eq_comm]
  | _ => simp [strictEq]

/-- The new side of a comparison is a text exactly for values of this text that are true in a
condition, and for the empty text. -/
theorem newOperand_eq_str_iff (text : String) (new : Json) :
    newOperand new = .str text ↔ new.text = text ∧ (new.truthy = true ∨ new = .str "") := by
  unfold newOperand
  split
  · rename_i htruthy
    simp [htruthy]
  · rename_i hfalsy
    constructor
    · rintro rfl
      have hempty : text = "" := by simpa [truthy] using hfalsy
      exact ⟨rfl, Or.inr (congrArg Json.str hempty)⟩
    · rintro ⟨rfl, htruthy | rfl⟩
      · exact absurd htruthy hfalsy
      · rfl

/-- A value that is true in a condition is left as it is exactly if the new one has the same text
and is true in a condition or is the empty text. -/
theorem changed_some_eq_false_iff {old : Json} (htruthy : old.truthy = true) (new : Json) :
    changed (some old) new = false ↔
      old.text = new.text ∧ (new.truthy = true ∨ new = .str "") := by
  have hold : oldOperand (some old) = .str old.text := by rw [oldOperand, if_pos htruthy]
  rw [changed, hold, Option.any_some, htruthy, Bool.not_true, Bool.or_false, Bool.not_eq_false',
    strictEq_str_iff, newOperand_eq_str_iff, eq_comm (a := old.text)]

/-- The change rule in closed form. -/
theorem changed_eq_false_iff (old : Option Json) (new : Json) :
    changed old new = false ↔ ∃ value, old = some value ∧ value.truthy = true ∧
      value.text = new.text ∧ (new.truthy = true ∨ new = .str "") := by
  constructor
  · intro h
    obtain ⟨value, rfl, htruthy⟩ := truthy_of_not_changed h
    exact ⟨value, rfl, htruthy, (changed_some_eq_false_iff htruthy new).mp h⟩
  · rintro ⟨value, rfl, htruthy, h⟩
    exact (changed_some_eq_false_iff htruthy new).mpr h

/-- Among values that are true in a condition only the texts are compared. -/
theorem changed_eq_false_iff_text_eq {old new : Json} (hold : old.truthy = true)
    (hnew : new.truthy = true) : changed (some old) new = false ↔ old.text = new.text := by
  rw [changed_some_eq_false_iff hold, or_iff_left_of_imp fun _ => hnew, and_iff_left hnew]

/-- Whether a value that is true in a condition is left as it is when the other one comes. -/
def Unchanged (old new : { value : Json // value.truthy = true }) : Prop :=
  changed (some old.1) new.1 = false

/-- **Loose comparison in closed form.**  A value is left as it is exactly if it is there, is true
in a condition and has the text of the new value, and the new value is true in a condition or is
the empty text.  So the values that are true in a condition fall into classes of equal texts,
exactly these values are left as they are against themselves, and a value that is false in a
condition changes all of them, unless it is the empty text and comes after an array with an empty
text. -/
theorem comparison_in_closed_form :
    (∀ old new, changed old new = false ↔ ∃ value, old = some value ∧ value.truthy = true ∧
      value.text = new.text ∧ (new.truthy = true ∨ new = .str "")) ∧
    Equivalence Unchanged ∧
    (∀ value, changed (some value) value = false ↔ value.truthy = true) ∧
    ∀ old new : Json, old.truthy = true → new.truthy = false →
      (changed (some old) new = false ↔
        new = .str "" ∧ old.text = "" ∧ ∃ items, old = .arr items) := by
  have htexts (a b : { value : Json // value.truthy = true }) :
      Unchanged a b ↔ a.1.text = b.1.text := changed_eq_false_iff_text_eq a.2 b.2
  refine ⟨changed_eq_false_iff, ⟨?_, ?_, ?_⟩, ?_, ?_⟩
  · intro a
    exact (htexts a a).mpr rfl
  · intro a b hab
    exact (htexts b a).mpr ((htexts a b).mp hab).symm
  · intro a b c hab hbc
    exact (htexts a c).mpr (((htexts a b).mp hab).trans ((htexts b c).mp hbc))
  · intro value
    rw [changed_self, Bool.not_eq_false']
  · intro old new hold hnew
    rw [changed_some_eq_false_iff hold, hnew, or_iff_right Bool.false_ne_true]
    constructor
    · rintro ⟨htext, rfl⟩
      exact ⟨rfl, htext, exists_items_of_text_eq_empty hold htext⟩
    · rintro ⟨rfl, htext, -⟩
      exact ⟨htext, rfl⟩

/-- An array whose text is empty. -/
def hollowArray : Json := .arr [.arr [.null]]

/-- The array is left as it is when the empty text comes, but not when `null` does. -/
theorem hollowArray_yields_to_empty_text :
    hollowArray.truthy = true ∧ (Json.str "").truthy = false ∧ Json.null.truthy = false ∧
      changed (some hollowArray) (.str "") = false ∧ changed (some hollowArray) .null = true := by
  obtain ⟨-, -, -, hfalsy⟩ := comparison_in_closed_form
  have hold : hollowArray.truthy = true := rfl
  refine ⟨hold, rfl, rfl, ?_, ?_⟩
  · exact (hfalsy hollowArray (.str "") hold rfl).mpr ⟨rfl, by decide, _, rfl⟩
  · rw [← Bool.not_eq_false, hfalsy hollowArray .null hold rfl]
    rintro ⟨hnull, -⟩
    cases hnull

end Json

end ScriptStore
