import Mathlib.Data.List.Basic
import Mathlib.Data.String.Basic

/-! # `String.prototype.trim`

White space and line terminators taken off both ends of a text. Trimming is a
projection, and `isBlank` asks whether anything is left of a text.
-/

namespace Js

/-- A white space or a line terminator. -/
def isSpace (c : Char) : Bool :=
  c.val ∈ [0x9, 0xA, 0xB, 0xC, 0xD, 0x20, 0xA0, 0x1680, 0x2028, 0x2029, 0x202F, 0x205F,
    0x3000, 0xFEFF] || (0x2000 ≤ c.val && c.val ≤ 0x200A)

/-! ## Both ends of a list -/

section
variable {α : Type*} (drop : α → Bool)

/-- The list without the items at its ends that `drop` names. -/
def stripEnds (items : List α) : List α :=
  ((items.dropWhile drop).reverse.dropWhile drop).reverse

variable {drop}

theorem dropWhile_eq_self {items : List α} (h : ∀ a ∈ items.head?, drop a = false) :
    items.dropWhile drop = items := by
  cases items with
  | nil => rfl
  | cons a rest => simp [h a rfl]

theorem head?_dropWhile (items : List α) : ∀ a ∈ (items.dropWhile drop).head?, drop a = false := by
  intro a ha
  have hne := List.head?_dropWhile_not drop items
  rw [Option.mem_def.mp ha] at hne
  exact hne

/-- What `dropWhile` leaves at the front is still there when the back is taken off. -/
theorem head?_stripEnds (items : List α) : ∀ a ∈ (stripEnds drop items).head?, drop a = false := by
  intro a ha
  obtain ⟨kept, dropped, hsplit⟩ : ∃ kept dropped : List α,
      items.dropWhile drop = kept ++ dropped ∧ stripEnds drop items = kept := by
    refine ⟨_, ((items.dropWhile drop).reverse.takeWhile drop).reverse, ?_, rfl⟩
    rw [stripEnds, ← List.reverse_append, List.takeWhile_append_dropWhile, List.reverse_reverse]
  rw [hsplit.2] at ha
  apply head?_dropWhile items a
  rw [hsplit.1]
  cases kept with
  | nil => cases ha
  | cons b rest => exact ha

theorem stripEnds_stripEnds (items : List α) :
    stripEnds drop (stripEnds drop items) = stripEnds drop items := by
  have hfront : (stripEnds drop items).dropWhile drop = stripEnds drop items :=
    dropWhile_eq_self (head?_stripEnds items)
  have hback : (stripEnds drop items).reverse.dropWhile drop = (stripEnds drop items).reverse := by
    apply dropWhile_eq_self
    rw [stripEnds, List.reverse_reverse]
    exact head?_dropWhile _
  conv_lhs => rw [stripEnds, hfront, hback, List.reverse_reverse]

end

/-- `text.trim()` -/
def trim (text : String) : String := String.ofList (stripEnds isSpace text.toList)

@[simp] theorem trim_trim (text : String) : trim (trim text) = trim text := by
  simp only [trim, String.toList_ofList, stripEnds_stripEnds]

/-- `!text.trim()` -/
def isBlank (text : String) : Bool := trim text == ""

@[simp] theorem isBlank_trim (text : String) : isBlank (trim text) = isBlank text := by
  simp only [isBlank, trim_trim]

end Js
