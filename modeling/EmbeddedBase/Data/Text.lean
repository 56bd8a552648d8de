import Mathlib.Data.List.DropRight

/-!
# Texts

Texts are lists of characters.  The white space at their ends, and the lines of a stream, as
Python takes them.
-/

namespace EmbeddedBase.Data

/-- A text. -/
abbrev Text :=
  List Char

/-! ## White space -/

/-- The characters that `str.strip` removes. -/
def isSpace (char : Char) : Bool :=
  let code := char.toNat
  (0x09 ≤ code && code ≤ 0x0D) || (0x1C ≤ code && code ≤ 0x20) || code == 0x85 ||
    code == 0xA0 || code == 0x1680 || (0x2000 ≤ code && code ≤ 0x200A) || code == 0x2028 ||
    code == 0x2029 || code == 0x202F || code == 0x205F || code == 0x3000

/-- A text without the characters of a kind at its ends. -/
def trim (p : Char → Bool) (text : Text) : Text :=
  (text.dropWhile p).rdropWhile p

/-- `str.strip`. -/
def strip (text : Text) : Text :=
  trim isSpace text

section Trim

variable {p : Char → Bool} {text : Text}

theorem dropWhile_of_head (first : ∀ char ∈ text.head?, p char = false) :
    text.dropWhile p = text := by
  cases text with
  | nil => rfl
  | cons char rest =>
      rw [List.dropWhile_cons, first char rfl]
      rfl

theorem rdropWhile_of_last (last : ∀ char ∈ text.getLast?, p char = false) :
    text.rdropWhile p = text := by
  rw [List.rdropWhile_eq_self_iff]
  intro nonempty
  rw [last _ (List.getLast?_eq_getLast_of_ne_nil nonempty)]
  exact Bool.false_ne_true

/-- A text with other characters at its ends. -/
theorem trim_eq_self (first : ∀ char ∈ text.head?, p char = false)
    (last : ∀ char ∈ text.getLast?, p char = false) : trim p text = text := by
  rw [trim, dropWhile_of_head first, rdropWhile_of_last last]

/-- A trimmed text is trimmed no further. -/
theorem trim_trim (p : Char → Bool) (text : Text) : trim p (trim p text) = trim p text := by
  have back : (trim p text).rdropWhile p = trim p text := List.rdropWhile_idempotent _ _
  have front : (trim p text).dropWhile p = trim p text := by
    apply dropWhile_of_head
    intro char first
    rcases List.rdropWhile_prefix p (text.dropWhile p) with ⟨removed, whole⟩
    rcases List.head?_eq_some_iff.mp first with ⟨rest, shape⟩
    rw [trim] at shape
    rw [shape, List.cons_append] at whole
    have kept := List.head?_dropWhile_not p text
    rw [← whole] at kept
    exact kept
  rw [trim, front, back]

end Trim

theorem strip_strip (text : Text) : strip (strip text) = strip text :=
  trim_trim isSpace text

/-! ## Parts -/

/-- The parts contain no separator. -/
theorem not_separator_of_mem_splitOnP {α : Type*} {p : α → Bool} {a : α} {text part : List α}
    (inParts : part ∈ text.splitOnP p) (inPart : a ∈ part) : p a = false := by
  induction text generalizing part with
  | nil =>
      rw [List.splitOnP_nil, List.mem_singleton] at inParts
      rw [inParts] at inPart
      cases inPart
  | cons first rest ih =>
      rw [List.splitOnP_cons_eq_if_modifyHead] at inParts
      by_cases separator : p first = true
      · rw [if_pos separator] at inParts
        rcases List.mem_cons.mp inParts with rfl | later
        · cases inPart
        · exact ih later inPart
      · rcases List.exists_cons_of_ne_nil (List.splitOnP_ne_nil p rest) with ⟨head, tail, parts⟩
        rw [if_neg separator, parts, List.modifyHead_cons] at inParts
        rw [parts] at ih
        rcases List.mem_cons.mp inParts with rfl | inTail
        · rcases List.mem_cons.mp inPart with rfl | inHead
          · exact Bool.eq_false_iff.mpr separator
          · exact ih List.mem_cons_self inHead
        · exact ih (List.mem_cons_of_mem _ inTail) inPart

/-! ## Lines -/

section Lines

variable {α : Type*} [BEq α] [LawfulBEq α] (feed : α)

variable {feed}

end Lines

end EmbeddedBase.Data
