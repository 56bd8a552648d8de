import Mathlib.Data.List.Basic

/-!
# Reading from the front of a list

A reader takes items from the front of a list, like a pointer that moves through a buffer,
and has no result when it would read past the end.  The file gives the facts that compose
along a reader: how many items it takes, what it returns, and which items it reads as a
value.
-/

namespace EmbeddedBase.Data

universe u

/-- A reader of items. -/
abbrev Reader (β : Type u) (α : Type u) :=
  StateT (List β) Option α

namespace Reader

variable {β α γ : Type u}

/-- The next item. -/
def next : Reader β β := fun items =>
  match items with
  | [] => none
  | item :: rest => some (item, rest)

/-- The next items, as a list. -/
def take (count : Nat) : Reader β (List β) := fun items =>
  if count ≤ items.length then some (items.take count, items.drop count) else none

/-- Move past items. -/
def skip (count : Nat) : Reader β PUnit := fun items =>
  if count ≤ items.length then some (⟨⟩, items.drop count) else none

/-! ## Readers that stay in the list -/

/-- On every list with `count` items the reader has a result, and it takes `count`. -/
def Takes (count : Nat) (reader : Reader β α) : Prop :=
  ∀ items, count ≤ items.length → ∃ value, reader items = some (value, items.drop count)

theorem takes_pure (value : α) : Takes 0 (pure value : Reader β α) :=
  fun _ _ => ⟨value, rfl⟩

theorem takes_next : Takes 1 (next : Reader β β) := by
  intro items enough
  cases items with
  | nil => cases enough
  | cons item rest => exact ⟨item, rfl⟩

theorem takes_take (count : Nat) : Takes count (take count : Reader β (List β)) :=
  fun items enough => ⟨items.take count, if_pos enough⟩

theorem takes_skip (count : Nat) : Takes count (skip count : Reader β PUnit) :=
  fun _ enough => ⟨⟨⟩, if_pos enough⟩

theorem Takes.bind {first second : Nat} {reader : Reader β α} {following : α → Reader β γ}
    (takes : Takes first reader) (later : ∀ value, Takes second (following value)) :
    Takes (first + second) (reader >>= following) := by
  intro items enough
  rcases takes items (Nat.le_trans (Nat.le_add_right first second) enough) with ⟨value, taken⟩
  have rest : second ≤ (items.drop first).length := by
    rw [List.length_drop]
    omega
  rcases later value _ rest with ⟨final, read⟩
  refine ⟨final, ?_⟩
  change (reader items).bind _ = _
  rw [taken, ← List.drop_drop]
  exact read

/-! ## What a reader returns -/

/-- Whatever it reads, the reader returns a value with the property. -/
def Returns (property : α → Prop) (reader : Reader β α) : Prop :=
  ∀ items value rest, reader items = some (value, rest) → property value

theorem returns_pure {property : α → Prop} {value : α} (holds : property value) :
    Returns property (pure value : Reader β α) := by
  intro items other rest read
  cases read
  exact holds

theorem returns_bind {property : γ → Prop} {reader : Reader β α} {following : α → Reader β γ}
    (later : ∀ value, Returns property (following value)) :
    Returns property (reader >>= following) := by
  intro items value rest read
  change (reader items).bind _ = _ at read
  rcases Option.bind_eq_some_iff.mp read with ⟨⟨first, middle⟩, -, last⟩
  exact later first middle value rest last

/-! ## Reading back -/

/-- The reader reads the items as the value, whatever follows them. -/
def Reads (reader : Reader β α) (items : List β) (value : α) : Prop :=
  ∀ rest, reader (items ++ rest) = some (value, rest)

theorem reads_pure (value : α) : Reads (pure value : Reader β α) [] value :=
  fun _ => rfl

theorem reads_next (item : β) : Reads next [item] item :=
  fun _ => rfl

theorem reads_take {count : Nat} {items : List β} (length : items.length = count) :
    Reads (take count) items items := by
  subst length
  intro rest
  unfold take
  rw [if_pos (by rw [List.length_append]; exact Nat.le_add_right _ _), List.take_left,
    List.drop_left]

theorem reads_skip {count : Nat} {items : List β} (length : items.length = count) :
    Reads (skip count) items ⟨⟩ := by
  subst length
  intro rest
  unfold skip
  rw [if_pos (by rw [List.length_append]; exact Nat.le_add_right _ _), List.drop_left]

theorem Reads.bind {reader : Reader β α} {following : α → Reader β γ} {items more : List β}
    {value : α} {final : γ} (reads : Reads reader items value)
    (later : Reads (following value) more final) :
    Reads (reader >>= following) (items ++ more) final := by
  intro rest
  change (reader _).bind _ = _
  rw [List.append_assoc, reads (more ++ rest)]
  exact later rest

end Reader

end EmbeddedBase.Data
