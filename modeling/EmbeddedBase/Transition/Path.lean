import Mathlib.Data.List.Nodup
import Mathlib.Logic.Relation

/-!
# Paths of a partial function

A partial function on finitely many keys is followed until it is undefined or meets a key that
was visited.  From nothing visited, the path holds all that can be reached.
-/

namespace EmbeddedBase.Transition

universe u

variable {α : Type u}

/-- `next` leads from the first to the second in some number of steps. -/
def Leads (next : α → Option α) : α → α → Prop :=
  Relation.ReflTransGen fun a b => next a = some b

/-- The same in at least one step. -/
def LeadsOn (next : α → Option α) : α → α → Prop :=
  Relation.TransGen fun a b => next a = some b

variable [DecidableEq α]

/-- The number of keys that were not visited. -/
def left (keys visited : List α) : Nat :=
  (keys.filter (· ∉ visited)).length

/-- Fewer keys are left when one more of them was visited. -/
theorem left_lt_left {keys visited : List α} {a : α} (inKeys : a ∈ keys) (fresh : a ∉ visited) :
    left keys (visited ++ [a]) < left keys visited := by
  have split : keys.filter (· ∉ visited ++ [a]) =
      (keys.filter (· ∉ visited)).filter (· ≠ a) := by
    rw [List.filter_filter]
    apply List.filter_congr
    intro key _
    simp [and_comm]
  rw [left, split]
  apply List.length_filter_lt_length_iff_exists.mpr
  exact ⟨a, List.mem_filter.mpr ⟨inKeys, by simpa using fresh⟩, by simp⟩

/-- The keys from `a` on, up to one that was visited. -/
def path (keys : List α) (next : α → Option α) (visited : List α) (a : α) : List α :=
  if _ : a ∈ keys then
    if _ : a ∈ visited then []
    else
      match next a with
      | none => [a]
      | some b => a :: path keys next (visited ++ [a]) b
  else []
termination_by left keys visited
decreasing_by exact left_lt_left ‹_› ‹_›

variable {keys visited : List α} {next : α → Option α} {a b c : α}

theorem path_of_not_key (notKey : a ∉ keys) : path keys next visited a = [] := by
  rw [path, dif_neg notKey]

theorem path_of_visited (seen : a ∈ visited) : path keys next visited a = [] := by
  rw [path]
  by_cases inKeys : a ∈ keys
  · rw [dif_pos inKeys, dif_pos seen]
  · rw [dif_neg inKeys]

theorem path_of_none (inKeys : a ∈ keys) (fresh : a ∉ visited) (last : next a = none) :
    path keys next visited a = [a] := by
  rw [path, dif_pos inKeys, dif_neg fresh, last]

theorem path_of_some (inKeys : a ∈ keys) (fresh : a ∉ visited) (step : next a = some b) :
    path keys next visited a = a :: path keys next (visited ++ [a]) b := by
  rw [path, dif_pos inKeys, dif_neg fresh, step]

/-- The path starts at a key that was not visited. -/
theorem path_cases (keys visited : List α) (next : α → Option α) (a : α) :
    path keys next visited a = [] ∧ (a ∉ keys ∨ a ∈ visited) ∨
      a ∈ keys ∧ a ∉ visited ∧ a ∈ path keys next visited a := by
  by_cases inKeys : a ∈ keys
  · by_cases seen : a ∈ visited
    · exact .inl ⟨path_of_visited seen, .inr seen⟩
    · refine .inr ⟨inKeys, seen, ?_⟩
      cases step : next a with
      | none =>
          rw [path_of_none inKeys seen step]
          exact List.mem_cons_self
      | some b =>
          rw [path_of_some inKeys seen step]
          exact List.mem_cons_self
  · exact .inl ⟨path_of_not_key inKeys, .inl inKeys⟩

/-- What is on the path is a key that was not visited, and `next` leads there. -/
theorem of_mem_path (onPath : b ∈ path keys next visited a) :
    b ∈ keys ∧ b ∉ visited ∧ Leads next a b := by
  fun_induction path keys next visited a with
  | case1 => cases onPath
  | case2 visited a inKeys fresh last =>
      rw [List.mem_singleton.mp onPath]
      exact ⟨inKeys, fresh, .refl⟩
  | case3 visited a inKeys fresh middle step ih =>
      rcases List.mem_cons.mp onPath with rfl | later
      · exact ⟨inKeys, fresh, .refl⟩
      · rcases ih later with ⟨inKeys, fresh, leads⟩
        exact ⟨inKeys, fun seen => fresh (List.mem_append_left _ seen), .head step leads⟩
  | case4 => cases onPath

/-- The path goes on to the next key, unless that was visited. -/
theorem next_mem_path (onPath : b ∈ path keys next visited a) (step : next b = some c)
    (inKeys : c ∈ keys) : c ∈ path keys next visited a ∨ c ∈ visited := by
  fun_induction path keys next visited a with
  | case1 => cases onPath
  | case2 visited a _ _ last =>
      rw [List.mem_singleton.mp onPath, last] at step
      cases step
  | case3 visited a _ _ middle toMiddle ih =>
      have fromMiddle : c ∈ path keys next (visited ++ [a]) middle ∨ c ∈ visited ++ [a] := by
        rcases List.mem_cons.mp onPath with rfl | later
        · rw [toMiddle] at step
          cases step
          rcases path_cases keys (visited ++ [b]) next c with ⟨_, notKey | seen⟩ | ⟨_, _, starts⟩
          · exact absurd inKeys notKey
          · exact .inr seen
          · exact .inl starts
        · exact ih later
      rcases fromMiddle with later | seen
      · exact .inl (List.mem_cons_of_mem _ later)
      · rcases List.mem_append.mp seen with before | here
        · exact .inr before
        · rw [List.mem_singleton.mp here]
          exact .inl List.mem_cons_self
  | case4 => cases onPath

/-- All that can be reached is on a path that does not leave the keys. -/
theorem mem_path_of_leads (start : a ∈ keys)
    (stays : ∀ b ∈ path keys next [] a, ∀ c, next b = some c → c ∈ keys)
    (leads : Leads next a b) : b ∈ path keys next [] a := by
  induction leads with
  | refl =>
      rcases path_cases keys [] next a with ⟨_, notKey | seen⟩ | ⟨_, _, starts⟩
      · exact absurd start notKey
      · cases seen
      · exact starts
  | tail before step ih =>
      rcases next_mem_path ih step (stays _ ih _ step) with onPath | seen
      · exact onPath
      · cases seen

/-- With all that can be reached among the keys, the path holds just that. -/
theorem mem_path_iff (all : ∀ b, Leads next a b → b ∈ keys) :
    b ∈ path keys next [] a ↔ Leads next a b := by
  constructor
  · exact fun onPath => (of_mem_path onPath).2.2
  · apply mem_path_of_leads (all a .refl)
    intro b onPath c step
    exact all c ((of_mem_path onPath).2.2.tail step)

end EmbeddedBase.Transition
