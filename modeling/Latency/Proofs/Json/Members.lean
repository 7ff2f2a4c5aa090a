import Latency.Json.Basic
import Mathlib.Tactic.Common
/-!
# Members by their keys

What is looked up in members that were set (`put`) or changed where they stand.
-/

namespace Latency.Json

variable {α β : Type} {key other : String}

theorem lookup_put_self (key : String) (value : α) (members : List (String × α)) :
    (put key value members).lookup key = some value := by
  induction members with
  | nil => simp [put]
  | cons m rest ih =>
    obtain ⟨k, v⟩ := m
    unfold put
    split
    · next hkey => simp [hkey]
    · next hne => rw [List.lookup_cons, beq_false_of_ne (Ne.symm hne), ih]

theorem lookup_put_of_ne (hne : other ≠ key) (value : α) (members : List (String × α)) :
    (put key value members).lookup other = members.lookup other := by
  induction members with
  | nil => simp [put, hne]
  | cons m rest ih =>
    obtain ⟨k, v⟩ := m
    unfold put
    split
    · next hkey =>
      subst hkey
      rw [List.lookup_cons, List.lookup_cons, beq_false_of_ne hne]
    · rw [List.lookup_cons, List.lookup_cons, ih]

theorem lookup_map_value (change : String → α → β) (key : String) (members : List (String × α)) :
    (members.map fun m => (m.1, change m.1 m.2)).lookup key =
      (members.lookup key).map (change key) := by
  induction members with
  | nil => rfl
  | cons m rest ih =>
    obtain ⟨k, v⟩ := m
    by_cases hkey : key = k
    · subst hkey
      simp
    · have hne : (key == k) = false := beq_false_of_ne hkey
      rw [List.map_cons, List.lookup_cons, List.lookup_cons, hne, ih]

end Latency.Json
