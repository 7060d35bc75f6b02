/-!
# Dictionaries

A dictionary is a list of keys with their values in the order in which the keys were first put
there. It is read with `List.lookup`; `put` changes one value, or adds a key at the end.
-/

namespace ShellTutor.Dictionary

variable {α : Type}

/-- Puts a value under a key: in place of the value that is there, else at the end. -/
def put (key : String) (value : α) : List (String × α) → List (String × α)
  | [] => [(key, value)]
  | (k, v) :: rest => if k = key then (key, value) :: rest else (k, v) :: put key value rest

/-- Looking up an entry's own key gives its value, and any other key is looked up behind it. -/
theorem lookup_entry (key other : String) (value : α) (rest : List (String × α)) :
    List.lookup other ((key, value) :: rest) =
      if other = key then some value else rest.lookup other := by
  rw [List.lookup_cons]
  by_cases h : other = key
  · simp [h]
  · simp [h, beq_false_of_ne h]

/-- The key that was put has the new value, and every other key keeps what it had. -/
theorem lookup_put (key other : String) (value : α) (entries : List (String × α)) :
    (put key value entries).lookup other =
      if other = key then some value else entries.lookup other := by
  induction entries with
  | nil => rw [put, lookup_entry]
  | cons entry rest ih =>
    obtain ⟨k, v⟩ := entry
    rw [put]
    split
    · rename_i hk
      subst hk
      rw [lookup_entry, lookup_entry]
      split <;> rfl
    · rename_i hk
      rw [lookup_entry, lookup_entry, ih]
      by_cases hother : other = k
      · simp [hother, hk]
      · simp [hother]

/-- A key is added at the end if it is new; otherwise the keys stay as they are. -/
theorem keys_put (key : String) (value : α) (entries : List (String × α)) :
    (put key value entries).map Prod.fst =
      if key ∈ entries.map Prod.fst then entries.map Prod.fst
      else entries.map Prod.fst ++ [key] := by
  induction entries with
  | nil => simp [put]
  | cons entry rest ih =>
    obtain ⟨k, v⟩ := entry
    rw [put]
    split
    · rename_i hk
      simp [hk]
    · rename_i hk
      have hne : key ≠ k := fun h => hk h.symm
      simp only [List.map_cons, List.mem_cons, hne, false_or, ih]
      split <;> simp

/-- Of two values under one key the later one stays. -/
theorem put_put (key : String) (first second : α) (entries : List (String × α)) :
    put key second (put key first entries) = put key second entries := by
  induction entries with
  | nil => simp [put]
  | cons entry rest ih =>
    obtain ⟨k, v⟩ := entry
    by_cases hk : k = key
    · simp [put, hk]
    · simp [put, hk, ih]

end ShellTutor.Dictionary
