/-!
# Indexes

What is registered under a key stands in a list, in order of registration, and
an index beside the list leads from a key to a place in it.  The two are changed
together: an entry that is appended is put into the index, if it has a key, and
an entry that is changed in place keeps its key.  So the index leads exactly to
the places of the entries with their keys, and no two entries share a key.
-/

namespace FilterQuery

/-- Places in a list by key.  Of several places for one key the one put in last
counts. -/
structure Index where
  places : List (String × Nat) := []
  deriving DecidableEq, Inhabited, Repr

namespace Index

variable {β : Type} {index : Index} {key? : β → Option String} {entries : List β}

/-- The place that a key leads to. -/
def place? (index : Index) (key : String) : Option Nat := index.places.lookup key

/-- Lets a key lead to a place. -/
def put (index : Index) (key : String) (place : Nat) : Index :=
  ⟨(key, place) :: index.places⟩

/-- The key put in leads to its place, and all others lead where they did. -/
theorem place?_put (index : Index) (key other : String) (place : Nat) :
    (index.put key place).place? other =
      if other = key then some place else index.place? other := by
  rw [place?, put, List.lookup_cons, place?]
  by_cases h : other = key
  · rw [if_pos h, beq_iff_eq.mpr h]
  · rw [if_neg h, beq_false_of_ne h]

/-- A key leads exactly to the places of the entries that have it. -/
def LeadsTo (index : Index) (key? : β → Option String) (entries : List β) : Prop :=
  ∀ key i, index.place? key = some i ↔ entries[i]?.bind key? = some key

/-- Nothing leads into an empty list. -/
theorem leadsTo_nil (key? : β → Option String) : LeadsTo {} key? [] := by
  intro key i
  exact iff_of_false nofun nofun

/-- What a key leads to is a place in the list. -/
theorem LeadsTo.lt_length (h : index.LeadsTo key? entries) {key : String} {i : Nat}
    (hplace : index.place? key = some i) : i < entries.length := by
  have hkey := (h key i).mp hplace
  by_cases hlt : i < entries.length
  · exact hlt
  · rw [List.getElem?_eq_none (Nat.le_of_not_lt hlt)] at hkey
    cases hkey

/-- A key that leads nowhere is not the key of an entry. -/
theorem LeadsTo.key_ne (h : index.LeadsTo key? entries) {key : String}
    (hfree : index.place? key = none) (i : Nat) :
    entries[i]?.bind key? ≠ some key := by
  intro hkey
  cases hfree.symm.trans ((h key i).mpr hkey)

/-- Of the keys, appending an entry changes the one at the end only. -/
theorem key?_concat (key? : β → Option String) (entries : List β) (b : β) (i : Nat) :
    (entries ++ [b])[i]?.bind key? =
      if i = entries.length then key? b else entries[i]?.bind key? := by
  rcases Nat.lt_trichotomy i entries.length with hlt | rfl | hgt
  · rw [List.getElem?_append_left hlt, if_neg (Nat.ne_of_lt hlt)]
  · rw [List.getElem?_concat_length, Option.bind_some, if_pos rfl]
  · have hend : (entries ++ [b]).length ≤ i := by
      rw [List.length_append, List.length_singleton]
      exact hgt
    rw [List.getElem?_eq_none hend, if_neg (Nat.ne_of_gt hgt),
      List.getElem?_eq_none (Nat.le_of_lt hgt)]

/-- An entry with a new key is appended and put into the index. -/
theorem LeadsTo.put (h : index.LeadsTo key? entries) {b : β} {key : String}
    (hkey : key? b = some key) (hfree : index.place? key = none) :
    (index.put key entries.length).LeadsTo key? (entries ++ [b]) := by
  intro other i
  rw [place?_put, key?_concat]
  by_cases hother : other = key <;> by_cases hend : i = entries.length
  · rw [if_pos hother, if_pos hend, hkey, hother, hend]
    exact iff_of_true rfl rfl
  · rw [if_pos hother, if_neg hend, hother]
    exact iff_of_false (fun heq => hend (Option.some.inj heq).symm) (h.key_ne hfree i)
  · rw [if_neg hother, if_pos hend, hkey, hend]
    refine iff_of_false (fun hplace => Nat.lt_irrefl _ (h.lt_length hplace)) fun heq => ?_
    exact hother (Option.some.inj heq).symm
  · rw [if_neg hother, if_neg hend]
    exact h other i

/-- An entry without a key is appended, and the index stays as it is. -/
theorem LeadsTo.append_keyless (h : index.LeadsTo key? entries) {b : β}
    (hkey : key? b = none) : index.LeadsTo key? (entries ++ [b]) := by
  intro key i
  rw [key?_concat]
  by_cases hend : i = entries.length
  · rw [if_pos hend, hkey, hend]
    exact iff_of_false (fun hplace => Nat.lt_irrefl _ (h.lt_length hplace)) nofun
  · rw [if_neg hend]
    exact h key i

/-- A change in place that keeps keys keeps the index. -/
theorem LeadsTo.modify (h : index.LeadsTo key? entries) {f : β → β}
    (hf : ∀ b, key? (f b) = key? b) (place : Nat) :
    index.LeadsTo key? (entries.modify place f) := by
  intro key i
  have hkeys : (entries.modify place f)[i]?.bind key? = entries[i]?.bind key? := by
    rw [List.getElem?_modify]
    cases entries[i]? with
    | none => rfl
    | some b =>
        rw [Option.map_eq_map, Option.map_some, Option.bind_some, Option.bind_some]
        split
        · exact hf b
        · rfl
  rw [hkeys, h key i]

end Index

/-- The places of the entries that satisfy a predicate, in order. -/
def placesOf {β : Type} (p : β → Bool) (entries : List β) : List Nat :=
  (entries.zipIdx.filter fun entry => p entry.1).map (·.2)

/-- The place of a new entry stands last, if it is one of those. -/
theorem placesOf_concat {β : Type} (p : β → Bool) (entries : List β) (b : β) :
    placesOf p (entries ++ [b]) =
      if p b then placesOf p entries ++ [entries.length] else placesOf p entries := by
  rw [placesOf, List.zipIdx_append, List.filter_append, List.map_append, placesOf]
  cases hb : p b with
  | true => simp [hb]
  | false => simp [hb]

end FilterQuery
