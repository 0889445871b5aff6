/-!
# Dictionaries that keep the order of insertion

A dictionary is a list of keys with their values. `find?` reads the value of a key, and `insert`
gives a key a value: a key that is there keeps its place, and a new one goes to the end. So keys
stay distinct (`nodup_keys_insert`). What `find?` reads of entries with distinct keys does not depend
on their order (`find?_perm`), also when they are inserted one by one (`find?_ofList`).
-/

namespace Stencil

/-- Keys with their values, in the order in which the keys were first inserted. -/
abbrev Dict (α : Type u) := List (String × α)

namespace Dict

variable {α : Type u}

/-- The value under a key. -/
def find? (key : String) : Dict α → Option α
  | [] => none
  | (k, v) :: rest => if k = key then some v else find? key rest

/-- Whether there is a value under a key. -/
def contains (key : String) (d : Dict α) : Bool := (find? key d).isSome

/-- Gives `key` the value `value`, in its place if it is there and at the end otherwise. -/
def insert (key : String) (value : α) : Dict α → Dict α
  | [] => [(key, value)]
  | (k, v) :: rest => if k = key then (k, value) :: rest else (k, v) :: insert key value rest

/-- The dictionary without `key`. -/
def erase (key : String) (d : Dict α) : Dict α := d.filter fun entry => entry.1 ≠ key

/-- The keys in their order. -/
def keys (d : Dict α) : List String := d.map Prod.fst

/-- The values in the order of their keys. -/
def values (d : Dict α) : List α := d.map Prod.snd

/-- Inserts the entries one after the other, into `d`. -/
def insertAll (d : Dict α) (entries : List (String × α)) : Dict α :=
  entries.foldl (fun d (k, v) => insert k v d) d

/-- The dictionary of a list of entries: of two entries with one key the later gives the value and
the earlier the place. -/
def ofList (entries : List (String × α)) : Dict α := insertAll [] entries

theorem find?_insert (key k : String) (v : α) (d : Dict α) :
    find? key (insert k v d) = if k = key then some v else find? key d := by
  induction d with
  | nil => simp [insert, find?]
  | cons entry d ih =>
    obtain ⟨k', v'⟩ := entry
    by_cases h : k' = k <;> by_cases h' : k = key <;> grind [insert, find?]

theorem mem_keys_insert {key k : String} {v : α} {d : Dict α} :
    key ∈ keys (insert k v d) ↔ key = k ∨ key ∈ keys d := by
  induction d with
  | nil => simp [insert, keys]
  | cons entry d ih =>
    obtain ⟨k', v'⟩ := entry
    by_cases h : k' = k <;> grind [insert, keys]

/-- A key that is there keeps its place. -/
theorem keys_insert_of_contains {k : String} {d : Dict α} (h : d.contains k = true) (v : α) :
    keys (insert k v d) = keys d := by
  induction d with
  | nil => cases h
  | cons entry d ih =>
    obtain ⟨k', v'⟩ := entry
    by_cases hk : k' = k
    · rw [insert, if_pos hk]
      rfl
    · rw [insert, if_neg hk]
      rw [contains, find?, if_neg hk] at h
      exact congrArg (k' :: ·) (ih h)

theorem nodup_keys_insert {k : String} {v : α} {d : Dict α} (h : (keys d).Nodup) :
    (keys (insert k v d)).Nodup := by
  induction d with
  | nil => simp [insert, keys]
  | cons entry d ih =>
    obtain ⟨k', v'⟩ := entry
    have hd : (keys d).Nodup := (List.nodup_cons.1 h).2
    have hk : k' ∉ keys d := (List.nodup_cons.1 h).1
    by_cases hkk : k' = k
    · simpa [insert, hkk, keys] using h
    · rw [insert, if_neg hkk]
      refine List.nodup_cons.2 ⟨fun hm => ?_, ih hd⟩
      rcases mem_keys_insert.1 hm with rfl | hm
      · exact hkk rfl
      · exact hk hm

theorem find?_eq_none_iff {key : String} {d : Dict α} : find? key d = none ↔ key ∉ keys d := by
  induction d with
  | nil => simp [find?, keys]
  | cons entry d ih =>
    obtain ⟨k, v⟩ := entry
    by_cases h : k = key <;> grind [find?, keys]

theorem find?_erase (key k : String) (d : Dict α) :
    find? key (erase k d) = if k = key then none else find? key d := by
  induction d with
  | nil => simp [erase, find?]
  | cons entry d ih =>
    obtain ⟨k', v'⟩ := entry
    by_cases h : k' = k <;> by_cases h' : k = key <;> grind [erase, find?]

theorem nodup_keys_erase {d : Dict α} (h : (keys d).Nodup) (k : String) :
    (keys (erase k d)).Nodup :=
  h.sublist (List.filter_sublist.map Prod.fst)

/-- Of entries with distinct keys the value of each is found. -/
theorem find?_insertAll {key : String} {entries : List (String × α)} (h : (keys entries).Nodup)
    (d : Dict α) : find? key (insertAll d entries) = (find? key entries).or (find? key d) := by
  induction entries generalizing d with
  | nil => rfl
  | cons entry entries ih =>
    obtain ⟨k, v⟩ := entry
    obtain ⟨hk, hs⟩ := List.nodup_cons.1 h
    show find? key (insertAll (insert k v d) entries) = _
    rw [ih hs, find?_insert, find?]
    by_cases hkk : k = key
    · rw [if_pos hkk, if_pos hkk, find?_eq_none_iff.2 (hkk ▸ hk)]
      rfl
    · rw [if_neg hkk, if_neg hkk]

theorem find?_ofList {key : String} {entries : List (String × α)} (h : (keys entries).Nodup) :
    find? key (ofList entries) = find? key entries := by
  rw [ofList, find?_insertAll h]
  exact Option.or_none

/-- A key that no entry has is not there. -/
theorem find?_insertAll_of_not_mem {key : String} {entries : List (String × α)}
    (h : key ∉ keys entries) (d : Dict α) : find? key (insertAll d entries) = find? key d := by
  induction entries generalizing d with
  | nil => rfl
  | cons entry entries ih =>
    obtain ⟨hk, hs⟩ := not_or.1 (mt List.mem_cons.2 h)
    show find? key (insertAll (insert entry.1 entry.2 d) entries) = _
    rw [ih hs, find?_insert, if_neg (Ne.symm hk)]

/-- With distinct keys the order of the entries makes no difference. -/
theorem find?_perm {key : String} {d d' : Dict α} (hd : (keys d).Nodup) (h : d.Perm d') :
    find? key d = find? key d' := by
  induction h with
  | nil => rfl
  | cons entry _ ih => rw [find?, find?, ih (List.nodup_cons.1 hd).2]
  | swap e e' d =>
    have hne : e'.1 ≠ e.1 := fun h => (List.nodup_cons.1 hd).1 (h ▸ List.mem_cons_self)
    by_cases h : e.1 = key <;> by_cases h' : e'.1 = key <;> grind [find?]
  | trans h _ ih ih' => rw [ih hd, ih' ((h.map Prod.fst).nodup_iff.1 hd)]

end Dict
end Stencil
