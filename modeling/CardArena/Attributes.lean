import CardArena.Amount

/-!
Attributes: named amounts, each name once, in the order in which the names came.

The view of a set of attributes is `get?`; `set` overwrites in place or appends, and
`get?_set` says what it does to the view.
-/

namespace CardArena

/-- Named amounts, each name once. -/
structure Attributes where
  entries : List (String × Amount)
  distinct : (entries.map Prod.fst).Nodup
deriving DecidableEq, Repr

namespace Attributes

/-- Overwrites the amount under a name, or appends the name. -/
def put (name : String) (value : Amount) : List (String × Amount) → List (String × Amount)
  | [] => [(name, value)]
  | entry :: rest =>
    if entry.1 = name then (name, value) :: rest else entry :: put name value rest

theorem mem_names_put {name : String} {value : Amount} {entries : List (String × Amount)}
    {x : String} :
    x ∈ (put name value entries).map Prod.fst ↔ x = name ∨ x ∈ entries.map Prod.fst := by
  induction entries with
  | nil => simp [put]
  | cons entry rest ih =>
    by_cases h : entry.1 = name
    · subst h; simp [put]
    · simp only [put, h, if_false, List.map_cons, List.mem_cons, ih]
      constructor
      · rintro (h | h | h) <;> simp_all
      · rintro (h | h | h) <;> simp_all

theorem nodup_put {name : String} {value : Amount} {entries : List (String × Amount)}
    (h : (entries.map Prod.fst).Nodup) : ((put name value entries).map Prod.fst).Nodup := by
  induction entries with
  | nil => simp [put]
  | cons entry rest ih =>
    rw [List.map_cons, List.nodup_cons] at h
    by_cases hn : entry.1 = name
    · simp only [put, hn, if_true, List.map_cons, List.nodup_cons]
      exact ⟨hn ▸ h.1, h.2⟩
    · rw [put, if_neg hn, List.map_cons, List.nodup_cons, mem_names_put]
      exact ⟨fun hm => hm.elim hn h.1, ih h.2⟩

/-- No attributes. -/
def empty : Attributes :=
  ⟨[], List.nodup_nil⟩

instance : Inhabited Attributes := ⟨empty⟩

/-- Overwrites the amount under a name, or appends the name. -/
def set (a : Attributes) (name : String) (value : Amount) : Attributes :=
  ⟨put name value a.entries, nodup_put a.distinct⟩

/-- The amount under a name. -/
def get? (a : Attributes) (name : String) : Option Amount :=
  a.entries.lookup name

/-- The names, in order. -/
def names (a : Attributes) : List String :=
  a.entries.map Prod.fst

/-- The attributes that pairs write in turn, so that of two with one name the later wins. -/
def ofList (pairs : List (String × Amount)) : Attributes :=
  pairs.foldl (fun a pair => a.set pair.1 pair.2) empty

theorem lookup_put {name other : String} {value : Amount} {entries : List (String × Amount)} :
    (put name value entries).lookup other =
      if other = name then some value else entries.lookup other := by
  induction entries with
  | nil =>
    by_cases h : other = name
    · simp [put, h]
    · have : (other == name) = false := by simp [h]
      simp [put, List.lookup_cons, h, this]
  | cons entry rest ih =>
    obtain ⟨key, old⟩ := entry
    by_cases hn : key = name
    · subst hn
      by_cases h : other = key
      · simp [put, h]
      · have : (other == key) = false := by simp [h]
        simp [put, List.lookup_cons, h, this]
    · by_cases hk : other = key
      · have : ¬ other = name := fun e => hn (hk ▸ e)
        subst hk
        simp [put, hn]
      · have hb : (other == key) = false := by simp [hk]
        simp [put, hn, List.lookup_cons, hb, ih]

/-- A write shows under its own name and nowhere else. -/
@[simp]
theorem get?_set (a : Attributes) (name other : String) (value : Amount) :
    (a.set name value).get? other = if other = name then some value else a.get? other :=
  lookup_put

@[simp]
theorem get?_empty (name : String) : empty.get? name = none := rfl

/-- An entry under a new name goes to the end. -/
theorem put_of_not_mem {name : String} {value : Amount} {entries : List (String × Amount)}
    (h : name ∉ entries.map Prod.fst) : put name value entries = entries ++ [(name, value)] := by
  induction entries with
  | nil => rfl
  | cons entry rest ih =>
    rw [List.map_cons, List.mem_cons, not_or] at h
    rw [put, if_neg (Ne.symm h.1), ih h.2]
    rfl

/-- Entries written in turn are the entries there are. -/
theorem entries_foldl_set (pairs : List (String × Amount)) (a : Attributes)
    (h : ((a.entries ++ pairs).map Prod.fst).Nodup) :
    (pairs.foldl (fun a pair => a.set pair.1 pair.2) a).entries = a.entries ++ pairs := by
  induction pairs generalizing a with
  | nil => simp
  | cons pair pairs ih =>
    have hnew : pair.1 ∉ a.entries.map Prod.fst := by
      rw [List.map_append, List.map_cons, List.nodup_append] at h
      intro hmem
      exact h.2.2 _ hmem _ List.mem_cons_self rfl
    have hset : (a.set pair.1 pair.2).entries = a.entries ++ [pair] := put_of_not_mem hnew
    rw [List.foldl_cons, ih, hset, List.append_assoc, List.singleton_append]
    rw [hset, List.append_assoc, List.singleton_append]
    exact h

end Attributes

end CardArena
