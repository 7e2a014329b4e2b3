import Mathlib

/-!
# Lists whose members have keys of their own

Catalogs, players and zones are lists that are searched by key.  With distinct keys a search has one
answer, and a change under a key touches one place.
-/

namespace CardArena

/-- With distinct keys, the member found under a key is the only one that a change under that key
touches. -/
theorem exists_split_of_find? {α κ : Type} [DecidableEq κ] {f : α → κ} {k : κ} {a : α} :
    ∀ {l : List α}, (l.map f).Nodup → l.find? (f · = k) = some a →
      ∃ l₁ l₂, l = l₁ ++ a :: l₂ ∧
        ∀ change : α → α,
          l.map (fun x => if f x = k then change x else x) = l₁ ++ change a :: l₂
  | [], _, h => by simp at h
  | x :: rest, hnd, h => by
      rw [List.map_cons, List.nodup_cons] at hnd
      by_cases hx : f x = k
      · have ha : x = a := by simpa [hx] using h
        subst ha
        refine ⟨[], rest, rfl, fun change => ?_⟩
        have hrest : ∀ y ∈ rest, f y ≠ k := fun y hy hk =>
          hnd.1 (List.mem_map.mpr ⟨y, hy, hk.trans hx.symm⟩)
        rw [List.map_cons, if_pos hx, List.nil_append,
          List.map_congr_left fun y hy => if_neg (hrest y hy), List.map_id'']
        intro _
        exact rfl
      · have hrest : rest.find? (f · = k) = some a := by simpa [hx] using h
        obtain ⟨l₁, l₂, hl, hchange⟩ := exists_split_of_find? hnd.2 hrest
        refine ⟨x :: l₁, l₂, by rw [hl]; rfl, fun change => ?_⟩
        rw [List.map_cons, if_neg hx, hchange]
        rfl

theorem map_if_of_find?_eq_none {α κ : Type} [DecidableEq κ] {f : α → κ} {k : κ} {l : List α}
    (h : l.find? (f · = k) = none) (change : α → α) :
    l.map (fun x => if f x = k then change x else x) = l := by
  have hne : ∀ x ∈ l, f x ≠ k := by simpa using h
  rw [List.map_congr_left fun x hx => if_neg (hne x hx), List.map_id'']
  intro _
  exact rfl

/-- With distinct keys, every member is found under its key. -/
theorem find?_eq_some_of_nodup {α κ : Type} [DecidableEq κ] {f : α → κ} {a : α} :
    ∀ {l : List α}, (l.map f).Nodup → a ∈ l → l.find? (f · = f a) = some a
  | x :: rest, hnd, h => by
      rw [List.map_cons, List.nodup_cons] at hnd
      rcases List.mem_cons.mp h with rfl | hrest
      · simp
      · have hx : f x ≠ f a := fun e => hnd.1 (e ▸ List.mem_map_of_mem hrest)
        rw [List.find?_cons_of_neg (by simpa using hx)]
        exact find?_eq_some_of_nodup hnd.2 hrest

/-- Something is found under a key if some member has it. -/
theorem find?_isSome_iff_mem_map {α κ : Type} [DecidableEq κ] {f : α → κ} {k : κ} {l : List α} :
    (l.find? (f · = k)).isSome = true ↔ k ∈ l.map f := by
  simp [List.find?_isSome]

/-- With distinct keys, what is found under a key is the one member that has it. -/
theorem find?_eq_some_iff_of_nodup {α κ : Type} [DecidableEq κ] {f : α → κ} {k : κ} {a : α}
    {l : List α} (hnd : (l.map f).Nodup) : l.find? (f · = k) = some a ↔ a ∈ l ∧ f a = k := by
  constructor
  · exact fun h => ⟨List.mem_of_find?_eq_some h, by simpa using List.find?_some h⟩
  · rintro ⟨hmem, rfl⟩
    exact find?_eq_some_of_nodup hnd hmem

/-- With distinct keys, the entries under a key are those of the one member that has it. -/
theorem filter_flatMap_of_nodup {α β κ : Type} [DecidableEq κ] {f : α → κ} (g : α → List β)
    {l : List α} {a : α} (hnd : (l.map f).Nodup) (ha : a ∈ l) :
    (l.flatMap fun x => (g x).map (f x, ·)).filter (·.1 = f a) = (g a).map (f a, ·) := by
  obtain ⟨before, after, rfl⟩ := List.append_of_mem ha
  rw [List.map_append, List.map_cons, List.nodup_middle, List.nodup_cons, ← List.map_append] at hnd
  have hothers : ∀ x ∈ before ++ after, ((g x).map (f x, ·)).filter (·.1 = f a) = [] := by
    intro x hx
    have hne : f x ≠ f a := fun e => hnd.1 (List.mem_map.mpr ⟨x, hx, e⟩)
    rw [List.filter_map]
    simp [Function.comp_def, hne]
  rw [List.forall_mem_append] at hothers
  rw [List.filter_flatMap, List.flatMap_append, List.flatMap_cons,
    List.flatMap_eq_nil_iff.mpr hothers.1, List.flatMap_eq_nil_iff.mpr hothers.2, List.filter_map]
  simp [Function.comp_def]

end CardArena
