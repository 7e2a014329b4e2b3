import Mathlib
import CardArena.Zone

/-!
# What chance can do

Chance picks members of a list and puts a list in another order; it neither makes nor loses any.
-/

namespace CardArena

namespace Dice

theorem mem_of_choose {α : Type} {d : Dice} {xs : List α} {x : α}
    (h : (d.choose xs).1 = some x) : x ∈ xs := by
  cases xs with
  | nil => cases h
  | cons y rest => exact List.mem_of_getElem? h

theorem below_lt (d : Dice) {bound : Nat} (h : 0 < bound) : (d.below bound).1 < bound := by
  rw [below, if_neg (Nat.ne_of_gt h)]
  exact Nat.mod_lt _ h

/-- Chance finds a member of every list that has any. -/
theorem isSome_choose {α : Type} (d : Dice) {xs : List α} (h : xs ≠ []) :
    (d.choose xs).1.isSome = true := by
  cases xs with
  | nil => exact absurd rfl h
  | cons x rest =>
      have hbound : (d.below (x :: rest).length).1 < (x :: rest).length :=
        d.below_lt (Nat.succ_pos _)
      show (x :: rest)[(d.below (x :: rest).length).1]?.isSome = true
      rw [List.getElem?_eq_getElem hbound]
      rfl

/-- A shuffled list has the members that it had. -/
theorem shuffle_perm {α : Type} (d : Dice) (xs : List α) : (d.shuffle xs).1.Perm xs := by
  have hfold : ∀ (done : List α) (d : Dice),
      (xs.foldl (fun drawn x =>
        ((drawn.1.insertIdx (Dice.below drawn.2 (drawn.1.length + 1)).1 x : List α),
          (Dice.below drawn.2 (drawn.1.length + 1)).2)) (done, d)).1.Perm (xs ++ done) := by
    induction xs with
    | nil => exact fun done _ => .refl done
    | cons x rest ih =>
        intro done d
        have hi : (d.below (done.length + 1)).1 ≤ done.length :=
          Nat.le_of_lt_succ (below_lt d (Nat.succ_pos _))
        refine (ih _ _).trans ?_
        exact (List.Perm.append_left rest (List.perm_insertIdx x done hi)).trans List.perm_middle
  have h := hfold [] d
  rwa [List.append_nil] at h

end Dice

namespace Pile

variable (pile : Pile) (d : Dice)

theorem kind_shuffle : (pile.shuffle d).1.kind = pile.kind := by
  cases pile <;> rfl

theorem cards_shuffle : (pile.shuffle d).1.cards.Perm pile.cards := by
  cases pile with
  | static cards => exact d.shuffle_perm cards
  | dynamic cards => exact .refl []

theorem live_shuffle : (pile.shuffle d).1.live.Perm pile.live := by
  cases pile with
  | static cards => exact .refl []
  | dynamic cards => exact d.shuffle_perm cards

end Pile

end CardArena
