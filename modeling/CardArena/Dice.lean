import CardArena.Effect

/-!
Chance.  `Dice` is an endless row of draws and the number of draws taken, so that a law about a
match can speak of every row at once.  Whatever the draws are, `choose` takes a member of its list,
`shuffle` gives a permutation and `roll` stays within the bounds of a magnitude.
-/

namespace CardArena

/-- An endless row of draws, some of them taken. -/
structure Dice where
  draw : Nat → Nat
  taken : Nat := 0

instance : Inhabited Dice := ⟨⟨fun _ => 0, 0⟩⟩

namespace Dice

/-- Spreads the bits of a number over 64 of them. -/
def scatter (n : UInt64) : UInt64 :=
  let a := (n ^^^ (n >>> 30)) * 0xBF58476D1CE4E5B9
  let b := (a ^^^ (a >>> 27)) * 0x94D049BB133111EB
  b ^^^ (b >>> 31)

/-- The row that belongs to a seed. -/
def ofSeed (seed : UInt64) : Dice :=
  ⟨fun i => (scatter (seed + 0x9E3779B97F4A7C15 * (UInt64.ofNat i + 1))).toNat, 0⟩

/-- A number below a bound, or 0 if the bound is 0. -/
def below (d : Dice) (bound : Nat) : Nat × Dice :=
  (if bound = 0 then 0 else d.draw d.taken % bound, { d with taken := d.taken + 1 })

/-- A member of a list, if it has any. -/
def choose (d : Dice) (xs : List α) : Option α × Dice :=
  match xs with
  | [] => (none, d)
  | xs =>
    let (i, d) := d.below xs.length
    (xs[i]?, d)

/-- The list in another order: each member in turn is put at a place drawn for it. -/
def shuffle (d : Dice) (xs : List α) : List α × Dice :=
  xs.foldl (fun (done, d) x =>
    let (i, d) := Dice.below d (done.length + 1)
    (done.insertIdx i x, d)) ([], d)

/-- An amount of this magnitude; the lower bound of a range that holds at most one amount. -/
def roll (d : Dice) : Magnitude → Amount × Dice
  | .fixed value => (value, d)
  | .random low high =>
    if high ≤ low then
      (low, d)
    else
      let (i, d) := d.below (high.toInt - low.toInt + 1).toNat
      (Int32.ofInt (low.toInt + i), d)

end Dice

namespace Magnitude

/-- The amount, where no draw is needed to know it. -/
def settled? : Magnitude → Option Amount
  | .fixed value => some value
  | .random low high => if high ≤ low then some low else none

end Magnitude

end CardArena
