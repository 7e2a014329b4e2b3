import Mathlib
import CardArena.Proofs.Aftermath
import CardArena.Proofs.Resort

/-!
# One card for another

A card that is transformed is out of play afterwards, and another is in play for it.  So its player should
have as many cards as before, and that is so as long as the card is still in a zone when it has heard that
it leaves, and so is every other card that is transformed in the course of this (`Match.InPlace`).  What
else the others do as they hear of it makes no difference: cards may come and go as they like.

Otherwise there is a card too many.  A rabbit that is off to its player's hand as it leaves the board is in
hand afterwards, and the fox that it was to become is on the board as well (`Duel.fox_and_rabbit`).

* `transformed_card_makes_way` : the main statement.
-/

namespace CardArena

open Play
open Relation (ReflTransGen)

variable {rules : Rulebook} {m m' : Match} {card : LiveId} {into : String} {player : PlayerId}

section

variable (hc : rules.catalog.Coherent) {ids : List PlayerId} (hm : m.Tidy rules.catalog ids)
  {result : Except Fault (Option LiveId)}
  (hrun : (transform rules rules.resolver card into).run m = (result, m'))

include hc hm hrun

/-- A transformation leaves a player with no fewer cards at every point. -/
theorem transform_path (player : PlayerId) :
    ReflTransGen (Match.Counts rules (· ≤ ·) player) m m' := by
  have hleads : Leads (Match.Counts rules (· ≤ ·) player) (fun _ => True)
      (transformOr rules (supplant rules) rules.resolver card into) m :=
    transformOr_counts hc (resolver_counts hc) (accounted_supplant hc Nat.le_succ) (.inr trivial) m hm
  have hpath := hleads.path
  rwa [transformOr_supplant hc, hrun] at hpath

/-- In a game without tokens, a transformation in place leaves a player with as many cards. -/
theorem Match.InPlace.held_eq (hplace : m.InPlace rules card into)
    (hrules : ∀ rule ∈ rules.catalog.rules, ∀ name, rule.kind ≠ .general (.createToken name))
    (hfresh : m'.Fresh) (player : PlayerId) : m.table.held player = m'.table.held player := by
  let nothing : Resort := fun _ _ _ _ _ _ => pure none
  have hres : ResolvesAlong rules (Match.Tidy rules.catalog ids) (Match.Counts rules (· = ·) player)
      (fun _ => True) (rules.resorting nothing) :=
    resorting_resolves hc false (tolerates_all rules)
      (fun rule hrule name hkind => absurd hkind (hrules rule hrule name)) nofun accounted_nothing
  have hleads : Leads (Match.Counts rules (· = ·) player) (fun _ => True)
      (transformOr rules nothing (rules.resorting nothing) card into) m :=
    transformOr_counts hc hres accounted_nothing (.inr trivial) m hm
  have hpath := hleads.path
  rw [hplace, hrun] at hpath
  exact held_of_counts hc hm hpath hfresh

end

/-- **A transformed card makes way for another.**  It is in no zone afterwards and not in the store, and
the player in whose zone it was has no fewer cards than before.  In a game without tokens it is as many,
if the transformation happens in place; the host, as it has to, hands out no handle twice. -/
theorem transformed_card_makes_way (hc : rules.catalog.Accepted)
    (hrules : ∀ rule ∈ rules.catalog.rules, ∀ name, rule.kind ≠ .general (.createToken name))
    (h : Reachable rules m) {zone : String} {z : Zone} (hz : m.table.zone? player zone = some z)
    (hcard : card ∈ z.live) {new : LiveId}
    (hrun : m.perform rules (.transform card into) = (.ok (.card (some new)), m'))
    (hunique : m'.spawner.handed.Nodup) :
    (∀ seat ∈ m'.table.players, ∀ z ∈ seat.zones, card ∉ z.live) ∧ m'.table.live? card = none ∧
      m.table.held player ≤ m'.table.held player ∧
      (m.InPlace rules card into → m'.table.held player = m.table.held player) := by
  have hcoherent := hc.coherent
  have horderly := h.orderly hcoherent
  have hm := h.tidy hcoherent
  obtain ⟨_, htransform, hanswer⟩ := run_map_eq_ok hrun
  cases hanswer
  have hpath := transform_path hcoherent hm htransform player
  have hi := hm.integrity (fresh_of_counts hpath hunique)
  obtain ⟨seat, hseat, hzone⟩ := Table.exists_of_zone? hz
  obtain ⟨hmem, rfl⟩ := Table.mem_of_player? hseat
  obtain ⟨live, hlive, -⟩ := hi.table.owner hmem (Player.mem_of_zone? hzone).1 hcard
  have hgone : m'.Gone card :=
    transform_gone hcoherent .resolver horderly hunique hlive htransform
  have horderly' : m'.Orderly rules := by
    have hreachable := h.perform (.transform card into)
    rw [hrun] at hreachable
    exact hreachable.orderly hcoherent
  refine ⟨?_, hgone.absent, held_of_counts hcoherent hm hpath hunique, ?_⟩
  · intro seat' hseat' z' hz' hlisted
    have hunlisted := horderly'.unlisted hunique hgone
    refine hunlisted (List.mem_flatMap.mpr ⟨seat', hseat', ?_⟩)
    exact List.mem_flatMap.mpr ⟨z', hz', hlisted⟩
  · intro hplace
    exact (hplace.held_eq hcoherent hm htransform hrules hunique seat.id).symm

namespace Duel

/-- Goes from the board to the field when leaving the board. -/
def step : Effect :=
  { definition := "Step", trigger := .cardZoneTransition .leave "Board",
    target := .player .currentPlayer, magnitude := some (.fixed 1) }

/-- Goes from the field to the hand when leaving the board. -/
def flee : Effect := { step with definition := "Flee" }

/-- A hare steps aside. -/
def hare : CardDesign :=
  { id := ⟨1⟩, name := "Hare", cardType := "Creature", effects := [step] }

/-- A rabbit steps aside and is off. -/
def rabbit : CardDesign :=
  { id := ⟨2⟩, name := "Rabbit", cardType := "Creature", effects := [step, flee] }

def fox : CardDesign :=
  { id := ⟨3⟩, name := "Fox", cardType := "Creature" }

def warrenDraft : Draft :=
  { draft with
    rules := [.onPlayer "Step" (.moveCards "Board" "Field"),
      .onPlayer "Flee" (.moveCards "Field" "Hand")]
    cards := [hare, rabbit, fox]
    zones := draft.zones ++ [.dynamic "Field"] }

def warren : Rulebook where
  catalog := { warrenDraft.assemble with cards := warrenDraft.cards }
  config := {}

theorem accepted_warren : warren.catalog.Accepted :=
  accepted_of_sorted (d := warrenDraft) (by decide) (by decide +kernel) (by decide +kernel)

/-- Ann has a card of a design on the board, and that is all she has. -/
def burrow (design : CardId) : List Operation :=
  [.register "Ann" ⟨1⟩ [design], .register "Bob" ⟨2⟩ [⟨3⟩], .start 0, .moveCards ⟨0⟩ "Deck" "Board" 1]

/-- All that the rules of the warren do is to move cards. -/
theorem moves_of_warren {rule : Rule} (hrule : rule ∈ warren.catalog.rules) :
    ∃ origin destination, rule.kind = .targetsPlayer (.moveCards origin destination) := by
  rcases List.mem_cons.mp hrule with rfl | hrest
  · exact ⟨_, _, rfl⟩
  · obtain rfl := List.mem_singleton.mp hrest
    exact ⟨_, _, rfl⟩

theorem tokenless_warren {rule : Rule} (hrule : rule ∈ warren.catalog.rules) (name : String) :
    rule.kind ≠ .general (.createToken name) := by
  obtain ⟨origin, destination, hkind⟩ := moves_of_warren hrule
  rw [hkind]
  nofun

/-- The hare is on the field when the fox comes to the board for it. -/
theorem fox_for_hare :
    ((after warren (burrow ⟨1⟩)).perform warren (.transform ⟨0⟩ "Fox")).1 = .ok (.card (some ⟨1⟩)) ∧
    (after warren (burrow ⟨1⟩)).table.held ⟨0⟩ = 1 ∧
    (after warren (burrow ⟨1⟩)).InPlace warren ⟨0⟩ "Fox" ∧
    ((after warren (burrow ⟨1⟩)).perform warren (.transform ⟨0⟩ "Fox")).2.table.live? ⟨0⟩ = none ∧
    ((after warren (burrow ⟨1⟩)).perform warren (.transform ⟨0⟩ "Fox")).2.table.held ⟨0⟩ = 1 := by
  have hanswer : ((after warren (burrow ⟨1⟩)).perform warren (.transform ⟨0⟩ "Fox")).1
      = .ok (.card (some ⟨1⟩)) := by decide +kernel
  have hheld : (after warren (burrow ⟨1⟩)).table.held ⟨0⟩ = 1 := by decide +kernel
  have hlocated : (after warren (burrow ⟨1⟩)).table.locate? ⟨0⟩ = some (⟨0⟩, "Board") := by
    decide +kernel
  have hplace : (after warren (burrow ⟨1⟩)).InPlace warren ⟨0⟩ "Fox" := by
    refine Catalog.NeverTransforms.inPlace ?_ accepted_warren.coherent ?_
    · intro rule hrule into cardType hkind
      obtain ⟨origin, destination, hmoves⟩ := moves_of_warren hrule
      cases hmoves.symm.trans hkind
    · intro owner zone hother
      rw [hlocated] at hother
      cases hother
      decide +kernel
  obtain ⟨z, hz, hlive⟩ : ∃ z, (after warren (burrow ⟨1⟩)).table.zone? ⟨0⟩ "Board" = some z ∧
      z.live = [⟨0⟩] := Option.map_eq_some_iff.mp (by decide +kernel)
  obtain ⟨-, hgone, -, hkept⟩ := transformed_card_makes_way accepted_warren
    (fun _ hrule => tokenless_warren hrule) (reachable_after warren (burrow ⟨1⟩)) hz
    (hlive ▸ List.mem_singleton_self _) (Prod.ext hanswer rfl) (by decide +kernel)
  exact ⟨hanswer, hheld, hplace, hgone, (hkept hplace).trans hheld⟩

/-- A rabbit is in hand afterwards, and the fox is on the board as well. -/
theorem fox_and_rabbit :
    warren.catalog.Accepted ∧
    (∀ rule ∈ warren.catalog.rules, ∀ name, rule.kind ≠ .general (.createToken name)) ∧
    Reachable warren (after warren (burrow ⟨2⟩)) ∧
    ((after warren (burrow ⟨2⟩)).table.zone? ⟨0⟩ "Board").map Zone.live = some [⟨0⟩] ∧
    ((after warren (burrow ⟨2⟩)).perform warren (.transform ⟨0⟩ "Fox")).1 = .ok (.card (some ⟨1⟩)) ∧
    ((after warren (burrow ⟨2⟩)).perform warren (.transform ⟨0⟩ "Fox")).2.spawner.handed.Nodup ∧
    (after warren (burrow ⟨2⟩)).table.held ⟨0⟩ = 1 ∧
    ((after warren (burrow ⟨2⟩)).perform warren (.transform ⟨0⟩ "Fox")).2.table.held ⟨0⟩ = 2 := by
  refine ⟨accepted_warren, fun _ hrule => tokenless_warren hrule, reachable_after .., ?_⟩
  refine ⟨?_, ?_, ?_, ?_, ?_⟩ <;> decide +kernel

end Duel

end CardArena
