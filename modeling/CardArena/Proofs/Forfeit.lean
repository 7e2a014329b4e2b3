import Mathlib
import CardArena.Proofs.Resort

/-!
# Plays that fail

A card that is played is taken from hand, then paid for, then put on the board.  Nothing else that a play
sets off costs its player a card, whatever comes of it: the effects of the game take cards from zone to
zone, and where they fail they leave the cards in one.  But a card that has been taken from hand is in no
zone until it is on the board.  If the payment fails, and it may fail at any cost by what others do as
they hear of it, then the card is gone (`Duel.hexed_wolf`).

* `failed_play_loses_at_most_the_card` : and that is all that a play that fails can lose.
-/

namespace CardArena

open Play
open Relation (ReflTransGen)

variable {rules : Rulebook} {ids : List PlayerId} {m m' : Match} {player : PlayerId}

section

variable (hc : rules.catalog.Coherent) (hm : m.Tidy rules.catalog ids)

include hc hm

/-- To pay for a card leaves a player with no fewer cards, even if it fails. -/
theorem payCosts_path (hp : player ∈ ids) {costs : List Cost}
    (hattr : ∀ cost ∈ costs, cost.attr ∈ rules.catalog.playerAttributes.map PlayerAttribute.name)
    {result : Except Fault Unit}
    (hrun : (payCosts rules rules.resolver player costs).run m = (result, m')) :
    ReflTransGen (Match.Counts rules (· ≤ ·) player) m m' := by
  have hleads : Leads (Match.Counts rules (· ≤ ·) player) (fun _ => True)
      (payCosts rules rules.resolver player costs) m :=
    payCosts_along (follows_keeping hc) (resolver_counts hc) hp hattr m hm
  have hpath := hleads.path
  rwa [hrun] at hpath

/-- Once a card has come to a zone, its player has one card more, and whatever happens then leaves no
fewer. -/
theorem bring_gains (hp : player ∈ ids) {zone : String}
    (hkind : rules.catalog.kind? zone = some .dynamic) {design : CardDesign} {cardType : CardType}
    (typed : rules.catalog.typed? design.id = some (design, cardType))
    (hpath : ReflTransGen (Match.Counts rules (· ≤ ·) player) (m.bring player design cardType zone) m')
    (hfresh : m'.Fresh) : m.Fresh ∧ m.table.held player + 1 ≤ m'.table.held player := by
  have room := (hm.fits.kind hp zone).trans hkind
  have hbring : Change rules .all m (m.bring player design cardType zone) := .bring rfl typed room
  have hbrought := hm.calm hc (.change hbring)
  have hfresh₁ := fresh_of_counts hpath hfresh
  have hfresh₀ := hbring.fresh hfresh₁
  refine ⟨hfresh₀, ?_⟩
  rw [← hm.fits.held_bring hc typed room (hm.integrity hfresh₀) hfresh₁]
  exact held_of_counts hc hbrought hpath hfresh

/-- **Once a card is put into play, its player has one card more**, even if what this sets off fails. -/
theorem putIntoPlay_gains (hp : player ∈ ids)
    (hboard : rules.catalog.kind? rules.config.boardZone = some .dynamic) {design : CardDesign}
    (hdesign : rules.catalog.card? design.id = some design) {result : Except Fault Unit}
    (hrun : (putIntoPlay rules rules.resolver player design).run m = (result, m'))
    (hfresh : m'.Fresh) : m.Fresh ∧ m.table.held player + 1 ≤ m'.table.held player := by
  have hfollows : Follows rules (.faithful true) ids (Match.Tidy rules.catalog ids)
      (Match.Counts rules (· ≤ ·) player) := follows_counts hc fun _ n => n.le_succ
  have hres : ResolvesAlong rules (Match.Tidy rules.catalog ids)
      (Match.Counts rules (· ≤ ·) player) (fun _ => True) rules.resolver := resolver_counts hc
  obtain ⟨cardType, typed⟩ := hc.typed?_of_card? hdesign
  have room := (hm.fits.kind hp rules.config.boardZone).trans hboard
  have hbrought := hfollows.after hm (.bring rfl typed room)
  have hwelcome := (welcome_along hfollows hres rules.config.boardZone
    (m.spawner.spawn design.id player).1 _ hbrought).path
  rw [putIntoPlay, run_bind, enterZone_run typed room] at hrun
  rcases henter : (welcome rules rules.resolver rules.config.boardZone
    (m.spawner.spawn design.id player).1).run
      (m.bring player design cardType rules.config.boardZone) with ⟨f | id, m₁⟩ <;>
    rw [henter] at hrun hwelcome
  · cases hrun
    exact bring_gains hc hm hp hboard typed hwelcome hfresh
  · have hmark : Calm rules .all m₁ (m₁.markPlayed player design.id id) :=
      markPlayed_calm hc (resolver_resolves_all hc) hm.fits typed
        ((enterZone_run typed room).trans henter)
    have hmarked := ((kept_tidy hc).chain hwelcome hbrought).calm hc hmark
    have hraise := (raiseOnAll_along hfollows hres
      (.playerPlayedCard player design.id design.cardType) _ hmarked).path
    rw [show (raiseOnAll rules rules.resolver _).run (m₁.markPlayed player design.id id) = _ from hrun]
      at hraise
    obtain ⟨hfresh₀, hone⟩ := bring_gains hc hm hp hboard typed hwelcome
      (hmark.fresh (fresh_of_counts hraise hfresh))
    have hrest : (m₁.markPlayed player design.id id).table.held player ≤ m'.table.held player :=
      held_of_counts hc hmarked hraise hfresh
    rw [m₁.held_markPlayed] at hrest
    exact ⟨hfresh₀, hone.trans hrest⟩

end

/-- **A play that fails loses no card, or just the one that could not be paid for.**

If the board is a dynamic zone and a call to play a card fails, then its player has no fewer cards than
before, unless it was the payment that failed, at which the call has ended; and then it is no more than
one card that is missing.  The host, as it has to, hands out no handle twice. -/
theorem failed_play_loses_at_most_the_card (hc : rules.catalog.Accepted)
    (hboard : rules.catalog.kind? rules.config.boardZone = some .dynamic) (h : Reachable rules m)
    {card : CardId} {fault : Fault}
    (hrun : m.perform rules (.playCard player card) = (.error fault, m'))
    (hunique : m'.spawner.handed.Nodup) :
    m.table.held player ≤ m'.table.held player ∨
      ∃ design, rules.catalog.card? card = some design ∧
        (payCosts rules rules.resolver player design.costs).run (m.draw rules player card)
          = (.error fault, m') ∧
        m.table.held player ≤ m'.table.held player + 1 := by
  have hcoherent := hc.coherent
  have hm := h.tidy hcoherent
  have hplay : (playCard rules rules.resolver player card).run m = (.error fault, m') :=
    run_map_eq_error hrun
  rcases playCard_ways hm.fits player card with ⟨reason, hcase⟩ | ⟨design, hdesign, hplayable, hcase⟩ <;>
    rw [hcase] at hplay
  · cases hplay
  obtain ⟨z, hz, hcard⟩ := hplayable.held
  obtain ⟨seat, hseat, hpay⟩ := hplayable.affordable
  obtain ⟨-, rfl⟩ := Catalog.card?_some hdesign
  obtain ⟨hp, -⟩ := hm.fits.mem_of_zone? hz
  have hdraw : Calm rules .all m (m.draw rules player design.id) := .draw rfl hz hcard
  have hdrawn := hm.calm hcoherent hdraw
  have hone : m.Fresh → (m.draw rules player design.id).table.held player + 1 = m.table.held player :=
    fun hfresh => hm.fits.held_draw hcoherent hz hcard (hm.integrity hfresh) hfresh
  have hattr := hm.fits.attr_of_canPay hseat hpay
  rw [payAndPlay, run_bind] at hplay
  rcases hcosts : (payCosts rules rules.resolver player design.costs).run
    (m.draw rules player design.id) with ⟨f | _, m₁⟩ <;> rw [hcosts] at hplay
  · -- The payment has failed, and the card is on its way.
    cases hplay
    have hpath := payCosts_path hcoherent hdrawn hp hattr hcosts
    have hheld := held_of_counts hcoherent hdrawn hpath hunique
    have := hone (hdraw.fresh (fresh_of_counts hpath hunique))
    exact .inr ⟨design, hdesign, hcosts, by omega⟩
  · left
    have hpath := payCosts_path hcoherent hdrawn hp hattr hcosts
    have hm₁ := (kept_tidy hcoherent).chain hpath hdrawn
    dsimp only at hplay
    rw [run_bind] at hplay
    rcases hput : (putIntoPlay rules rules.resolver player design).run m₁ with ⟨f | _, m₂⟩ <;>
      rw [hput] at hplay
    · cases hplay
      obtain ⟨hfresh₁, hgain⟩ :=
        putIntoPlay_gains hcoherent hm₁ hp hboard hplayable.known hput hunique
      have hheld := held_of_counts hcoherent hdrawn hpath hfresh₁
      have := hone (hdraw.fresh (fresh_of_counts hpath hfresh₁))
      omega
    · cases hplay

namespace Duel

/-- Takes from an attribute that nobody has. -/
def hex (trigger : Trigger) : Effect :=
  { definition := "Hex", trigger, target := .player .currentPlayer, magnitude := some (.fixed 1) }

/-- A wolf that costs mana. -/
def hexedWolf : CardDesign :=
  { wolf with costs := [⟨"Mana", 1⟩] }

/-- A witch hexes whoever pays mana. -/
def witch : CardDesign :=
  { id := ⟨2⟩, name := "Witch", cardType := "Creature",
    effects := [hex (.playerAttributeDelta .decrease "Mana" .anyPlayer)] }

/-- A raven hexes whoever brings it to the board. -/
def raven : CardDesign :=
  { id := ⟨3⟩, name := "Raven", cardType := "Creature", costs := [⟨"Mana", 1⟩],
    effects := [hex (.cardZoneTransition .enter "Board")] }

def hexDraft : Draft :=
  { draft with
    rules := [.onPlayer "Hex" (.decreaseAttribute "Luck")]
    cards := [hexedWolf, witch, raven]
    playerAttributes := [⟨"Life", 20⟩, ⟨"Mana", 3⟩] }

def hexed : Rulebook where
  catalog := { hexDraft.assemble with cards := hexDraft.cards }
  config := {}

theorem accepted_hexed : hexed.catalog.Accepted :=
  accepted_of_sorted (d := hexDraft) (by decide) (by decide +kernel) (by decide +kernel)

/-- Ann has a card of a design in hand, and these on the board. -/
def coven (hand : CardId) (board : List CardId) : List Operation :=
  [.register "Ann" ⟨1⟩ (hand :: board), .register "Bob" ⟨2⟩ [⟨1⟩], .start 0,
    .moveCards ⟨0⟩ "Deck" "Board" board.length, .moveCards ⟨0⟩ "Deck" "Hand" 1]

/-- The raven has been paid for and is on the board when its coming fails. -/
theorem hexed_raven :
    ((after hexed (coven ⟨3⟩ [])).perform hexed (.playCard ⟨0⟩ ⟨3⟩)).1
      = .error (.attributeNotFound (toString (⟨0⟩ : PlayerId)) "Luck") ∧
    (after hexed (coven ⟨3⟩ [])).table.held ⟨0⟩ = 1 ∧
    1 ≤ ((after hexed (coven ⟨3⟩ [])).perform hexed (.playCard ⟨0⟩ ⟨3⟩)).2.table.held ⟨0⟩ := by
  have hfault : ((after hexed (coven ⟨3⟩ [])).perform hexed (.playCard ⟨0⟩ ⟨3⟩)).1
      = .error (.attributeNotFound (toString (⟨0⟩ : PlayerId)) "Luck") := by decide +kernel
  have hheld : (after hexed (coven ⟨3⟩ [])).table.held ⟨0⟩ = 1 := by decide +kernel
  refine ⟨hfault, hheld, ?_⟩
  obtain hkept | ⟨design, hdesign, hpayment, -⟩ := failed_play_loses_at_most_the_card accepted_hexed
    (by decide +kernel) (reachable_after hexed (coven ⟨3⟩ [])) (Prod.ext hfault rfl)
    (by decide +kernel)
  · exact hheld ▸ hkept
  · have hraven : hexed.catalog.card? ⟨3⟩ = some raven := by decide +kernel
    have hpaid : ((payCosts hexed hexed.resolver ⟨0⟩ raven.costs).run
        ((after hexed (coven ⟨3⟩ [])).draw hexed ⟨0⟩ ⟨3⟩)).1 = .ok () := by decide +kernel
    obtain rfl : raven = design := Option.some.inj (hraven.symm.trans hdesign)
    rw [hpayment] at hpaid
    cases hpaid

/-- The wolf is neither in hand nor on the board when its payment fails. -/
theorem hexed_wolf :
    hexed.catalog.Accepted ∧ hexed.catalog.kind? hexed.config.boardZone = some .dynamic ∧
    Reachable hexed (after hexed (coven ⟨1⟩ [⟨2⟩])) ∧
    ((after hexed (coven ⟨1⟩ [⟨2⟩])).perform hexed (.playCard ⟨0⟩ ⟨1⟩)).1
      = .error (.attributeNotFound (toString (⟨0⟩ : PlayerId)) "Luck") ∧
    ((after hexed (coven ⟨1⟩ [⟨2⟩])).perform hexed (.playCard ⟨0⟩ ⟨1⟩)).2.spawner.handed.Nodup ∧
    (after hexed (coven ⟨1⟩ [⟨2⟩])).table.held ⟨0⟩ = 2 ∧
    ((after hexed (coven ⟨1⟩ [⟨2⟩])).perform hexed (.playCard ⟨0⟩ ⟨1⟩)).2.table.held ⟨0⟩ = 1 := by
  refine ⟨accepted_hexed, ?_, reachable_after .., ?_⟩
  · decide +kernel
  · refine ⟨?_, ?_, ?_, ?_⟩ <;> decide +kernel

end Duel

end CardArena
