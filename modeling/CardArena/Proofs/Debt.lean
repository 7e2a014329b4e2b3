import Mathlib
import CardArena.Proofs.Dawn

/-!
# What a player owes before their turn may end

A player who stops their turn with too many cards in hand is asked to discard as many as they hold too
many, and owes them from then on.  How many these are is settled when they are asked.  The hand is not:
until the player answers they may play cards and move cards, and whatever that sets off may draw and
return cards.  So a debt is not, as one would expect, the excess of the hand that it is paid from; it is
the excess of the hand as it was when the turn was stopped, and the hand that is left is off the limit by
as many cards as the hand has gained or lost since (`debt_is_the_excess_when_asked`).  A debt of more
cards than there are left in hand cannot be paid at all, and as long as it stands the turn cannot be
stopped either.

That a debt comes up in one way only, and then stays as it is until it is dropped, is what the operations
have in common (`Match.Idles.debt`, `debt_of_dawns`); hence the moment when it came up can be found again
for every debt of a reachable match (`Reachable.owed`).
-/

namespace CardArena

open Play
open Relation (ReflTransGen)

variable {rules : Rulebook} {scope : Scope} {m m' : Match} {op : Operation} {player : PlayerId}

/-! ## Debts -/

/-- Where no debts come up, a debt stays or is dropped. -/
theorem Calm.debt (hscope : scope.turns = false) (h : Calm rules scope m m') :
    m'.debt = m.debt ∨ m'.debt = none := by
  cases h with
  | change h => exact .inl h.turn.2.1
  | repeatQuestion | demand => rw [Match.tell_eq_post]; exact .inl rfl
  | discard hzone held => rw [Match.discardCard_eq hzone held]; exact .inl rfl
  | shuffle player zone =>
      rcases m.shuffleZone_eq player zone with heq | ⟨z, dice, -, heq⟩ <;> rw [heq] <;>
        exact .inl rfl
  | owe debt active positive allowed => simp [hscope] at allowed
  | settle => exact .inr rfl
  | _ => exact .inl rfl

theorem Step.debt (hscope : scope.turns = false) (h : Step rules scope m m') :
    m'.debt = m.debt ∨ m'.debt = none := by
  cases h with
  | calm h => exact h.debt hscope
  | destroyDue | destroyAfterEffect =>
      exact .inl (Match.destroyAll_frame { m with destructions := _ } _ _).2.2.2
  | finish => exact .inr rfl
  | _ => exact .inl rfl

/-- Where no debts come up, whoever owes something has owed it. -/
theorem debt_of_steps (h : ReflTransGen (Step rules .untimed) m m') {debt : DiscardDebt}
    (howed : m'.debt = some debt) : m.debt = some debt := by
  induction h with
  | refl => exact howed
  | tail _ hstep ih =>
      refine ih ?_
      rcases hstep.debt rfl with heq | hnone
      · rw [← heq, howed]
      · rw [hnone] at howed
        cases howed

section

variable (hc : rules.catalog.Coherent) {ids : List PlayerId}

include hc

theorem Match.debt_counted (hm : m.Fits rules.catalog ids) (card : LiveId) :
    (m.counted rules card).debt = m.debt := by
  cases htold : m.told? card with
  | none => rw [counted, htold]
  | some turns =>
      have hkept : ∀ {p q : Match}, ReflTransGen (Change rules .untimed) p q → q.debt = p.debt := by
        intro p q h
        induction h with
        | refl => rfl
        | tail _ hstep ih => exact hstep.turn.2.1.trans ih
      exact (hkept (counted_changes hc hm htold)).trans rfl

theorem Match.debt_countedAll (cards : List LiveId) (hm : m.Fits rules.catalog ids) :
    (m.countedAll rules cards).debt = m.debt := by
  induction cards generalizing m with
  | nil => rfl
  | cons card rest ih =>
      have hfits := (kept_fits_calm hc).chain (m.counted_calm hc hm card) hm
      exact (ih hfits).trans (Match.debt_counted hc hm card)

/-- When a turn starts nobody owes anything. -/
theorem debt_of_dawns (h : Reachable rules m) (hdawns : m.Dawns rules op) :
    (m.perform rules op).2.debt = none := by
  obtain ⟨m₁, active, now, -, hpath, -, heq⟩ := hdawns
  have hm₁ : m₁.Fits rules.catalog m.table.playerIds :=
    (kept_fits_step hc).chain hpath ⟨h.conforms hc, rfl⟩
  have hheralded := m₁.heralded_calm hc hm₁
  have hnone : (m₁.heralded rules).debt = none := by
    cases howed : (m₁.heralded rules).debt with
    | none => rfl
    | some debt => cases debt_of_steps (steps_of_calm hheralded) howed
  rw [heq]
  exact (Match.debt_countedAll hc _ ((kept_fits_calm hc).chain hheralded hm₁.settled)).trans hnone

end

/-- A debt that somebody has after an operation is new, or was there before. -/
theorem Match.Idles.debt (h : m.Idles rules op m') {debt : DiscardDebt}
    (howed : m'.debt = some debt) :
    m.debt = some debt ∨ m.debt = none ∧ op.stops? = some debt.player ∧
      (m.perform rules op).1 = .ok (.outcome .deferred) ∧
      debt.count = m.handExcess rules debt.player ∧ 0 < debt.count := by
  cases h with
  | seat => exact .inl howed
  | steps path => exact .inl (debt_of_steps path howed)
  | deferred stops answer free active excess =>
      rw [Match.tell_eq_post] at howed
      cases howed
      exact .inr ⟨free, stops, answer, rfl, excess⟩

/-- A player was asked to discard before their turn ends, and has owed that ever since. -/
structure Match.OwedSince (m : Match) (rules : Rulebook) (debt : DiscardDebt) (asked : Match)
    (op : Operation) (ops : List Operation) : Prop where
  reachable : Reachable rules asked
  free : asked.debt = none
  stops : op.stops? = some debt.player
  deferred : (asked.perform rules op).1 = .ok (.outcome .deferred)
  count : debt.count = asked.handExcess rules debt.player
  positive : 0 < debt.count
  /-- The match has come of that by these operations. -/
  since : m = (asked.perform rules op).2.run rules ops
  kept : ∀ earlier, earlier <+: ops →
    ((asked.perform rules op).2.run rules earlier).debt = some debt

/-- **Of whatever a player owes it can be told when it came up.** -/
theorem Reachable.owed (hc : rules.catalog.Coherent) (h : Reachable rules m) {debt : DiscardDebt}
    (howed : m.debt = some debt) : ∃ asked op ops, m.OwedSince rules debt asked op ops := by
  induction h with
  | opening handle dice => cases howed
  | @perform m op h ih =>
      rcases dozes_or_dawns hc h op with ⟨-, hidles⟩ | hdawns
      · rcases hidles.debt howed with hbefore | ⟨free, stops, answer, count, positive⟩
        · obtain ⟨asked, first, ops, hsince⟩ := ih hbefore
          refine ⟨asked, first, ops ++ [op], { hsince with since := ?_, kept := ?_ }⟩
          · rw [Match.run_concat, ← hsince.since]
          · intro earlier hprefix
            rcases List.prefix_concat_iff.mp hprefix with rfl | hold
            · rwa [Match.run_concat, ← hsince.since]
            · exact hsince.kept earlier hold
        · refine ⟨m, op, [], h, free, stops, answer, count, positive, rfl, ?_⟩
          intro earlier hprefix
          rw [List.prefix_nil.mp hprefix]
          exact howed
      · rw [debt_of_dawns hc h hdawns] at howed
        cases howed

/-! ## Hands -/

/-- How many cards a player holds. -/
def Match.handSize (m : Match) (rules : Rulebook) (player : PlayerId) : Nat :=
  (m.hand rules player).length

/-- What is taken out of a list by a swap, and what is left, are the list in another order. -/
theorem swapRemove_perm {α : Type} {xs : List α} {i : Nat} {x : α} (h : xs[i]? = some x) :
    (x :: swapRemove xs i).Perm xs := by
  induction xs using List.reverseRecOn with
  | nil => cases h
  | append_singleton front last _ =>
      rw [swapRemove, List.getLast?_concat]
      dsimp only
      by_cases hi : i < front.length
      · rw [List.getElem?_append_left hi, List.getElem?_eq_getElem hi] at h
        cases h
        rw [List.set_append_left _ _ hi, List.dropLast_concat]
        have hset := (List.set_perm_cons_eraseIdx hi last).cons front[i]
        have hback := (List.getElem_cons_eraseIdx_perm hi).cons last
        exact (hset.trans (.swap ..)).trans (hback.trans (List.perm_append_singleton ..).symm)
      · have hlast : i = front.length := by
          have hlt := (List.getElem?_eq_some_iff.mp h).1
          rw [List.length_append, List.length_singleton] at hlt
          omega
        subst hlast
        rw [List.getElem?_concat_length] at h
        cases h
        rw [List.set_append_right _ _ (Nat.le_refl _), Nat.sub_self, List.set_cons_zero,
          List.dropLast_concat]
        exact (List.perm_append_singleton ..).symm

/-- Cards can be taken one after the other if they are there as often as they are named. -/
theorem holdsAll_iff {cards : List CardId} :
    ∀ {held : List CardId}, holdsAll cards held = true ↔ cards.Subperm held := by
  induction cards with
  | nil => simp [holdsAll, List.nil_subperm]
  | cons card rest ih =>
      intro held
      rw [holdsAll]
      cases hi : held.idxOf? card with
      | none =>
          have habsent : card ∉ held := List.idxOf?_eq_none_iff.mp hi
          refine ⟨nofun, fun h => absurd (h.subset List.mem_cons_self) habsent⟩
      | some i =>
          obtain ⟨hlt, hget, -⟩ := List.idxOf?_eq_some_iff.mp hi
          have hperm := swapRemove_perm (List.getElem?_eq_some_iff.mpr ⟨hlt, hget⟩)
          dsimp only
          rw [ih, ← List.subperm_cons card, hperm.subperm_left]

theorem handHolds_iff {cards : List CardId} :
    m.handHolds rules player cards = true ↔ cards.Subperm (m.hand rules player) :=
  holdsAll_iff

/-- Cards of the number that is owed can be found if there are so many. -/
theorem exists_subperm_length_iff {held : List CardId} {count : Nat} :
    (∃ cards : List CardId, cards.length = count ∧ cards.Subperm held) ↔ count ≤ held.length := by
  constructor
  · rintro ⟨cards, rfl, hsub⟩
    exact hsub.length_le
  · intro hle
    exact ⟨held.take count, List.length_take_of_le hle, (List.take_sublist count held).subperm⟩

section

variable (hstatic : rules.catalog.kind? rules.config.handZone = some .static)

include hstatic

/-- Where the hand is a pile of designs, it is too large by what it is larger than the limit. -/
theorem Match.Conforms.handExcess_eq (hm : m.Conforms rules.catalog) (player : PlayerId) :
    m.handExcess rules player
      = m.handSize rules player - rules.config.maxHandSize.toNat := by
  have hsize : ((m.table.player? player).map (·.zoneSize rules.config.handZone)).getD 0
      = m.handSize rules player := by
    rw [handSize, hand, Table.zone?_eq]
    cases hseat : m.table.player? player with
    | none => rfl
    | some seat =>
        cases hzone : seat.zone? rules.config.handZone with
        | none => simp [Player.zoneSize, hzone]
        | some z =>
            have hfound : m.table.zone? player rules.config.handZone = some z := by
              rw [Table.zone?_eq, hseat]
              exact hzone
            have hlayout := (hm.table.zone?_some hfound).2
            have hkind : z.kind = .static := by
              rw [Catalog.kind?, hlayout] at hstatic
              exact Option.some.inj hstatic
            obtain ⟨name, isPrivate, cards | cards⟩ := z
            · simp [Player.zoneSize, hzone, Zone.size, Pile.size, Zone.cards, Pile.cards]
            · cases hkind
  rw [handExcess, hsize]

omit hstatic in
/-- Elsewhere than in the hand, the graveyard takes what the hand loses. -/
theorem Match.hand_discardCard (hgraveyard : rules.config.graveyardZone ≠ some rules.config.handZone)
    (m : Match) (player : PlayerId) (card : CardId) :
    (m.discardCard rules player card).hand rules player = (m.hand rules player).erase card := by
  have hdrawn : ((m.table.modifyZone player rules.config.handZone (·.removeCard card)).zone? player
      rules.config.handZone).map Zone.cards
        = ((m.table.zone? player rules.config.handZone).map Zone.cards).map (·.erase card) := by
    rw [Table.zone?_modifyZone _ _ fun z =>
      congrArg ZoneLayout.name (Zone.layout_removeCard z card), Option.map_map, Option.map_map]
    simp [Function.comp_def]
  unfold discardCard
  split
  · rw [hand, hand, onTable]
    have hrest : ∀ held : Option (List CardId), (held.map (·.erase card)).getD []
        = (held.getD []).erase card := by
      rintro (_ | held) <;> rfl
    rw [← hrest, ← hdrawn]
    cases hzone : rules.config.graveyardZone with
    | none => rfl
    | some graveyard =>
        have hother : rules.config.handZone ≠ graveyard := by
          rintro rfl
          exact hgraveyard hzone
        dsimp only
        rw [Table.zone?_modifyZone _ _ fun z => congrArg ZoneLayout.name (Zone.layout_pushCard z card)]
        simp [hother]
  · next habsent => exact (List.erase_of_not_mem habsent).symm

omit hstatic in
/-- Whoever discards cards that they hold holds so many less. -/
theorem Match.handSize_discardAll
    (hgraveyard : rules.config.graveyardZone ≠ some rules.config.handZone) (player : PlayerId)
    (cards : List CardId) :
    ∀ m : Match, cards.Subperm (m.hand rules player) →
      (m.discardAll rules player cards).handSize rules player + cards.length
        = m.handSize rules player := by
  induction cards with
  | nil => exact fun m _ => rfl
  | cons card rest ih =>
      intro m hheld
      have hmem : card ∈ m.hand rules player := hheld.subset List.mem_cons_self
      have hone := m.hand_discardCard hgraveyard player card
      have hrest : rest.Subperm ((m.discardCard rules player card).hand rules player) := by
        rw [hone]
        simpa using hheld.erase card
      have hlater : (m.discardAll rules player (card :: rest)).handSize rules player + rest.length
          = ((m.hand rules player).erase card).length := by
        rw [← hone]
        exact ih (m.discardCard rules player card) hrest
      have hlength : ((m.hand rules player).erase card).length + 1 = m.handSize rules player :=
        List.length_erase_add_one hmem
      rw [List.length_cons]
      omega

omit hstatic in
/-- A graveyard that is the hand gives back what is discarded. -/
theorem Match.handSize_discardAll_returned
    (hgraveyard : rules.config.graveyardZone = some rules.config.handZone) (player : PlayerId)
    (cards : List CardId) :
    ∀ m : Match, (m.discardAll rules player cards).handSize rules player
      = m.handSize rules player := by
  have hone (m : Match) (card : CardId) :
      (m.discardCard rules player card).handSize rules player = m.handSize rules player := by
    unfold discardCard
    split
    · next hheld =>
        rw [hgraveyard]
        rw [hand] at hheld
        cases hzone : m.table.zone? player rules.config.handZone with
        | none => simp [hzone] at hheld
        | some z =>
            have hmem : card ∈ z.cards := by simpa [hzone] using hheld
            have hkind : (z.removeCard card).kind = .static := by
              obtain ⟨name, isPrivate, held | held⟩ := z
              · exact congrArg ZoneLayout.kind (Zone.layout_removeCard _ card)
              · cases hmem
            rw [handSize, handSize, hand, hand, onTable]
            dsimp only
            rw [Table.zone?_modifyZone _ _ fun z =>
                congrArg ZoneLayout.name (Zone.layout_pushCard z card),
              Table.zone?_modifyZone _ _ fun z =>
                congrArg ZoneLayout.name (Zone.layout_removeCard z card), hzone]
            simp [Zone.cards_pushCard hkind, List.length_erase_add_one hmem]
    · rfl
  induction cards with
  | nil => exact fun m => rfl
  | cons card rest ih => exact fun m => (ih (m.discardCard rules player card)).trans (hone m card)

end

/-! ## Payment -/

/-- **A reply pays a debt if it names as many cards as are owed, all of them in hand; then the turn
ends.** -/
theorem pays_iff (hc : rules.catalog.Coherent) (h : Reachable rules m) {debt : DiscardDebt}
    (howed : m.debt = some debt) {cards : List CardId}
    (hreply : op.discards? = some (debt.player, cards)) :
    ((m.perform rules op).1 = .ok (.outcome .applied) ↔
      cards.length = debt.count ∧ cards.Subperm (m.hand rules debt.player)) ∧
    ((m.perform rules op).1 = .ok (.outcome .applied) →
      ∃ now, (m.perform rules op).2 = ((endTurn rules rules.resolver now).run (m.paid rules op)).2)
    := by
  obtain ⟨-, -, now, hperform⟩ := perform_of_discards rules hreply
  have hrun := hperform m
  rcases discardCards_ways rules m debt.player cards now with
    ⟨hother, hstay⟩ | ⟨other, howed', -, hwrong, hstay⟩ | ⟨other, howed', -, hcount, hholds, hend⟩
  · exact absurd rfl (hother debt howed)
  · cases howed.symm.trans howed'
    rw [run_map, hstay] at hrun
    rw [hrun]
    refine ⟨⟨nofun, fun ⟨hcount, hheld⟩ => ?_⟩, nofun⟩
    rcases hwrong with hlength | hmissing
    · exact absurd hcount hlength
    · rw [handHolds_iff.mpr hheld] at hmissing
      cases hmissing
  · cases howed.symm.trans howed'
    have hpaid : m.paid rules op = { m.discardAll rules debt.player cards with debt := none } := by
      rw [Match.paid, hreply]
    have hsteady := m.paid_calm rules op
    have hfits : (m.paid rules op).Fits rules.catalog m.table.playerIds :=
      (kept_fits_calm hc).chain hsteady ⟨h.conforms hc, rfl⟩
    have hactive : (m.paid rules op).table.activePlayer? = some debt.player :=
      (Table.activePlayer?_congr hfits.seats (steady_of_calm hsteady).turn).trans
        ((h.attentive hc).expectant.debt debt howed).1
    obtain ⟨next, -, hends⟩ := endTurn_dawn hc hfits hactive now
    rw [run_map, hend, ← hpaid, run_bind_ok hends, run_pure] at hrun
    rw [hrun]
    refine ⟨⟨fun _ => ⟨hcount, handHolds_iff.mp hholds⟩, fun _ => rfl⟩, fun _ => ⟨now, ?_⟩⟩
    rw [hends]

/-- **What a player owes is the excess of their hand as it was when they were asked.**

Somebody who owes a discard was asked for it as they stopped their turn: then nobody owed anything, and
they held that many cards too many.  They have owed it ever since, whatever has been done.  So it is the
excess of their hand as long as they hold as many cards as then.

The debt can be paid from the hand just if there are so many cards left in it, and a reply pays it just if
it names so many that are all in hand.  Before the turn ends proper the hand is then as far from the limit
as it has come from what it was: exactly at the limit if the player held as many cards as when they were
asked, below it if they held fewer.  Only where the hand is the graveyard does it keep its size. -/
theorem debt_is_the_excess_when_asked (hc : rules.catalog.Accepted)
    (hstatic : rules.catalog.kind? rules.config.handZone = some .static) (h : Reachable rules m)
    {debt : DiscardDebt} (howed : m.debt = some debt) :
    ∃ asked stop ops, m.OwedSince rules debt asked stop ops ∧
      debt.count + rules.config.maxHandSize.toNat = asked.handSize rules debt.player ∧
      (debt.count = m.handExcess rules debt.player ↔
        m.handSize rules debt.player = asked.handSize rules debt.player) ∧
      ((∃ cards : List CardId, cards.length = debt.count ∧
        cards.Subperm (m.hand rules debt.player)) ↔ debt.count ≤ m.handSize rules debt.player) ∧
      ∀ reply cards, reply.discards? = some (debt.player, cards) →
        ((m.perform rules reply).1 = .ok (.outcome .applied) ↔
          cards.length = debt.count ∧ cards.Subperm (m.hand rules debt.player)) ∧
        ((m.perform rules reply).1 = .ok (.outcome .applied) →
          (∃ now, (m.perform rules reply).2
            = ((endTurn rules rules.resolver now).run (m.paid rules reply)).2) ∧
          (m.paid rules reply).debt = none ∧
          (rules.config.graveyardZone ≠ some rules.config.handZone →
            (m.paid rules reply).handSize rules debt.player + asked.handSize rules debt.player
              = m.handSize rules debt.player + rules.config.maxHandSize.toNat) ∧
          (rules.config.graveyardZone = some rules.config.handZone →
            (m.paid rules reply).handSize rules debt.player = m.handSize rules debt.player)) := by
  have hcoherent := hc.coherent
  obtain ⟨asked, stop, ops, hsince⟩ := h.owed hcoherent howed
  have hthen := (hsince.reachable.conforms hcoherent).handExcess_eq hstatic debt.player
  have hnow := (h.conforms hcoherent).handExcess_eq hstatic debt.player
  have hcount := hsince.count
  have hpositive := hsince.positive
  have hsize : debt.count + rules.config.maxHandSize.toNat = asked.handSize rules debt.player := by
    omega
  refine ⟨asked, stop, ops, hsince, hsize, by omega, exists_subperm_length_iff, ?_⟩
  intro reply cards hreply
  obtain ⟨hiff, hends⟩ := pays_iff hcoherent h howed hreply
  refine ⟨hiff, fun happlied => ⟨hends happlied, ?_, fun hother => ?_, fun hsame => ?_⟩⟩
  · rw [Match.paid, hreply]
  · obtain ⟨hlength, hheld⟩ := hiff.mp happlied
    have hpaid : (m.paid rules reply).handSize rules debt.player + cards.length
        = m.handSize rules debt.player := by
      rw [Match.paid, hreply]
      exact Match.handSize_discardAll hother debt.player cards m hheld
    omega
  · rw [Match.paid, hreply]
    exact Match.handSize_discardAll_returned hsame debt.player cards m

namespace Duel

/-- The duel of players who may hold two cards when their turn ends. -/
def thrifty : Rulebook :=
  { book with config := { maxHandSize := 2 } }

/-- Ann wants to end her turn with three cards in hand. -/
def pressed : List Operation :=
  deal ++ [.stopTurn ⟨0⟩ 5]

/-- She owes one of them, and when she has given that she is at the limit. -/
theorem pressed_pays :
    (after thrifty pressed).debt = some ⟨⟨0⟩, 1⟩ ∧
    (∃ asked stop ops, (after thrifty pressed).OwedSince thrifty ⟨⟨0⟩, 1⟩ asked stop ops) ∧
    ((after thrifty pressed).perform thrifty (.discardCards ⟨0⟩ [⟨2⟩] 6)).1
      = .ok (.outcome .applied) ∧
    ((after thrifty pressed).paid thrifty (.discardCards ⟨0⟩ [⟨2⟩] 6)).handSize thrifty ⟨0⟩ = 2 := by
  have howed : (after thrifty pressed).debt = some ⟨⟨0⟩, 1⟩ := by decide +kernel
  have hc : thrifty.catalog.Accepted := accepted
  have hheld : (after thrifty pressed).handSize thrifty ⟨0⟩ = 3 := by decide +kernel
  obtain ⟨asked, stop, ops, hsince, hsize, -, -, hreply⟩ :=
    debt_is_the_excess_when_asked hc (by decide +kernel) (reachable_after thrifty pressed) howed
  obtain ⟨hpays, hafter⟩ := hreply (.discardCards ⟨0⟩ [⟨2⟩] 6) [⟨2⟩] rfl
  have happlied := hpays.mpr ⟨rfl, by decide +kernel⟩
  obtain ⟨-, -, hhand, -⟩ := hafter happlied
  refine ⟨howed, ⟨asked, stop, ops, hsince⟩, happlied, ?_⟩
  have hasked : asked.handSize thrifty ⟨0⟩ = 3 := hsize.symm
  have hleft : ((after thrifty pressed).paid thrifty (.discardCards ⟨0⟩ [⟨2⟩] 6)).handSize thrifty ⟨0⟩
      + asked.handSize thrifty ⟨0⟩ = (after thrifty pressed).handSize thrifty ⟨0⟩ + 2 :=
    hhand (by decide +kernel)
  omega

/-- Ann puts a card back that she was asked to discard. -/
def relieved : List Operation :=
  pressed ++ [.requestMove ⟨0⟩ "Hand" "Deck" 1]

/-- She still owes a card, with no card too many, and giving it leaves her below the limit. -/
theorem relieved_owes :
    thrifty.catalog.Accepted ∧ thrifty.catalog.kind? thrifty.config.handZone = some .static ∧
    Reachable thrifty (after thrifty relieved) ∧
    (after thrifty relieved).debt = some ⟨⟨0⟩, 1⟩ ∧
    (after thrifty relieved).handSize thrifty ⟨0⟩ = 2 ∧
    (after thrifty relieved).handExcess thrifty ⟨0⟩ = 0 ∧
    ((after thrifty relieved).perform thrifty (.stopTurn ⟨0⟩ 6)).1
      = .ok (.outcome (.rejected .discardPending)) ∧
    ((after thrifty relieved).perform thrifty (.discardCards ⟨0⟩ [⟨2⟩] 6)).1
      = .ok (.outcome .applied) ∧
    ((after thrifty relieved).paid thrifty (.discardCards ⟨0⟩ [⟨2⟩] 6)).handSize thrifty ⟨0⟩ = 1 := by
  refine ⟨accepted, by decide +kernel, reachable_after .., ?_⟩
  refine ⟨?_, ?_, ?_, ?_, ?_, ?_⟩ <;> decide +kernel

end Duel

end CardArena
