import Mathlib
import CardArena.Proofs.Debt

/-!
# What a discard takes, and what it leaves

A player holds designs, and may hold one design more than once.  So a list of cards to discard is
one that the hand can give if no card is named more often than it is held, and each card named takes
one copy with it, the lowest that is left.  This is asked and done in two ways: whether the hand can
give the cards is asked of a copy of it, in which the last card comes into the place of the one
taken out, and then the cards are taken from the hand itself, which keeps its order.  Both agree on
which lists of cards are good, since they have the same cards left after every card
(`holdsAll_iff`).

What a discard does to the table is said by `Table.Discards`, for whatever list of cards: of the
hand what is left after each card in turn, the cards in turn on top of the graveyard, and nothing
else.  One card does that (`discards_discardCard`), and discards follow one another
(`Table.Discards.trans`).  So the cards that are named are discarded as a whole, and so are those
that chance names when a turn ends.

* `discards_are_exact` : the main statement, of any match.
-/

namespace CardArena

open Play

/-! ## Discards -/

/-- The zone of a player is the one that discarded cards go to. -/
structure Table.TakesDiscards (t : Table) (config : Config) (player owner : PlayerId)
    (zone : String) : Prop where
  own : owner = player
  named : config.graveyardZone = some zone
  kind : (t.zone? owner zone).map Zone.kind = some .static

/-- A player has discarded these cards from a hand of designs, in this order, and nothing else has
happened to the table. -/
structure Table.Discards (config : Config) (player : PlayerId) (cards : List CardId)
    (t t' : Table) : Prop where
  hand : ∀ z, t.zone? player config.handZone = some z → z.kind = .static →
    t'.zone? player config.handZone
      = some { z with pile := .static (cards.foldl List.erase z.cards) }
  graveyard : ∀ zone z, t.TakesDiscards config player player zone →
    t.zone? player zone = some z →
      t'.zone? player zone = some { z with pile := .static (z.cards ++ cards) }
  elsewhere : ∀ owner zone, ¬ (owner = player ∧ zone = config.handZone) →
    ¬ t.TakesDiscards config player owner zone → t'.zone? owner zone = t.zone? owner zone
  seats : t'.players.map ({ · with zones := [] }) = t.players.map ({ · with zones := [] })
  roster : t'.roster = t.roster
  turn : t'.turn = t.turn

namespace Zone

theorem withCards_self {z : Zone} (h : z.kind = .static) :
    { z with pile := .static z.cards } = z := by
  obtain ⟨name, isPrivate, held | held⟩ := z
  · rfl
  · cases h

theorem removeCard_eq {z : Zone} (h : z.kind = .static) (card : CardId) :
    z.removeCard card = { z with pile := .static (z.cards.erase card) } := by
  obtain ⟨name, isPrivate, held | held⟩ := z
  · by_cases hmem : card ∈ held
    · simp [removeCard, update, cards, Pile.removeCard?, hmem, Pile.cards]
    · simp [removeCard, update, cards, Pile.removeCard?, hmem, Pile.cards, List.erase_of_not_mem]
  · cases h

theorem pushCard_eq {z : Zone} (h : z.kind = .static) (card : CardId) :
    z.pushCard card = { z with pile := .static (z.cards ++ [card]) } := by
  obtain ⟨name, isPrivate, held | held⟩ := z
  · rfl
  · cases h

theorem pushCard_of_dynamic {z : Zone} (h : z.kind ≠ .static) (card : CardId) :
    z.pushCard card = z := by
  obtain ⟨name, isPrivate, held | held⟩ := z
  · exact absurd rfl h
  · rfl

end Zone

namespace Table

variable {t t' t'' : Table} {config : Config} {player owner : PlayerId} {zone : String}
  {cards more : List CardId}

/-- The seats of a table, whatever is in their zones. -/
theorem seats_modifyZone (t : Table) (id : PlayerId) (name : String) (change : Zone → Zone) :
    (t.modifyZone id name change).players.map ({ · with zones := [] })
      = t.players.map ({ · with zones := [] }) :=
  map_players_modifyZone (fun _ _ => rfl) id name change

/-- A zone is found where it was when a design has been buried. -/
theorem zone?_bury (t : Table) (graveyard : Option String) (player : PlayerId) (card : CardId)
    (owner : PlayerId) (zone : String) :
    (t.bury graveyard player card).zone? owner zone = (t.zone? owner zone).map fun z =>
      if owner = player ∧ graveyard = some zone then z.pushCard card else z := by
  cases graveyard with
  | none => simp [bury]
  | some name =>
      rw [bury, zone?_modifyZone _ _ fun z => congrArg ZoneLayout.name (Zone.layout_pushCard z card)]
      simp only [Option.some.injEq, eq_comm (a := zone)]

theorem seats_bury (t : Table) (graveyard : Option String) (player : PlayerId) (card : CardId) :
    (t.bury graveyard player card).players.map ({ · with zones := [] })
      = t.players.map ({ · with zones := [] }) := by
  cases graveyard with
  | none => rfl
  | some name => exact t.seats_modifyZone ..

namespace Discards

/-- Nothing discarded, nothing changed. -/
theorem refl (config : Config) (player : PlayerId) (t : Table) :
    t.Discards config player [] t where
  hand z hz hstatic := by
    rw [List.foldl_nil, Zone.withCards_self hstatic]
    exact hz
  graveyard zone z htakes hz := by
    have hstatic := htakes.kind
    rw [hz] at hstatic
    rw [List.append_nil, Zone.withCards_self (Option.some.inj hstatic)]
    exact hz
  elsewhere _ _ _ _ := rfl
  seats := rfl
  roster := rfl
  turn := rfl

/-- Discards do not change where discarded cards go. -/
theorem takes_iff (hother : config.graveyardZone ≠ some config.handZone)
    (h : t.Discards config player cards t') :
    t'.TakesDiscards config player owner zone ↔ t.TakesDiscards config player owner zone := by
  by_cases htakes : t.TakesDiscards config player owner zone
  · obtain ⟨rfl, hzone, hkind⟩ := htakes
    obtain ⟨z, hz, -⟩ := Option.map_eq_some_iff.mp hkind
    have hafter := h.graveyard zone z ⟨rfl, hzone, hkind⟩ hz
    exact ⟨fun _ => ⟨rfl, hzone, hkind⟩, fun _ => ⟨rfl, hzone, by rw [hafter]; rfl⟩⟩
  · refine ⟨fun hafter => ?_, fun hbefore => absurd hbefore htakes⟩
    obtain ⟨rfl, hzone, hkind⟩ := hafter
    have hhand : ¬ (owner = owner ∧ zone = config.handZone) := by
      rintro ⟨-, rfl⟩
      exact hother hzone
    rw [h.elsewhere owner zone hhand htakes] at hkind
    exact absurd ⟨rfl, hzone, hkind⟩ htakes

/-- **Discards follow one another.** -/
theorem trans (hother : config.graveyardZone ≠ some config.handZone)
    (h : t.Discards config player cards t') (h' : t'.Discards config player more t'') :
    t.Discards config player (cards ++ more) t'' where
  hand z hz hstatic := by
    rw [List.foldl_append]
    exact h'.hand _ (h.hand z hz hstatic) rfl
  graveyard zone z htakes hz := by
    rw [← List.append_assoc]
    exact h'.graveyard zone _ ((h.takes_iff hother).mpr htakes) (h.graveyard zone z htakes hz)
  elsewhere owner zone hhand hgraveyard := by
    rw [h'.elsewhere owner zone hhand (mt (h.takes_iff hother).mp hgraveyard),
      h.elsewhere owner zone hhand hgraveyard]
  seats := h'.seats.trans h.seats
  roster := h'.roster.trans h.roster
  turn := h'.turn.trans h.turn

end Discards

end Table

/-! ## Discarding -/

variable {rules : Rulebook} {m : Match} {player : PlayerId} {z : Zone} {card : CardId}
  {cards : List CardId}

namespace Match

theorem hand_of_zone? (hzone : m.table.zone? player rules.config.handZone = some z) :
    m.hand rules player = z.cards := by
  rw [hand, hzone]
  rfl

/-- To discard is to change the table. -/
theorem discardCard_onTable (m : Match) (rules : Rulebook) (player : PlayerId) (card : CardId) :
    ∃ table, m.discardCard rules player card = { m with table } := by
  unfold discardCard
  split
  · exact ⟨_, rfl⟩
  · exact ⟨m.table, rfl⟩

theorem discardAll_onTable (rules : Rulebook) (player : PlayerId) (cards : List CardId) :
    ∀ m : Match, ∃ table, m.discardAll rules player cards = { m with table } := by
  induction cards with
  | nil => exact fun m => ⟨m.table, rfl⟩
  | cons card rest ih =>
      intro m
      obtain ⟨first, hfirst⟩ := m.discardCard_onTable rules player card
      obtain ⟨table, htable⟩ := ih { m with table := first }
      refine ⟨table, ?_⟩
      show (m.discardCard rules player card).discardAll rules player rest = _
      rw [hfirst, htable]

/-- How many cards too many are in a hand of designs. -/
theorem handExcess_of_zone? (hzone : m.table.zone? player rules.config.handZone = some z)
    (hstatic : z.kind = .static) :
    m.handExcess rules player = z.cards.length - rules.config.maxHandSize.toNat := by
  obtain ⟨seat, hseat, hfound⟩ := Table.exists_of_zone? hzone
  obtain ⟨name, isPrivate, held | held⟩ := z
  · simp [handExcess, hseat, Player.zoneSize, hfound, Zone.size, Pile.size, Zone.cards, Pile.cards]
  · cases hstatic

end Match

section

variable (hother : rules.config.graveyardZone ≠ some rules.config.handZone)

include hother

/-- **One card that is held is discarded, and nothing else happens.** -/
theorem discards_discardCard (hzone : m.table.zone? player rules.config.handZone = some z)
    (held : card ∈ z.cards) :
    m.table.Discards rules.config player [card] (m.discardCard rules player card).table := by
  have htable : (m.discardCard rules player card).table
      = (m.table.modifyZone player rules.config.handZone (·.removeCard card)).bury
          rules.config.graveyardZone player card := by
    rw [Match.discardCard_eq hzone held]
    rfl
  have hfound : ∀ owner zone, (m.discardCard rules player card).table.zone? owner zone
      = ((m.table.zone? owner zone).map fun z =>
          if owner = player ∧ zone = rules.config.handZone then z.removeCard card else z).map
        fun z => if owner = player ∧ rules.config.graveyardZone = some zone then z.pushCard card
          else z := by
    intro owner zone
    rw [htable, Table.zone?_bury, Table.zone?_modifyZone _ _ fun z =>
      congrArg ZoneLayout.name (Zone.layout_removeCard z card)]
  constructor
  · intro found hfoundHand hkind
    have hnot : ¬ (player = player ∧ rules.config.graveyardZone = some rules.config.handZone) :=
      fun h => hother h.2
    rw [hfound, hfoundHand, Option.map_some, Option.map_some, if_neg hnot, if_pos ⟨rfl, rfl⟩,
      Zone.removeCard_eq hkind]
    rfl
  · intro zone found htakes hfoundZone
    have hkind := htakes.kind
    rw [hfoundZone] at hkind
    have hhand : ¬ (player = player ∧ zone = rules.config.handZone) := by
      rintro ⟨-, rfl⟩
      exact hother htakes.named
    rw [hfound, hfoundZone, Option.map_some, Option.map_some, if_neg hhand,
      if_pos ⟨rfl, htakes.named⟩, Zone.pushCard_eq (Option.some.inj hkind)]
  · intro owner zone hhand hgraveyard
    rw [hfound]
    cases hz : m.table.zone? owner zone with
    | none => rfl
    | some found =>
        rw [Option.map_some, Option.map_some, if_neg hhand]
        by_cases hburied : owner = player ∧ rules.config.graveyardZone = some zone
        · have hkind : found.kind ≠ .static := by
            intro hkind
            refine hgraveyard ⟨hburied.1, hburied.2, ?_⟩
            rw [hz, Option.map_some, hkind]
          rw [if_pos hburied, Zone.pushCard_of_dynamic hkind]
        · rw [if_neg hburied]
  · rw [htable, Table.seats_bury, Table.seats_modifyZone]
  · rw [htable]
    cases rules.config.graveyardZone <;> rfl
  · rw [htable, Table.turn_bury]
    rfl

/-- **Cards that are held are discarded one after the other.** -/
theorem discards_discardAll (player : PlayerId) (cards : List CardId) :
    ∀ (m : Match) (z : Zone), m.table.zone? player rules.config.handZone = some z →
      z.kind = .static → cards.Subperm z.cards →
        m.table.Discards rules.config player cards (m.discardAll rules player cards).table := by
  induction cards with
  | nil => exact fun m _ _ _ _ => .refl _ player m.table
  | cons card rest ih =>
      intro m z hzone hstatic hsub
      have hfirst := discards_discardCard hother hzone (hsub.subset List.mem_cons_self)
      have hleft := hsub.erase card
      rw [List.erase_cons_head] at hleft
      exact hfirst.trans hother (ih _ _ (hfirst.hand z hzone hstatic) rfl hleft)

/-- **Chance discards as many cards as it is asked for, if there are so many.** -/
theorem discards_discardRandom (player : PlayerId) (count : Nat) :
    ∀ (m : Match) (z : Zone), m.table.zone? player rules.config.handZone = some z →
      z.kind = .static → count ≤ z.cards.length →
        ∃ cards dice, cards.length = count ∧ cards.Subperm z.cards ∧
          m.table.Discards rules.config player cards (m.discardRandom rules player count).table ∧
          m.discardRandom rules player count
            = { m with table := (m.discardRandom rules player count).table, dice } := by
  induction count with
  | zero => exact fun m _ _ _ _ => ⟨[], m.dice, rfl, List.nil_subperm, .refl _ player m.table, rfl⟩
  | succ count ih =>
      intro m z hzone hstatic hle
      have hsome : z.cards ≠ [] := by
        rintro hnil
        rw [hnil] at hle
        exact absurd hle (Nat.not_succ_le_zero count)
      obtain ⟨card, hcard⟩ := Option.isSome_iff_exists.mp (m.dice.isSome_choose hsome)
      have hmem := Dice.mem_of_choose hcard
      -- The match in which the card has been drawn, but is still in hand.
      let drawn : Match := { m with dice := (m.dice.choose z.cards).2 }
      have hrun : m.discardRandom rules player (count + 1)
          = (drawn.discardCard rules player card).discardRandom rules player count := by
        have hpair : m.dice.choose (m.hand rules player) = (some card, drawn.dice) := by
          rw [Match.hand_of_zone? hzone, ← hcard]
        rw [Match.discardRandom, hpair]
      have hdrawn : drawn.table.zone? player rules.config.handZone = some z := hzone
      have hfirst : m.table.Discards rules.config player [card]
          (drawn.discardCard rules player card).table :=
        discards_discardCard hother hdrawn hmem
      have hleft : count ≤ (z.cards.erase card).length := by
        rw [List.length_erase_of_mem hmem]
        omega
      obtain ⟨cards, dice, hlength, hsub, hrest, hframe⟩ :=
        ih _ _ (hfirst.hand z hzone hstatic) rfl hleft
      refine ⟨card :: cards, dice, by rw [List.length_cons, hlength], ?_, ?_, ?_⟩
      · exact ((List.subperm_cons card).mpr hsub).trans (List.perm_cons_erase hmem).symm.subperm
      · rw [hrun]
        exact hfirst.trans hother hrest
      · obtain ⟨table, htable⟩ := drawn.discardCard_onTable rules player card
        rw [hrun, hframe, htable]

end

/-- What is left when cards have been taken in turn, and the cards, are what was there. -/
theorem coe_foldl_erase_add {held cards : List CardId} (h : cards.Subperm held) :
    ((cards.foldl List.erase held : List CardId) : Multiset CardId) + cards = held := by
  rw [← List.diff_eq_foldl, ← Multiset.coe_sub]
  exact Multiset.sub_add_cancel (Multiset.coe_le.mpr h)

/-- **Who discards gives each card that they name and no other, and who has to is left with the
limit.**

Let the hand be a pile of designs, other than the graveyard.  The hand can give a list of cards
exactly if it holds each of them as often as the list does.  A reply is granted exactly if the
player owes so many cards and can give them; then the turn ends from the match in which they are
discarded and nothing is owed, and else nothing happens to the table.  When a turn ends, chance,
however it falls, discards as many cards as are too many. -/
theorem discards_are_exact (rules : Rulebook) {m : Match} {player : PlayerId} {z : Zone}
    (hzone : m.table.zone? player rules.config.handZone = some z) (hstatic : z.kind = .static)
    (hother : rules.config.graveyardZone ≠ some rules.config.handZone) :
    (∀ cards : List CardId,
      m.handHolds rules player cards = true ↔ (cards : Multiset CardId) ≤ z.cards) ∧
    (∀ (cards : List CardId) now,
      (m.debt = some ⟨player, cards.length⟩ ∧ (cards : Multiset CardId) ≤ z.cards ∧
        ∃ m₁, m.table.Discards rules.config player cards m₁.table ∧
          m₁ = { m with table := m₁.table, debt := none } ∧
          (discardCards rules rules.resolver player cards now).run m
            = (endTurn rules rules.resolver now >>= fun _ => pure .applied).run m₁) ∨
      ¬ (m.debt = some ⟨player, cards.length⟩ ∧ (cards : Multiset CardId) ≤ z.cards) ∧
        ∃ refusal m', refusal ≠ .applied ∧ m'.table = m.table ∧ m'.debt = m.debt ∧
          (discardCards rules rules.resolver player cards now).run m = (.ok refusal, m')) ∧
    ∃ (cards : List CardId) (dice : Dice) (m₁ : Match), m.forceDiscard rules player = m₁ ∧
      m.table.Discards rules.config player cards m₁.table ∧
      m₁ = { m with table := m₁.table, dice } ∧
      (m₁.hand rules player : Multiset CardId) + cards = z.cards ∧
      (m₁.hand rules player).length
        = min z.cards.length rules.config.maxHandSize.toNat := by
  have hgives : ∀ cards : List CardId, m.handHolds rules player cards = true ↔
      (cards : Multiset CardId) ≤ z.cards := by
    intro cards
    rw [handHolds_iff, Match.hand_of_zone? hzone, Multiset.coe_le]
  refine ⟨hgives, ?_, ?_⟩
  · intro cards now
    rcases discardCards_ways rules m player cards now with
      ⟨hfree, hrun⟩ | ⟨debt, howed, hplayer, hwrong, hrun⟩ | ⟨debt, howed, hplayer, hcount, hheld, hrun⟩
    · refine .inr ⟨fun h => hfree _ h.1 rfl, _, m, ?_, rfl, rfl, hrun⟩
      nofun
    · refine .inr ⟨?_, _, _, ?_, ?_, ?_, hrun⟩
      · rintro ⟨howes, hle⟩
        rw [howes] at howed
        cases howed
        rcases hwrong with hcount | hheld
        · exact hcount rfl
        · rw [(hgives cards).mpr hle] at hheld
          cases hheld
      · nofun
      · rw [Match.tell_eq_post]
        rfl
      · rw [Match.tell_eq_post]
        rfl
    · have hle := (hgives cards).mp hheld
      refine .inl ⟨?_, hle, _, ?_, ?_, hrun⟩
      · rw [howed, ← hplayer, hcount]
      · exact discards_discardAll hother player cards m z hzone hstatic (Multiset.coe_le.mp hle)
      · obtain ⟨table, htable⟩ := Match.discardAll_onTable rules player cards m
        rw [htable]
  · have hexcess := Match.handExcess_of_zone? hzone hstatic
    obtain ⟨cards, dice, hlength, hsub, hdiscards, hframe⟩ :=
      discards_discardRandom hother player (m.handExcess rules player) m z hzone hstatic
        (by rw [hexcess]; exact Nat.sub_le _ _)
    have hhand : (m.forceDiscard rules player).hand rules player = cards.foldl List.erase z.cards :=
      Match.hand_of_zone? (hdiscards.hand z hzone hstatic)
    have hsum := coe_foldl_erase_add hsub
    refine ⟨cards, dice, _, rfl, hdiscards, hframe, by rw [hhand]; exact hsum, ?_⟩
    have hcard := congrArg Multiset.card hsum
    rw [Multiset.card_add, Multiset.coe_card, Multiset.coe_card, Multiset.coe_card] at hcard
    rw [hhand]
    omega

namespace Duel

/-- Ann holds two archers and a wolf when she owes a card.  She cannot give two wolves; she gives an
archer, and the turn ends with the other one in hand. -/
theorem pressed_gives :
    (after thrifty pressed).hand thrifty ⟨0⟩ = [⟨2⟩, ⟨2⟩, ⟨1⟩] ∧
    (after thrifty pressed).handHolds thrifty ⟨0⟩ [⟨1⟩, ⟨1⟩] = false ∧
    ∃ m₁, m₁.hand thrifty ⟨0⟩ = [⟨2⟩, ⟨1⟩] ∧
      (m₁.table.zone? ⟨0⟩ "Graveyard").map Zone.cards = some [⟨2⟩] ∧
      (discardCards thrifty thrifty.resolver ⟨0⟩ [⟨2⟩] 6).run (after thrifty pressed)
        = (endTurn thrifty thrifty.resolver 6 >>= fun _ => pure .applied).run m₁ := by
  have hzone : (after thrifty pressed).table.zone? ⟨0⟩ thrifty.config.handZone
      = some ⟨"Hand", true, .static [⟨2⟩, ⟨2⟩, ⟨1⟩]⟩ := by decide +kernel
  have hgraveyard : (after thrifty pressed).table.zone? ⟨0⟩ "Graveyard"
      = some ⟨"Graveyard", false, .static []⟩ := by decide +kernel
  have howed : (after thrifty pressed).debt = some ⟨⟨0⟩, 1⟩ := by decide +kernel
  obtain ⟨hgives, hreply, -⟩ := discards_are_exact thrifty hzone rfl (by decide)
  refine ⟨Match.hand_of_zone? hzone, ?_, ?_⟩
  · rw [Bool.eq_false_iff, ne_eq, hgives, Multiset.coe_le]
    intro hsub
    exact absurd (hsub.count_le ⟨1⟩) (by decide)
  · have hle : (([⟨2⟩] : List CardId) : Multiset CardId)
        ≤ (([⟨2⟩, ⟨2⟩, ⟨1⟩] : List CardId) : Multiset CardId) := by decide
    rcases hreply [⟨2⟩] 6 with ⟨-, -, m₁, hdiscards, -, hrun⟩ | ⟨hrefused, -⟩
    · refine ⟨m₁, ?_, ?_, hrun⟩
      · exact Match.hand_of_zone? (hdiscards.hand _ hzone rfl)
      · rw [hdiscards.graveyard "Graveyard" _ ⟨rfl, rfl, by rw [hgraveyard]; rfl⟩ hgraveyard]
        rfl
    · exact absurd ⟨howed, hle⟩ hrefused

end Duel

end CardArena
