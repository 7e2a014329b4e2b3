import Mathlib
import CardArena.Proofs.Conservation

/-!
# How many cards a player has

`Table.held` counts the cards in all zones of a player, designs and cards in play alike.  While the store
and the zones agree it is the number of the player's entries in the holdings (`Table.Integrity.held_eq`),
and so what is known of the holdings is known of the count.

A change keeps the count, or makes a card of nothing (`Change.held`).  A card that takes the place of
another keeps it too, if that card is still in play and the player's own; if it is gone, then there is
one card more (`Match.Fits.held_replace`).
-/

namespace CardArena

open Relation (ReflTransGen)

/-! ## Counting -/

/-- How many cards there are in all zones of a player. -/
def Player.held (seat : Player) : Nat :=
  (seat.zones.map Zone.size).sum

namespace Table

/-- How many cards a player has; none, if there is no such player. -/
def held (t : Table) (player : PlayerId) : Nat :=
  ((t.player? player).map Player.held).getD 0

end Table

theorem Player.held_eq (seat : Player) : seat.held = seat.cards.length + seat.live.length := by
  have hsum : ∀ zones : List Zone, (zones.map Zone.size).sum
      = (zones.flatMap Zone.cards).length + (zones.flatMap Zone.live).length := by
    intro zones
    induction zones with
    | nil => rfl
    | cons z rest ih =>
        simp only [List.map_cons, List.sum_cons, List.flatMap_cons, List.length_append, ih,
          Zone.size_eq]
        omega
  exact hsum seat.zones

namespace Table

variable {t : Table}

theorem Distinct.countP_gather {α : Type} (hd : t.Distinct) {seat : Player}
    (hseat : seat ∈ t.players) (f : Zone → List α) :
    (t.gather f).countP (·.1 = seat.id) = (seat.zones.flatMap f).length := by
  rw [List.countP_eq_length_filter, hd.gather_seat hseat, List.length_map]

theorem countP_gather_of_none {α : Type} {player : PlayerId} (hnone : t.player? player = none)
    (f : Zone → List α) : (t.gather f).countP (·.1 = player) = 0 := by
  refine List.countP_eq_zero.mpr ?_
  rintro ⟨id, a⟩ hentry
  obtain ⟨seat, hseat, rfl, -⟩ := mem_gather.mp hentry
  have hother := List.find?_eq_none.mp hnone seat hseat
  simpa using hother

/-- A player has the cards that are found in the zones with their name on them. -/
theorem Distinct.held_eq (hd : t.Distinct) (player : PlayerId) :
    t.held player = (t.gather Zone.cards).countP (·.1 = player)
      + (t.gather Zone.live).countP (·.1 = player) := by
  cases hplayer : t.player? player with
  | none =>
      rw [held, hplayer, countP_gather_of_none hplayer, countP_gather_of_none hplayer]
      rfl
  | some seat =>
      obtain ⟨hseat, rfl⟩ := mem_of_player? hplayer
      rw [held, hplayer, hd.countP_gather hseat, hd.countP_gather hseat]
      exact seat.held_eq

/-- **While the store and the zones agree, a player has as many cards as there are entries of theirs in
the holdings.** -/
theorem Integrity.held_eq (hi : t.Integrity) (hd : t.Distinct) (player : PlayerId) :
    t.held player = t.holdings.countP (·.1 = player) := by
  have hlive : (t.gather Zone.live).countP (·.1 = player)
      = (t.roster.cards.map fun live => (live.owner, live.card)).countP (·.1 = player) := by
    rw [hi.listed.countP_eq, owned, List.countP_map, List.countP_map]
    rfl
  rw [hd.held_eq, hlive, holdings, List.countP_append]

end Table

/-- What is noted about a player changes nothing about their zones. -/
theorem Table.held_modifyPlayer (t : Table) (id : PlayerId) {change : Player → Player}
    (hid : ∀ seat, (change seat).id = seat.id) (hzones : ∀ seat, (change seat).zones = seat.zones)
    (player : PlayerId) : (t.modifyPlayer id change).held player = t.held player := by
  have hheld : ∀ seat : Player, (if seat.id = id then change seat else seat).held = seat.held := by
    intro seat
    split
    · rw [Player.held, hzones, Player.held]
    · rfl
  rw [held, held, player?_modifyPlayer id hid, Option.map_map]
  simp only [Function.comp_def, hheld]

theorem Match.held_markPlayed (m : Match) (player : PlayerId) (design : CardId) (id : LiveId)
    (other : PlayerId) : (m.markPlayed player design id).table.held other = m.table.held other :=
  m.table.held_modifyPlayer player (by intro; rfl) (by intro; rfl) other

/-! ## A card in the place of another -/

/-- What is held when a card takes the place of another: the new card instead of the old one, if that
one is in play, and one card more if it is not. -/
theorem Match.holdings_replace {m : Match} (hd : m.table.Distinct) {card : LiveId} (owner : PlayerId)
    (zone : String) (design : CardDesign) (cardType : CardType)
    (hnew : m.table.live? (m.spawner.spawn design.id owner).1 = none)
    (hne : card ≠ (m.spawner.spawn design.id owner).1) :
    (((m.table.live? card).map fun live => (live.owner, live.card)).toList
      ++ (m.replace card owner zone design cardType).table.holdings).Perm
        ((owner, design.id) :: m.table.holdings) := by
  let new : LiveCard := .spawn (m.spawner.spawn design.id owner).1 design cardType owner
  let t := (m.table.insertLive new).modifyZone owner zone (·.swapLive card new.id)
  have hinsert : (m.table.insertLive new).holdings.Perm ((owner, design.id) :: m.table.holdings) := by
    have hroster : (m.table.roster.insert new).cards = new :: m.table.roster.cards :=
      Roster.cards_insert_of_get?_eq_none hnew
    show (_ ++ List.map _ (m.table.roster.insert new).cards).Perm _
    rw [hroster, List.map_cons]
    exact List.perm_middle
  have hdistinct : (m.table.insertLive new).Distinct := ⟨hd.seats, hd.zones⟩
  have hswap : t.holdings.Perm (m.table.insertLive new).holdings :=
    hdistinct.holdings_keep owner zone fun z _ => by rw [Zone.cards_swapLive]
  have hlive : t.live? card = m.table.live? card :=
    (Roster.get?_insert ..).trans (if_neg hne)
  have hremove : (((m.table.live? card).map fun live => (live.owner, live.card)).toList
      ++ (t.removeLive card).holdings).Perm t.holdings := by
    cases hcard : m.table.live? card with
    | none => exact .of_eq (Table.holdings_removeLive_of_none (hlive.trans hcard))
    | some live => exact Table.holdings_removeLive (hlive.trans hcard)
  exact hremove.trans (hswap.trans hinsert)

section

variable {rules : Rulebook} {scope : Scope} {ids : List PlayerId} {m m' : Match}
  (hc : rules.catalog.Coherent)

include hc

/-- A new card in the place of a card of the owner's keeps the count of everybody; in the place of a
card that is gone it is one more for the owner. -/
theorem Match.Fits.held_replace (hm : m.Fits rules.catalog ids) {card : LiveId} {owner : PlayerId}
    {zone : String} {design : CardDesign} {cardType : CardType}
    (typed : rules.catalog.typed? design.id = some (design, cardType))
    (room : (m.table.zone? owner zone).map Zone.kind = some .dynamic)
    (hi : m.Integrity) (hhanded : card ∈ m.spawner.handed)
    (howner : ∀ live, m.table.live? card = some live → live.owner = owner)
    (hfresh : (m.replace card owner zone design cardType).Fresh) (player : PlayerId) :
    (m.replace card owner zone design cardType).table.held player = m.table.held player
      + if owner = player ∧ m.table.live? card = none then 1 else 0 := by
  have hmove : Change rules .all m (m.replace card owner zone design cardType) :=
    .replace rfl typed room
  have hd := hm.conforms.table.distinct hc
  have hi' := hmove.integrity hc hm.conforms hi hfresh
  have hd' := (hmove.fits hc hm).conforms.table.distinct hc
  rw [Match.Fresh, Match.handed_replace] at hfresh
  obtain ⟨-, hunused⟩ := Match.Fresh.next hfresh
  have hperm := (Match.holdings_replace hd owner zone design cardType (hi.books.live?_eq_none hunused)
    fun he => hunused (he ▸ hhanded)).countP_eq (·.1 = player)
  rw [List.countP_append, List.countP_cons] at hperm
  rw [hi'.table.held_eq hd', hi.table.held_eq hd]
  cases hlive : m.table.live? card with
  | none =>
      simp only [hlive, Option.map_none, Option.toList_none, List.countP_nil] at hperm
      by_cases he : owner = player <;> simp [he] at hperm ⊢ <;> omega
  | some live =>
      simp only [hlive, Option.map_some, Option.toList_some, List.countP_singleton,
        howner live hlive] at hperm
      by_cases he : owner = player <;> simp [he] at hperm ⊢ <;> omega

/-- A card that comes into play is one more for its owner. -/
theorem Match.Fits.held_bring (hm : m.Fits rules.catalog ids) {owner : PlayerId} {card : CardDesign}
    {cardType : CardType} {zone : String}
    (typed : rules.catalog.typed? card.id = some (card, cardType))
    (room : (m.table.zone? owner zone).map Zone.kind = some .dynamic) (hi : m.Integrity)
    (hfresh : (m.bring owner card cardType zone).Fresh) :
    (m.bring owner card cardType zone).table.held owner = m.table.held owner + 1 := by
  have hd := hm.conforms.table.distinct hc
  have hd' := (hm.bring hc typed room).conforms.table.distinct hc
  have hi' := hi.bring hd room hfresh
  rw [Match.Fresh, Match.handed_bring] at hfresh
  have hnew := hi.books.live?_eq_none (Match.Fresh.next hfresh).2
  have hperm : (m.bring owner card cardType zone).table.holdings.Perm
      ((owner, card.id) :: m.table.holdings) :=
    hd.holdings_bring (.spawn (m.spawner.spawn card.id owner).1 card cardType owner) zone hnew
  rw [hi'.table.held_eq hd', hi.table.held_eq hd, hperm.countP_eq, List.countP_cons]
  simp

/-- A card that is taken from hand is one less for the player. -/
theorem Match.Fits.held_draw (hm : m.Fits rules.catalog ids) {player : PlayerId} {card : CardId}
    {z : Zone} (hz : m.table.zone? player rules.config.handZone = some z) (hcard : card ∈ z.cards)
    (hi : m.Integrity) (hfresh : m.Fresh) :
    (m.draw rules player card).table.held player + 1 = m.table.held player := by
  have hdraw : Calm rules .all m (m.draw rules player card) := .draw rfl hz hcard
  have hd := hm.conforms.table.distinct hc
  have hd' := (hdraw.fits hc hm).conforms.table.distinct hc
  have hi' := hdraw.integrity hc hm.conforms hi hfresh
  rw [hi'.table.held_eq hd', hi.table.held_eq hd, ← (hd.holdings_removeCard hz hcard).countP_eq,
    List.countP_cons]
  simp [Match.draw, Match.onTable]

/-- **A change that makes no card of another keeps what a player has, or makes a card of nothing.** -/
theorem Change.held (hm : m.Conforms rules.catalog) (hscope : ∀ card, scope.transforms card = false)
    (h : Change rules scope m m') (hi : m.Integrity) (hfresh : m'.Fresh) (player : PlayerId) :
    m'.table.held player = m.table.held player ∨
      scope.creates = true ∧ m'.table.held player = m.table.held player + 1 := by
  have hi' := h.integrity hc hm hi hfresh
  have hd' := (h.table hc hm).distinct hc
  rw [hi'.table.held_eq hd', hi.table.held_eq (hm.table.distinct hc)]
  rcases h.holdings_or_gain hc hm hscope hi hfresh with hsame | ⟨hcreates, entry, hmore⟩
  · exact .inl (hsame.countP_eq _)
  · rw [hmore.countP_eq, List.countP_cons]
    split
    · exact .inr ⟨hcreates, rfl⟩
    · exact .inl rfl

end

end CardArena
