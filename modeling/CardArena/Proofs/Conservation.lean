import Mathlib
import CardArena.Proofs.Integrity

/-!
# Cards are conserved

A player brings a deck, and its cards go from zone to zone, in and out of play.  In a game whose
rules make no card of nothing or of another card, what a player holds in all zones together is
always that deck: no cascade loses a card, wherever it is broken off.

What is conserved is `Table.holdings`: the designs outside play, each with its holder, and the
designs in play, each with its owner.  Between the two halves of a move a card is in neither; so the
moves are changes that take and put at once (`Change.holdings`).  To play a card is the exception:
it is taken from hand, then paid for, then put down, and a fault on the way loses it.  That is why
only calls that answer are considered (`playCard_holdings`).

* `Step.holdings` : every step on a table with a graveyard keeps the holdings.
* `cards_conserved` : every player holds the deck they came with.
-/

namespace CardArena

open Play
open Relation (ReflTransGen)

/-! ## Holdings -/

theorem Roster.cards_perm_erase {r : Roster} {id : LiveId} {live : LiveCard}
    (h : r.get? id = some live) : r.cards.Perm (live :: (r.erase id).cards) := by
  obtain ⟨hmem, rfl⟩ := Roster.get?_eq_some_iff.mp h
  have herase : (r.erase live.id).cards = r.cards.erase live := by
    rw [r.distinct.of_map.erase_eq_filter]
    refine List.filter_congr ?_
    intro other hother
    have hiff : other.id = live.id ↔ other = live :=
      ⟨List.inj_on_of_nodup_map r.distinct hother hmem, congrArg LiveCard.id⟩
    simp only [ne_eq, hiff, bne, beq_eq_decide, decide_not]
  rw [herase]
  exact List.perm_cons_erase hmem

namespace Table

/-- Who holds which design, outside play and in play. -/
def holdings (t : Table) : List (PlayerId × CardId) :=
  t.gather Zone.cards ++ t.roster.cards.map fun live => (live.owner, live.card)

variable {t : Table}

theorem holdings_modifyPlayer (id : PlayerId) {change : Player → Player}
    (hid : ∀ seat, (change seat).id = seat.id)
    (hzones : ∀ seat, (change seat).zones = seat.zones) :
    (t.modifyPlayer id change).holdings = t.holdings := by
  rw [holdings, gather_modifyPlayer Zone.cards id hid hzones]
  rfl

/-- What a change to a zone takes out and puts in, it takes out of the holdings and puts into them.
-/
theorem Distinct.holdings_modifyZone (hd : t.Distinct) {id : PlayerId} {name : String} {z : Zone}
    (hz : t.zone? id name = some z) {g : Zone → Zone} {taken put : List CardId}
    (hperm : (taken ++ (g z).cards).Perm (put ++ z.cards)) :
    (taken.map (id, ·) ++ (t.modifyZone id name g).holdings).Perm
      (put.map (id, ·) ++ t.holdings) := by
  rw [holdings, holdings, ← List.append_assoc, ← List.append_assoc]
  exact (hd.gather_perm hz Zone.cards hperm).append_right _

theorem Distinct.holdings_keep (hd : t.Distinct) (id : PlayerId) (name : String)
    {g : Zone → Zone} (hkeep : ∀ z, t.zone? id name = some z → (g z).cards.Perm z.cards) :
    (t.modifyZone id name g).holdings.Perm t.holdings :=
  (hd.gather_keep Zone.cards hkeep).append_right _

theorem Distinct.holdings_putPile (hd : t.Distinct) {id : PlayerId} {name : String} {z : Zone}
    (hz : t.zone? id name = some z) {pile : Pile} (hcards : pile.cards.Perm z.cards) :
    (t.modifyZone id name ({ · with pile })).holdings.Perm t.holdings := by
  refine hd.holdings_keep id name ?_
  intro other hother
  obtain rfl : z = other := Option.some.inj (hz.symm.trans hother)
  exact hcards

/-- The top card of a static zone is taken. -/
theorem Distinct.holdings_popTop (hd : t.Distinct) {id : PlayerId} {name : String} {z : Zone}
    (hz : t.zone? id name = some z) {card : CardId} {pile : Pile}
    (htop : z.pile.popCard? = some (card, pile)) :
    ((id, card) :: (t.modifyZone id name ({ · with pile })).holdings).Perm t.holdings := by
  obtain ⟨cards, hpile, rfl⟩ := Pile.popCard?_eq_some htop
  have hperm : ([card] ++ cards).Perm ([] ++ z.cards) := by
    rw [Zone.cards, hpile]
    exact (List.perm_append_singleton card cards).symm
  exact hd.holdings_modifyZone hz (g := ({ · with pile := .static cards })) hperm

theorem Distinct.holdings_removeCard (hd : t.Distinct) {id : PlayerId} {name : String} {z : Zone}
    (hz : t.zone? id name = some z) {card : CardId} (held : card ∈ z.cards) :
    ((id, card) :: (t.modifyZone id name (·.removeCard card)).holdings).Perm t.holdings := by
  have hperm : ([card] ++ (z.removeCard card).cards).Perm ([] ++ z.cards) := by
    rw [Zone.cards_removeCard]
    exact (List.perm_cons_erase held).symm
  exact hd.holdings_modifyZone hz (g := (·.removeCard card)) hperm

/-- A design is put on top of a static zone. -/
theorem Distinct.holdings_pushCard (hd : t.Distinct) {id : PlayerId} {name : String}
    (room : (t.zone? id name).map Zone.kind = some .static) (card : CardId) :
    (t.modifyZone id name (·.pushCard card)).holdings.Perm ((id, card) :: t.holdings) := by
  obtain ⟨z, hz, hkind⟩ := Option.map_eq_some_iff.mp room
  have hperm : ([] ++ (z.pushCard card).cards).Perm ([card] ++ z.cards) := by
    rw [Zone.cards_pushCard hkind]
    exact List.perm_append_singleton card z.cards
  exact hd.holdings_modifyZone hz (g := (·.pushCard card)) hperm

/-- A card comes into play under a handle that stood for none. -/
theorem Distinct.holdings_bring (hd : t.Distinct) (live : LiveCard) (zone : String)
    (hnew : t.live? live.id = none) :
    ((t.modifyZone live.owner zone (·.pushLive live.id)).insertLive live).holdings.Perm
      ((live.owner, live.card) :: t.holdings) := by
  have hkeep : ((t.modifyZone live.owner zone (·.pushLive live.id)).gather Zone.cards).Perm
      (t.gather Zone.cards) := hd.gather_keep Zone.cards fun z _ => by rw [Zone.cards_pushLive]
  have hroster : (t.roster.insert live).cards = live :: t.roster.cards :=
    Roster.cards_insert_of_get?_eq_none hnew
  show (_ ++ List.map _ (t.roster.insert live).cards).Perm _
  rw [hroster, List.map_cons]
  exact List.perm_middle.trans ((hkeep.append_right _).cons _)

theorem gather_cards_removeLive (t : Table) (id : LiveId) :
    (t.removeLive id).gather Zone.cards = t.gather Zone.cards := by
  rw [gather, removeLive, List.flatMap_map, gather]
  refine List.flatMap_congr ?_
  intro seat _
  rw [Player.forget, List.flatMap_map]
  simp

/-- A card leaves play. -/
theorem holdings_removeLive {id : LiveId} {live : LiveCard} (hlive : t.live? id = some live) :
    ((live.owner, live.card) :: (t.removeLive id).holdings).Perm t.holdings := by
  have hperm := (Roster.cards_perm_erase hlive).map fun live => (live.owner, live.card)
  rw [holdings, gather_cards_removeLive]
  exact List.perm_middle.symm.trans (hperm.symm.append_left _)

theorem holdings_removeLive_of_none {id : LiveId} (hlive : t.live? id = none) :
    (t.removeLive id).holdings = t.holdings := by
  rw [holdings, gather_cards_removeLive]
  show _ ++ List.map _ (t.roster.erase id).cards = _
  rw [Roster.cards_erase_of_get?_eq_none hlive]
  rfl

/-- Marks on a card in play that keep its design and its owner. -/
theorem holdings_modifyLive (id : LiveId) {change : LiveCard → LiveCard}
    (hcard : ∀ live, (change live).card = live.card)
    (howner : ∀ live, (change live).owner = live.owner) :
    (t.modifyLive id change).holdings = t.holdings := by
  refine congrArg (t.gather Zone.cards ++ ·) ?_
  rw [Table.modifyLive, Roster.modify, List.map_map]
  refine List.map_congr_left ?_
  intro live _
  by_cases he : live.id = id <;> simp [he, hcard, howner]

theorem Distinct.holdings_bury (hd : t.Distinct) {zone : String} {player : PlayerId}
    (room : (t.zone? player zone).map Zone.kind = some .static) (card : CardId) :
    (t.bury (some zone) player card).holdings.Perm ((player, card) :: t.holdings) :=
  hd.holdings_pushCard room card

end Table

/-! ## What one player holds -/

namespace Table

variable {t : Table}

/-- The designs in all zones of a player: those of static zones, and those of the cards in play. -/
def designs (t : Table) (seat : Player) : List CardId :=
  seat.cards ++ seat.live.filterMap fun id => (t.live? id).map LiveCard.card

/-- The entries of one player are what is found in the zones of that player. -/
theorem Distinct.gather_seat {α : Type} (hd : t.Distinct) {seat : Player}
    (hseat : seat ∈ t.players) (f : Zone → List α) :
    (t.gather f).filter (·.1 = seat.id) = (seat.zones.flatMap f).map (seat.id, ·) :=
  filter_flatMap_of_nodup (fun seat => seat.zones.flatMap f) hd.seats hseat

/-- What a player holds is what the holdings say they hold. -/
theorem Integrity.designs_perm (hi : t.Integrity) (hd : t.Distinct) {seat : Player}
    (hseat : seat ∈ t.players) :
    ((t.designs seat).map (seat.id, ·)).Perm (t.holdings.filter (·.1 = seat.id)) := by
  -- The entry of a card in play, by its owner and its handle.
  let design : PlayerId × LiveId → Option (PlayerId × CardId) := fun entry =>
    (t.live? entry.2).map fun live => (entry.1, live.card)
  have howned : t.owned.filterMap design
      = t.roster.cards.map fun live => (live.owner, live.card) := by
    rw [owned, List.filterMap_map, ← List.filterMap_eq_map]
    refine List.filterMap_congr ?_
    intro live hlive
    have hget : t.live? live.id = some live := Roster.get?_eq_some_iff.mpr ⟨hlive, rfl⟩
    simp [design, hget]
  have hlive := (hi.listed.filterMap design).filter (·.1 = seat.id)
  have hfilter : ((t.gather Zone.live).filterMap design).filter (·.1 = seat.id)
      = (seat.live.filterMap fun id => (t.live? id).map LiveCard.card).map (seat.id, ·) := by
    have hswap : ((t.gather Zone.live).filterMap design).filter (·.1 = seat.id)
        = ((t.gather Zone.live).filter (·.1 = seat.id)).filterMap design := by
      rw [List.filter_filterMap, List.filterMap_filter]
      refine List.filterMap_congr ?_
      intro entry _
      by_cases he : entry.1 = seat.id <;> cases hget : t.live? entry.2 <;>
        simp [design, he, hget]
    rw [hswap, hd.gather_seat hseat, List.filterMap_map, List.map_filterMap]
    refine List.filterMap_congr ?_
    intro id _
    simp [design, Function.comp_def]
  rw [howned, hfilter] at hlive
  rw [holdings, List.filter_append, hd.gather_seat hseat, designs, List.map_append]
  exact hlive.append_left _

end Table

/-! ## Changes and steps -/

/-- No card is made of nothing or of another card. -/
def Scope.closed : Scope := ⟨false, fun _ => false, true, false, true⟩

variable {rules : Rulebook} {m m' : Match}

/-- Where no card is made of another card, a change keeps the holdings, or makes one card of nothing. -/
theorem Change.holdings_or_gain {scope : Scope} (hc : rules.catalog.Coherent)
    (hm : m.Conforms rules.catalog) (hscope : ∀ card, scope.transforms card = false)
    (h : Change rules scope m m') (hi : m.Integrity) (hfresh : m'.Fresh) :
    m'.table.holdings.Perm m.table.holdings ∨
      scope.creates = true ∧ ∃ entry, m'.table.holdings.Perm (entry :: m.table.holdings) := by
  have ht := hm.table
  have hd := ht.distinct hc
  -- A card that comes into play does so under a handle that stood for none.
  have hbring : ∀ {t : Table}, t.Distinct → t.roster = m.table.roster → ∀ (card : CardDesign)
      (cardType : CardType) (owner : PlayerId) (zone : String),
      (m.spawner.handed ++ [(m.spawner.spawn card.id owner).1]).Nodup →
      ((t.modifyZone owner zone (·.pushLive (m.spawner.spawn card.id owner).1)).insertLive
        (.spawn (m.spawner.spawn card.id owner).1 card cardType owner)).holdings.Perm
          ((owner, card.id) :: t.holdings) := by
    intro t hdistinct hroster card cardType owner zone hnodup
    have hnew := hi.books.live?_eq_none (Match.Fresh.next hnodup).2
    rw [Table.live?, ← hroster] at hnew
    exact hdistinct.holdings_bring (.spawn _ card cardType owner) zone hnew
  cases h with
  | ask => rw [Match.tell_eq_post]; exact .inl (.refl _)
  | writePlayer =>
      exact .inl (.of_eq (Table.holdings_modifyPlayer _ (fun _ => rfl) fun _ => rfl))
  | writeCard => exact .inl (.of_eq (Table.holdings_modifyLive _ (fun _ => rfl) fun _ => rfl))
  | @bring owner card cardType zone allowed =>
      rw [Match.Fresh, Match.handed_bring] at hfresh
      exact .inr ⟨allowed, _, hbring hd rfl card cardType owner zone hfresh⟩
  | shift hzone htop room =>
      have hpop := ht.popTop hc hzone htop
      have hroom := ht.kind_eq hpop.1 (Table.playerIds_modifyZone ..) room
      exact .inl <|
        ((hpop.1.distinct hc).holdings_pushCard hroom _).trans (hd.holdings_popTop hzone htop)
  | @deploy player origin destination z card cardType pile hzone htop typed room =>
      have hpop := ht.popTop hc hzone htop
      rw [Match.Fresh, Match.handed_bring] at hfresh
      exact .inl <| (hbring (hpop.1.distinct hc) rfl card cardType player destination hfresh).trans
        (hd.holdings_popTop hzone htop)
  | @withdraw player _ _ _ card live hzone there hlive room =>
      have hout := ht.removeLive card
      have hroom := ht.kind_eq hout (Table.playerIds_removeLive _) room
      obtain rfl : live.owner = player := hi.table.owner_of_zone? hzone there hlive
      exact .inl <|
        ((hout.distinct hc).holdings_pushCard hroom _).trans (Table.holdings_removeLive hlive)
  | strike gone => exact .inl (.of_eq (Table.holdings_removeLive_of_none gone))
  | @carry player origin destination _ card =>
      have hout := ht.modifyZone_live hc player origin (Zone.layout_removeLive · card)
        (Zone.cards_removeLive · card)
      have hput := (hout.distinct hc).holdings_keep player destination (g := (·.pushLive card))
        fun z _ => by rw [Zone.cards_pushLive]
      exact .inl <|
        hput.trans (hd.holdings_keep player origin fun z _ => by rw [Zone.cards_removeLive])
  | condemn => exact .inl (.of_eq (Table.holdings_modifyLive _ (fun _ => rfl) fun _ => rfl))
  | fade => exact .inl (.of_eq (Table.holdings_modifyLive _ (fun _ => rfl) fun _ => rfl))
  | replace allowed => cases (hscope _).symm.trans allowed
  | _ => exact .inl (.refl _)

/-- **A change keeps the holdings.** -/
theorem Change.holdings (hc : rules.catalog.Coherent) (hm : m.Conforms rules.catalog)
    (h : Change rules .closed m m') (hi : m.Integrity) (hfresh : m'.Fresh) :
    m'.table.holdings.Perm m.table.holdings :=
  (h.holdings_or_gain hc hm (fun _ => rfl) hi hfresh).resolve_right (nomatch ·.1)

theorem Match.holdings_markPlayed (m : Match) (player : PlayerId) (design : CardId) (id : LiveId) :
    (m.markPlayed player design id).table.holdings = m.table.holdings :=
  Table.holdings_modifyPlayer _ (fun _ => rfl) fun _ => rfl

section

variable (hc : rules.catalog.Coherent) {graveyard : String}
  (hgraveyard : rules.config.graveyardZone = some graveyard)
  (hkind : rules.catalog.kind? graveyard = some .static) (hm : m.Conforms rules.catalog)

include hc hgraveyard hkind hm

theorem Calm.holdings (h : Calm rules .closed m m') (hi : m.Integrity) (hfresh : m'.Fresh) :
    m'.table.holdings.Perm m.table.holdings := by
  have ht := hm.table
  have hd := ht.distinct hc
  have hfits : m.Fits rules.catalog m.table.playerIds := ⟨hm, rfl⟩
  cases h with
  | change h => exact h.holdings hc hm hi hfresh
  | draw allowed => cases allowed
  | markPlayed => exact .of_eq (m.holdings_markPlayed _ _ _)
  | repeatQuestion => rw [Match.tell_eq_post]; exact .refl _
  | @discard player z card hzone held =>
      rw [Match.discardCard_eq hzone held, hgraveyard]
      have hout := ht.removeCard hc player rules.config.handZone card
      have hroom := ht.kind_eq hout (Table.playerIds_modifyZone ..)
        ((hfits.kind (hfits.mem_of_zone? hzone).1 graveyard).trans hkind)
      exact ((hout.distinct hc).holdings_bury hroom card).trans (hd.holdings_removeCard hzone held)
  | shuffle player zone =>
      rcases m.shuffleZone_eq player zone with heq | ⟨z, dice, hz, heq⟩ <;> rw [heq]
      exact hd.holdings_putPile hz (Pile.cards_shuffle _ _)
  | age => exact .of_eq (Table.holdings_modifyLive _ (fun _ => rfl) fun _ => rfl)
  | owe | demand => rw [Match.tell_eq_post]; exact .refl _
  | _ => exact .refl _

/-- Whoever is destroyed goes on top of their owner's graveyard. -/
theorem Match.Conforms.holdings_destroyAll (cards : List LiveId) :
    (m.destroyAll rules.config.graveyardZone cards).table.holdings.Perm m.table.holdings := by
  refine (destroyAll_induction (P := fun m' => m'.Conforms rules.catalog ∧
    m'.table.holdings.Perm m.table.holdings) ?_ cards ⟨hm, .refl _⟩).2
  intro m' card ⟨hm', hsame⟩
  refine ⟨hm'.destroy hc _ card, List.Perm.trans ?_ hsame⟩
  have ht := hm'.table
  have hfits : m'.Fits rules.catalog m'.table.playerIds := ⟨hm', rfl⟩
  cases hlive : m'.table.live? card with
  | none =>
      rw [destroy_of_none hlive]
      exact .of_eq (Table.holdings_removeLive_of_none hlive)
  | some live =>
      rw [destroy_eq hlive, hgraveyard]
      have hout := ht.removeLive card
      have howner := ht.owners live (Roster.get?_eq_some_iff.mp hlive).1
      have hroom := ht.kind_eq hout (Table.playerIds_removeLive _)
        ((hfits.kind howner graveyard).trans hkind)
      exact ((hout.distinct hc).holdings_bury hroom live.card).trans (Table.holdings_removeLive hlive)

/-- **A step keeps the holdings, as long as there is a graveyard to bury cards in.** -/
theorem Step.holdings (h : Step rules .closed m m') (hi : m.Integrity) (hfresh : m'.Fresh) :
    m'.table.holdings.Perm m.table.holdings := by
  cases h with
  | calm h => exact h.holdings hc hgraveyard hkind hm hi hfresh
  | disconnect => exact .of_eq (Table.holdings_modifyPlayer _ (fun _ => rfl) fun _ => rfl)
  | destroyDue | destroyAfterEffect =>
      exact (hm.release _).holdings_destroyAll hc hgraveyard hkind _
  | clearLastPlayed =>
      refine .of_eq (congrArg (· ++ _) ?_)
      rw [Table.gather, Table.gather]
      exact List.flatMap_map ..
  | _ => exact .refl _

end

/-! ## Chains -/

/-- A match in order, in which these designs are held. -/
structure Match.Holds (c : Catalog) (held : List (PlayerId × CardId)) (m : Match) : Prop where
  conforms : m.Conforms c
  integrity : m.Integrity
  holdings : m.table.holdings.Perm held

theorem fresh_of_changes {scope : Scope} (h : ReflTransGen (Change rules scope) m m')
    (hfresh : m'.Fresh) : m.Fresh :=
  hfresh.sublist (handed_of_changes h).sublist

section

variable (hc : rules.catalog.Coherent) {held : List (PlayerId × CardId)}

include hc

/-- Whatever changes, the same designs are held. -/
theorem changes_hold (hpath : ReflTransGen (Change rules .closed) m m')
    (h : m.Holds rules.catalog held) (hfresh : m'.Fresh) : m'.Holds rules.catalog held := by
  induction hpath with
  | refl => exact h
  | tail _ hstep ih =>
      have hb := ih (hstep.fresh hfresh)
      exact ⟨⟨hstep.table hc hb.conforms, hstep.session hb.conforms⟩,
        hstep.integrity hc hb.conforms hb.integrity hfresh,
        (hstep.holdings hc hb.conforms hb.integrity hfresh).trans hb.holdings⟩

theorem steps_hold {graveyard : String} (hgraveyard : rules.config.graveyardZone = some graveyard)
    (hkind : rules.catalog.kind? graveyard = some .static)
    (hpath : ReflTransGen (Step rules .closed) m m') (h : m.Holds rules.catalog held)
    (hfresh : m'.Fresh) : m'.Holds rules.catalog held := by
  induction hpath with
  | refl => exact h
  | tail _ hstep ih =>
      have hb := ih (hstep.fresh hfresh)
      exact ⟨hstep.conforms hc hb.conforms, hstep.integrity hc hb.conforms hb.integrity hfresh,
        (hstep.holdings hc hgraveyard hkind hb.conforms hb.integrity hfresh).trans hb.holdings⟩

/-! ## Playing a card -/

variable {F : Fault → Prop} {ids : List PlayerId} {resolve : Resolver}
  (hres : Resolves rules .closed F ids resolve)

include hres

/-- A card that is put into play is one more that its player holds. -/
theorem putIntoPlay_holds {player : PlayerId} {design : CardDesign}
    (hdesign : rules.catalog.card? design.id = some design) (hseats : m.table.playerIds = ids)
    (h : m.Holds rules.catalog held)
    (hrun : (putIntoPlay rules resolve player design).run m = (.ok (), m'))
    (hfresh : m'.Fresh) : m'.Holds rules.catalog ((player, design.id) :: held) := by
  have hm : m.Fits rules.catalog ids := ⟨h.conforms, hseats⟩
  obtain ⟨cardType, typed⟩ := hc.typed?_of_card? hdesign
  obtain ⟨id, m₁, henter, hrest⟩ := run_bind_eq_ok hrun
  obtain ⟨room, -, hpath⟩ := enterZone_ok hc hres hm typed henter
  have hm₁ := (kept_fits hc).chain hpath (hm.bring hc typed room)
  have hmark : Calm rules .closed m₁ (m₁.markPlayed player design.id id) :=
    markPlayed_calm hc hres hm typed henter
  rw [run_modify_bind] at hrest
  have hraise := (raiseOnAll_walks hc hres (.playerPlayedCard player design.id design.cardType) _
    (hmark.fits hc hm₁)).path
  rw [show (raiseOnAll rules resolve _).run (m₁.markPlayed player design.id id) = _ from hrest]
    at hraise
  have hfresh₁ : (m₁.markPlayed player design.id id).Fresh := fresh_of_changes hraise hfresh
  have hbrought : (m.bring player design cardType rules.config.boardZone).Holds rules.catalog
      ((player, design.id) :: held) := by
    have hbring : Change rules .all m (m.bring player design cardType rules.config.boardZone) :=
      .bring rfl typed room
    have hfresh₀ := fresh_of_changes hpath hfresh₁
    refine ⟨(hbring.fits hc hm).conforms, hbring.integrity hc h.conforms h.integrity hfresh₀, ?_⟩
    rw [Match.Fresh, Match.handed_bring] at hfresh₀
    have hnew := h.integrity.books.live?_eq_none (Match.Fresh.next hfresh₀).2
    exact ((h.conforms.table.distinct hc).holdings_bring (.spawn _ design cardType player) _
      hnew).trans (h.holdings.cons _)
  have hentered := changes_hold hc hpath hbrought hfresh₁
  refine changes_hold hc hraise ⟨(hmark.fits hc hm₁).conforms,
    hmark.integrity hc hentered.conforms hentered.integrity hfresh₁, ?_⟩ hfresh
  rw [Match.holdings_markPlayed]
  exact hentered.holdings

omit hres in
/-- **Whoever plays a card without a fault holds what they held.** -/
theorem playCard_holds (hcovers : Scope.closed.Covers rules.catalog) {player : PlayerId}
    {card : CardId} {outcome : Outcome} (h : m.Holds rules.catalog held)
    (hrun : (playCard rules rules.resolver player card).run m = (.ok outcome, m'))
    (hfresh : m'.Fresh) : m'.Holds rules.catalog held := by
  have hm : m.Fits rules.catalog m.table.playerIds := ⟨h.conforms, rfl⟩
  have htol := tolerates_all rules
  have hres : Resolves rules .closed (fun _ => True) m.table.playerIds rules.resolver :=
    resolver_resolves hc hcovers htol
  rcases playCard_cases hm player card with ⟨reason, hcase⟩ | ⟨design, hplay, hcase⟩ <;>
    rw [hcase] at hrun
  · cases hrun
    exact h
  obtain ⟨z, hz, hcard⟩ := hplay.held
  obtain ⟨seat, hseat, hcosts⟩ := hplay.affordable
  have hp := (hm.mem_of_zone? hz).1
  obtain ⟨_, m₂, hpay, hrun⟩ := run_bind_eq_ok hrun
  obtain ⟨_, m₃, hput, hrun⟩ := run_bind_eq_ok hrun
  cases hrun
  have hdraw : Calm rules .all m (m.draw rules player design.id) := .draw rfl hz hcard
  have hfits₁ := hdraw.fits hc hm
  have hwalk := payCosts_walks hc hres hp (hm.attr_of_canPay hseat hcosts) _ hfits₁
  have hfits₂ := hwalk.after (kept_fits hc) hfits₁ hpay
  have hpaid := hwalk.path
  have hplaced := (putIntoPlay_stays hc (resolver_resolves hc (Scope.all_covers _) htol) rfl hp
    hplay.known (.inr trivial) m₂ hfits₂).path
  rw [hpay] at hpaid
  rw [hput] at hplaced
  have hfresh₂ : m₂.Fresh := fresh_of_steps (steps_of_calm hplaced) hfresh
  have hfresh₁ := fresh_of_changes hpaid hfresh₂
  -- Between hand and board the player holds one card less.
  have hdrawn := (h.conforms.table.distinct hc).holdings_removeCard hz hcard
  have hheld₂ := changes_hold hc hpaid ⟨hfits₁.conforms,
    hdraw.integrity hc h.conforms h.integrity hfresh₁, .refl _⟩ hfresh₂
  obtain ⟨hconf, hint, hperm⟩ :=
    putIntoPlay_holds hc hres hplay.known hfits₂.seats hheld₂ hput hfresh
  exact ⟨⟨hconf.table, hconf.session⟩, hint.congr rfl rfl rfl rfl,
    hperm.trans (hdrawn.trans h.holdings)⟩

end

/-! ## Taking a seat -/

theorem Zone.cards_foldl_pushCard (deck : List CardId) :
    ∀ {z : Zone}, z.kind = .static → (deck.foldl pushCard z).cards = z.cards ++ deck := by
  induction deck with
  | nil => exact fun _ => (List.append_nil _).symm
  | cons card rest ih =>
      intro z hkind
      have hpush : (z.pushCard card).kind = .static :=
        (congrArg ZoneLayout.kind (layout_pushCard z card)).trans hkind
      rw [List.foldl_cons, ih hpush, cards_pushCard hkind, List.append_assoc]
      rfl

/-- Whoever takes a seat holds their deck. -/
theorem Match.cards_nextPlayer (hc : rules.catalog.Coherent)
    (hdeck : rules.catalog.kind? rules.config.deckZone = some .static) (m : Match) (name : String)
    (connection : ConnectionId) (deck : List CardId) :
    (m.nextPlayer rules name connection deck).cards.Perm deck := by
  -- The new player sits alone at a table of their own.
  let seat := Player.seated ⟨UInt8.ofNat m.table.players.length⟩ name connection rules.catalog
  have hseat := Player.conforms_seated (c := rules.catalog) seat.id name connection
  have hd : Table.Distinct { players := [seat] } := by
    refine ⟨List.nodup_singleton _, fun other hother => ?_⟩
    obtain rfl := List.mem_singleton.mp hother
    exact hseat.distinct hc
  obtain ⟨layout, hlayout, hkind⟩ := Option.map_eq_some_iff.mp hdeck
  have hzone := (hseat.zone?_layout rules.config.deckZone).trans hlayout
  obtain ⟨z, hz, rfl⟩ := Option.map_eq_some_iff.mp hzone
  have hempty : seat.cards = [] := by
    refine List.flatMap_eq_nil_iff.mpr ?_
    intro zone hmem
    obtain ⟨⟨_, _, _ | _⟩, -, rfl⟩ := List.mem_map.mp hmem <;> rfl
  have hfind : Table.zone? { players := [seat] } seat.id rules.config.deckZone = some z := by
    rw [Table.zone?_eq, hd.player? List.mem_cons_self]
    exact hz
  have hput : ([] ++ (deck.foldl Zone.pushCard z).cards).Perm (deck ++ z.cards) := by
    rw [Zone.cards_foldl_pushCard deck hkind, List.nil_append]
    exact List.perm_append_comm
  have hperm := (hd.gather_perm hfind Zone.cards (g := deck.foldl Zone.pushCard) hput).map Prod.snd
  rw [List.map_append, Table.map_snd_gather, List.map_append, Table.map_snd_gather] at hperm
  change seat.zones.flatMap Zone.cards = [] at hempty
  show ((seat.modifyZone rules.config.deckZone (deck.foldl Zone.pushCard)).zones.flatMap
    Zone.cards).Perm deck
  simpa [Table.modifyZone, Table.modifyPlayer, Function.comp_def, hempty] using hperm

/-! ## Runs -/

/-- The operation plays a card. -/
def Operation.playsCard : Operation → Bool
  | .playCard _ _ => true
  | .intent _ (.playCard _) _ => true
  | _ => false

/-- The player and the deck that an operation brings to the table, going by its answer. -/
def Operation.brings : Operation → Except Fault Answer → List (PlayerId × List CardId)
  | .register _ _ deck, .ok (.player id) => [(id, deck)]
  | _, _ => []

theorem Operation.within_closed {op : Operation} (hplays : op.playsCard = false)
    (htransform : op.transforms = false) : op.Within .closed := by
  unfold Within
  split <;> first | rfl | trivial

theorem Operation.brings_eq_nil {op : Operation} (h : op.isRegister = false)
    (answer : Except Fault Answer) : op.brings answer = [] := by
  cases op <;> first | rfl | cases h

/-- Whoever plays a card by an intent plays it. -/
theorem perform_of_playsCard (rules : Rulebook) {op : Operation} (h : op.playsCard = true)
    (m : Match) :
    ∃ player card, m.perform rules op =
      (Answer.outcome <$> playCard rules rules.resolver player card).run m := by
  unfold Operation.playsCard at h
  split at h
  · exact ⟨_, _, rfl⟩
  · exact ⟨_, _, rfl⟩
  · cases h

/-- Each player with each card of their deck. -/
def dealt (decks : List (PlayerId × List CardId)) : List (PlayerId × CardId) :=
  decks.flatMap fun (id, deck) => deck.map (id, ·)

/-- A match that comes about by operations that transform no card and play no card in vain, with the
decks that have been brought to it. -/
inductive Honest (rules : Rulebook) : Match → List (PlayerId × List CardId) → Prop
  | opening (handle : Nat → LiveId) (dice : Dice) :
      Honest rules (Match.opening rules.config handle dice) []
  | perform {m : Match} {decks : List (PlayerId × List CardId)} (op : Operation)
      (h : Honest rules m decks) (htransform : op.transforms = false)
      (hplay : op.playsCard → ∃ answer, (m.perform rules op).1 = .ok answer) :
      Honest rules (m.perform rules op).2 (decks ++ op.brings (m.perform rules op).1)

/-- The operations transform no card and play no card in vain. -/
def Match.honestly (rules : Rulebook) : Match → List Operation → Bool
  | _, [] => true
  | m, op :: rest =>
    !op.transforms && (!op.playsCard || (m.perform rules op).1.isOk) &&
      (m.perform rules op).2.honestly rules rest

/-- The decks that operations bring to a match. -/
def Match.brought (rules : Rulebook) : Match → List Operation → List (PlayerId × List CardId)
  | _, [] => []
  | m, op :: rest =>
    op.brings (m.perform rules op).1 ++ (m.perform rules op).2.brought rules rest

/-- Whether operations lead to an honest match can be checked. -/
theorem Honest.run {ops : List Operation} {decks : List (PlayerId × List CardId)}
    (h : Honest rules m decks) (hops : m.honestly rules ops = true) :
    Honest rules (m.run rules ops) (decks ++ m.brought rules ops) := by
  induction ops generalizing m decks with
  | nil => exact (List.append_nil decks).symm ▸ h
  | cons op rest ih =>
      simp only [Match.honestly, Bool.and_eq_true, Bool.not_eq_true', Bool.or_eq_true] at hops
      obtain ⟨⟨htransform, hplay⟩, hrest⟩ := hops
      have hnext := h.perform op htransform fun hplays => by
        rw [hplays] at hplay
        cases hanswer : (m.perform rules op).1 with
        | error f => rw [hanswer] at hplay; simp [Except.isOk, Except.toBool] at hplay
        | ok answer => exact ⟨answer, rfl⟩
      rw [Match.brought, ← List.append_assoc]
      exact ih hnext hrest

theorem Honest.reachable {decks : List (PlayerId × List CardId)} (h : Honest rules m decks) :
    Reachable rules m := by
  induction h with
  | opening handle dice => exact .opening handle dice
  | perform op _ _ _ ih => exact ih.perform op

/-- A new player brings their deck to what is held. -/
theorem Match.Holds.seat (hc : rules.catalog.Coherent)
    (hdeck : rules.catalog.kind? rules.config.deckZone = some .static)
    {held : List (PlayerId × CardId)} {deck : List CardId} (h : m.Holds rules.catalog held)
    (hopen : m.Open rules deck) (name : String) (connection : ConnectionId) :
    (m.seat rules name connection deck).Holds rules.catalog
      (held ++ deck.map (⟨UInt8.ofNat m.table.players.length⟩, ·)) := by
  refine ⟨hopen.conforms_seat h.conforms name connection, h.integrity.seat name connection deck, ?_⟩
  have hcards := m.cards_nextPlayer hc hdeck name connection deck
  show (List.flatMap _ (m.table.players ++ [_]) ++ _).Perm _
  rw [List.flatMap_append, List.flatMap_singleton, List.append_assoc]
  refine (List.perm_append_comm.append_left _).trans ?_
  rw [← List.append_assoc]
  exact h.holdings.append (hcards.map _)

/-- The decks are what is held, and there is one for each seat. -/
def Match.Accounts (m : Match) (c : Catalog) (decks : List (PlayerId × List CardId)) : Prop :=
  m.Holds c (dealt decks) ∧ m.table.playerIds = decks.map Prod.fst

/-- A registration is refused, or a deck comes to the table with its player. -/
theorem register_accounts (hc : rules.catalog.Coherent)
    (hdeck : rules.catalog.kind? rules.config.deckZone = some .static)
    {decks : List (PlayerId × List CardId)} (h : m.Fresh → m.Accounts rules.catalog decks)
    (name : String) (connection : ConnectionId) (deck : List CardId)
    (hfresh : (m.perform rules (.register name connection deck)).2.Fresh) :
    (m.perform rules (.register name connection deck)).2.Accounts rules.catalog
      (decks ++ (Operation.register name connection deck).brings
        (m.perform rules (.register name connection deck)).1) := by
  have hrun : m.perform rules (.register name connection deck) =
    (((registerPlayer rules name connection deck).run m).1.map .player,
      ((registerPlayer rules name connection deck).run m).2) := run_map ..
  rw [hrun] at hfresh ⊢
  rcases registerPlayer_cases rules m name connection deck with
    ⟨f, hcase⟩ | ⟨hopen, hcase⟩ <;> rw [hcase] at hfresh ⊢
  · show m.Accounts _ (decks ++ [])
    rw [List.append_nil]
    exact h hfresh
  · obtain ⟨hholds, hids⟩ := h hfresh
    show _ ∧ (m.table.players ++ [_]).map _ = (decks ++ [_]).map _
    rw [List.map_append, List.map_append, ← hids]
    refine ⟨?_, rfl⟩
    have hdealt : dealt (decks ++ [(⟨UInt8.ofNat m.table.players.length⟩, deck)])
        = dealt decks ++ deck.map (⟨UInt8.ofNat m.table.players.length⟩, ·) := by
      simp [dealt]
    exact hdealt.symm ▸ hholds.seat hc hdeck hopen name connection

/-- No other operation brings a deck, and what is held stays held. -/
theorem perform_accounts (hc : rules.catalog.Coherent) (hcovers : Scope.closed.Covers rules.catalog)
    {graveyard : String} (hgraveyard : rules.config.graveyardZone = some graveyard)
    (hkind : rules.catalog.kind? graveyard = some .static)
    {decks : List (PlayerId × List CardId)} {op : Operation} (hregister : op.isRegister = false)
    (htransform : op.transforms = false)
    (hplay : op.playsCard → ∃ answer, (m.perform rules op).1 = .ok answer)
    (h : m.Accounts rules.catalog decks) (hfresh : (m.perform rules op).2.Fresh) :
    (m.perform rules op).2.Accounts rules.catalog decks := by
  obtain ⟨hholds, hids⟩ := h
  have hpath := perform_steps hc (Scope.all_covers _) hholds.conforms op.within_all hregister
  refine ⟨?_, ((kept_fits_step hc).chain hpath ⟨hholds.conforms, hids⟩).seats⟩
  by_cases hplays : op.playsCard = true
  · obtain ⟨answer, hanswer⟩ := hplay hplays
    obtain ⟨player, card, hrun⟩ := perform_of_playsCard rules hplays m
    rw [hrun, run_map] at hanswer hfresh ⊢
    rcases hcard : (playCard rules rules.resolver player card).run m with ⟨f | outcome, m'⟩
    · rw [hcard] at hanswer
      cases hanswer
    · rw [hcard] at hfresh
      exact playCard_holds hc hcovers hholds hcard hfresh
  · have hwithin := Operation.within_closed (by simpa using hplays) htransform
    exact steps_hold hc hgraveyard hkind (perform_steps hc hcovers hholds.conforms hwithin hregister)
      hholds hfresh

/-- **What is held in an honest match is what was brought to it.** -/
theorem Honest.accounts (hc : rules.catalog.Coherent) (hcovers : Scope.closed.Covers rules.catalog)
    (hdeck : rules.catalog.kind? rules.config.deckZone = some .static) {graveyard : String}
    (hgraveyard : rules.config.graveyardZone = some graveyard)
    (hkind : rules.catalog.kind? graveyard = some .static)
    {decks : List (PlayerId × List CardId)} (h : Honest rules m decks) (hfresh : m.Fresh) :
    m.Accounts rules.catalog decks := by
  induction h with
  | opening handle dice =>
      exact ⟨⟨Match.conforms_opening _ _ handle dice, Match.integrity_opening _ handle dice,
        .refl _⟩, rfl⟩
  | perform op h htransform hplay ih =>
      cases hregister : op.isRegister with
      | true =>
          cases op with
          | register name connection deck =>
              exact register_accounts hc hdeck ih name connection deck hfresh
          | _ => cases hregister
      | false =>
          have hpath := perform_steps hc (Scope.all_covers _) (h.reachable.conforms hc)
            op.within_all hregister
          rw [op.brings_eq_nil hregister, List.append_nil]
          exact perform_accounts hc hcovers hgraveyard hkind hregister htransform hplay
            (ih (fresh_of_steps hpath hfresh)) hfresh

/-- **Every player holds the deck they came with.**

The game has no rule that creates a token or transforms a card, and its decks and graveyards are
static zones.  The match has come about by any operations that transform no card, with any answers
as long as no call to play a card failed; and the host, as it has to, handed out no handle twice. -/
theorem cards_conserved (hc : rules.catalog.Accepted)
    (hrules : ∀ rule ∈ rules.catalog.rules, (∀ name, rule.kind ≠ .general (.createToken name)) ∧
      ∀ into cardType, rule.kind ≠ .targetsCard (.transform into) cardType)
    (hdeck : rules.catalog.kind? rules.config.deckZone = some .static)
    (hgraveyard : rules.config.graveyardZone.bind rules.catalog.kind? = some .static)
    {decks : List (PlayerId × List CardId)} (h : Honest rules m decks)
    (hunique : m.spawner.handed.Nodup) :
    -- Whoever is seated has registered, once.
    (decks.map Prod.fst = m.table.playerIds ∧ m.table.playerIds.Nodup) ∧
    ∀ seat ∈ m.table.players, ∀ deck, (seat.id, deck) ∈ decks → (m.table.designs seat).Perm deck := by
  have hcovers : Scope.closed.Covers rules.catalog := fun rule hrule =>
    ⟨fun name hkind => absurd hkind ((hrules rule hrule).1 name),
      fun action cardType hkind card into he =>
        absurd (he ▸ hkind) ((hrules rule hrule).2 into cardType)⟩
  obtain ⟨graveyard, hgraveyard, hkind⟩ := Option.bind_eq_some_iff.mp hgraveyard
  obtain ⟨hholds, hids⟩ := h.accounts hc.coherent hcovers hdeck hgraveyard hkind hunique
  have hd := hholds.conforms.table.distinct hc.coherent
  refine ⟨⟨hids.symm, hd.seats⟩, fun seat hseat deck hdeck => ?_⟩
  have hdealt : (dealt decks).filter (·.1 = seat.id) = deck.map (seat.id, ·) :=
    filter_flatMap_of_nodup Prod.snd (hids ▸ hd.seats) hdeck
  have hperm := (hholds.integrity.table.designs_perm hd hseat).trans (hholds.holdings.filter _)
  rw [hdealt] at hperm
  simpa [Function.comp_def] using hperm.map Prod.snd

/-- Ann plays an archer, lets the question go and kills the archer, which goes to the graveyard three
turn ends later. -/
def Duel.waste : List Operation :=
  deal ++ [.playCard ⟨0⟩ ⟨2⟩, .kill ⟨0⟩, .endTurn 0, .endTurn 0, .endTurn 0]

theorem Duel.conserved_waste :
    (opening.run book waste).spawner.handed = [⟨0⟩] ∧
    ((opening.run book waste).table.zone? ⟨0⟩ "Graveyard").map Zone.cards = some [⟨2⟩] ∧
    ∀ seat ∈ (opening.run book waste).table.players, seat.id = ⟨0⟩ →
      ((opening.run book waste).table.designs seat).Perm [⟨1⟩, ⟨2⟩, ⟨2⟩] := by
  have hhanded : (opening.run book waste).spawner.handed = [⟨0⟩] := by decide +kernel
  have hdecks : opening.brought book waste = [(⟨0⟩, [⟨1⟩, ⟨2⟩, ⟨2⟩]), (⟨1⟩, [⟨1⟩])] := by
    decide +kernel
  have hhonest : Honest book (opening.run book waste) (opening.brought book waste) :=
    (Honest.opening _ _).run (by decide +kernel)
  rw [hdecks] at hhonest
  have hrules : ∀ rule ∈ book.catalog.rules,
      (∀ name, rule.kind ≠ .general (.createToken name)) ∧
        ∀ into cardType, rule.kind ≠ .targetsCard (.transform into) cardType := by
    intro rule hrule
    obtain rfl := List.mem_singleton.mp hrule
    exact ⟨nofun, nofun⟩
  obtain ⟨-, hheld⟩ := cards_conserved accepted hrules (by decide +kernel) (by decide +kernel)
    hhonest (by rw [hhanded]; decide)
  refine ⟨hhanded, by decide +kernel, fun seat hseat he => hheld seat hseat _ ?_⟩
  rw [he]
  exact List.mem_cons_self

end CardArena
