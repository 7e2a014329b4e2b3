import Mathlib
import CardArena.Match.Operation
import CardArena.Proofs.Conforms

/-!
# The changes that a cascade makes

A cascade may do anything that rules and triggers can set off, but each single thing it does to a
match is one of a few: `Change` lists them, each with what holds when it is done.  The steps of a
match are chains of such changes (`Proofs.Cascade`); so what every `Change` preserves, every cascade
preserves, wherever it is broken off.

A change is named for what happens at the table, not for the code that does it, and is as large as
it has to be: where a card must not be lost between two writes, both are in one change.

`Scope` says which of the changes are allowed that make a card of nothing or of another card, which
cards these may be, whether questions may be answered, and whether turns may be stopped and started.
A card that is transformed fades first if anybody may hear that it leaves (`Change.fade`); else it is
replaced in one change (`Match.replace_fade`).

* `Change.fits` : a match stays a match of its game, with the same seats.
* `Change.whose` : the handle of a card in play stands for one design and one owner.
-/

namespace CardArena

/-! ## Messages -/

namespace Match

/-- To tell a player is to post to them if they are connected. -/
theorem tell_eq_post (m : Match) (player : PlayerId) (message : Message) :
    m.tell player message = m.post (((m.table.player? player).filter Player.isConnected).toList.map
      fun seat => (seat.connection, message)) := by
  cases hp : m.table.player? player with
  | none => simp [tell, post, hp]
  | some seat => by_cases hc : seat.isConnected <;> simp [tell, post, hp, hc, Option.filter]

/-! ## States after a change -/

/-- A card comes into play on top of a zone, under the next handle. -/
def bring (m : Match) (owner : PlayerId) (card : CardDesign) (cardType : CardType)
    (zone : String) : Match :=
  ({ m with spawner := (m.spawner.spawn card.id owner).2 }.onTable fun table =>
    (table.modifyZone owner zone (·.pushLive (m.spawner.spawn card.id owner).1)).insertLive
      (.spawn (m.spawner.spawn card.id owner).1 card cardType owner)).broadcast
    (.cardSpawned (m.spawner.spawn card.id owner).1 card.id owner zone)

/-- A handle is handed out for a card that cannot come into play, and is given back. -/
def refund (m : Match) (owner : PlayerId) (card : CardId) : Match :=
  { m with spawner := (m.spawner.spawn card owner).2.despawn (m.spawner.spawn card owner).1 }

/-- A zone gets another pile. -/
def putPile (m : Match) (player : PlayerId) (zone : String) (pile : Pile) : Match :=
  m.onTable (·.modifyZone player zone ({ · with pile }))

/-- A card dies in its zone and no longer waits for its destruction. -/
def fade (m : Match) (card : LiveId) : Match :=
  { m with
    table := m.table.modifyLive card ({ · with alive := false })
    destructions := m.destructions.cancel card }

/-- A new card takes the place of a card, or comes on top of the zone if that card is gone. -/
def replace (m : Match) (card : LiveId) (owner : PlayerId) (zone : String) (design : CardDesign)
    (cardType : CardType) : Match :=
  (({ m with spawner := (m.spawner.spawn design.id owner).2 }.onTable fun table =>
    (table.insertLive (.spawn (m.spawner.spawn design.id owner).1 design cardType owner)).modifyZone
      owner zone (·.swapLive card (m.spawner.spawn design.id owner).1)).despawn card).2.broadcast
    (.cardTransformed card (m.spawner.spawn design.id owner).1 design.id)

end Match

theorem DestructionQueue.cancel_cancel (q : DestructionQueue) (card : LiveId) :
    (q.cancel card).cancel card = q.cancel card := by
  simp [cancel]

/-- A card that is replaced right after it has faded might as well not have faded. -/
theorem Match.replace_fade (m : Match) (card : LiveId) (owner : PlayerId) (zone : String)
    (design : CardDesign) (cardType : CardType) :
    (m.fade card).replace card owner zone design cardType
      = m.replace card owner zone design cardType := by
  have hroster (new : LiveCard) : ((m.table.roster.modify card ({ · with alive := false })).insert
      new).erase card = (m.table.roster.insert new).erase card := by
    rw [Roster.erase_insert, Roster.erase_insert, Roster.erase_modify]
  have hthere (new : LiveCard) : (((m.table.roster.modify card ({ · with alive := false })).insert
      new).get? card).isSome = ((m.table.roster.insert new).get? card).isSome := by
    rw [Roster.get?_insert, Roster.get?_insert, Roster.get?_modify, if_pos rfl]
    split
    · rfl
    · exact Option.isSome_map
  simp only [replace, fade, despawn, onTable, broadcast, post, Table.insertLive, Table.modifyZone,
    Table.modifyPlayer, Table.removeLive, Table.modifyLive, Table.live?, Table.connected,
    DestructionQueue.cancel_cancel, hroster, hthere]

/-! ## Changes -/

/-- Which changes may happen that make a card of nothing, or of another card, whether the open
question may be answered, whether a card that is transformed may fade before it is replaced, and whether
turns may be stopped and started. -/
structure Scope where
  creates : Bool
  /-- Which cards may be transformed. -/
  transforms : LiveId → Bool
  answers : Bool
  fades : Bool
  /-- Whether cards may count their turns, and debts may come up. -/
  turns : Bool

/-- No effect of the game is set off by a card that leaves a zone. -/
def Catalog.LeavesUnheard (c : Catalog) : Prop :=
  ∀ effect, c.Carries effect → ∀ zone, effect.trigger ≠ .cardZoneTransition .leave zone

namespace Scope

/-- The scope permits an action to be done to a card.  A card has no time to fade where nobody hears it
leave. -/
def Permits (scope : Scope) (c : Catalog) (action : CardAction) (card : LiveId) : Prop :=
  ∀ into, action = .transform into →
    scope.transforms card = true ∧ (scope.fades = true ∨ c.LeavesUnheard)

/-- The scope covers what a rule of the game can do. -/
structure Serves (scope : Scope) (c : Catalog) (rule : Rule) : Prop where
  tokens : ∀ name, rule.kind = .general (.createToken name) → scope.creates = true
  actions : ∀ action cardType, rule.kind = .targetsCard action cardType →
    ∀ card, scope.Permits c action card

/-- The scope covers what the rules of the game can do. -/
def Covers (scope : Scope) (c : Catalog) : Prop :=
  ∀ rule ∈ c.rules, scope.Serves c rule

/-- Everything is allowed. -/
def all : Scope := ⟨true, fun _ => true, true, true, true⟩

theorem all_covers (c : Catalog) : all.Covers c :=
  fun _ _ => ⟨fun _ _ => rfl, fun _ _ _ _ _ _ => ⟨rfl, .inl rfl⟩⟩

end Scope

/-- One thing that a cascade does to a match. -/
inductive Change (rules : Rulebook) (scope : Scope) : Match → Match → Prop
  /-- A firing joins the line behind the open question. -/
  | enqueue {m : Match} {firing : Firing} (waiting : m.session.pending.isSome)
      (carried : rules.catalog.Carries firing.effect) :
      Change rules scope m { m with session := m.session.enqueue firing }
  /-- The active player is asked for a target. -/
  | ask {m : Match} {selection : Selection} (idle : m.session.pending = none)
      (active : m.table.activePlayer? = some selection.chooser)
      (carried : rules.catalog.Carries selection.effect)
      (answerable : selection.isAnswerable rules m.table) :
      Change rules scope m
        ({ m with session.pending := some selection }.tell selection.chooser selection.question)
  | writePlayer {m : Match} {seat : Player} {player : PlayerId} {attr : String} {old : Amount}
      (value : Amount) (hseat : m.table.player? player = some seat)
      (hold : seat.attributes.get? attr = some old) :
      Change rules scope m (m.onTable (·.modifyPlayer player fun seat =>
        { seat with attributes := seat.attributes.set attr value }))
  | writeCard {m : Match} {live : LiveCard} {card : LiveId} {attr : String} {old : Amount}
      (value : Amount) (hlive : m.table.live? card = some live)
      (hold : live.attributes.get? attr = some old) :
      Change rules scope m (m.onTable (·.modifyLive card fun live =>
        { live with attributes := live.attributes.set attr value }))
  | bring {m : Match} {owner : PlayerId} {card : CardDesign} {cardType : CardType}
      {zone : String} (allowed : scope.creates = true)
      (typed : rules.catalog.typed? card.id = some (card, cardType))
      (room : (m.table.zone? owner zone).map Zone.kind = some .dynamic) :
      Change rules scope m (m.bring owner card cardType zone)
  | refund {m : Match} (owner : PlayerId) (card : CardId) : Change rules scope m (m.refund owner card)
  /-- The top card of a static zone goes to a static zone. -/
  | shift {m : Match} {player : PlayerId} {origin destination : String} {z : Zone} {card : CardId}
      {pile : Pile} (hzone : m.table.zone? player origin = some z)
      (htop : z.pile.popCard? = some (card, pile))
      (room : (m.table.zone? player destination).map Zone.kind = some .static) :
      Change rules scope m ((m.putPile player origin pile).onTable
        (·.modifyZone player destination (·.pushCard card)))
  /-- The top card of a static zone comes into play. -/
  | deploy {m : Match} {player : PlayerId} {origin destination : String} {z : Zone}
      {card : CardDesign} {cardType : CardType} {pile : Pile}
      (hzone : m.table.zone? player origin = some z)
      (htop : z.pile.popCard? = some (card.id, pile))
      (typed : rules.catalog.typed? card.id = some (card, cardType))
      (room : (m.table.zone? player destination).map Zone.kind = some .dynamic) :
      Change rules scope m ((m.putPile player origin pile).bring player card cardType destination)
  /-- A card leaves play for a static zone. -/
  | withdraw {m : Match} {player : PlayerId} {origin destination : String} {z : Zone}
      {card : LiveId} {live : LiveCard} (hzone : m.table.zone? player origin = some z)
      (there : card ∈ z.live) (hlive : m.table.live? card = some live)
      (room : (m.table.zone? player destination).map Zone.kind = some .static) :
      Change rules scope m ((m.despawn card).2.onTable
        (·.modifyZone player destination (·.pushCard live.card)))
  /-- A handle that stands for no card is struck out. -/
  | strike {m : Match} {card : LiveId} (gone : m.table.live? card = none) :
      Change rules scope m (m.despawn card).2
  /-- A card in play goes from zone to zone. -/
  | carry {m : Match} {player : PlayerId} {origin destination : String} {z : Zone} {card : LiveId}
      (hzone : m.table.zone? player origin = some z) (there : card ∈ z.live)
      (room : (m.table.zone? player destination).map Zone.kind = some .dynamic) :
      Change rules scope m (m.onTable fun table =>
        (table.modifyZone player origin (·.removeLive card)).modifyZone player destination
          (·.pushLive card))
  | condemn {m : Match} {card : LiveId} {live : LiveCard} (reason : DestructionReason)
      (hlive : m.table.live? card = some live) (fresh : m.destructions.contains card = false) :
      Change rules scope m
        ((m.condemn (reason.delay rules.config) reason card).broadcast (.cardKilled card))
  | fade {m : Match} {card : LiveId} (allowed : scope.fades = true)
      (changes : scope.transforms card = true) : Change rules scope m (m.fade card)
  | replace {m : Match} {card : LiveId} {owner : PlayerId} {zone : String} {design : CardDesign}
      {cardType : CardType} (allowed : scope.transforms card = true)
      (typed : rules.catalog.typed? design.id = some (design, cardType))
      (room : (m.table.zone? owner zone).map Zone.kind = some .dynamic) :
      Change rules scope m (m.replace card owner zone design cardType)
  | roll {m : Match} (dice : Dice) : Change rules scope m { m with dice }
  /-- The cascade goes deeper or comes back up. -/
  | nest {m : Match} (depth : Nat) : Change rules scope m { m with cascadeDepth := depth }
  /-- Every player sees the table. -/
  | reveal {m : Match} : Change rules scope m m.broadcastState

/-! ## What changes preserve -/

/-- A match of the game of the catalog, with these seats. -/
structure Match.Fits (c : Catalog) (ids : List PlayerId) (m : Match) : Prop where
  conforms : m.Conforms c
  seats : m.table.playerIds = ids

section

variable {rules : Rulebook} {scope : Scope} {c : Catalog} {m m' : Match}

theorem LiveCard.conforms_spawn {design : CardDesign} {cardType : CardType}
    (typed : c.typed? design.id = some (design, cardType)) (id : LiveId) (owner : PlayerId) :
    (LiveCard.spawn id design cardType owner).Conforms c :=
  ⟨design, cardType, typed, fun _ => rfl⟩

/-- A zone that is found belongs to a seated player. -/
theorem Table.Conforms.mem_of_kind {t : Table} (h : t.Conforms c) {player : PlayerId}
    {zone : String} {kind : ZoneKind} (room : (t.zone? player zone).map Zone.kind = some kind) :
    player ∈ t.playerIds := by
  obtain ⟨z, hz, -⟩ := Option.map_eq_some_iff.mp room
  exact (h.zone?_some hz).1

theorem Table.Conforms.bring {t : Table} (h : t.Conforms c) (hc : c.Coherent) {owner : PlayerId}
    {design : CardDesign} {cardType : CardType}
    (typed : c.typed? design.id = some (design, cardType)) (howner : owner ∈ t.playerIds)
    (id : LiveId) (zone : String) :
    ((t.modifyZone owner zone (·.pushLive id)).insertLive
      (.spawn id design cardType owner)).Conforms c := by
  refine (h.modifyZone_live hc owner zone (by simp) (by simp)).insertLive
    (LiveCard.conforms_spawn typed id owner) ?_
  rw [Table.playerIds_modifyZone]
  exact howner

theorem Table.Conforms.popTop {t : Table} (h : t.Conforms c) (hc : c.Coherent) {id : PlayerId}
    {name : String} {z : Zone} (hz : t.zone? id name = some z) {card : CardId} {pile : Pile}
    (htop : z.pile.popCard? = some (card, pile)) :
    (t.modifyZone id name ({ · with pile })).Conforms c ∧ (c.card? card).isSome := by
  obtain ⟨cards, hpile, rfl⟩ := Pile.popCard?_eq_some htop
  have hcards : z.cards = cards ++ [card] := by rw [Zone.cards, hpile]; rfl
  refine ⟨h.putPile hc hz (by rw [Zone.kind, hpile]; rfl) fun other hother => ?_, ?_⟩
  · rw [hcards]
    exact List.mem_append_left _ hother
  · exact h.known hz (by rw [hcards]; exact List.mem_append_right _ List.mem_cons_self)

/-- A change leaves a table of the game. -/
theorem Change.table (hc : rules.catalog.Coherent) (h : Change rules scope m m')
    (hm : m.Conforms rules.catalog) : m'.table.Conforms rules.catalog := by
  have ht := hm.table
  cases h with
  | ask => rw [Match.tell_eq_post]; exact ht
  | writePlayer value hseat hold =>
      refine ht.modifyPlayer (fun _ => rfl) ?_
      intro seat hmem he hconf
      have hfound := he ▸ (ht.distinct hc).player? hmem
      obtain rfl : seat = _ := Option.some.inj (hfound.symm.trans hseat)
      exact hconf.setAttribute hold value
  | writeCard value hlive hold =>
      refine ht.modifyLive (fun _ => rfl) (fun _ => rfl) ?_
      intro live hother other
      obtain rfl : live = _ := Option.some.inj (hother.symm.trans hlive)
      rw [Attributes.get?_set]
      split_ifs with he
      · rw [he, hold]
        rfl
      · rfl
  | bring _ typed room => exact ht.bring hc typed (ht.mem_of_kind room) _ _
  | shift hzone htop room =>
      obtain ⟨hpop, hcard⟩ := ht.popTop hc hzone htop
      exact hpop.pushCard hc _ _ hcard
  | deploy hzone htop typed room =>
      obtain ⟨hpop, -⟩ := ht.popTop hc hzone htop
      refine hpop.bring hc typed ?_ _ _
      rw [Table.playerIds_modifyZone]
      exact ht.mem_of_kind room
  | withdraw hzone there hlive room =>
      refine (ht.removeLive _).pushCard hc _ _ ?_
      obtain ⟨design, cardType, htyped, -⟩ := ht.roster _ (Roster.get?_eq_some_iff.mp hlive).1
      rw [(Catalog.typed?_eq_some_iff.mp htyped).1]
      rfl
  | strike => exact ht.removeLive _
  | carry =>
      refine (ht.modifyZone_live hc _ _ (by simp) (by simp)).modifyZone_live hc _ _ ?_ ?_ <;> simp
  | condemn => exact ht.markLive _ (fun _ => rfl) (fun _ => rfl) fun _ => rfl
  | fade => exact ht.markLive _ (fun _ => rfl) (fun _ => rfl) fun _ => rfl
  | replace _ typed room =>
      refine Table.Conforms.removeLive ?_ _
      exact (ht.insertLive (LiveCard.conforms_spawn typed _ _) (ht.mem_of_kind room)).modifyZone_live
        hc _ _ (by simp) (by simp)
  | _ => exact ht

/-- A change leaves only effects of the game waiting. -/
theorem Change.session (h : Change rules scope m m') (hm : m.Conforms rules.catalog) :
    m'.session.Conforms rules.catalog := by
  have hs := hm.session
  cases h with
  | enqueue _ carried =>
      refine ⟨hs.pending, fun firing hfiring => ?_⟩
      rcases List.mem_append.mp hfiring with hold | hnew
      · exact hs.queue firing hold
      · exact List.mem_singleton.mp hnew ▸ carried
  | ask _ _ carried =>
      rw [Match.tell_eq_post]
      exact ⟨fun selection h => Option.some.inj h ▸ carried, hs.queue⟩
  | _ => exact hs

theorem Change.playerIds (h : Change rules scope m m') :
    m'.table.playerIds = m.table.playerIds := by
  cases h with
  | ask => rw [Match.tell_eq_post]; rfl
  | writePlayer => exact Table.playerIds_modifyPlayer _ fun _ => rfl
  | bring => exact Table.playerIds_modifyZone ..
  | shift =>
      exact (Table.playerIds_modifyZone ..).trans (Table.playerIds_modifyZone ..)
  | deploy =>
      exact (Table.playerIds_modifyZone ..).trans (Table.playerIds_modifyZone ..)
  | withdraw =>
      exact (Table.playerIds_modifyZone ..).trans (Table.playerIds_removeLive _)
  | strike => exact Table.playerIds_removeLive _
  | carry =>
      exact (Table.playerIds_modifyZone ..).trans (Table.playerIds_modifyZone ..)
  | replace =>
      exact (Table.playerIds_removeLive _).trans (Table.playerIds_modifyZone ..)
  | _ => rfl

/-- **A match stays a match of its game, with the same seats.** -/
theorem Change.fits (hc : rules.catalog.Coherent) {ids : List PlayerId}
    (h : Change rules scope m m') (hm : m.Fits rules.catalog ids) : m'.Fits rules.catalog ids :=
  ⟨⟨h.table hc hm.conforms, h.session hm.conforms⟩, h.playerIds.trans hm.seats⟩

/-- A change touches neither whose turn it is nor what a player owes, nor the clock. -/
theorem Change.turn (h : Change rules scope m m') :
    m'.table.turn = m.table.turn ∧ m'.debt = m.debt ∧ m'.deadline = m.deadline := by
  cases h with
  | ask => rw [Match.tell_eq_post]; exact ⟨rfl, rfl, rfl⟩
  | _ => exact ⟨rfl, rfl, rfl⟩

/-- What is allowed in some scope is allowed where everything is. -/
theorem Change.widen (h : Change rules scope m m') : Change rules .all m m' := by
  cases h with
  | bring _ typed room => exact .bring rfl typed room
  | fade => exact .fade rfl rfl
  | replace _ typed room => exact .replace rfl typed room
  | _ => constructor <;> assumption

end

end CardArena
