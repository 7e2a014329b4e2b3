import Mathlib
import CardArena.Proofs.Dice
import CardArena.Proofs.Handles

/-!
# The steps of a match

Besides the changes that cascades make, an operation does a few things of its own.  Within a turn it
discards, asks for discards, takes cards from hand and takes answers: `Calm` lists these.  Between
turns it takes the dead off the table, passes the turn and tells everybody: `Step` lists these too.
Each is listed with what holds when it is done, so that every operation on a seated table is a chain
of steps (`Proofs.Course`).

* `Step.fits` : a match stays a match of its game, with the same seats.
* `Step.timely` : while a question or a debt is open the match is under way, and somebody is active.
-/

namespace CardArena

/-! ## States after a step -/

/-- The table with a design on top of a player's graveyard, if there is one. -/
def Table.bury (t : Table) (graveyard : Option String) (player : PlayerId) (card : CardId) :
    Table :=
  match graveyard with
  | none => t
  | some zone => t.modifyZone player zone (·.pushCard card)

namespace Match

/-- The match begins: the first turn of the first player. -/
def begin (m : Match) : Match :=
  m.onTable ({ · with turn := ⟨.running, 0, 1⟩ })

/-- The turn passes, and with it its time. -/
def passTurn (m : Match) : Match :=
  { m.onTable fun table => { table with turn := table.nextTurn } with deadline := none }

/-- The match is over, and nothing is open any more. -/
def finish (m : Match) (winner : Option PlayerId) : Match :=
  { m.abandonSelection.onTable fun table =>
      { table with turn := { table.turn with status := .ended winner } } with
    deadline := none
    debt := none }

/-- The last card that a player played, with the card in play that a handle stands for. -/
def markPlayed (m : Match) (player : PlayerId) (design : CardId) (id : LiveId) : Match :=
  m.onTable (·.modifyPlayer player fun seat =>
    { seat with lastPlayed := some ⟨design, (m.table.live? id).map LiveCard.id⟩ })

end Match

/-- The question to a player who owes a discard. -/
def DiscardDebt.demand (debt : DiscardDebt) : Message :=
  .selectDiscard (UInt64.ofNat debt.count)

/-- The message says that a card is destroyed. -/
def Message.isFarewell : Message → Bool
  | .cardDestroyed _ => true
  | _ => false

/-! ## Steps -/

/-- One thing that an operation does within a turn. -/
inductive Calm (rules : Rulebook) (scope : Scope) : Match → Match → Prop
  | change {m m' : Match} (h : Change rules scope m m') : Calm rules scope m m'
  /-- A card leaves the hand on its way to the board. -/
  | draw {m : Match} {player : PlayerId} {z : Zone} {card : CardId}
      (allowed : scope.creates = true)
      (hzone : m.table.zone? player rules.config.handZone = some z) (held : card ∈ z.cards) :
      Calm rules scope m
        (m.onTable (·.modifyZone player rules.config.handZone (·.removeCard card)))
  /-- The card that a player played is remembered while it is the same card. -/
  | markPlayed {m : Match} {player : PlayerId} {design : CardId} {id : LiveId}
      (played : m.Fresh → ∀ live, m.table.live? id = some live →
        live.card = design ∧ live.owner = player) :
      Calm rules scope m (m.markPlayed player design id)
  /-- A player gets the same question again. -/
  | repeatQuestion {m : Match} (player : PlayerId) (selection : Selection) :
      Calm rules scope m (m.tell player selection.question)
  /-- A question is answered. -/
  | answer {m : Match} (allowed : scope.answers = true) :
      Calm rules scope m { m with session.pending := none }
  /-- The first firing in line is taken. -/
  | next {m : Match} {firing : Firing} {session : Session} (allowed : scope.answers = true)
      (hnext : m.session.next? = some (firing, session)) : Calm rules scope m { m with session }
  | discard {m : Match} {player : PlayerId} {z : Zone} {card : CardId}
      (hzone : m.table.zone? player rules.config.handZone = some z) (held : card ∈ z.cards) :
      Calm rules scope m (m.discardCard rules player card)
  | shuffle {m : Match} (player : PlayerId) (zone : String) :
      Calm rules scope m (m.shuffleZone player zone)
  /-- A card counts its turns. -/
  | age {m : Match} (card : LiveId) (turns : UInt32) (allowed : scope.turns = true) :
      Calm rules scope m (m.onTable (·.modifyLive card ({ · with turnsInPlay := turns })))
  /-- The active player comes to owe a discard, and is asked for it. -/
  | owe {m : Match} (debt : DiscardDebt) (active : m.table.activePlayer? = some debt.player)
      (positive : 0 < debt.count) (allowed : scope.turns = true) :
      Calm rules scope m ({ m with debt := some debt }.tell debt.player debt.demand)
  /-- A player is asked again which cards to discard. -/
  | demand {m : Match} (debt : DiscardDebt) : Calm rules scope m (m.tell debt.player debt.demand)
  | settle {m : Match} : Calm rules scope m { m with debt := none }

/-- One thing that an operation does to a match with its players seated. -/
inductive Step (rules : Rulebook) (scope : Scope) : Match → Match → Prop
  | calm {m m' : Match} (h : Calm rules scope m m') : Step rules scope m m'
  | disconnect {m : Match} (player : PlayerId) :
      Step rules scope m (m.onTable (·.modifyPlayer player ({ · with isConnected := false })))
  | broadcast {m : Match} {message : Message} (quiet : message.isFarewell = false) :
      Step rules scope m (m.broadcast message)
  | views {m : Match} {message : Snapshot → Message}
      (quiet : ∀ view, (message view).isFarewell = false) :
      Step rules scope m (m.broadcastViews message)
  | abandon {m : Match} : Step rules scope m m.abandonSelection
  | clock {m : Match} (deadline : Option Nat) : Step rules scope m { m with deadline }
  /-- One turn end is counted down, and the cards whose time is up are destroyed. -/
  | destroyDue {m : Match} : Step rules scope m (m.destroyDue rules)
  | destroyAfterEffect {m : Match} : Step rules scope m (m.destroyAfterEffect rules)
  | clearLastPlayed {m : Match} : Step rules scope m m.clearLastPlayed
  | begin {m : Match} (seated : m.table.players ≠ [])
      (notStarted : m.table.turn.status = .notStarted) :
      Step rules scope m m.begin
  | passTurn {m : Match} : Step rules scope m m.passTurn
  | finish {m : Match} (winner : Option PlayerId) : Step rules scope m (m.finish winner)

theorem Change.step {rules : Rulebook} {scope : Scope} {m m' : Match}
    (h : Change rules scope m m') : Step rules scope m m' :=
  .calm (.change h)

/-! ## What steps preserve -/

variable {rules : Rulebook} {scope : Scope} {m m' : Match}

namespace Match

theorem discardCard_eq {player : PlayerId} {z : Zone} {card : CardId}
    (hzone : m.table.zone? player rules.config.handZone = some z) (held : card ∈ z.cards) :
    m.discardCard rules player card = m.onTable fun table =>
      (table.modifyZone player rules.config.handZone (·.removeCard card)).bury
        rules.config.graveyardZone player card := by
  have hhand : card ∈ m.hand rules player := by rwa [hand, hzone]
  rw [discardCard, if_pos hhand]
  rfl

theorem destroy_eq {graveyard : Option String} {card : LiveId} {live : LiveCard}
    (hlive : m.table.live? card = some live) :
    m.destroy graveyard card =
      ((m.despawn card).2.onTable (·.bury graveyard live.owner live.card)).broadcast
        (.cardDestroyed card) := by
  have hpair : m.despawn card = (some live, (m.despawn card).2) := by rw [← hlive]; rfl
  rw [destroy, hpair]
  cases graveyard <;> rfl

/-- To destroy a card that is not in play is to strike it off. -/
theorem destroy_of_none {card : LiveId} (hlive : m.table.live? card = none)
    (graveyard : Option String) : m.destroy graveyard card = (m.despawn card).2 := by
  have hpair : m.despawn card = (none, (m.despawn card).2) := by rw [← hlive]; rfl
  rw [destroy, hpair]

/-- A shuffled zone holds what it held, and a zone that is not there is not shuffled. -/
theorem shuffleZone_eq (player : PlayerId) (zone : String) :
    m.shuffleZone player zone = m ∨ ∃ z dice, m.table.zone? player zone = some z ∧
      m.shuffleZone player zone =
        { m.putPile player zone (z.pile.shuffle m.dice).1 with dice } := by
  unfold shuffleZone
  split
  · exact .inl rfl
  · next z hz => exact .inr ⟨z, _, hz, rfl⟩

end Match

theorem Table.Conforms.bury {t : Table} {c : Catalog} (h : t.Conforms c) (hc : c.Coherent)
    (graveyard : Option String) (player : PlayerId) {card : CardId}
    (hcard : (c.card? card).isSome) : (t.bury graveyard player card).Conforms c := by
  cases graveyard with
  | none => exact h
  | some zone => exact h.pushCard hc player zone hcard

@[simp]
theorem Table.playerIds_bury (t : Table) (graveyard : Option String) (player : PlayerId)
    (card : CardId) : (t.bury graveyard player card).playerIds = t.playerIds := by
  cases graveyard with
  | none => rfl
  | some zone => exact playerIds_modifyZone ..

@[simp]
theorem Table.turn_bury (t : Table) (graveyard : Option String) (player : PlayerId)
    (card : CardId) : (t.bury graveyard player card).turn = t.turn := by
  cases graveyard <;> rfl

namespace Match

/-- What each destruction keeps, many of them keep. -/
theorem destroyAll_induction {P : Match → Prop} {graveyard : Option String}
    (h : ∀ m card, P m → P (m.destroy graveyard card)) (cards : List LiveId) (hm : P m) :
    P (m.destroyAll graveyard cards) :=
  List.foldlRecOn cards _ hm fun m hm card _ => h m card hm

/-- The queue of destructions is no matter of the catalog. -/
theorem Conforms.release {c : Catalog} (hm : m.Conforms c) (q : DestructionQueue) :
    Conforms c { m with destructions := q } :=
  ⟨hm.table, hm.session⟩

/-- A destruction leaves a match of the game. -/
theorem Conforms.destroy {c : Catalog} (hc : c.Coherent) (hm : m.Conforms c)
    (graveyard : Option String) (card : LiveId) : (m.destroy graveyard card).Conforms c := by
  have ht := hm.table
  cases hlive : m.table.live? card with
  | none =>
      rw [destroy_of_none hlive]
      exact ⟨ht.removeLive _, hm.session⟩
  | some live =>
      rw [destroy_eq hlive]
      obtain ⟨design, cardType, htyped, -⟩ := ht.roster _ (Roster.get?_eq_some_iff.mp hlive).1
      exact ⟨(ht.removeLive _).bury hc _ _
        (Option.isSome_of_eq_some (Catalog.typed?_eq_some_iff.mp htyped).1), hm.session⟩

theorem Conforms.destroyAll {c : Catalog} (hc : c.Coherent) (hm : m.Conforms c)
    (graveyard : Option String) (cards : List LiveId) : (m.destroyAll graveyard cards).Conforms c :=
  destroyAll_induction (fun _ card hm => hm.destroy hc graveyard card) cards hm

/-- Destructions touch neither the seats and whose turn it is nor what is open. -/
theorem destroyAll_frame (m : Match) (graveyard : Option String) (cards : List LiveId) :
    (m.destroyAll graveyard cards).table.playerIds = m.table.playerIds ∧
      (m.destroyAll graveyard cards).table.turn = m.table.turn ∧
      (m.destroyAll graveyard cards).session = m.session ∧
      (m.destroyAll graveyard cards).debt = m.debt := by
  refine destroyAll_induction (P := fun m' => m'.table.playerIds = m.table.playerIds ∧
    m'.table.turn = m.table.turn ∧ m'.session = m.session ∧ m'.debt = m.debt) ?_ cards
    ⟨rfl, rfl, rfl, rfl⟩
  intro m' card h
  cases hlive : m'.table.live? card with
  | none =>
      rw [destroy_of_none hlive]
      exact ⟨(Table.playerIds_removeLive _).trans h.1, h.2⟩
  | some live =>
      rw [destroy_eq hlive]
      exact ⟨((Table.playerIds_bury ..).trans (Table.playerIds_removeLive _)).trans h.1,
        (Table.turn_bury ..).trans h.2.1, h.2.2⟩

end Match

/-- What is done within a turn leaves a table of the game. -/
theorem Calm.table (hc : rules.catalog.Coherent) (h : Calm rules scope m m')
    (hm : m.Conforms rules.catalog) : m'.table.Conforms rules.catalog := by
  have ht := hm.table
  cases h with
  | change h => exact h.table hc hm
  | draw => exact ht.removeCard hc _ _ _
  | markPlayed =>
      exact ht.modifyPlayer (fun _ => rfl) fun seat _ _ hconf =>
        ⟨hconf.layout, hconf.known, hconf.attributes⟩
  | repeatQuestion => rw [Match.tell_eq_post]; exact ht
  | discard hzone held =>
      rw [Match.discardCard_eq hzone held]
      exact (ht.removeCard hc _ _ _).bury hc _ _ (ht.known hzone held)
  | shuffle player zone =>
      rcases m.shuffleZone_eq player zone with heq | ⟨z, dice, hz, heq⟩ <;> rw [heq]
      · exact ht
      · exact ht.putPile hc hz (Pile.kind_shuffle _ _) fun card hcard =>
          (Pile.cards_shuffle _ _).mem_iff.mp hcard
  | age => exact ht.markLive _ (fun _ => rfl) (fun _ => rfl) fun _ => rfl
  | owe | demand => rw [Match.tell_eq_post]; exact ht
  | _ => exact ht

/-- A step leaves a table of the game. -/
theorem Step.table (hc : rules.catalog.Coherent) (h : Step rules scope m m')
    (hm : m.Conforms rules.catalog) : m'.table.Conforms rules.catalog := by
  have ht := hm.table
  cases h with
  | calm h => exact h.table hc hm
  | disconnect =>
      exact ht.modifyPlayer (fun _ => rfl) fun seat _ _ hconf =>
        ⟨hconf.layout, hconf.known, hconf.attributes⟩
  | destroyDue | destroyAfterEffect =>
      exact ((hm.release _).destroyAll hc _ _).table
  | clearLastPlayed =>
      refine ⟨?_, fun seat hseat => ?_, ht.roster, fun card hcard => ?_⟩
      · simpa [Match.clearLastPlayed, Match.onTable, Function.comp_def] using ht.seats
      · obtain ⟨old, hold, rfl⟩ := List.mem_map.mp hseat
        exact ⟨(ht.players old hold).layout, (ht.players old hold).known,
          (ht.players old hold).attributes⟩
      · simpa [Match.clearLastPlayed, Match.onTable, Table.playerIds, Function.comp_def]
          using ht.owners card hcard
  | begin => exact ⟨ht.seats, ht.players, ht.roster, ht.owners⟩
  | passTurn => exact ⟨ht.seats, ht.players, ht.roster, ht.owners⟩
  | finish => exact ⟨ht.seats, ht.players, ht.roster, ht.owners⟩
  | _ => exact ht

theorem Session.conforms_empty {c : Catalog} : Session.Conforms c {} :=
  ⟨fun _ h => (nomatch h), fun _ h => absurd h List.not_mem_nil⟩

/-- While no question is open, the first in line is taken and the rest stays in line. -/
theorem Session.next?_eq_some {s rest : Session} {firing : Firing}
    (h : s.next? = some (firing, rest)) :
    s.pending = none ∧ s.queue = firing :: rest.queue ∧ rest.pending = none := by
  obtain ⟨pending, queue⟩ := s
  cases pending with
  | some selection => cases h
  | none =>
      cases queue with
      | nil => cases h
      | cons first others =>
          cases h
          exact ⟨rfl, rfl, rfl⟩

/-- What is done within a turn leaves only effects of the game waiting. -/
theorem Calm.session (h : Calm rules scope m m') (hm : m.Conforms rules.catalog) :
    m'.session.Conforms rules.catalog := by
  have hs := hm.session
  cases h with
  | change h => exact h.session hm
  | repeatQuestion => rw [Match.tell_eq_post]; exact hs
  | answer => exact ⟨fun _ h => (nomatch h), hs.queue⟩
  | next _ hnext =>
      obtain ⟨-, hqueue, hnone⟩ := Session.next?_eq_some hnext
      refine ⟨fun _ h => (nomatch hnone.symm.trans h), fun firing hfiring => hs.queue firing ?_⟩
      rw [hqueue]
      exact List.mem_cons_of_mem _ hfiring
  | discard hzone held => rw [Match.discardCard_eq hzone held]; exact hs
  | shuffle player zone =>
      rcases m.shuffleZone_eq player zone with heq | ⟨z, dice, hz, heq⟩ <;> rw [heq] <;> exact hs
  | owe | demand => rw [Match.tell_eq_post]; exact hs
  | _ => exact hs

/-- A step leaves only effects of the game waiting. -/
theorem Step.session (h : Step rules scope m m') (hm : m.Conforms rules.catalog) :
    m'.session.Conforms rules.catalog := by
  have hs := hm.session
  cases h with
  | calm h => exact h.session hm
  | abandon => exact Session.conforms_empty
  | destroyDue | destroyAfterEffect =>
      exact (Match.destroyAll_frame { m with destructions := _ } _ _).2.2.1.symm ▸ hs
  | finish => exact Session.conforms_empty
  | _ => exact hs

theorem Step.conforms (hc : rules.catalog.Coherent) (h : Step rules scope m m')
    (hm : m.Conforms rules.catalog) : m'.Conforms rules.catalog :=
  ⟨h.table hc hm, h.session hm⟩

theorem Calm.playerIds (h : Calm rules scope m m') :
    m'.table.playerIds = m.table.playerIds := by
  cases h with
  | change h => exact h.playerIds
  | draw => exact Table.playerIds_modifyZone ..
  | markPlayed => exact Table.playerIds_modifyPlayer _ fun _ => rfl
  | repeatQuestion => rw [Match.tell_eq_post]; rfl
  | discard hzone held =>
      rw [Match.discardCard_eq hzone held]
      exact (Table.playerIds_bury ..).trans (Table.playerIds_modifyZone ..)
  | shuffle player zone =>
      rcases m.shuffleZone_eq player zone with heq | ⟨z, dice, hz, heq⟩ <;> rw [heq]
      exact Table.playerIds_modifyZone ..
  | owe | demand => rw [Match.tell_eq_post]; rfl
  | _ => rfl

theorem Step.playerIds (h : Step rules scope m m') :
    m'.table.playerIds = m.table.playerIds := by
  cases h with
  | calm h => exact h.playerIds
  | disconnect => exact Table.playerIds_modifyPlayer _ fun _ => rfl
  | destroyDue | destroyAfterEffect =>
      exact (Match.destroyAll_frame { m with destructions := _ } _ _).1
  | clearLastPlayed =>
      simp [Match.clearLastPlayed, Match.onTable, Table.playerIds, Function.comp_def]
  | _ => rfl

/-- What is done within a turn leaves it whose turn it is. -/
theorem Calm.turn (h : Calm rules scope m m') : m'.table.turn = m.table.turn := by
  cases h with
  | change h => exact h.turn.1
  | repeatQuestion => rw [Match.tell_eq_post]; rfl
  | discard hzone held => rw [Match.discardCard_eq hzone held]; exact Table.turn_bury ..
  | shuffle player zone =>
      rcases m.shuffleZone_eq player zone with heq | ⟨z, dice, hz, heq⟩ <;> rw [heq]
      rfl
  | owe | demand => rw [Match.tell_eq_post]; rfl
  | _ => rfl

/-- **A match stays a match of its game, with the same seats.** -/
theorem Calm.fits (hc : rules.catalog.Coherent) {ids : List PlayerId}
    (h : Calm rules scope m m') (hm : m.Fits rules.catalog ids) : m'.Fits rules.catalog ids :=
  ⟨⟨h.table hc hm.conforms, h.session hm.conforms⟩, h.playerIds.trans hm.seats⟩

/-- **A match stays a match of its game, with the same seats.** -/
theorem Step.fits (hc : rules.catalog.Coherent) {ids : List PlayerId}
    (h : Step rules scope m m') (hm : m.Fits rules.catalog ids) : m'.Fits rules.catalog ids :=
  ⟨h.conforms hc hm.conforms, h.playerIds.trans hm.seats⟩

/-- Whoever is active is seated, and questions and debts are open only while the match is under
way. -/
structure Match.Timely (m : Match) : Prop where
  active : m.table.isRunning → m.table.turn.activeIndex < m.table.players.length
  question : m.session.pending.isSome → m.table.isRunning
  debt : m.debt.isSome → m.table.isRunning

theorem Table.length_players (t : Table) : t.players.length = t.playerIds.length := by
  rw [playerIds, List.length_map]

theorem Table.isRunning_of_activePlayer? {t : Table} {player : PlayerId}
    (h : t.activePlayer? = some player) : t.isRunning := by
  unfold activePlayer? at h
  split at h
  · next hrunning => exact hrunning
  · cases h

/-- While the match is under way and the active player has a seat, somebody is active. -/
theorem Table.exists_active {t : Table} (hrunning : t.isRunning)
    (hseat : t.turn.activeIndex < t.players.length) :
    ∃ player, t.activePlayer? = some player := by
  refine ⟨(t.players.get ⟨t.turn.activeIndex, hseat⟩).id, ?_⟩
  rw [activePlayer?, if_pos hrunning, List.getElem?_eq_getElem hseat]
  rfl

theorem Table.activeIndex_lt {t : Table} {player : PlayerId} (h : t.activePlayer? = some player) :
    t.turn.activeIndex < t.players.length := by
  rw [activePlayer?, if_pos (isRunning_of_activePlayer? h)] at h
  obtain ⟨seat, hseat, -⟩ := Option.map_eq_some_iff.mp h
  exact (List.getElem?_eq_some_iff.mp hseat).1

theorem Table.status_nextTurn (t : Table) : t.nextTurn.status = t.turn.status := by
  unfold nextTurn
  split <;> rfl

theorem Table.activeIndex_nextTurn_lt {t : Table} (h : t.turn.activeIndex < t.players.length) :
    t.nextTurn.activeIndex < t.players.length := by
  unfold nextTurn
  split
  · exact Nat.zero_lt_of_lt h
  · next hlt => exact Nat.lt_of_not_le hlt

/-- While the match is under way somebody is active. -/
theorem Match.Timely.exists_active (h : m.Timely) (hrunning : m.table.isRunning) :
    ∃ player, m.table.activePlayer? = some player :=
  Table.exists_active hrunning (h.active hrunning)

/-- The parts of a match that decide whether it is timely. -/
theorem Match.Timely.of_eq (h : m.Timely) (hids : m'.table.playerIds = m.table.playerIds)
    (hturn : m'.table.turn = m.table.turn)
    (hquestion : m'.session.pending.isSome → m.session.pending.isSome ∨ m.table.isRunning)
    (hdebt : m'.debt.isSome → m.debt.isSome ∨ m.table.isRunning) : m'.Timely := by
  have hrunning : m'.table.isRunning = m.table.isRunning := by simp [Table.isRunning, hturn]
  have hlength : m'.table.players.length = m.table.players.length := by
    rw [Table.length_players, Table.length_players, hids]
  refine ⟨?_, fun hp => ?_, fun hd => ?_⟩ <;> rw [hrunning]
  · rw [hturn, hlength]
    exact h.active
  · exact (hquestion hp).elim h.question id
  · exact (hdebt hd).elim h.debt id

theorem Change.timely (h : Change rules scope m m') (hm : m.Timely) : m'.Timely := by
  obtain ⟨hturn, hdebt, -⟩ := h.turn
  refine hm.of_eq h.playerIds hturn ?_ fun hd => .inl (hdebt ▸ hd)
  cases h with
  | ask _ active => exact fun _ => .inr (Table.isRunning_of_activePlayer? active)
  | _ => exact .inl

theorem Calm.timely (h : Calm rules scope m m') (hm : m.Timely) : m'.Timely := by
  have hids := h.playerIds
  have hturn := h.turn
  cases h with
  | change h => exact h.timely hm
  | repeatQuestion => rw [Match.tell_eq_post]; exact hm.of_eq rfl rfl .inl .inl
  | answer => exact hm.of_eq rfl rfl nofun .inl
  | next _ hnext =>
      obtain ⟨-, -, hnone⟩ := Session.next?_eq_some hnext
      exact hm.of_eq rfl rfl (fun h => by simp [hnone] at h) .inl
  | discard hzone held =>
      rw [Match.discardCard_eq hzone held] at hids hturn ⊢
      exact hm.of_eq hids hturn .inl .inl
  | shuffle player zone =>
      rcases m.shuffleZone_eq player zone with heq | ⟨z, dice, hz, heq⟩ <;> rw [heq] at hids ⊢
      · exact hm
      · exact hm.of_eq hids rfl .inl .inl
  | owe _ active =>
      rw [Match.tell_eq_post]
      exact hm.of_eq rfl rfl .inl fun _ => .inr (Table.isRunning_of_activePlayer? active)
  | demand => rw [Match.tell_eq_post]; exact hm.of_eq rfl rfl .inl .inl
  | settle => exact hm.of_eq rfl rfl .inl nofun
  | _ => exact hm.of_eq hids rfl .inl .inl

/-- **Questions and debts are open only while the match is under way.** -/
theorem Step.timely (h : Step rules scope m m') (hm : m.Timely) : m'.Timely := by
  have hids := h.playerIds
  cases h with
  | calm h => exact h.timely hm
  | abandon => exact hm.of_eq rfl rfl nofun .inl
  | destroyDue | destroyAfterEffect =>
      obtain ⟨-, hturn, hsession, hdebt⟩ :=
        Match.destroyAll_frame { m with destructions := _ } rules.config.graveyardZone _
      exact hm.of_eq hids hturn (fun h => .inl (hsession ▸ h)) fun h => .inl (hdebt ▸ h)
  | begin seated =>
      exact ⟨fun _ => List.length_pos_iff.mpr seated, fun _ => rfl, fun _ => rfl⟩
  | passTurn =>
      have hstatus : m.passTurn.table.turn.status = m.table.turn.status := m.table.status_nextTurn
      have hrunning : m.passTurn.table.isRunning = m.table.isRunning := by
        simp only [Table.isRunning, hstatus]
      refine ⟨fun h => ?_, fun h => ?_, fun h => ?_⟩ <;> rw [hrunning] at *
      · exact Table.activeIndex_nextTurn_lt (hm.active h)
      · exact hm.question h
      · exact hm.debt h
  | finish => exact ⟨nofun, nofun, nofun⟩
  | _ => exact hm.of_eq hids rfl .inl .inl

end CardArena
