import Mathlib
import CardArena.Proofs.Step

/-!
# What stays the same within a turn

Whose turn it is, who can be reached where, and what everybody has been told of turns: this is
what rotation is about, and nothing but a turn that starts or ends touches it.  Everything else that
a match does is `Steady`, however much of it is done.

A notice is what a message says of turns, if it says anything.  What is posted adds to the notices
of each connection in order (`filterMap_post`); what is said of turns to everybody reaches a
connection once for each seat that is reached there (`notices_announce`).
-/

namespace CardArena

open Relation (ReflTransGen)

/-! ## Notices -/

/-- That a turn starts or ends, whose it is and its number. -/
structure Notice where
  phase : TurnPhase
  player : PlayerId
  number : UInt32
deriving DecidableEq, Repr

namespace Message

/-- What a message says of turns. -/
def notice? : Message → Option Notice
  | .turnStarted player number _ => some ⟨.turnStart, player, number⟩
  | .turnEnded player number => some ⟨.turnEnd, player, number⟩
  | _ => none

end Message

/-- What a connection has been told of turns, in order. -/
def Match.notices (m : Match) (connection : ConnectionId) : List Notice :=
  (m.outbox.sentTo connection).filterMap Message.notice?

/-- Who is seated, where they are reached and whether they can be. -/
def Table.lines (t : Table) : List (PlayerId × ConnectionId × Bool) :=
  t.players.map fun seat => (seat.id, seat.connection, seat.isConnected)

/-- How many seats there are at a connection. -/
def Table.seatsAt (t : Table) (connection : ConnectionId) : Nat :=
  t.players.countP (·.connection = connection)

/-- How many seats are reached at a connection. -/
def Table.reached (t : Table) (connection : ConnectionId) : Nat :=
  t.connected.countP (·.connection = connection)

/-! ### Reading letters -/

section

variable {read : Message → Option α} {words : Player → Message}

/-- What is read out of every letter is read at a connection in the order of the seats there. -/
theorem filterMap_letters {sense : Player → α}
    (said : ∀ seat, read (words seat) = some (sense seat)) (connection : ConnectionId)
    (seats : List Player) :
    (((seats.map fun seat => (seat.connection, words seat)).filter (·.1 = connection)).map
      Prod.snd).filterMap read = (seats.filter (·.connection = connection)).map sense := by
  rw [List.filter_map, List.map_map, List.filterMap_map, ← List.filterMap_eq_map]
  exact List.filterMap_congr fun seat _ => said seat

/-- What is read the same out of every letter is read once for each seat at the connection. -/
theorem filterMap_same_letters {a : α} (said : ∀ seat, read (words seat) = some a)
    (connection : ConnectionId) (seats : List Player) :
    (((seats.map fun seat => (seat.connection, words seat)).filter (·.1 = connection)).map
      Prod.snd).filterMap read = List.replicate (seats.countP (·.connection = connection)) a := by
  rw [filterMap_letters said, List.map_const', List.countP_eq_length_filter]

theorem filterMap_post (m : Match) (mail : List (ConnectionId × Message))
    (connection : ConnectionId) :
    ((m.post mail).outbox.sentTo connection).filterMap read
      = (m.outbox.sentTo connection).filterMap read ++
        ((mail.filter (·.1 = connection)).map Prod.snd).filterMap read := by
  simp [Match.post, Outbox.sentTo]

/-- Where nothing is to be read in a letter, nothing more is read, whoever gets it. -/
theorem filterMap_post_of_quiet (m : Match) {mail : List (ConnectionId × Message)}
    (quiet : ∀ letter ∈ mail, read letter.2 = none) (connection : ConnectionId) :
    ((m.post mail).outbox.sentTo connection).filterMap read
      = (m.outbox.sentTo connection).filterMap read := by
  have hnone : ((mail.filter (·.1 = connection)).map Prod.snd).filterMap read = [] := by
    refine List.filterMap_eq_nil_iff.mpr fun message hmessage => ?_
    obtain ⟨letter, hletter, rfl⟩ := List.mem_map.mp hmessage
    exact quiet letter (List.mem_filter.mp hletter).1
  rw [filterMap_post, hnone, List.append_nil]

end

namespace Match

variable (m : Match)

theorem notices_tell (player : PlayerId) {message : Message} (quiet : message.notice? = none)
    (connection : ConnectionId) :
    (m.tell player message).notices connection = m.notices connection := by
  rw [tell_eq_post]
  refine filterMap_post_of_quiet m (fun letter hletter => ?_) connection
  obtain ⟨seat, -, rfl⟩ := List.mem_map.mp hletter
  exact quiet

theorem notices_broadcast {message : Message} (quiet : message.notice? = none)
    (connection : ConnectionId) :
    (m.broadcast message).notices connection = m.notices connection := by
  refine filterMap_post_of_quiet m (fun letter hletter => ?_) connection
  obtain ⟨seat, -, rfl⟩ := List.mem_map.mp hletter
  exact quiet

theorem notices_broadcastViews {message : Snapshot → Message}
    (quiet : ∀ view, (message view).notice? = none) (connection : ConnectionId) :
    (m.broadcastViews message).notices connection = m.notices connection := by
  refine filterMap_post_of_quiet m (fun letter hletter => ?_) connection
  obtain ⟨seat, -, rfl⟩ := List.mem_map.mp hletter
  exact quiet _

/-- Everybody who can be reached is told of a turn, each in words of their own. -/
theorem notices_announce {words : Player → Message} {notice : Notice}
    (announced : ∀ seat, (words seat).notice? = some notice) (connection : ConnectionId) :
    (m.post (m.table.connected.map fun seat => (seat.connection, words seat))).notices connection
      = m.notices connection ++ List.replicate (m.table.reached connection) notice := by
  rw [notices, filterMap_post, filterMap_same_letters announced]
  rfl

end Match

/-! ## Lines -/

namespace Table

variable {t : Table}

theorem lines_modifyPlayer (id : PlayerId) {change : Player → Player}
    (hid : ∀ seat, (change seat).id = seat.id)
    (hconnection : ∀ seat, (change seat).connection = seat.connection)
    (hconnected : ∀ seat, (change seat).isConnected = seat.isConnected) :
    (t.modifyPlayer id change).lines = t.lines := by
  simp only [lines, modifyPlayer, List.map_map]
  refine List.map_congr_left fun seat _ => ?_
  by_cases h : seat.id = id <;> simp [h, hid, hconnection, hconnected]

@[simp]
theorem lines_modifyZone (id : PlayerId) (name : String) (change : Zone → Zone) :
    (t.modifyZone id name change).lines = t.lines :=
  lines_modifyPlayer id (fun _ => rfl) (fun _ => rfl) fun _ => rfl

@[simp]
theorem lines_removeLive (id : LiveId) : (t.removeLive id).lines = t.lines := by
  simp [lines, removeLive, Player.forget, Function.comp_def]

@[simp]
theorem lines_bury (graveyard : Option String) (player : PlayerId) (card : CardId) :
    (t.bury graveyard player card).lines = t.lines := by
  cases graveyard with
  | none => rfl
  | some zone => exact lines_modifyZone ..

theorem playerIds_eq_lines (t : Table) : t.playerIds = t.lines.map Prod.fst := by
  simp [playerIds, lines]

theorem seatsAt_eq_lines (t : Table) (connection : ConnectionId) :
    t.seatsAt connection = t.lines.countP (·.2.1 = connection) := by
  simp [seatsAt, lines, List.countP_map, Function.comp_def]

theorem reached_eq_lines (t : Table) (connection : ConnectionId) :
    t.reached connection
      = t.lines.countP fun line => decide (line.2.1 = connection) && line.2.2 := by
  simp [reached, connected, lines, List.countP_map, List.countP_filter, Function.comp_def]

theorem reached_le_seatsAt (t : Table) (connection : ConnectionId) :
    t.reached connection ≤ t.seatsAt connection :=
  List.filter_sublist.countP_le

end Table

/-! ## Steadiness -/

/-- Turn, lines and notices are the same. -/
structure Match.Steady (m m' : Match) : Prop where
  turn : m'.table.turn = m.table.turn
  lines : m'.table.lines = m.table.lines
  notices : m'.notices = m.notices

namespace Match.Steady

variable {m m' m'' : Match}

theorem refl (m : Match) : m.Steady m :=
  ⟨rfl, rfl, rfl⟩

theorem trans (h : m.Steady m') (h' : m'.Steady m'') : m.Steady m'' :=
  ⟨h'.turn.trans h.turn, h'.lines.trans h.lines, h'.notices.trans h.notices⟩

theorem playerIds (h : m.Steady m') : m'.table.playerIds = m.table.playerIds := by
  rw [Table.playerIds_eq_lines, Table.playerIds_eq_lines, h.lines]

theorem seatsAt (h : m.Steady m') : m'.table.seatsAt = m.table.seatsAt := by
  funext connection
  rw [Table.seatsAt_eq_lines, Table.seatsAt_eq_lines, h.lines]

theorem reached (h : m.Steady m') : m'.table.reached = m.table.reached := by
  funext connection
  rw [Table.reached_eq_lines, Table.reached_eq_lines, h.lines]

theorem length_players (h : m.Steady m') :
    m'.table.players.length = m.table.players.length := by
  rw [Table.length_players, Table.length_players, h.playerIds]

/-- What touches neither seats nor outbox is steady. -/
theorem of_outbox (hturn : m'.table.turn = m.table.turn) (hlines : m'.table.lines = m.table.lines)
    (houtbox : m'.outbox = m.outbox) : m.Steady m' :=
  ⟨hturn, hlines, by funext connection; rw [Match.notices, Match.notices, houtbox]⟩

theorem tell (h : m.Steady m') (player : PlayerId) {message : Message}
    (quiet : message.notice? = none) : m.Steady (m'.tell player message) := by
  refine h.trans ⟨?_, ?_, funext (m'.notices_tell player quiet)⟩ <;> rw [tell_eq_post] <;> rfl

theorem broadcast (h : m.Steady m') {message : Message}
    (quiet : message.notice? = none) : m.Steady (m'.broadcast message) :=
  h.trans ⟨rfl, rfl, funext (m'.notices_broadcast quiet)⟩

theorem broadcastViews (h : m.Steady m') {message : Snapshot → Message}
    (quiet : ∀ view, (message view).notice? = none) : m.Steady (m'.broadcastViews message) :=
  h.trans ⟨rfl, rfl, funext (m'.notices_broadcastViews quiet)⟩

/-- What each of many moves leaves alone, all of them leave alone. -/
theorem chain {r : Match → Match → Prop} (hr : ∀ a b, r a b → a.Steady b)
    (h : ReflTransGen r m m') : m.Steady m' := by
  induction h with
  | refl => exact .refl m
  | tail _ hstep ih => exact ih.trans (hr _ _ hstep)

end Match.Steady

variable {rules : Rulebook} {scope : Scope} {m m' : Match}

open Match (Steady)

/-- **A cascade leaves turns alone and says nothing of them.** -/
theorem Change.steady (h : Change rules scope m m') : m.Steady m' := by
  cases h with
  | ask =>
      refine Steady.tell ?_ _ (by rfl)
      exact .of_outbox rfl rfl rfl
  | writePlayer =>
      exact .of_outbox rfl (Table.lines_modifyPlayer _ (fun _ => rfl) (fun _ => rfl) fun _ => rfl) rfl
  | bring =>
      refine Steady.broadcast ?_ (by rfl)
      exact .of_outbox rfl (Table.lines_modifyZone ..) rfl
  | shift =>
      exact .of_outbox rfl ((Table.lines_modifyZone ..).trans (Table.lines_modifyZone ..)) rfl
  | deploy =>
      refine Steady.broadcast ?_ (by rfl)
      refine .of_outbox rfl ?_ rfl
      exact (Table.lines_modifyZone ..).trans (Table.lines_modifyZone ..)
  | withdraw =>
      exact .of_outbox rfl ((Table.lines_modifyZone ..).trans (Table.lines_removeLive _)) rfl
  | strike => exact .of_outbox rfl (Table.lines_removeLive _) rfl
  | carry =>
      exact .of_outbox rfl ((Table.lines_modifyZone ..).trans (Table.lines_modifyZone ..)) rfl
  | condemn =>
      refine Steady.broadcast ?_ (by rfl)
      exact .of_outbox rfl rfl rfl
  | replace =>
      refine Steady.broadcast ?_ (by rfl)
      refine .of_outbox rfl ?_ rfl
      exact (Table.lines_removeLive _).trans (Table.lines_modifyZone ..)
  | reveal => exact (Steady.refl m).broadcastViews fun _ => rfl
  | _ => exact .of_outbox rfl rfl rfl

/-- **So does whatever else is done within a turn.** -/
theorem Calm.steady (h : Calm rules scope m m') : m.Steady m' := by
  cases h with
  | change h => exact h.steady
  | draw => exact .of_outbox rfl (Table.lines_modifyZone ..) rfl
  | markPlayed =>
      exact .of_outbox rfl (Table.lines_modifyPlayer _ (fun _ => rfl) (fun _ => rfl) fun _ => rfl) rfl
  | repeatQuestion => exact (Steady.refl m).tell _ (by rfl)
  | discard hzone held =>
      rw [Match.discardCard_eq hzone held]
      exact .of_outbox (Table.turn_bury ..)
        ((Table.lines_bury ..).trans (Table.lines_modifyZone ..)) rfl
  | shuffle player zone =>
      rcases m.shuffleZone_eq player zone with heq | ⟨z, dice, hz, heq⟩ <;> rw [heq]
      · exact .refl m
      · exact .of_outbox rfl (Table.lines_modifyZone ..) rfl
  | owe =>
      refine Steady.tell ?_ _ (by rfl)
      exact .of_outbox rfl rfl rfl
  | demand => exact (Steady.refl m).tell _ (by rfl)
  | _ => exact .of_outbox rfl rfl rfl

theorem steady_of_calm (h : ReflTransGen (Calm rules scope) m m') : m.Steady m' :=
  .chain (fun _ _ => Calm.steady) h

/-! ## Clearing the table -/

namespace Match

theorem steady_despawn (m : Match) (card : LiveId) : m.Steady (m.despawn card).2 :=
  .of_outbox rfl (Table.lines_removeLive card) rfl

theorem steady_destroy (m : Match) (graveyard : Option String) (card : LiveId) :
    m.Steady (m.destroy graveyard card) := by
  have hdespawn := m.steady_despawn card
  cases hlive : m.table.live? card with
  | none =>
      rwa [destroy_of_none hlive]
  | some live =>
      rw [destroy_eq hlive]
      refine Steady.broadcast (hdespawn.trans ?_) (by rfl)
      exact .of_outbox (Table.turn_bury ..) (Table.lines_bury ..) rfl

theorem steady_destroyAll (graveyard : Option String) (cards : List LiveId) :
    ∀ m : Match, m.Steady (m.destroyAll graveyard cards) := by
  induction cards with
  | nil => exact .refl
  | cons card rest ih => exact fun m => (m.steady_destroy graveyard card).trans (ih _)

theorem steady_destroyDue (m : Match) : m.Steady (m.destroyDue rules) := by
  have htaken : m.Steady { m with destructions := m.destructions.countDown.2 } :=
    .of_outbox rfl rfl rfl
  exact htaken.trans (steady_destroyAll ..)

theorem steady_destroyAfterEffect (m : Match) : m.Steady (m.destroyAfterEffect rules) := by
  have htaken : m.Steady { m with destructions := m.destructions.takeAfterEffect.2 } :=
    .of_outbox rfl rfl rfl
  exact htaken.trans (steady_destroyAll ..)

theorem steady_clearLastPlayed (m : Match) : m.Steady m.clearLastPlayed :=
  .of_outbox rfl (by simp [clearLastPlayed, onTable, Table.lines, Function.comp_def]) rfl

end Match

end CardArena
