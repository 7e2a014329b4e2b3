import Mathlib
import CardArena.Proofs.Waiting

/-!
# How a turn starts

A turn starts in three stages: the catalog and the cards do what they do at the start of a turn, then
the cards that are in play by then count the turn one after the other, then everybody is told.  What
comes before, if the turn follows upon another, is the end of that.  The laws of `Proofs.Course` keep
all this apart from the boundaries only; here each stage is a match of its own, so that a law can say
what holds between two of them.

Only the second stage lets cards count their turns (`Scope.untimed`).  An operation that starts no turn
does steps of that sort, seats a player, or puts a turn end off (`Match.Idles`).

* `dozes_or_dawns` : an operation goes through the three stages, or counts no turn.
-/

namespace CardArena

open Play
open Relation (ReflTransGen)

variable {rules : Rulebook} {m m' : Match} {op : Operation}

/-! ## Stages -/

/-- Whatever may happen, but that cards count their turns and that debts come up. -/
def Scope.untimed : Scope := ⟨true, fun _ => true, true, true, false⟩

theorem Scope.untimed_covers (c : Catalog) : Scope.untimed.Covers c :=
  fun _ _ => ⟨fun _ _ => rfl, fun _ _ _ _ _ _ => ⟨rfl, .inl rfl⟩⟩

theorem untimed_resolves (hc : rules.catalog.Coherent) {ids : List PlayerId} :
    Resolves rules .untimed (fun _ => True) ids rules.resolver :=
  resolver_resolves hc (Scope.untimed_covers _) (tolerates_all rules)

/-- What the catalog and the cards do at a moment of the turn of a player. -/
def ceremony (rules : Rulebook) (actions : List ScheduledAction) (phase : TurnPhase)
    (active : PlayerId) : Play Unit := do
  runAllScheduled rules rules.resolver actions
  Play.attempt (raiseOnAll rules rules.resolver (.playerLifecycle phase active))

namespace Match

variable (m : Match) (rules : Rulebook)

/-- The match without open questions and debts. -/
def settled : Match :=
  { m.abandonSelection with debt := none }

/-- A turn starts in the match, up to the moment when the cards count it. -/
def heralded : Match :=
  match m.table.activePlayer? with
  | none => m.settled
  | some active =>
    ((ceremony rules rules.catalog.turnStartActions .turnStart active).run m.settled).2

/-- What a card hears as it comes to count a turn: how many they are now, if it is still there and
alive. -/
def told? (card : LiveId) : Option UInt32 :=
  (m.table.live? card).bind fun live =>
    if live.alive then some (nextCount live.turnsInPlay) else none

/-- A card has been in play for so many turns. -/
def aged (card : LiveId) (turns : UInt32) : Match :=
  m.onTable (·.modifyLive card ({ · with turnsInPlay := turns }))

/-- A card counts a turn and hears of it, with all that follows, and no matter if that fails. -/
def counted (card : LiveId) : Match :=
  match m.told? card with
  | none => m
  | some turns =>
    ((raise rules rules.resolver (.turnCount turns) card).run (m.aged card turns)).2

/-- Cards count a turn one after the other. -/
def countedAll (cards : List LiveId) : Match :=
  cards.foldl (·.counted rules ·) m

/-- The match begins, up to the moment when everybody is told. -/
def overture : Match :=
  ((runAllScheduled rules rules.resolver rules.catalog.gameStartActions).run m.begin).2

/-- The match begins, up to the moment when the first turn starts. -/
def begun : Match :=
  (m.overture rules).broadcastViews .gameStarted

/-- What was open is dropped at the end of a turn, who is due is gone, and the hand is down to the
limit. -/
def cleared (active : PlayerId) : Match :=
  { (m.abandonSelection.destroyDue rules).forceDiscard rules active with debt := none }

/-- The turn of a player ends, up to the moment when the next turn starts. -/
def waned (active : PlayerId) : Match :=
  ((ceremony rules rules.catalog.turnEndActions .turnEnd active).run
    (m.cleared rules active)).2.closeTurn rules active

end Match

theorem Match.Fits.settled {c : Catalog} {ids : List PlayerId} (hm : m.Fits c ids) :
    m.settled.Fits c ids :=
  ⟨⟨hm.conforms.table, Session.conforms_empty⟩, hm.seats⟩

section

variable (hc : rules.catalog.Coherent) {ids : List PlayerId}

include hc

theorem ceremony_bind (hm : m.Fits rules.catalog ids) (actions : List ScheduledAction)
    (phase : TurnPhase) (active : PlayerId) :
    ReflTransGen (Calm rules .untimed) m ((ceremony rules actions phase active).run m).2 ∧
    ∀ {β : Type} (k : Unit → Play β), (ceremony rules actions phase active >>= k).run m
      = (k ()).run ((ceremony rules actions phase active).run m).2 := by
  have hstays : Stays rules .untimed (fun _ => False) ids (ceremony rules actions phase active) :=
    Along.bind (kept_fits_calm hc) (runAllScheduled_stays hc (untimed_resolves hc) actions)
      fun _ => attempt_raiseOnAll_stays hc (untimed_resolves hc) _
  obtain ⟨a, m', hrun, hpath⟩ := (hstays m hm).exists_ok
  rw [hrun]
  exact ⟨hpath, run_bind_ok hrun⟩

/-- At the start of a turn no card counts it yet. -/
theorem Match.heralded_calm (hm : m.Fits rules.catalog ids) :
    ReflTransGen (Calm rules .untimed) m.settled (m.heralded rules) := by
  unfold heralded
  split
  · exact .refl
  · exact (ceremony_bind hc hm.settled _ _ _).1

theorem Match.heralded_steps (hm : m.Fits rules.catalog ids) :
    ReflTransGen (Step rules .untimed) m (m.heralded rules) := by
  have hsettled : ReflTransGen (Step rules .untimed) m m.settled :=
    (ReflTransGen.single .abandon).tail (.calm .settle)
  exact hsettled.trans (steps_of_calm (m.heralded_calm hc hm))

end

/-! ## Counting -/

theorem countTurn_run (rules : Rulebook) (m : Match) (card : LiveId) :
    (countTurn rules rules.resolver card).run m = (.ok (), m.counted rules card) := by
  rw [countTurn, run_get_bind, Match.counted, Match.told?]
  cases m.table.live? card with
  | none => rfl
  | some live =>
      dsimp only [Option.bind_some]
      split
      · rw [run_modify_bind, run_attempt]
        rfl
      · rfl

theorem countAll_run (rules : Rulebook) (cards : List LiveId) :
    ∀ m : Match, (cards.forM (countTurn rules rules.resolver)).run m
      = (.ok (), m.countedAll rules cards) := by
  induction cards with
  | nil => exact fun m => rfl
  | cons card rest ih =>
      intro m
      rw [forM_cons, run_bind_ok (countTurn_run rules m card), ih]
      rfl

section

variable (hc : rules.catalog.Coherent) {ids : List PlayerId}

include hc

/-- What a card sets off as it counts its turn counts no turns. -/
theorem Match.counted_changes (hm : m.Fits rules.catalog ids) {card : LiveId} {turns : UInt32}
    (htold : m.told? card = some turns) :
    ReflTransGen (Change rules .untimed) (m.aged card turns) (m.counted rules card) := by
  have hage : Calm rules .all m (m.aged card turns) := .age card turns rfl
  rw [counted, htold]
  exact (raise_walks hc (untimed_resolves hc) (.turnCount turns) card _ (hage.fits hc hm)).path

theorem Match.counted_calm (hm : m.Fits rules.catalog ids) (card : LiveId) :
    ReflTransGen (Calm rules .all) m (m.counted rules card) := by
  have hstays := countTurn_stays (G := fun _ => True) hc (resolver_resolves_all hc) rfl card m hm
  have hpath := hstays.path
  rwa [countTurn_run] at hpath

theorem Match.countedAll_calm (cards : List LiveId) (hm : m.Fits rules.catalog ids) :
    ReflTransGen (Calm rules .all) m (m.countedAll rules cards) := by
  induction cards generalizing m with
  | nil => exact .refl
  | cons card rest ih =>
      have hone := m.counted_calm hc hm card
      exact hone.trans (ih ((kept_fits_calm hc).chain hone hm))

/-! ## Boundaries -/

/-- The turn of the active player starts in three stages. -/
theorem startTurn_dawn (hm : m.Fits rules.catalog ids) {active : PlayerId}
    (hactive : m.table.activePlayer? = some active) (now : Nat) :
    (startTurn rules rules.resolver now).run m = (.ok (),
      ((m.heralded rules).countedAll rules (m.heralded rules).table.liveInOrder).openTurn rules
        active now) := by
  obtain ⟨hpath, hrun⟩ :=
    ceremony_bind hc hm.settled rules.catalog.turnStartActions .turnStart active
  have hheralded : m.heralded rules
      = ((ceremony rules rules.catalog.turnStartActions .turnStart active).run m.settled).2 := by
    rw [Match.heralded, hactive]
  have hfits : (m.heralded rules).Fits rules.catalog ids :=
    hheralded ▸ (kept_fits_calm hc).chain hpath hm.settled
  have hturn := (steady_of_calm
    ((m.heralded rules).countedAll_calm hc (m.heralded rules).table.liveInOrder hfits)).turn
  have hnumber : (m.heralded rules).table.turn = m.table.turn :=
    (steady_of_calm (m.heralded_calm hc hm)).turn
  rw [startTurn, run_modify_bind, run_get_bind]
  dsimp only
  rw [show m.abandonSelection.table.activePlayer? = some active from hactive]
  have hsplit := hrun fun _ => do
    (← get).table.liveInOrder.forM (countTurn rules rules.resolver)
    modify fun m => { m with deadline := some (now + rules.config.turnMillis) }
    modify (·.broadcastViews (.turnStarted active m.table.turn.number))
  rw [ceremony, bind_assoc, ← ceremony, ← hheralded] at hsplit
  refine hsplit.trans ?_
  rw [run_get_bind, run_bind_ok (countAll_run rules _ _), run_modify_bind, run_modify,
    Match.openTurn, hturn, hnumber]

omit hc in
theorem Match.cleared_steps (m : Match) (active : PlayerId) :
    ReflTransGen (Step rules .untimed) m (m.cleared rules active) := by
  have hdue : ReflTransGen (Step rules .untimed) m (m.abandonSelection.destroyDue rules) :=
    (ReflTransGen.single .abandon).tail .destroyDue
  have hdiscard : ReflTransGen (Calm rules .untimed) (m.abandonSelection.destroyDue rules)
      (m.cleared rules active) :=
    (discardRandom_calm active _ _).tail .settle
  exact hdue.trans (steps_of_calm hdiscard)

omit hc in
theorem Match.turn_cleared (rules : Rulebook) (m : Match) (active : PlayerId) :
    (m.cleared rules active).table.turn = m.table.turn := by
  have hdiscard : ReflTransGen (Calm rules .untimed) (m.abandonSelection.destroyDue rules)
      (m.cleared rules active) :=
    (discardRandom_calm active _ _).tail .settle
  exact (m.abandonSelection.steady_destroyDue.trans (steady_of_calm hdiscard)).turn

/-- What comes before the next turn counts no turns. -/
theorem Match.waned_steps (hm : m.Fits rules.catalog ids) (active : PlayerId) :
    ReflTransGen (Step rules .untimed) m (m.waned rules active) := by
  have hcleared : ReflTransGen (Step rules .untimed) m (m.cleared rules active) :=
    m.cleared_steps active
  have hrest := (ceremony_bind hc ((kept_fits_step hc).chain hcleared hm)
    rules.catalog.turnEndActions .turnEnd active).1
  exact (hcleared.trans (steps_of_calm hrest)).trans (closeTurn_steps _ active)

theorem Match.turn_waned (hm : m.Fits rules.catalog ids) (active : PlayerId) :
    (m.waned rules active).table.turn = m.table.nextTurn := by
  have hcleared : ReflTransGen (Step rules .untimed) m (m.cleared rules active) :=
    m.cleared_steps active
  have hfits := (kept_fits_step hc).chain hcleared hm
  have hrest := (ceremony_bind hc hfits rules.catalog.turnEndActions .turnEnd active).1
  have hsteady := steady_of_calm hrest
  rw [waned, turn_closeTurn]
  exact Table.nextTurn_congr (hsteady.playerIds.trans (hfits.seats.trans hm.seats.symm))
    (hsteady.turn.trans (m.turn_cleared rules active))

/-- Whoever comes after the active player has a seat. -/
theorem Match.waned_active (hm : m.Fits rules.catalog ids) {active : PlayerId}
    (hactive : m.table.activePlayer? = some active) :
    ∃ next, (m.waned rules active).table.activePlayer? = some next := by
  have hturn := m.turn_waned hc hm active
  have hseats := ((kept_fits_step hc).chain (m.waned_steps hc hm active) hm).seats
  refine Table.exists_active ?_ ?_
  · rw [Table.isRunning, hturn, Table.status_nextTurn]
    exact Table.isRunning_of_activePlayer? hactive
  · rw [hturn, Table.length_players, hseats, ← hm.seats, ← Table.length_players]
    exact Table.activeIndex_nextTurn_lt (Table.activeIndex_lt hactive)

/-- The turn of the active player ends, and the next one starts. -/
theorem endTurn_dusk (hm : m.Fits rules.catalog ids) {active : PlayerId}
    (hactive : m.table.activePlayer? = some active) (now : Nat) :
    (endTurn rules rules.resolver now).run m
      = (startTurn rules rules.resolver now).run (m.waned rules active) := by
  have hcleared : ReflTransGen (Step rules .untimed) m (m.cleared rules active) :=
    m.cleared_steps active
  obtain ⟨hpath, hrun⟩ := ceremony_bind hc ((kept_fits_step hc).chain hcleared hm)
    rules.catalog.turnEndActions .turnEnd active
  have hnumber := congrArg Turn.number
    ((steady_of_calm hpath).turn.trans (m.turn_cleared rules active))
  obtain ⟨next, hnext⟩ := m.waned_active hc hm hactive
  have hrunning := Table.isRunning_of_activePlayer? hnext
  rw [endTurn, run_get_bind]
  dsimp only
  rw [hactive]
  dsimp only
  rw [run_modify_bind, run_modify_bind, run_modify_bind]
  have hsplit := hrun fun _ => do
    modify (·.destroyAfterEffect rules)
    modify (·.clearLastPlayed)
    modify (·.broadcast (.turnEnded active m.table.turn.number))
    modify fun m => { m.onTable fun table => { table with turn := table.nextTurn } with
      deadline := none }
    if (← get).table.isRunning then
      startTurn rules rules.resolver now
  rw [ceremony, bind_assoc, ← ceremony] at hsplit
  refine hsplit.trans ?_
  rw [← hnumber]
  simp only [run_modify_bind, run_get_bind]
  exact congrArg (fun step : Play Unit => step.run (m.waned rules active)) (if_pos hrunning)

omit hc in
theorem Match.Fits.begin (hm : m.Fits rules.catalog ids) : m.begin.Fits rules.catalog ids :=
  ⟨⟨⟨hm.conforms.table.seats, hm.conforms.table.players, hm.conforms.table.roster,
    hm.conforms.table.owners⟩, hm.conforms.session⟩, hm.seats⟩

theorem Match.overture_calm (hm : m.Fits rules.catalog ids) :
    ReflTransGen (Calm rules .untimed) m.begin (m.overture rules) :=
  (runAllScheduled_stays (G := fun _ => True) hc (untimed_resolves hc)
    rules.catalog.gameStartActions m.begin hm.begin).path

/-- A match that begins does so with a first turn. -/
theorem startGame_dawn (hm : m.Fits rules.catalog ids) (hnew : m.table.turn.status = .notStarted)
    (hseated : m.table.players ≠ []) (now : Nat) :
    (startGame rules rules.resolver now).run m
      = (startTurn rules rules.resolver now).run (m.begun rules) := by
  obtain ⟨_, m₁, -, -, hrun⟩ := (runAllScheduled_stays hc (untimed_resolves hc)
    rules.catalog.gameStartActions).run_bind hc hm.begin
  have hbegun : m.overture rules = m₁ := by
    rw [Match.overture, ← run_bind_pure _ (), hrun]
    rfl
  rw [startGame, run_get_bind]
  dsimp only
  rw [if_neg (not_not.mpr hnew), if_neg (by simpa using hseated), run_modify_bind]
  refine (hrun _).trans ?_
  rw [run_modify_bind, Match.begun, hbegun]

/-- What comes before the first turn counts no turns. -/
theorem Match.begun_steps (hm : m.Fits rules.catalog ids)
    (hnew : m.table.turn.status = .notStarted) (hseated : m.table.players ≠ []) :
    ReflTransGen (Step rules .untimed) m (m.begun rules) :=
  ((steps_of_calm (m.overture_calm hc hm)).head (.begin hseated hnew)).tail (.views fun _ => rfl)

/-- The first player is there when the first turn starts. -/
theorem Match.begun_active (hm : m.Fits rules.catalog ids) (hseated : m.table.players ≠ []) :
    ∃ first, (m.begun rules).table.activePlayer? = some first := by
  have hsteady := steady_of_calm (m.overture_calm hc hm)
  have hturn : (m.begun rules).table.turn = ⟨.running, 0, 1⟩ := hsteady.turn
  refine Table.exists_active ?_ ?_
  · rw [Table.isRunning, hturn]
    rfl
  · rw [hturn]
    exact hsteady.length_players.symm ▸ List.length_pos_iff.mpr hseated

end

/-! ## Operations that start a turn -/

/-- The operation is to start the match. -/
def Operation.isStart : Operation → Bool
  | .start _ => true
  | _ => false

/-- Who asks to end their turn. -/
def Operation.stops? : Operation → Option PlayerId
  | .stopTurn player _ => some player
  | .intent player .stopTurn _ => some player
  | _ => none

/-- Who discards what. -/
def Operation.discards? : Operation → Option (PlayerId × List CardId)
  | .discardCards player cards _ => some (player, cards)
  | .intent player (.discardCards cards) _ => some (player, cards)
  | _ => none

namespace Match

/-- The match in which an operation ends the turn: what it discards is discarded. -/
def paid (m : Match) (rules : Rulebook) (op : Operation) : Match :=
  match op.discards? with
  | some (player, cards) => { m.discardAll rules player cards with debt := none }
  | none => m

/-- The match in which an operation starts a turn, if it does. -/
def dawn? (m : Match) (rules : Rulebook) (op : Operation) : Option Match :=
  if op.isStart then
    if m.table.turn.status = .notStarted ∧ m.table.players ≠ [] then some (m.begun rules) else none
  else if op.turnEnds (m.perform rules op).1 = 1 then
    m.table.activePlayer?.map ((m.paid rules op).waned rules)
  else
    none

theorem dawn?_of_quiet (hop : op.isStart = false)
    (hquiet : op.turnEnds (m.perform rules op).1 = 0) : m.dawn? rules op = none := by
  rw [dawn?, hop, hquiet]
  rfl

theorem dawn?_of_ends (hop : op.isStart = false) {active : PlayerId}
    (hactive : m.table.activePlayer? = some active)
    (hends : op.turnEnds (m.perform rules op).1 = 1) :
    m.dawn? rules op = some ((m.paid rules op).waned rules active) := by
  rw [dawn?, hop, hends, hactive]
  rfl

theorem paid_calm (rules : Rulebook) (m : Match) (op : Operation) :
    ReflTransGen (Calm rules .untimed) m (m.paid rules op) := by
  unfold paid
  split
  · next player cards _ => exact (discardAll_calm player cards m).tail .settle
  · exact .refl

/-- What an operation comes to that starts no turn. -/
inductive Idles (rules : Rulebook) (m : Match) (op : Operation) : Match → Prop
  | seat {deck : List CardId} (hopen : m.Open rules deck) (name : String)
      (connection : ConnectionId) : Idles rules m op (m.seat rules name connection deck)
  | steps {m' : Match} (path : ReflTransGen (Step rules .untimed) m m') : Idles rules m op m'
  /-- The turn would end, but the player has to discard first. -/
  | deferred {player : PlayerId} (stops : op.stops? = some player)
      (answer : (m.perform rules op).1 = .ok (.outcome .deferred)) (free : m.debt = none)
      (active : m.table.activePlayer? = some player) (excess : 0 < m.handExcess rules player) :
      Idles rules m op ({ m with debt := some ⟨player, m.handExcess rules player⟩ }.tell player
        (DiscardDebt.demand ⟨player, m.handExcess rules player⟩))

end Match

/-- A call to stop the turn is rejected, put off, or ends the turn. -/
theorem stopTurn_ways (rules : Rulebook) (m : Match) (player : PlayerId) (now : Nat) :
    (∃ reason, (stopTurn rules rules.resolver player now).run m = (.ok (.rejected reason), m)) ∨
    (m.debt = none ∧ m.table.activePlayer? = some player ∧ 0 < m.handExcess rules player ∧
      (stopTurn rules rules.resolver player now).run m = (.ok .deferred,
        { m with debt := some ⟨player, m.handExcess rules player⟩ }.tell player
          (DiscardDebt.demand ⟨player, m.handExcess rules player⟩))) ∨
    (m.table.activePlayer? = some player ∧ (stopTurn rules rules.resolver player now).run m
      = (endTurn rules rules.resolver now >>= fun _ => pure .applied).run m) := by
  rw [stopTurn, run_get_bind]
  cases hfree : m.table.refusal? player with
  | some reason => exact .inl ⟨reason, rfl⟩
  | none =>
      have hactive := (Table.activePlayer?_of_refusal? hfree).2
      dsimp only
      split
      · exact .inl ⟨.discardPending, rfl⟩
      · next hdebt =>
          split
          · next hexcess =>
              exact .inr (.inl ⟨by simpa using hdebt, hactive, hexcess, rfl⟩)
          · exact .inr (.inr ⟨hactive, rfl⟩)

/-- A discard is rejected, asked for again, or made, upon which the turn ends. -/
theorem discardCards_ways (rules : Rulebook) (m : Match) (player : PlayerId) (cards : List CardId)
    (now : Nat) :
    ((∀ debt, m.debt = some debt → debt.player ≠ player) ∧
      (discardCards rules rules.resolver player cards now).run m
        = (.ok (.rejected .noPendingDiscard), m)) ∨
    (∃ debt, m.debt = some debt ∧ debt.player = player ∧
      (cards.length ≠ debt.count ∨ m.handHolds rules player cards = false) ∧
      (discardCards rules rules.resolver player cards now).run m
        = (.ok .reprompted, m.tell debt.player debt.demand)) ∨
    ∃ debt, m.debt = some debt ∧ debt.player = player ∧ cards.length = debt.count ∧
      m.handHolds rules player cards = true ∧
      (discardCards rules rules.resolver player cards now).run m
        = (endTurn rules rules.resolver now >>= fun _ => pure .applied).run
            { m.discardAll rules player cards with debt := none } := by
  rw [discardCards, run_get_bind]
  cases hdebt : m.debt with
  | none => exact .inl ⟨by simp, rfl⟩
  | some debt =>
      dsimp only
      split
      · next hplayer =>
          refine .inl ⟨fun other howed => ?_, rfl⟩
          cases howed
          exact hplayer
      · next hplayer =>
          obtain rfl : debt.player = player := not_not.mp hplayer
          split
          · next hwrong =>
              refine .inr (.inl ⟨debt, rfl, rfl, ?_, rfl⟩)
              simpa using hwrong
          · next hright =>
              simp only [Bool.or_eq_true, decide_eq_true_eq, Bool.not_eq_true', not_or, not_not,
                Bool.not_eq_false] at hright
              exact .inr (.inr ⟨debt, rfl, rfl, hright.1, hright.2, rfl⟩)

/-- Time runs out and the turn ends, or nothing happens. -/
theorem tick_ways (rules : Rulebook) (m : Match) (now : Nat) :
    (tick rules rules.resolver now).run m = (.ok false, m) ∨
      (tick rules rules.resolver now).run m
        = (endTurn rules rules.resolver now >>= fun _ => pure true).run m := by
  rw [tick, run_get_bind]
  split
  · exact .inr rfl
  · exact .inl rfl

/-- The operation starts a turn, in a match to which it comes without counting any. -/
def Match.Dawns (m : Match) (rules : Rulebook) (op : Operation) : Prop :=
  ∃ m₁ active now, m.dawn? rules op = some m₁ ∧ ReflTransGen (Step rules .untimed) m m₁ ∧
    m₁.table.activePlayer? = some active ∧ (m.perform rules op).2
      = ((m₁.heralded rules).countedAll rules (m₁.heralded rules).table.liveInOrder).openTurn rules
          active now

section

variable (hc : rules.catalog.Coherent)

include hc

theorem endTurn_dawn {ids : List PlayerId} (hm : m.Fits rules.catalog ids) {active : PlayerId}
    (hactive : m.table.activePlayer? = some active) (now : Nat) :
    ∃ next, (m.waned rules active).table.activePlayer? = some next ∧
      (endTurn rules rules.resolver now).run m = (.ok (),
        (((m.waned rules active).heralded rules).countedAll rules
          ((m.waned rules active).heralded rules).table.liveInOrder).openTurn rules next now) := by
  obtain ⟨next, hnext⟩ := m.waned_active hc hm hactive
  have hfits := (kept_fits_step hc).chain (m.waned_steps hc hm active) hm
  exact ⟨next, hnext, (endTurn_dusk hc hm hactive now).trans (startTurn_dawn hc hfits hnext now)⟩

/-- An operation that ends the turn starts the next one. -/
theorem dawns_of_ends (hm : m.Conforms rules.catalog) (hop : op.isStart = false)
    {active : PlayerId} (hactive : m.table.activePlayer? = some active) (now : Nat) {α : Type}
    (a : α) (wrap : α → Answer)
    (hrun : m.perform rules op = (wrap <$> (endTurn rules rules.resolver now >>= fun _ => pure a) :
      Play Answer).run (m.paid rules op))
    (hends : op.turnEnds (.ok (wrap a)) = 1) : m.Dawns rules op := by
  have hpaid := m.paid_calm rules op
  have hfits : (m.paid rules op).Fits rules.catalog m.table.playerIds :=
    (kept_fits_calm hc).chain hpaid ⟨hm, rfl⟩
  have hactive' : (m.paid rules op).table.activePlayer? = some active :=
    (Table.activePlayer?_congr hfits.seats (steady_of_calm hpaid).turn).trans hactive
  obtain ⟨next, hnext, hend⟩ := endTurn_dawn hc hfits hactive' now
  rw [run_map, run_bind_ok hend, run_pure] at hrun
  have hdawn : m.dawn? rules op = some ((m.paid rules op).waned rules active) :=
    Match.dawn?_of_ends hop hactive (by rw [hrun]; exact hends)
  refine ⟨_, next, now, hdawn, ?_, hnext, by rw [hrun]⟩
  exact (steps_of_calm hpaid).trans ((m.paid rules op).waned_steps hc hfits active)

/-- An operation starts no turn, and comes to no more than such an operation may. -/
def Match.Dozes (m : Match) (rules : Rulebook) (op : Operation) : Prop :=
  m.dawn? rules op = none ∧ m.Idles rules op (m.perform rules op).2

omit hc in
theorem Match.Dozes.of_steps (hop : op.isStart = false)
    (hquiet : op.turnEnds (m.perform rules op).1 = 0)
    (path : ReflTransGen (Step rules .untimed) m (m.perform rules op).2) : m.Dozes rules op :=
  ⟨dawn?_of_quiet hop hquiet, .steps path⟩

omit hc in
/-- To ask for the end of a turn, by an intent or not, is to stop the turn. -/
theorem perform_of_stops (rules : Rulebook) {player : PlayerId} (h : op.stops? = some player) :
    op.isStart = false ∧ op.turnEnds = Answer.granted ∧ op.discards? = none ∧
      ∃ now, ∀ m : Match, m.perform rules op
        = (Answer.outcome <$> stopTurn rules rules.resolver player now).run m := by
  cases op with
  | stopTurn other now =>
      cases h
      exact ⟨rfl, rfl, rfl, now, fun _ => rfl⟩
  | intent other intent now =>
      cases intent with
      | stopTurn =>
          cases h
          exact ⟨rfl, rfl, rfl, now, fun _ => rfl⟩
      | _ => cases h
  | _ => cases h

omit hc in
/-- To name cards to discard, by an intent or not, is to discard them. -/
theorem perform_of_discards (rules : Rulebook) {player : PlayerId} {cards : List CardId}
    (h : op.discards? = some (player, cards)) :
    op.isStart = false ∧ op.turnEnds = Answer.granted ∧
      ∃ now, ∀ m : Match, m.perform rules op
        = (Answer.outcome <$> discardCards rules rules.resolver player cards now).run m := by
  cases op with
  | discardCards other others now =>
      cases h
      exact ⟨rfl, rfl, now, fun _ => rfl⟩
  | intent other intent now =>
      cases intent with
      | discardCards others =>
          cases h
          exact ⟨rfl, rfl, now, fun _ => rfl⟩
      | _ => cases h
  | _ => cases h

theorem dozes_or_dawns_of_stops (hm : m.Conforms rules.catalog) {player : PlayerId}
    (hstops : op.stops? = some player) : m.Dozes rules op ∨ m.Dawns rules op := by
  obtain ⟨hop, hends, hdiscards, now, hperform⟩ := perform_of_stops rules hstops
  have hpaid : m.paid rules op = m := by rw [Match.paid, hdiscards]
  have hrun := hperform m
  rcases stopTurn_ways rules m player now with
    ⟨reason, hstop⟩ | ⟨hfree, hactive, hexcess, hstop⟩ | ⟨hactive, hstop⟩
  · rw [run_map, hstop] at hrun
    exact .inl (.of_steps hop (by rw [hrun, hends]; rfl) (by rw [hrun]))
  · rw [run_map, hstop] at hrun
    have hdeferred : (m.perform rules op).1 = .ok (.outcome .deferred) := by rw [hrun]; rfl
    refine .inl ⟨Match.dawn?_of_quiet hop (by rw [hdeferred, hends]; rfl), ?_⟩
    rw [hrun]
    exact .deferred hstops hdeferred hfree hactive hexcess
  · refine .inr (dawns_of_ends hc hm hop hactive now Outcome.applied Answer.outcome
      ?_ (by rw [hends]; rfl))
    rw [hrun, hpaid, run_map, hstop, run_map]

/-- Whoever owes a discard is active. -/
theorem dozes_or_dawns_of_discards (h : Reachable rules m) {player : PlayerId}
    {cards : List CardId} (hdiscards : op.discards? = some (player, cards)) :
    m.Dozes rules op ∨ m.Dawns rules op := by
  obtain ⟨hop, hends, now, hperform⟩ := perform_of_discards rules hdiscards
  have hrun := hperform m
  rcases discardCards_ways rules m player cards now with
    ⟨-, hstay⟩ | ⟨debt, -, -, -, hstay⟩ | ⟨debt, howed, -, -, -, hend⟩
  · rw [run_map, hstay] at hrun
    exact .inl (.of_steps hop (by rw [hrun, hends]; rfl) (by rw [hrun]))
  · rw [run_map, hstay] at hrun
    refine .inl (.of_steps hop (by rw [hrun, hends]; rfl) ?_)
    rw [hrun]
    exact .single (.calm (.demand debt))
  · have hactive := ((h.attentive hc).expectant.debt debt howed).1
    refine .inr (dawns_of_ends hc (h.conforms hc) hop hactive now Outcome.applied
      Answer.outcome ?_ (by rw [hends]; rfl))
    rw [hrun, run_map, hend, run_map, Match.paid, hdiscards]

theorem dozes_of_within (hm : m.Conforms rules.catalog) (hwithin : op.Within .untimed)
    (hregister : op.isRegister = false) (hop : op.isStart = false)
    (hquiet : op.turnEnds (m.perform rules op).1 = 0) : m.Dozes rules op :=
  .of_steps hop hquiet (perform_steps hc (Scope.untimed_covers _) hm hwithin hregister)

theorem dozes_or_dawns_of_endTurn (hm : m.Conforms rules.catalog) (now : Nat) :
    m.Dozes rules (.endTurn now) ∨ m.Dawns rules (.endTurn now) := by
  have hrun : m.perform rules (.endTurn now)
      = (thenDone (endTurn rules rules.resolver now)).run m := rfl
  cases hactive : m.table.activePlayer? with
  | none =>
      rw [thenDone, run_bind_error (endTurn_refused hactive now)] at hrun
      exact .inl (.of_steps rfl (by rw [hrun]; rfl) (by rw [hrun]))
  | some active =>
      refine .inr (dawns_of_ends hc hm rfl hactive now () (fun _ => Answer.done) ?_ rfl)
      obtain ⟨next, -, hend⟩ := endTurn_dawn hc ⟨hm, rfl⟩ hactive now
      rw [hrun, thenDone, run_bind_ok hend, run_map, Match.paid]
      dsimp only [Operation.discards?]
      rw [run_bind_ok hend]
      rfl

theorem dozes_or_dawns_of_tick (hm : m.Conforms rules.catalog) (now : Nat) :
    m.Dozes rules (.tick now) ∨ m.Dawns rules (.tick now) := by
  have hrun : m.perform rules (.tick now) = (Answer.flag <$> tick rules rules.resolver now).run m :=
    rfl
  rcases tick_ways rules m now with hstay | hend
  · rw [run_map, hstay] at hrun
    exact .inl (.of_steps rfl (by rw [hrun]; rfl) (by rw [hrun]))
  · cases hactive : m.table.activePlayer? with
    | none =>
        rw [run_map, hend, run_bind_error (endTurn_refused hactive now)] at hrun
        exact .inl (.of_steps rfl (by rw [hrun]; rfl) (by rw [hrun]))
    | some active =>
        refine .inr (dawns_of_ends hc hm rfl hactive now true Answer.flag ?_ rfl)
        rw [hrun, run_map, hend, run_map]
        rfl

theorem dozes_or_dawns_of_start (hm : m.Conforms rules.catalog) (now : Nat) :
    m.Dozes rules (.start now) ∨ m.Dawns rules (.start now) := by
  have hrun : m.perform rules (.start now)
      = (thenDone (startGame rules rules.resolver now)).run m := rfl
  have hdawn : m.dawn? rules (.start now)
      = if m.table.turn.status = .notStarted ∧ m.table.players ≠ [] then some (m.begun rules)
        else none := rfl
  by_cases hbegins : m.table.turn.status = .notStarted ∧ m.table.players ≠ []
  · obtain ⟨hnew, hseated⟩ := hbegins
    have hm' : m.Fits rules.catalog m.table.playerIds := ⟨hm, rfl⟩
    have hsteps := m.begun_steps hc hm' hnew hseated
    obtain ⟨first, hfirst⟩ := m.begun_active hc hm' hseated
    have hstart := (startGame_dawn hc hm' hnew hseated now).trans
      (startTurn_dawn hc ((kept_fits_step hc).chain hsteps hm') hfirst now)
    rw [thenDone, run_bind_ok hstart] at hrun
    refine .inr ⟨_, first, now, hdawn.trans (if_pos ⟨hnew, hseated⟩), hsteps, hfirst, ?_⟩
    rw [hrun]
    rfl
  · refine .inl ⟨hdawn.trans (if_neg hbegins), ?_⟩
    have hsame : (m.perform rules (.start now)).2 = m := by
      rw [hrun, thenDone, run_bind_pure, startGame, run_get_bind]
      dsimp only
      split
      · rfl
      · next hnew =>
          have hempty : m.table.players.isEmpty = true := by
            simpa [not_not.mp hnew] using hbegins
          rw [if_pos hempty]
          rfl
    rw [hsame]
    exact .steps .refl

/-- **An operation on a reachable match starts a turn in three stages, or counts none.** -/
theorem dozes_or_dawns (h : Reachable rules m) (op : Operation) :
    m.Dozes rules op ∨ m.Dawns rules op := by
  have hm := h.conforms hc
  cases op with
  | register name connection deck =>
      refine .inl ⟨rfl, ?_⟩
      have hregister : (Operation.register name connection deck).isRegister = true := rfl
      rcases register_cases rules m hregister with
        heq | ⟨other, line, cards, hopen, heq⟩ <;> rw [heq]
      · exact .steps .refl
      · exact .seat hopen other line
  | start now => exact dozes_or_dawns_of_start hc hm now
  | endTurn now => exact dozes_or_dawns_of_endTurn hc hm now
  | tick now => exact dozes_or_dawns_of_tick hc hm now
  | stopTurn player now => exact dozes_or_dawns_of_stops hc hm rfl
  | discardCards player cards now => exact dozes_or_dawns_of_discards hc h rfl
  | intent player intent now =>
      cases intent with
      | stopTurn => exact dozes_or_dawns_of_stops hc hm rfl
      | discardCards cards => exact dozes_or_dawns_of_discards hc h rfl
      | register | moveCards => exact .inl (dozes_of_within hc hm trivial rfl rfl rfl)
      | _ => exact .inl (dozes_of_within hc hm rfl rfl rfl rfl)
  | playCard | selectTarget => exact .inl (dozes_of_within hc hm rfl rfl rfl rfl)
  | transform => exact .inl (dozes_of_within hc hm ⟨rfl, rfl⟩ rfl rfl rfl)
  | _ => exact .inl (dozes_of_within hc hm trivial rfl rfl rfl)

end

end CardArena
