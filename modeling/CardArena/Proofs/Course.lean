import Mathlib
import CardArena.Proofs.Cascade
import CardArena.Proofs.Recall
import CardArena.Proofs.Steady

/-!
# Operations are chains of steps

Every operation on a seated table leads along `Step`, whether or not it fails, and most of them stay
within the turn (`Stays`).  Where no card is played, that is proved of mild steps, which in addition
let nobody remember another card (`Abides`).  A turn that is asked to end always ends: what may fail on
the way is left out (`Play.attempt`), so that here any fault is tolerated below, whatever is tolerated
above.

Where a turn ends or starts, more is said than a chain of steps can say.  `Opens`, `Passes` and
`Begins` go through the boundary in order, with all that is done within the turn as a chain of calm
steps in its place.

* `endTurn_run` : a turn that is asked to end passes to the next player.
* `playCard_cases` : what comes of a call to play a card.
* `handleIntent_leads`, `attackCard_leads` : what clients ask for is done in steps, with the faults.
-/

namespace CardArena

open Play
open Relation (ReflTransGen)

variable {rules : Rulebook} {scope : Scope} {F G : Fault → Prop} {ids : List PlayerId}
  {resolve : Resolver}

/-- From a match of the game with these seats, the step is a chain of steps of the match. -/
abbrev Plays (rules : Rulebook) (scope : Scope) (F : Fault → Prop) (ids : List PlayerId)
    (step : Play α) : Prop :=
  Along (Match.Fits rules.catalog ids) (Step rules scope) F step

theorem kept_fits_step (hc : rules.catalog.Coherent) :
    Kept (Match.Fits rules.catalog ids) (Step rules scope) :=
  fun _ _ h hm => h.fits hc hm

theorem Match.Conforms.of_steps (hc : rules.catalog.Coherent) {m m' : Match}
    (hm : m.Conforms rules.catalog) (h : ReflTransGen (Step rules scope) m m') :
    m'.Conforms rules.catalog :=
  ((kept_fits_step hc).chain h ⟨hm, rfl⟩).conforms

theorem Resolves.lenient (h : Resolves rules scope F ids resolve) :
    Resolves rules scope (fun _ => True) ids resolve :=
  fun firing hcarried m hm => (h firing hcarried m hm).mono (fun _ _ => id) fun _ _ => trivial

/-! ## Steps within a turn -/

/-- From a match of the game with these seats, the step is a chain of steps within the turn. -/
abbrev Stays (rules : Rulebook) (scope : Scope) (F : Fault → Prop) (ids : List PlayerId)
    (step : Play α) : Prop :=
  Along (Match.Fits rules.catalog ids) (Calm rules scope) F step

theorem kept_fits_calm (hc : rules.catalog.Coherent) :
    Kept (Match.Fits rules.catalog ids) (Calm rules scope) :=
  fun _ _ h hm => h.fits hc hm

theorem Stays.plays {step : Play α} (h : Stays rules scope F ids step) :
    Plays rules scope F ids step :=
  fun m hm => (h m hm).mono (fun _ _ => .calm) fun _ => id

theorem calm_of_changes {step : Play α} {m : Match} (h : Leads (Change rules scope) F step m) :
    Leads (Calm rules scope) F step m :=
  h.mono (fun _ _ => .change) fun _ => id

theorem Walks.stays {step : Play α} (h : Walks rules scope F ids step) :
    Stays rules scope F ids step :=
  fun m hm => calm_of_changes (h m hm)

/-- From a match of the game with these seats, the step is a chain of steps within the turn that make
nobody remember another card. -/
abbrev Abides (rules : Rulebook) (scope : Scope) (F : Fault → Prop) (ids : List PlayerId)
    (step : Play α) : Prop :=
  Along (Match.Fits rules.catalog ids) (Mild rules scope) F step

theorem kept_fits_mild (hc : rules.catalog.Coherent) :
    Kept (Match.Fits rules.catalog ids) (Mild rules scope) :=
  fun _ _ h hm => h.1.fits hc hm

theorem Abides.stays {step : Play α} (h : Abides rules scope F ids step) :
    Stays rules scope F ids step :=
  fun m hm => (h m hm).mono (fun _ _ => And.left) fun _ => id

theorem mild_of_changes {step : Play α} {m : Match} (h : Leads (Change rules scope) F step m) :
    Leads (Mild rules scope) F step m :=
  h.mono (fun _ _ => .change) fun _ => id

theorem Walks.abides {step : Play α} (h : Walks rules scope F ids step) :
    Abides rules scope F ids step :=
  fun m hm => mild_of_changes (h m hm)

theorem steps_of_calm {m m' : Match} (h : ReflTransGen (Calm rules scope) m m') :
    ReflTransGen (Step rules scope) m m' :=
  ReflTransGen.mono (fun _ _ => .calm) _ _ h

theorem chain_of_changes {m m' : Match} (h : ReflTransGen (Change rules scope) m m') :
    ReflTransGen (Calm rules scope) m m' :=
  ReflTransGen.mono (fun _ _ => .change) _ _ h

theorem steps_of_changes {m m' : Match} (h : ReflTransGen (Change rules scope) m m') :
    ReflTransGen (Step rules scope) m m' :=
  ReflTransGen.mono (fun _ _ => Change.step) _ _ h

theorem playerIds_of_steps {m m' : Match} (h : ReflTransGen (Step rules scope) m m') :
    m'.table.playerIds = m.table.playerIds := by
  induction h with
  | refl => rfl
  | tail _ hstep ih => exact hstep.playerIds.trans ih

/-! ## Discards -/

namespace Match

theorem discardCard_calm (m : Match) (player : PlayerId) (card : CardId) :
    ReflTransGen (Calm rules scope) m (m.discardCard rules player card) := by
  by_cases hheld : card ∈ m.hand rules player
  · cases hz : m.table.zone? player rules.config.handZone with
    | none => simp [hand, hz] at hheld
    | some z =>
        rw [hand, hz] at hheld
        exact .single (.discard hz hheld)
  · rw [discardCard, if_neg hheld]

theorem discardAll_calm (player : PlayerId) (cards : List CardId) :
    ∀ m : Match, ReflTransGen (Calm rules scope) m (m.discardAll rules player cards) := by
  induction cards with
  | nil => exact fun m => .refl
  | cons card rest ih => exact fun m => (m.discardCard_calm player card).trans (ih _)

/-- Discards leave the cards in play and the queue of destructions as they are. -/
theorem discardAll_undisturbed (player : PlayerId) (cards : List CardId) :
    ∀ m : Match, (m.discardAll rules player cards).table.roster = m.table.roster ∧
      (m.discardAll rules player cards).destructions = m.destructions := by
  induction cards with
  | nil => exact fun m => ⟨rfl, rfl⟩
  | cons card rest ih =>
      intro m
      have hone : (m.discardCard rules player card).table.roster = m.table.roster ∧
          (m.discardCard rules player card).destructions = m.destructions := by
        unfold discardCard
        split
        · cases rules.config.graveyardZone <;> exact ⟨rfl, rfl⟩
        · exact ⟨rfl, rfl⟩
      exact ⟨(ih _).1.trans hone.1, (ih _).2.trans hone.2⟩

theorem discardRandom_calm (player : PlayerId) (count : Nat) :
    ∀ m : Match, ReflTransGen (Calm rules scope) m (m.discardRandom rules player count) := by
  induction count with
  | zero => exact fun m => .refl
  | succ count ih =>
      intro m
      rw [discardRandom]
      have hdice : ∀ dice, Calm rules scope m { m with dice } :=
        fun dice => .change (.roll dice)
      split
      · next dice _ => exact .single (hdice dice)
      · next card dice _ =>
          exact .head (hdice dice) ((discardCard_calm _ player card).trans (ih _))

end Match

/-! ## Whose turn it is -/

namespace Table

theorem activePlayer?_of_refusal? {t : Table} {player : PlayerId}
    (h : t.refusal? player = none) : t.isRunning ∧ t.activePlayer? = some player := by
  unfold refusal? at h
  split at h
  · cases h
  · next hrunning =>
      split at h
      · cases h
      · next hactive => exact ⟨by simpa using hrunning, by simpa using hactive⟩

theorem activePlayer?_congr {t t' : Table} (hids : t'.playerIds = t.playerIds)
    (hturn : t'.turn = t.turn) : t'.activePlayer? = t.activePlayer? := by
  have hget : ∀ i : Nat, (t'.players[i]?).map Player.id = (t.players[i]?).map Player.id := by
    intro i
    simp only [← List.getElem?_map]
    exact congrArg (·[i]?) hids
  rw [activePlayer?, activePlayer?, isRunning, isRunning, hturn, hget]

/-- The turn after this one is another. -/
theorem nextTurn_ne (t : Table) : t.nextTurn ≠ t.turn := by
  unfold nextTurn
  split
  · intro h
    have hnumber : t.turn.number + 1 = t.turn.number := congrArg Turn.number h
    simp at hnumber
  · intro h
    have hindex : t.turn.activeIndex + 1 = t.turn.activeIndex := congrArg Turn.activeIndex h
    omega

theorem nextTurn_congr {t t' : Table} (hids : t'.playerIds = t.playerIds)
    (hturn : t'.turn = t.turn) : t'.nextTurn = t.nextTurn := by
  rw [nextTurn, nextTurn, length_players, length_players, hids, hturn]

end Table

/-! ## Boundaries of turns -/

namespace Match

/-- The time of a turn runs, and everybody is told that it starts. -/
def openTurn (m : Match) (rules : Rulebook) (active : PlayerId) (now : Nat) : Match :=
  { m with deadline := some (now + rules.config.turnMillis) }.broadcastViews
    (.turnStarted active m.table.turn.number)

/-- Whoever dies after their effect goes, everybody is told that the turn ends, and it passes. -/
def closeTurn (m : Match) (rules : Rulebook) (active : PlayerId) : Match :=
  ((m.destroyAfterEffect rules).clearLastPlayed.broadcast
    (.turnEnded active m.table.turn.number)).passTurn

end Match

/-- A turn starts: open questions and debts are dropped, and what happens at its start is done before
everybody is told. -/
inductive Opens (rules : Rulebook) (scope : Scope) (now : Nat) : Match → Match → Prop
  | intro {m m₁ : Match} {active : PlayerId} (hactive : m.table.activePlayer? = some active)
      (path : ReflTransGen (Calm rules scope) { m.abandonSelection with debt := none } m₁) :
      Opens rules scope now m (m₁.openTurn rules active now)

/-- The turn of the active player ends, and the next one starts. -/
inductive Passes (rules : Rulebook) (scope : Scope) (now : Nat) : Match → Match → Prop
  | intro {m m₁ m' : Match} {active : PlayerId} (hactive : m.table.activePlayer? = some active)
      (path : ReflTransGen (Calm rules scope) (m.abandonSelection.destroyDue rules) m₁)
      (opens : Opens rules scope now (m₁.closeTurn rules active) m') :
      Passes rules scope now m m'

/-- The match starts, and with it the first turn. -/
inductive Begins (rules : Rulebook) (scope : Scope) (now : Nat) : Match → Match → Prop
  | intro {m m₁ m' : Match} (seated : m.table.players ≠ [])
      (notStarted : m.table.turn.status = .notStarted)
      (path : ReflTransGen (Calm rules scope) m.begin m₁)
      (opens : Opens rules scope now (m₁.broadcastViews .gameStarted) m') :
      Begins rules scope now m m'

section

variable {m m' : Match} {now : Nat}

theorem Opens.steps (h : Opens rules scope now m m') : ReflTransGen (Step rules scope) m m' := by
  obtain ⟨-, path⟩ := h
  have hsettled : ReflTransGen (Step rules scope) m { m.abandonSelection with debt := none } :=
    (ReflTransGen.single .abandon).tail (.calm .settle)
  exact ((hsettled.trans (steps_of_calm path)).tail (.clock _)).tail
    (.views fun _ => rfl)

/-- What is left of a turn end once those who die after their effect are gone. -/
theorem Match.closeTurn_rest (m : Match) (active : PlayerId) :
    ReflTransGen (Step rules scope) (m.destroyAfterEffect rules) (m.closeTurn rules active) :=
  ((ReflTransGen.single .clearLastPlayed).tail (.broadcast rfl)).tail .passTurn

theorem Match.closeTurn_steps (m : Match) (active : PlayerId) :
    ReflTransGen (Step rules scope) m (m.closeTurn rules active) :=
  (m.closeTurn_rest active).head .destroyAfterEffect

theorem Passes.steps (h : Passes rules scope now m m') : ReflTransGen (Step rules scope) m m' := by
  obtain ⟨-, path, opens⟩ := h
  have hdue : ReflTransGen (Step rules scope) m (m.abandonSelection.destroyDue rules) :=
    (ReflTransGen.single .abandon).tail .destroyDue
  exact ((hdue.trans (steps_of_calm path)).trans (Match.closeTurn_steps _ _)).trans opens.steps

theorem Begins.steps (h : Begins rules scope now m m') : ReflTransGen (Step rules scope) m m' := by
  obtain ⟨seated, notStarted, path, opens⟩ := h
  exact (((steps_of_calm path).head (.begin seated notStarted)).tail (.views fun _ => rfl)).trans
    opens.steps

theorem Opens.turn (h : Opens rules scope now m m') : m'.table.turn = m.table.turn := by
  obtain ⟨-, path⟩ := h
  exact (steady_of_calm path).turn

theorem Match.steady_clearTable (m : Match) (rules : Rulebook) :
    m.Steady (m.destroyAfterEffect rules).clearLastPlayed :=
  m.steady_destroyAfterEffect.trans (Match.steady_clearLastPlayed _)

theorem Match.turn_closeTurn (m : Match) (active : PlayerId) :
    (m.closeTurn rules active).table.turn = m.table.nextTurn :=
  Table.nextTurn_congr (m.steady_clearTable rules).playerIds (m.steady_clearTable rules).turn

theorem Begins.turn (h : Begins rules scope now m m') : m'.table.turn = ⟨.running, 0, 1⟩ := by
  obtain ⟨-, -, path, opens⟩ := h
  rw [opens.turn]
  exact (steady_of_calm path).turn

theorem Passes.isRunning (h : Passes rules scope now m m') : m.table.isRunning := by
  obtain ⟨hactive, -, -⟩ := h
  exact Table.isRunning_of_activePlayer? hactive

theorem Passes.turn (h : Passes rules scope now m m') : m'.table.turn = m.table.nextTurn := by
  obtain ⟨-, path, opens⟩ := h
  have hsteady := m.abandonSelection.steady_destroyDue.trans (steady_of_calm path)
  rw [opens.turn, Match.turn_closeTurn]
  exact Table.nextTurn_congr hsteady.playerIds hsteady.turn

theorem Passes.status (h : Passes rules scope now m m') :
    m'.table.turn.status = m.table.turn.status := by
  rw [h.turn, Table.status_nextTurn]

theorem status_of_calm (h : ReflTransGen (Calm rules scope) m m') :
    m'.table.turn.status = m.table.turn.status :=
  congrArg Turn.status (steady_of_calm h).turn

end

section

variable (hc : rules.catalog.Coherent) (hres : Resolves rules scope F ids resolve)

include hc hres

theorem runGameAction_abides (action : GameAction) (player : PlayerId) :
    Abides rules scope (fun _ => True) ids (runGameAction rules resolve action player) := by
  cases action with
  | increaseAttribute attr value =>
      exact (changePlayerAttribute_walks hc hres.lenient (.inr trivial) (.inr trivial) _).abides
  | decreaseAttribute attr value =>
      exact (changePlayerAttribute_walks hc hres.lenient (.inr trivial) (.inr trivial) _).abides
  | setAttribute attr value =>
      exact (setPlayerAttribute_walks hc hres.lenient (.inr trivial) (.inr trivial) _).abides
  | moveCards origin destination count =>
      intro m hm
      exact mild_of_changes (moveCards_walks hc hres.lenient (.inr trivial)
        (.inr trivial) (.inr trivial) _ m hm).discard
  | shuffleZone zone => exact fun m _ => .modify (.shuffle player zone)

theorem runAllScheduled_abides (actions : List ScheduledAction) :
    Abides rules scope G ids (runAllScheduled rules resolve actions) := by
  refine .forM (kept_fits_mild hc) fun scheduled _ m hm => .get_bind ?_
  refine Along.forM (kept_fits_mild hc) (fun player _ m hm => ?_) m hm
  exact (runGameAction_abides hc hres scheduled.action player m hm).attempt

theorem attempt_raiseOnAll_abides (event : Event) :
    Abides rules scope G ids (Play.attempt (raiseOnAll rules resolve event)) :=
  fun m hm => (mild_of_changes (raiseOnAll_walks hc hres event m hm)).attempt

theorem countTurn_abides (hturns : scope.turns = true) (card : LiveId) :
    Abides rules scope G ids (countTurn rules resolve card) := by
  intro m hm
  refine .get_bind ?_
  split
  · exact .pure ()
  · next live _ =>
      split
      · have hmove : Mild rules scope m _ := .age card (nextCount live.turnsInPlay) hturns
        exact .modify_bind hmove
          (mild_of_changes (raise_walks hc hres _ card _ (hmove.1.fits hc hm))).attempt
      · exact .pure ()

theorem runAllScheduled_stays (actions : List ScheduledAction) :
    Stays rules scope G ids (runAllScheduled rules resolve actions) :=
  (runAllScheduled_abides hc hres actions).stays

theorem attempt_raiseOnAll_stays (event : Event) :
    Stays rules scope G ids (Play.attempt (raiseOnAll rules resolve event)) :=
  (attempt_raiseOnAll_abides hc hres event).stays

theorem countTurn_stays (hturns : scope.turns = true) (card : LiveId) :
    Stays rules scope G ids (countTurn rules resolve card) :=
  (countTurn_abides hc hres hturns card).stays

omit hres in
/-- A step that cannot fail hands on to what comes after it. -/
theorem Stays.run_bind {step : Play α} (h : Stays rules scope (fun _ => False) ids step)
    {m : Match} (hm : m.Fits rules.catalog ids) :
    ∃ a m', m'.Fits rules.catalog ids ∧ ReflTransGen (Calm rules scope) m m' ∧
      ∀ {β : Type} (k : α → Play β), (step >>= k).run m = (k a).run m' := by
  obtain ⟨a, m', hrun, hpath⟩ := (h m hm).exists_ok
  exact ⟨a, m', (kept_fits_calm hc).chain hpath hm, hpath, run_bind_ok hrun⟩

/-- **A turn whose player is there starts.** -/
theorem startTurn_run (hturns : scope.turns = true) {m : Match} (hm : m.Fits rules.catalog ids)
    {active : PlayerId} (hactive : m.table.activePlayer? = some active) (now : Nat) :
    ∃ m', Opens rules scope now m m' ∧ (startTurn rules resolve now).run m = (.ok (), m') := by
  have hsettle : Calm rules scope m.abandonSelection { m.abandonSelection with debt := none } :=
    .settle
  have hm₀ : Match.Fits rules.catalog ids { m.abandonSelection with debt := none } :=
    hsettle.fits hc ((Step.abandon : Step rules scope m _).fits hc hm)
  rw [startTurn, run_modify_bind, run_get_bind]
  dsimp only
  rw [show m.abandonSelection.table.activePlayer? = some active from hactive]
  dsimp only
  obtain ⟨_, m₁, hm₁, hpath₁, hrun₁⟩ :=
    (runAllScheduled_stays hc hres rules.catalog.turnStartActions).run_bind hc hm₀
  obtain ⟨_, m₂, hm₂, hpath₂, hrun₂⟩ :=
    (attempt_raiseOnAll_stays hc hres (.playerLifecycle .turnStart active)).run_bind hc hm₁
  have hcount : Stays rules scope (fun _ => False) ids
      (m₂.table.liveInOrder.forM (countTurn rules resolve)) :=
    .forM (kept_fits_calm hc) fun card _ => countTurn_stays hc hres hturns card
  obtain ⟨_, m₃, hm₃, hpath₃, hrun₃⟩ := hcount.run_bind hc hm₂
  have hpath : ReflTransGen (Calm rules scope) { m.abandonSelection with debt := none } m₃ :=
    (hpath₁.trans hpath₂).trans hpath₃
  have hnumber : m₃.table.turn.number = m.table.turn.number :=
    congrArg Turn.number (steady_of_calm hpath).turn
  refine ⟨_, .intro hactive hpath, ?_⟩
  rw [hrun₁, hrun₂, run_get_bind, hrun₃, run_modify_bind, run_modify, Match.openTurn, hnumber]
  rfl

/-- **A turn that is asked to end passes, whatever is set off by its end and by what follows.** -/
theorem endTurn_run (hturns : scope.turns = true) {m : Match} (hm : m.Fits rules.catalog ids)
    {active : PlayerId} (hactive : m.table.activePlayer? = some active) (now : Nat) :
    ∃ m', Passes rules scope now m m' ∧ (endTurn rules resolve now).run m = (.ok (), m') := by
  have hk : Kept (Match.Fits rules.catalog ids) (Step rules scope) := kept_fits_step hc
  have hm₀ : (m.abandonSelection.destroyDue rules).Fits rules.catalog ids :=
    hk.chain ((ReflTransGen.single .abandon).tail .destroyDue) hm
  have hdiscard : ReflTransGen (Calm rules scope) (m.abandonSelection.destroyDue rules)
      { (m.abandonSelection.destroyDue rules).forceDiscard rules active with debt := none } :=
    (Match.discardRandom_calm active _ _).tail .settle
  rw [endTurn, run_get_bind]
  dsimp only
  rw [hactive]
  dsimp only
  rw [run_modify_bind, run_modify_bind, run_modify_bind]
  obtain ⟨_, m₁, hm₁, hpath₁, hrun₁⟩ :=
    (runAllScheduled_stays hc hres rules.catalog.turnEndActions).run_bind hc
      ((kept_fits_calm hc).chain hdiscard hm₀)
  obtain ⟨_, m₂, hm₂, hpath₂, hrun₂⟩ :=
    (attempt_raiseOnAll_stays hc hres (.playerLifecycle .turnEnd active)).run_bind hc hm₁
  have hpath : ReflTransGen (Calm rules scope) (m.abandonSelection.destroyDue rules) m₂ :=
    (hdiscard.trans hpath₁).trans hpath₂
  have hturn : m₂.table.turn = m.table.turn :=
    (m.abandonSelection.steady_destroyDue.trans (steady_of_calm hpath)).turn
  -- The next player is there, so that their turn starts.
  have hclosed : (m₂.closeTurn rules active).Fits rules.catalog ids :=
    hk.chain (Match.closeTurn_steps m₂ active) hm₂
  have hnext : (m₂.closeTurn rules active).table.turn = m₂.table.nextTurn :=
    Match.turn_closeTurn m₂ active
  have hrunning : (m₂.closeTurn rules active).table.isRunning = true := by
    rw [Table.isRunning, hnext, Table.status_nextTurn, hturn]
    exact Table.isRunning_of_activePlayer? hactive
  have hseat : (m₂.closeTurn rules active).table.turn.activeIndex
      < (m₂.closeTurn rules active).table.players.length := by
    have hlength : ∀ {m' : Match}, m'.Fits rules.catalog ids → m'.table.players.length = ids.length :=
      fun h => by rw [Table.length_players, h.seats]
    have hlt : m₂.table.nextTurn.activeIndex < m₂.table.players.length := by
      refine Table.activeIndex_nextTurn_lt ?_
      rw [hturn, hlength hm₂, ← hlength hm]
      exact Table.activeIndex_lt hactive
    rwa [hnext, hlength hclosed, ← hlength hm₂]
  obtain ⟨next, hactive'⟩ := Table.exists_active hrunning hseat
  obtain ⟨m', hopens, hstart⟩ := startTurn_run hc hres hturns hclosed hactive' now
  refine ⟨m', .intro hactive hpath hopens, ?_⟩
  rw [hrun₁, hrun₂, ← hturn]
  simp only [run_modify_bind, run_get_bind]
  exact (congrArg (fun step : Play Unit => step.run (m₂.closeTurn rules active))
    (if_pos hrunning)).trans hstart

omit hc hres in
/-- While nobody is active there is no turn to end. -/
theorem endTurn_refused {m : Match} (hactive : m.table.activePlayer? = none) (now : Nat) :
    (endTurn rules resolve now).run m = (.error .gameNotRunning, m) := by
  rw [endTurn, run_get_bind]
  dsimp only
  rw [hactive]
  rfl

/-- A match that has not begun and has its players begins. -/
theorem startGame_run (hturns : scope.turns = true) {m : Match} (hm : m.Fits rules.catalog ids)
    (hseated : m.table.players ≠ []) (hnew : m.table.turn.status = .notStarted) (now : Nat) :
    ∃ m', Begins rules scope now m m' ∧ (startGame rules resolve now).run m = (.ok (), m') := by
  have hbegin : Step rules scope m m.begin := .begin hseated hnew
  obtain ⟨_, m₁, hm₁, hpath, hrun⟩ :=
    (runAllScheduled_stays hc hres rules.catalog.gameStartActions).run_bind hc (hbegin.fits hc hm)
  have htold : (m₁.broadcastViews .gameStarted).Fits rules.catalog ids :=
    (Step.views fun _ => rfl : Step rules scope m₁ (m₁.broadcastViews .gameStarted)).fits hc hm₁
  have hturn : m₁.table.turn = ⟨.running, 0, 1⟩ := (steady_of_calm hpath).turn
  have hrunning : m₁.table.isRunning = true := by rw [Table.isRunning, hturn]; rfl
  have hseat : m₁.table.turn.activeIndex < m₁.table.players.length := by
    rw [hturn, (steady_of_calm hpath).length_players]
    exact List.length_pos_iff.mpr hseated
  obtain ⟨active, hactive⟩ := Table.exists_active hrunning hseat
  obtain ⟨m', hopens, hstart⟩ := startTurn_run hc hres hturns htold hactive now
  refine ⟨m', .intro hseated hnew hpath hopens, ?_⟩
  rw [startGame, run_get_bind]
  dsimp only
  rw [if_neg (not_not.mpr hnew), if_neg (by simpa using hseated), run_modify_bind]
  exact (hrun _).trans hstart

/-- Any other call to start changes nothing. -/
theorem startGame_cases (hturns : scope.turns = true) {m : Match} (hm : m.Fits rules.catalog ids)
    (now : Nat) :
    (∃ m', Begins rules scope now m m' ∧ (startGame rules resolve now).run m = (.ok (), m')) ∨
      (startGame rules resolve now).run m = (.ok (), m) ∨
      (startGame rules resolve now).run m = (.error .noPlayers, m) := by
  by_cases hstatus : m.table.turn.status ≠ .notStarted
  · refine .inr (.inl ?_)
    rw [startGame, run_get_bind]
    dsimp only
    rw [if_pos hstatus]
    rfl
  by_cases hempty : m.table.players.isEmpty
  · refine .inr (.inr ?_)
    rw [startGame, run_get_bind]
    dsimp only
    rw [if_neg hstatus, if_pos hempty]
    rfl
  · exact .inl (startGame_run hc hres hturns hm (by simpa using hempty) (not_not.mp hstatus) now)

/-- A call to stop the turn ends it or stays within it. -/
theorem stopTurn_cases (hturns : scope.turns = true) {m : Match} (hm : m.Fits rules.catalog ids)
    (player : PlayerId) (now : Nat) :
    (∃ m', Passes rules scope now m m' ∧
        (stopTurn rules resolve player now).run m = (.ok .applied, m')) ∨
      ∃ outcome m', outcome ≠ .applied ∧ ReflTransGen (Calm rules scope) m m' ∧
        (stopTurn rules resolve player now).run m = (.ok outcome, m') := by
  rw [stopTurn, run_get_bind]
  cases hfree : m.table.refusal? player with
  | some reason => exact .inr ⟨.rejected reason, m, nofun, .refl, rfl⟩
  | none =>
      have hactive := (Table.activePlayer?_of_refusal? hfree).2
      dsimp only
      split
      · exact .inr ⟨.rejected .discardPending, m, nofun, .refl, rfl⟩
      · split
        · next hexcess =>
            have howe : Calm rules scope m _ :=
              .owe ⟨player, m.handExcess rules player⟩ hactive hexcess hturns
            exact .inr ⟨.deferred, _, nofun, .single howe, rfl⟩
        · obtain ⟨m', hpasses, hrun⟩ := endTurn_run hc hres hturns hm hactive now
          exact .inl ⟨m', hpasses, run_bind_ok hrun _⟩

/-- Whoever names the cards that they owe discards them and ends the turn; any other call stays
within the turn. -/
theorem discardCards_cases (hturns : scope.turns = true) {m : Match}
    (hm : m.Fits rules.catalog ids) (player : PlayerId) (cards : List CardId) (now : Nat) :
    (∃ m₁ m', ReflTransGen (Calm rules scope) m m₁ ∧
        (m₁.table.roster = m.table.roster ∧ m₁.destructions = m.destructions) ∧
        Passes rules scope now m₁ m' ∧
        (discardCards rules resolve player cards now).run m = (.ok .applied, m')) ∨
      (∃ outcome m', outcome ≠ .applied ∧ ReflTransGen (Calm rules scope) m m' ∧
        (discardCards rules resolve player cards now).run m = (.ok outcome, m')) ∨
      ∃ m', m.debt.isSome ∧ m.table.activePlayer? = none ∧ ReflTransGen (Calm rules scope) m m' ∧
        (discardCards rules resolve player cards now).run m = (.error .gameNotRunning, m') := by
  rw [discardCards, run_get_bind]
  cases hdebt : m.debt with
  | none => exact .inr (.inl ⟨.rejected .noPendingDiscard, m, nofun, .refl, rfl⟩)
  | some debt =>
      dsimp only
      split
      · exact .inr (.inl ⟨.rejected .noPendingDiscard, m, nofun, .refl, rfl⟩)
      · next hplayer =>
          split
          · rw [← not_not.mp hplayer]
            exact .inr (.inl ⟨.reprompted, _, nofun, .single (.demand debt), rfl⟩)
          · have hpath : ReflTransGen (Calm rules scope) m
                { m.discardAll rules player cards with debt := none } :=
              (Match.discardAll_calm player cards m).tail .settle
            have hm₁ := (kept_fits_calm hc).chain hpath hm
            have hsame := Table.activePlayer?_congr (hm₁.seats.trans hm.seats.symm)
              (steady_of_calm hpath).turn
            rw [run_modify_bind, run_modify_bind]
            cases hactive : m.table.activePlayer? with
            | some active =>
                obtain ⟨m', hpasses, hrun⟩ := endTurn_run hc hres hturns hm₁ (hsame.trans hactive) now
                exact .inl ⟨_, m', hpath, Match.discardAll_undisturbed player cards m, hpasses,
                  run_bind_ok hrun _⟩
            | none =>
                refine .inr (.inr ⟨_, rfl, rfl, hpath, ?_⟩)
                exact run_bind_error (endTurn_refused (hsame.trans hactive) now) _

/-- A turn whose time is over ends. -/
theorem tick_cases (hturns : scope.turns = true) {m : Match} (hm : m.Fits rules.catalog ids)
    (now : Nat) :
    (∃ m', Passes rules scope now m m' ∧ (tick rules resolve now).run m = (.ok true, m')) ∨
      (tick rules resolve now).run m = (.ok false, m) ∨
      (tick rules resolve now).run m = (.error .gameNotRunning, m) := by
  rw [tick, run_get_bind]
  split
  · cases hactive : m.table.activePlayer? with
    | some active =>
        obtain ⟨m', hpasses, hrun⟩ := endTurn_run hc hres hturns hm hactive now
        exact .inl ⟨m', hpasses, run_bind_ok hrun _⟩
    | none => exact .inr (.inr (run_bind_error (endTurn_refused hactive now) _))
  · exact .inr (.inl rfl)

/-! ## Cards from hand -/

theorem requestMove_abides (player : PlayerId) (origin destination : String) (count : Nat) :
    Abides rules scope F ids (requestMove rules resolve player origin destination count) := by
  intro m hm
  refine .get_bind ?_
  split
  · exact .pure _
  · split
    · exact .pure _
    · next hzones =>
        simp only [Bool.or_eq_true, not_or, Bool.not_eq_true, Option.isNone_eq_false_iff] at hzones
        obtain ⟨⟨z, hz⟩, ⟨w, hw⟩⟩ :=
          hzones.imp Option.isSome_iff_exists.mp Option.isSome_iff_exists.mp
        obtain ⟨hp, ho⟩ := hm.mem_of_zone? hz
        obtain ⟨-, hd⟩ := hm.mem_of_zone? hw
        refine (mild_of_changes (moveCards_walks hc hres (.inl hp) (.inl ?_) (.inl ?_) count m
          hm).discard).bind fun _ m' _ => .modify_bind (.change .reveal) (.pure _)
        · rw [ho]; rfl
        · rw [hd]; rfl

theorem requestMove_stays (player : PlayerId) (origin destination : String) (count : Nat) :
    Stays rules scope F ids (requestMove rules resolve player origin destination count) :=
  (requestMove_abides hc hres player origin destination count).stays

omit hc hres in
/-- What a player can pay is paid in attributes that players have. -/
theorem Match.Fits.attr_of_canPay {m : Match} (hm : m.Fits rules.catalog ids) {player : PlayerId}
    {seat : Player} (hseat : m.table.player? player = some seat) {costs : List Cost}
    (hpay : seat.attributes.canPay costs) :
    ∀ cost ∈ costs, cost.attr ∈ rules.catalog.playerAttributes.map PlayerAttribute.name := by
  intro cost hcost
  have hafford := List.all_eq_true.mp hpay cost hcost
  obtain ⟨amount, hamount, -⟩ := (Option.any_eq_true _ _).mp hafford
  exact ((hm.mem_of_player? hseat).2.attributes _).mp (by rw [hamount]; rfl)

omit hc hres in
theorem payCosts_along {P : Match → Prop} {r : Match → Match → Prop}
    (h : Follows rules scope ids P r) (hres : ResolvesAlong rules P r F resolve)
    {player : PlayerId} (hp : player ∈ ids) {costs : List Cost}
    (hattr : ∀ cost ∈ costs, cost.attr ∈ rules.catalog.playerAttributes.map PlayerAttribute.name) :
    Along P r F (payCosts rules resolve player costs) :=
  .forM h.kept fun cost hcost =>
    changePlayerAttribute_along h hres (.inl hp) (.inl (hattr cost hcost)) _

theorem payCosts_walks {player : PlayerId} (hp : player ∈ ids) {costs : List Cost}
    (hattr : ∀ cost ∈ costs, cost.attr ∈ rules.catalog.playerAttributes.map PlayerAttribute.name) :
    Walks rules scope F ids (payCosts rules resolve player costs) :=
  payCosts_along (follows_changes hc) hres hp hattr

end

/-! ## Playing a card -/

section

variable (hc : rules.catalog.Coherent) (hres : Resolves rules scope F ids resolve)

include hc hres

/-- A card that has come into play may be remembered as played, whatever its coming set off. -/
theorem markPlayed_calm {m m' : Match} (hm : m.Fits rules.catalog ids) {player : PlayerId}
    {design : CardDesign} {cardType : CardType} {zone : String} {id : LiveId}
    (typed : rules.catalog.typed? design.id = some (design, cardType))
    (h : (enterZone rules resolve player design.id zone).run m = (.ok id, m')) :
    Calm rules scope m' (m'.markPlayed player design.id id) := by
  refine .markPlayed ?_
  intro hfresh live hlive
  obtain ⟨-, hid, hpath⟩ := enterZone_ok hc hres hm typed h
  have hin : id ∈ (m.bring player design cardType zone).spawner.handed := by
    rw [Match.handed_bring, hid]
    exact List.mem_append_right _ List.mem_cons_self
  obtain ⟨first, hfirst, ⟨hcard, howner⟩, -⟩ := whose_of_changes hpath hin hfresh live hlive
  rw [hid, Match.live?_bring] at hfirst
  cases hfirst
  exact ⟨hcard.symm, howner.symm⟩

theorem putIntoPlay_stays (hallowed : scope.creates = true) {player : PlayerId} (hp : player ∈ ids)
    {design : CardDesign} (hdesign : rules.catalog.card? design.id = some design)
    (hboard : rules.catalog.kind? rules.config.boardZone = some .dynamic ∨
      F (.unknownZone player rules.config.boardZone)) :
    Stays rules scope F ids (putIntoPlay rules resolve player design) := by
  intro m hm
  obtain ⟨cardType, typed⟩ := hc.typed?_of_card? hdesign
  have henter : Walks rules scope F ids
      (enterZone rules resolve player design.id rules.config.boardZone) :=
    enterZone_walks hc hres hallowed (.inl (by rw [hdesign]; rfl)) (hboard.imp_left fun h => ⟨hp, h⟩)
  refine (calm_of_changes (henter m hm)).bind ?_
  intro id m' h
  have hm' := henter.after (kept_fits hc) hm h
  have hmark : Calm rules scope m' (m'.markPlayed player design.id id) :=
    markPlayed_calm hc hres hm typed h
  refine .modify_bind hmark ?_
  exact (raiseOnAll_walks hc hres _).stays _ (hmark.fits hc hm')

/-- The player may play the card now: it is in their hand and they can pay for it. -/
structure Match.Playable (m : Match) (rules : Rulebook) (player : PlayerId) (design : CardDesign) :
    Prop where
  active : m.table.activePlayer? = some player
  known : rules.catalog.card? design.id = some design
  held : ∃ z, m.table.zone? player rules.config.handZone = some z ∧ design.id ∈ z.cards
  affordable : ∃ seat, m.table.player? player = some seat ∧ seat.attributes.canPay design.costs

/-- A card is taken from hand on its way to the board. -/
def Match.draw (m : Match) (rules : Rulebook) (player : PlayerId) (card : CardId) : Match :=
  m.onTable (·.modifyZone player rules.config.handZone (·.removeCard card))

/-- What is left to do for a card that has been taken from hand. -/
def payAndPlay (rules : Rulebook) (resolve : Resolver) (player : PlayerId) (design : CardDesign) :
    Play Outcome := do
  payCosts rules resolve player design.costs
  putIntoPlay rules resolve player design
  modify (·.broadcastState)
  return .applied

omit hc hres in
/-- A call to play a card is rejected and changes nothing, or the card leaves the hand, is paid for
and comes into play. -/
theorem playCard_ways {m : Match} (hm : m.Fits rules.catalog ids) (player : PlayerId)
    (card : CardId) :
    (∃ reason, (playCard rules resolve player card).run m = (.ok (.rejected reason), m)) ∨
      ∃ design, rules.catalog.card? card = some design ∧ m.Playable rules player design ∧
        (playCard rules resolve player card).run m
          = (payAndPlay rules resolve player design).run (m.draw rules player card) := by
  rw [playCard, run_get_bind]
  cases hfree : m.table.refusal? player with
  | some reason => exact .inl ⟨reason, rfl⟩
  | none =>
      dsimp only
      split
      · exact .inl ⟨_, rfl⟩
      · next hheld =>
          simp only [Bool.not_eq_true', Bool.not_eq_false, Option.any_eq_true, List.contains_eq_mem,
            decide_eq_true_eq] at hheld
          obtain ⟨z, hz, hcard⟩ := hheld
          obtain ⟨design, hdesign⟩ := Option.isSome_iff_exists.mp (hm.conforms.table.known hz hcard)
          obtain ⟨-, rfl⟩ := Catalog.card?_some hdesign
          rw [hdesign]
          dsimp only
          split
          · exact .inl ⟨_, rfl⟩
          · next hpay =>
              simp only [Bool.not_eq_true', Bool.not_eq_false, Option.any_eq_true] at hpay
              have hactive := (Table.activePlayer?_of_refusal? hfree).2
              exact .inr ⟨design, rfl, ⟨hactive, hdesign, ⟨z, hz, hcard⟩, hpay⟩, rfl⟩

omit hc hres in
/-- The card that is played is the one its design says. -/
theorem playCard_cases {m : Match} (hm : m.Fits rules.catalog ids) (player : PlayerId)
    (card : CardId) :
    (∃ reason, (playCard rules resolve player card).run m = (.ok (.rejected reason), m)) ∨
      ∃ design, m.Playable rules player design ∧ (playCard rules resolve player card).run m
        = (payAndPlay rules resolve player design).run (m.draw rules player design.id) := by
  refine (playCard_ways hm player card).imp_right ?_
  rintro ⟨design, hdesign, hplay, hrun⟩
  obtain ⟨-, rfl⟩ := Catalog.card?_some hdesign
  exact ⟨design, hplay, hrun⟩

theorem playCard_stays (hallowed : scope.creates = true) (player : PlayerId) (card : CardId)
    (hboard : rules.catalog.kind? rules.config.boardZone = some .dynamic ∨
      F (.unknownZone player rules.config.boardZone)) :
    Stays rules scope F ids (playCard rules resolve player card) := by
  intro m hm
  rcases playCard_cases hm player card with ⟨reason, hrun⟩ | ⟨design, hplay, hrun⟩
  · exact .of_run (y := pure (.rejected reason)) hrun .refl (.pure _)
  · obtain ⟨z, hz, hcard⟩ := hplay.held
    obtain ⟨seat, hseat, hcosts⟩ := hplay.affordable
    have hp := (hm.mem_of_zone? hz).1
    have hdraw : Calm rules scope m (m.draw rules player design.id) := .draw hallowed hz hcard
    refine .of_run hrun (.single hdraw) ?_
    refine Along.bind (kept_fits_calm hc)
      (payCosts_walks hc hres hp (hm.attr_of_canPay hseat hcosts)).stays (fun _ => ?_) _
      (hdraw.fits hc hm)
    refine .bind (kept_fits_calm hc) (putIntoPlay_stays hc hres hallowed hp hplay.known hboard)
      fun _ m _ => ?_
    exact .modify_bind (.change .reveal) (.pure _)

end

/-! ## Answers -/

section

/-- The scope permits what an answer to a question has done to a card. -/
def Scope.Grants (scope : Scope) (c : Catalog) (selection : Selection) (choice : TargetChoice) :
    Prop :=
  ∀ rule, c.rule? selection.effect.definition = some rule → ∀ action cardType card,
    rule.kind = .targetsCard action cardType → choice = .card card → scope.Permits c action card

theorem Scope.Covers.grants {c : Catalog} (h : scope.Covers c) (selection : Selection)
    (choice : TargetChoice) : scope.Grants c selection choice :=
  fun rule hfind action cardType card hkind _ =>
    (h rule (Catalog.rule?_mem hfind)).actions action cardType hkind card

variable (hc : rules.catalog.Coherent) (hres : Resolves rules scope F ids resolve)
  (hcovers : scope.Covers rules.catalog) (htol : Tolerates rules F)

include hc hres

theorem drain_abides (hallowed : scope.answers = true) (count : Nat) :
    Abides rules scope F ids (drain resolve count) := by
  induction count with
  | zero => exact fun m _ => .pure ()
  | succ count ih =>
      intro m hm
      refine .get_bind ?_
      split
      · exact .pure ()
      · next firing session hnext =>
          have hmove : Mild rules scope m { m with session } := .of_table (.next hallowed hnext) rfl
          obtain ⟨-, hqueue, hnone⟩ := Session.next?_eq_some hnext
          have hcarried : rules.catalog.Carries firing.effect :=
            hm.conforms.session.queue firing (hqueue ▸ List.mem_cons_self)
          have hm' := hmove.1.fits hc hm
          refine .modify_bind hmove (.get_bind ?_)
          split
          · have hdo := hres firing hcarried _ ⟨hm', by simp [Session.isIdle, hnone]⟩
            exact (mild_of_changes hdo).bind fun _ m'' h => ih m'' (hdo.after (kept_fits hc) hm' h)
          · exact ih _ hm'

theorem drain_stays (hallowed : scope.answers = true) (count : Nat) :
    Stays rules scope F ids (drain resolve count) :=
  (drain_abides hc hres hallowed count).stays

include htol

theorem resolveChosen_walks {selection : Selection}
    (hcarried : rules.catalog.Carries selection.effect) {choice : TargetChoice}
    (hchoice : ∀ player, choice = .player player → player ∈ ids)
    (hgrants : scope.Grants rules.catalog selection choice) :
    Walks rules scope F ids (resolveChosen rules resolve selection choice) := by
  obtain ⟨rule, hfind, -⟩ := hc.rule?_of_carries hcarried
  have hrule := Catalog.rule?_mem hfind
  have hfinish := finishEffect_walks hc hres selection.source
  intro m hm
  have hroll : Change rules scope m _ := m.change_roll selection.effect
  rw [resolveChosen, hfind]
  refine .modifyGet_bind hroll ?_
  have hm' := hroll.fits hc hm
  split
  · next action player hkind =>
      exact Along.bind (kept_fits hc) (applyPlayerAction_walks hc hres htol hrule hkind _
        (hchoice player rfl)) (fun _ => hfinish) _ hm'
  · next action cardType card hkind =>
      exact Along.bind (kept_fits hc) (applyCardAction_walks hc hres htol hrule hkind _
        (hgrants rule hfind action cardType card hkind rfl)) (fun _ => hfinish) _ hm'
  · exact hfinish _ hm'

omit hc hres htol in
/-- A player who may be named is seated. -/
theorem Match.Fits.mem_of_admits {m : Match} (hm : m.Fits rules.catalog ids) {selection : Selection}
    {choice : TargetChoice} (hadmits : selection.admits rules m.table choice = true) :
    ∀ id, choice = .player id → id ∈ ids := by
  rintro id rfl
  simp only [Selection.admits, Bool.and_eq_true, Selection.admitsPlayer,
    Option.any_eq_true] at hadmits
  obtain ⟨-, seat, hseat, -⟩ := hadmits
  exact (hm.mem_of_player? hseat).1

/-- What answers a question is done in mild steps, if what the answer has done is permitted. -/
theorem selectTarget_mild (hallowed : scope.answers = true) {m : Match}
    (hm : m.Fits rules.catalog ids) {player : PlayerId} {choice : TargetChoice}
    (hgrants : ∀ selection, m.session.pending = some selection → selection.chooser = player →
      selection.admits rules m.table choice = true →
        scope.Grants rules.catalog selection choice) :
    Leads (Mild rules scope) F (selectTarget rules resolve player choice) m := by
  refine .get_bind ?_
  split
  · exact .pure _
  · next selection hpending =>
      split
      · exact .pure _
      · next hchooser =>
          split
          · exact .modify_bind (.repeatQuestion player selection) (.pure _)
          · next hrefused =>
              have hadmits : selection.admits rules m.table choice = true := by
                simpa using hrefused
              have hcarried := hm.conforms.session.pending selection hpending
              have hmove : Mild rules scope m { m with session.pending := none } :=
                .of_table (.answer hallowed) rfl
              refine .modify_bind hmove ?_
              refine Along.bind (kept_fits_mild hc)
                (resolveChosen_walks hc hres htol hcarried (hm.mem_of_admits hadmits)
                  (hgrants selection hpending (not_not.mp hchooser) hadmits)).abides
                (fun _ => ?_) _ (hmove.1.fits hc hm)
              refine .bind (kept_fits_mild hc)
                (fun m hm => .get_bind (drain_abides hc hres hallowed _ m hm)) fun _ _ _ => .pure _

/-- What answers a question is done within the turn, if what the answer has done is permitted. -/
theorem selectTarget_leads (hallowed : scope.answers = true) {m : Match}
    (hm : m.Fits rules.catalog ids) {player : PlayerId} {choice : TargetChoice}
    (hgrants : ∀ selection, m.session.pending = some selection → selection.chooser = player →
      selection.admits rules m.table choice = true →
        scope.Grants rules.catalog selection choice) :
    Leads (Calm rules scope) F (selectTarget rules resolve player choice) m :=
  (selectTarget_mild hc hres htol hallowed hm hgrants).mono (fun _ _ => And.left) fun _ => id

include hcovers in
theorem selectTarget_stays (hallowed : scope.answers = true) (player : PlayerId)
    (choice : TargetChoice) :
    Stays rules scope F ids (selectTarget rules resolve player choice) :=
  fun _ hm => selectTarget_leads hc hres htol hallowed hm fun selection _ _ _ =>
    hcovers.grants selection choice

/-! ## What is asked of a match -/

omit htol in
theorem attackCard_leads {m : Match} (hm : m.Fits rules.catalog ids) {card : LiveId}
    (hcard : (m.table.live? card).isSome ∨ F (.unknownLiveCard card)) :
    Leads (Change rules scope) F (attackCard rules resolve card) m := by
  refine .get_bind ?_
  split
  · next hnone => exact .throw (hcard.resolve_left (by simpa using hnone))
  · exact (raise_walks hc hres _ card m hm).bind fun _ _ _ => .modify .reveal

omit hc hres htol in
/-- The scope covers what the operation itself may do beyond the rules of the game. -/
def Operation.Within (scope : Scope) : Operation → Prop
  | .playCard _ _ => scope.creates = true
  | .selectTarget _ _ => scope.answers = true
  | .start _ | .endTurn _ | .tick _ | .stopTurn _ _ | .discardCards _ _ _ => scope.turns = true
  | .intent _ (.playCard _) _ => scope.creates = true
  | .intent _ (.selectTarget _) _ => scope.answers = true
  | .intent _ .stopTurn _ | .intent _ (.discardCards _) _ => scope.turns = true
  | .transform card _ => scope.transforms card = true ∧ scope.fades = true
  | _ => True

omit hc hres htol in
theorem Operation.within_all (op : Operation) : op.Within .all := by
  unfold Within
  split <;> first | rfl | trivial

include hcovers in
/-- **What a client asks for is done in steps, and fails with tolerated faults only.** -/
theorem handleIntent_leads {m : Match} (hm : m.Fits rules.catalog ids)
    (hdebt : m.debt.isSome → (∃ player, m.table.activePlayer? = some player) ∨ F .gameNotRunning)
    (player : PlayerId) {intent : Intent} {now : Nat}
    (hwithin : (Operation.intent player intent now).Within scope) :
    Leads (Step rules scope) F (handleIntent rules resolve player intent now) m := by
  cases intent with
  | register name deck => exact .pure _
  | playCard card =>
      exact (playCard_stays hc hres hwithin player card
        (htol.board.imp_right fun h => h player)).plays m hm
  | stopTurn =>
      rcases stopTurn_cases hc hres hwithin hm player now with
        ⟨m', hpasses, hrun⟩ | ⟨outcome, m', -, hpath, hrun⟩
      · exact .of_run (y := pure _) hrun hpasses.steps (.pure _)
      · exact .of_run (y := pure _) hrun (steps_of_calm hpath) (.pure _)
  | moveCards origin destination count =>
      exact (requestMove_stays hc hres player origin destination _).plays m hm
  | selectTarget choice =>
      exact (selectTarget_stays hc hres hcovers htol hwithin player choice).plays m hm
  | discardCards cards =>
      rcases discardCards_cases hc hres hwithin hm player cards now with
        ⟨m₁, m', hpath, -, hpasses, hrun⟩ | ⟨outcome, m', -, hpath, hrun⟩ |
        ⟨m', howed, hnone, hpath, hrun⟩
      · exact .of_run (y := pure _) hrun ((steps_of_calm hpath).trans hpasses.steps) (.pure _)
      · exact .of_run (y := pure _) hrun (steps_of_calm hpath) (.pure _)
      · refine .of_run (y := throw _) hrun (steps_of_calm hpath) (.throw ?_)
        exact (hdebt howed).resolve_left (by simp [hnone])

end

end CardArena
