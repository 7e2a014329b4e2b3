import Mathlib
import CardArena.Proofs.Conservation
import CardArena.Proofs.Dawn

/-!
# Who remembers a play

Only the active player plays cards, and at the end of a turn every memory of a play is wiped out before
the next player becomes active.  So nobody but the active player remembers a play (`Match.Mindful`), and
an operation that ends a turn leaves nobody who does (`Match.Unplayed`), since nobody plays a card while
the next turn starts.

What is mild makes no memories, so the only operation that has to be looked into is to play a card.  It
goes through two halves, with the moment in between when the player comes to remember the card
(`payAndPlay_run`): the card is paid for and comes into play (`summon`), and everybody hears that it has
been played (`proclaim`).

* `perform_minds` : every operation leaves a match mindful, and if it ends a turn nobody remembers a
  play.
* `Reachable.mindful` : every reachable match is mindful.
-/

namespace CardArena

open Play
open Relation (ReflTransGen)

variable {rules : Rulebook} {scope : Scope} {F : Fault → Prop} {ids : List PlayerId}
  {resolve : Resolver} {m m' : Match} {op : Operation}

/-! ## Memories of the active player -/

namespace Match

/-- Nobody remembers a play. -/
def Unplayed (m : Match) : Prop :=
  ∀ player, m.table.lastPlayed? player = none

/-- Nobody but the active player remembers a play, and nobody at all before the match starts. -/
structure Mindful (m : Match) : Prop where
  unstarted : m.table.turn.status = .notStarted → m.Unplayed
  active : ∀ active, m.table.activePlayer? = some active →
    ∀ player, player ≠ active → m.table.lastPlayed? player = none

theorem Unplayed.mindful (h : m.Unplayed) : m.Mindful :=
  ⟨fun _ => h, fun _ _ player _ => h player⟩

theorem Unplayed.of_recalls (h : m.Unplayed) (hrecalls : m.Recalls m') : m'.Unplayed :=
  fun player => (hrecalls.eq_none_iff player).mpr (h player)

namespace Mindful

/-- What leaves the seats and the turn alone and makes no memories leaves a match mindful. -/
theorem of_recalls (h : m.Mindful) (hrecalls : m.Recalls m')
    (hids : m'.table.playerIds = m.table.playerIds) (hturn : m'.table.turn = m.table.turn) :
    m'.Mindful := by
  refine ⟨fun hnew => ?_, fun active hactive player hne => ?_⟩
  · rw [hturn] at hnew
    exact (h.unstarted hnew).of_recalls hrecalls
  · rw [Table.activePlayer?_congr hids hturn] at hactive
    exact (hrecalls.eq_none_iff player).mpr (h.active active hactive player hne)

theorem of_table (h : m.Mindful) (htable : m'.table = m.table) : m'.Mindful :=
  h.of_recalls (.of_memory fun _ => by rw [htable]) (by rw [htable]) (by rw [htable])

theorem of_mild (h : m.Mindful) (path : ReflTransGen (Mild rules scope) m m') : m'.Mindful :=
  have hsteady := steady_of_calm (calm_of_mild path)
  h.of_recalls (recalls_of_mild path) hsteady.playerIds hsteady.turn

/-- The active player may come to remember a card. -/
theorem markPlayed (h : m.Mindful) {player : PlayerId}
    (hactive : m.table.activePlayer? = some player) (hseated : (m.table.player? player).isSome)
    (design : CardId) (id : LiveId) : (m.markPlayed player design id).Mindful := by
  have hrunning : m.table.turn.status = .running :=
    of_decide_eq_true (Table.isRunning_of_activePlayer? hactive)
  have hids : (m.markPlayed player design id).table.playerIds = m.table.playerIds :=
    Table.playerIds_modifyPlayer player fun _ => rfl
  have hsame : (m.markPlayed player design id).table.activePlayer? = some player :=
    (Table.activePlayer?_congr hids rfl).trans hactive
  refine ⟨fun hnew => ?_, fun active hact other hne => ?_⟩
  · exact nomatch hrunning.symm.trans hnew
  · obtain rfl : player = active := Option.some.inj (hsame.symm.trans hact)
    exact (Table.lastPlayed?_mark hseated _ other).trans
      ((if_neg hne).trans (h.active player hactive other hne))

theorem finish (m : Match) (winner : Option PlayerId) : (m.finish winner).Mindful :=
  ⟨nofun, nofun⟩

/-- Whoever takes a seat remembers nothing. -/
theorem seat (h : m.Mindful) {deck : List CardId} (hopen : m.Open rules deck) (name : String)
    (connection : ConnectionId) : (m.seat rules name connection deck).Mindful := by
  refine Unplayed.mindful fun player => ?_
  have hold : (m.table.players.find? (·.id = player)).bind Player.lastPlayed = none :=
    h.unstarted hopen.notStarted player
  show ((m.table.players ++ [m.nextPlayer rules name connection deck]).find? _).bind _ = none
  rw [List.find?_append, Option.bind_eq_none_iff]
  intro seat hseat
  rcases Option.or_eq_some_iff.mp hseat with hfound | ⟨-, hnew⟩
  · rw [hfound] at hold
    exact hold
  · obtain rfl := List.mem_singleton.mp (List.mem_of_find?_eq_some hnew)
    rfl

end Mindful

/-- The end of a turn wipes out every memory. -/
theorem unplayed_closeTurn (m : Match) (rules : Rulebook) (active : PlayerId) :
    (m.closeTurn rules active).Unplayed := by
  intro player
  show (((m.destroyAfterEffect rules).table.players.map fun seat =>
    { seat with lastPlayed := none }).find? _).bind _ = none
  rw [List.find?_map]
  exact Option.bind_eq_none_iff.mpr fun seat hseat => by
    obtain ⟨old, -, rfl⟩ := Option.map_eq_some_iff.mp hseat
    rfl

end Match

/-! ## Turns that start and end -/

section

variable (hc : rules.catalog.Coherent) (hm : m.Fits rules.catalog ids)

include hc

theorem ceremony_abides (actions : List ScheduledAction) (phase : TurnPhase) (active : PlayerId) :
    Abides rules .all F ids (ceremony rules actions phase active) :=
  .bind (kept_fits_mild hc) (runAllScheduled_abides hc (resolver_resolves_all hc) actions)
    fun _ => attempt_raiseOnAll_abides hc (resolver_resolves_all hc) _

include hm

theorem Match.heralded_recalls : m.Recalls (m.heralded rules) := by
  unfold heralded
  split
  · exact .refl m
  · next active _ =>
      have hpath := (ceremony_abides (F := fun _ => True) hc rules.catalog.turnStartActions
        .turnStart active _ hm.settled).path
      have hrecalls : m.settled.Recalls _ := recalls_of_mild hpath
      exact hrecalls

theorem Match.countedAll_recalls (cards : List LiveId) : m.Recalls (m.countedAll rules cards) := by
  have hcount : Abides rules .all (fun _ => True) ids
      (cards.forM (countTurn rules rules.resolver)) :=
    .forM (kept_fits_mild hc) fun card _ => countTurn_abides hc (resolver_resolves_all hc) rfl card
  have hpath := (hcount m hm).path
  rw [countAll_run] at hpath
  exact recalls_of_mild hpath

/-- Nobody plays a card while a turn starts. -/
theorem startTurn_recalls {active : PlayerId} (hactive : m.table.activePlayer? = some active)
    (now : Nat) : m.Recalls ((startTurn rules rules.resolver now).run m).2 := by
  have hsteps : ReflTransGen (Step rules .untimed) m (m.heralded rules) := m.heralded_steps hc hm
  have hcounted := Match.countedAll_recalls hc ((kept_fits_step hc).chain hsteps hm)
    (m.heralded rules).table.liveInOrder
  rw [startTurn_dawn hc hm hactive now]
  exact (m.heralded_recalls hc hm).trans hcounted

/-- **When a turn has ended and the next one has started, nobody remembers a play.** -/
theorem endTurn_unplayed {active : PlayerId} (hactive : m.table.activePlayer? = some active)
    (now : Nat) : ((endTurn rules rules.resolver now).run m).2.Unplayed := by
  have hwaned := (kept_fits_step hc).chain (m.waned_steps hc hm active) hm
  obtain ⟨next, hnext⟩ := m.waned_active hc hm hactive
  rw [endTurn_dusk hc hm hactive now]
  exact (Match.unplayed_closeTurn _ rules active).of_recalls (startTurn_recalls hc hwaned hnext now)

/-- Nobody plays a card before the first turn has started. -/
theorem begins_unplayed (hmind : m.Mindful) (hnew : m.table.turn.status = .notStarted)
    (hseated : m.table.players ≠ []) (now : Nat) :
    ((startGame rules rules.resolver now).run m).2.Unplayed := by
  have hbegun := (kept_fits_step hc).chain (m.begun_steps hc hm hnew hseated) hm
  obtain ⟨first, hfirst⟩ := m.begun_active hc hm hseated
  have habides : Abides rules .all (fun _ => True) ids
      (runAllScheduled rules rules.resolver rules.catalog.gameStartActions) :=
    runAllScheduled_abides hc (resolver_resolves_all hc) _
  have hoverture : m.begin.Recalls (m.overture rules) :=
    recalls_of_mild (habides m.begin hm.begin).path
  have hnone : (m.begun rules).Unplayed :=
    Match.Unplayed.of_recalls (m := m.begin) (hmind.unstarted hnew) hoverture
  rw [startGame_dawn hc hm hnew hseated now]
  exact hnone.of_recalls (startTurn_recalls hc hbegun hfirst now)

end

/-! ## Playing a card -/

/-- A card is paid for and comes into play. -/
def summon (rules : Rulebook) (resolve : Resolver) (player : PlayerId) (design : CardDesign) :
    Play LiveId := do
  payCosts rules resolve player design.costs
  enterZone rules resolve player design.id rules.config.boardZone

/-- Everybody hears that a card has been played. -/
def proclaim (rules : Rulebook) (resolve : Resolver) (player : PlayerId) (design : CardDesign) :
    Play Outcome := do
  raiseOnAll rules resolve (.playerPlayedCard player design.id design.cardType)
  modify (·.broadcastState)
  return .applied

/-- A card that has been taken from hand comes into play, then its player remembers it, then everybody
hears of it. -/
theorem payAndPlay_run (player : PlayerId) (design : CardDesign) (m : Match) :
    (payAndPlay rules resolve player design).run m =
      match (summon rules resolve player design).run m with
      | (.ok id, m') =>
        (proclaim rules resolve player design).run (m'.markPlayed player design.id id)
      | (.error fault, m') => (.error fault, m') := by
  have hsplit : payAndPlay rules resolve player design
      = summon rules resolve player design >>= fun id =>
          modify (·.markPlayed player design.id id) >>= fun _ =>
            proclaim rules resolve player design := by
    simp only [payAndPlay, putIntoPlay, summon, proclaim, bind_assoc]
    rfl
  rw [hsplit, run_bind]
  split <;> next h => rw [h] <;> rfl

section

variable (hc : rules.catalog.Coherent)

include hc

/-- A player who may play a card pays for it and brings it into play, and makes changes and no more. -/
theorem summon_walks (hm : m.Fits rules.catalog ids) {player : PlayerId} {design : CardDesign}
    (hplay : m.Playable rules player design) :
    Walks rules .all (fun _ => True) ids (summon rules rules.resolver player design) := by
  obtain ⟨z, hz, -⟩ := hplay.held
  obtain ⟨seat, hseat, hcosts⟩ := hplay.affordable
  exact .bind (kept_fits hc)
    (payCosts_walks hc (resolver_resolves_all hc) (hm.mem_of_zone? hz).1
      (hm.attr_of_canPay hseat hcosts))
    fun _ => enterZone_walks hc (resolver_resolves_all hc) rfl (.inr trivial) (.inr trivial)

theorem proclaim_walks (player : PlayerId) (design : CardDesign) :
    Walks rules .all (fun _ => True) ids (proclaim rules rules.resolver player design) :=
  .bind (kept_fits hc) (raiseOnAll_walks hc (resolver_resolves_all hc) _) fun _ _ _ =>
    .modify_bind .reveal (.pure _)

/-- What holds once a card that a player may play has come into play. -/
structure Match.Summons (m : Match) (rules : Rulebook) (player : PlayerId) (design : CardDesign)
    (cardType : CardType) (id : LiveId) (m' : Match) : Prop where
  typed : rules.catalog.typed? design.id = some (design, cardType)
  mild : ReflTransGen (Mild rules .all) m m'
  marks : Calm rules .all m' (m'.markPlayed player design.id id)
  brought : ∃ m₁ : Match, id = (m₁.spawner.spawn design.id player).1 ∧
    ReflTransGen (Change rules .all) (m₁.bring player design cardType rules.config.boardZone) m'

omit hc in
theorem Match.Playable.draw {player : PlayerId} {design : CardDesign}
    (h : m.Playable rules player design) : Mild rules .all m (m.draw rules player design.id) := by
  obtain ⟨z, hz, hheld⟩ := h.held
  exact .draw rfl hz hheld

theorem Match.Playable.summons (hm : m.Fits rules.catalog ids) {player : PlayerId}
    {design : CardDesign} (h : m.Playable rules player design) {id : LiveId}
    (hrun : (summon rules rules.resolver player design).run (m.draw rules player design.id)
      = (.ok id, m')) :
    ∃ cardType, m.Summons rules player design cardType id m' := by
  have hres : Resolves rules .all (fun _ => True) ids rules.resolver := resolver_resolves_all hc
  obtain ⟨cardType, typed⟩ := hc.typed?_of_card? h.known
  obtain ⟨z, hz, -⟩ := h.held
  obtain ⟨seat, hseat, hcosts⟩ := h.affordable
  have hdrawn := h.draw.1.fits hc hm
  obtain ⟨_, m₁, hpaid, henters⟩ := run_bind_eq_ok hrun
  have hm₁ : m₁.Fits rules.catalog ids :=
    (payCosts_walks hc hres (hm.mem_of_zone? hz).1 (hm.attr_of_canPay hseat hcosts)).after
      (kept_fits hc) hdrawn hpaid
  have hpath := (mild_of_changes (summon_walks hc hm h _ hdrawn)).path
  rw [hrun] at hpath
  obtain ⟨-, hid, hbrought⟩ := enterZone_ok hc hres hm₁ typed henters
  exact ⟨cardType, typed, hpath.head h.draw, markPlayed_calm hc hres hm₁ typed henters,
    m₁, hid, hbrought⟩

/-- Whoever plays a card is active, and so the match stays mindful. -/
theorem playCard_mindful (hm : m.Fits rules.catalog ids) (hmind : m.Mindful) (player : PlayerId)
    (card : CardId) : ((playCard rules rules.resolver player card).run m).2.Mindful := by
  rcases playCard_cases hm player card with ⟨reason, hrun⟩ | ⟨design, hplay, hrun⟩
  · rw [hrun]
    exact hmind
  · rw [hrun, payAndPlay_run]
    rcases hsummon : (summon rules rules.resolver player design).run
      (m.draw rules player design.id) with ⟨fault | id, m₂⟩
    · have hpath := (mild_of_changes (summon_walks hc hm hplay _ (hplay.draw.1.fits hc hm))).path
      rw [hsummon] at hpath
      exact hmind.of_mild (hpath.head hplay.draw)
    · obtain ⟨cardType, hsummons⟩ := hplay.summons hc hm hsummon
      have hm₂ := (kept_fits_mild hc).chain hsummons.mild hm
      have hactive : m₂.table.activePlayer? = some player :=
        (Table.activePlayer?_congr (hm₂.seats.trans hm.seats.symm)
          (steady_of_calm (calm_of_mild hsummons.mild)).turn).trans hplay.active
      obtain ⟨seat, hseat, -⟩ := hplay.affordable
      obtain ⟨seat₂, hseat₂, -⟩ := hm₂.player? (hm.mem_of_player? hseat).1
      have hmarked := (hmind.of_mild hsummons.mild).markPlayed hactive (by rw [hseat₂]; rfl)
        design.id id
      have hproclaim := mild_of_changes
        (proclaim_walks hc player design _ (hsummons.marks.fits hc hm₂))
      exact hmarked.of_mild hproclaim.path

end

/-! ## Operations -/

/-- The operation leaves the match mindful, and if it ends a turn nobody remembers a play. -/
structure Match.Minds (m : Match) (rules : Rulebook) (op : Operation) : Prop where
  mindful : (m.perform rules op).2.Mindful
  unplayed : op.turnEnds (m.perform rules op).1 = 1 → (m.perform rules op).2.Unplayed

namespace Match.Minds

theorem of_unplayed (h : (m.perform rules op).2.Unplayed) : m.Minds rules op :=
  ⟨h.mindful, fun _ => h⟩

theorem of_quiet (h : (m.perform rules op).2.Mindful)
    (hquiet : op.turnEnds (m.perform rules op).1 = 0) : m.Minds rules op :=
  ⟨h, fun hends => nomatch hquiet.symm.trans hends⟩

end Match.Minds

section

variable (hc : rules.catalog.Coherent)

include hc

theorem minds_of_stops (hm : m.Conforms rules.catalog) (hmind : m.Mindful) {player : PlayerId}
    (hstops : op.stops? = some player) : m.Minds rules op := by
  obtain ⟨-, hends, -, now, hperform⟩ := perform_of_stops rules hstops
  have hrun := hperform m
  rcases stopTurn_ways rules m player now with
    ⟨reason, hstop⟩ | ⟨-, -, -, hstop⟩ | ⟨hactive, hstop⟩ <;> rw [run_map, hstop] at hrun
  · exact .of_quiet (by rw [hrun]; exact hmind) (by rw [hrun, hends]; rfl)
  · refine .of_quiet ?_ (by rw [hrun, hends]; rfl)
    rw [hrun, Match.tell_eq_post]
    exact hmind.of_table rfl
  · refine .of_unplayed ?_
    rw [hrun, run_bind_pure]
    exact endTurn_unplayed hc ⟨hm, rfl⟩ hactive now

/-- Whoever owes a discard is active. -/
theorem minds_of_discards (h : Reachable rules m) (hmind : m.Mindful) {player : PlayerId}
    {cards : List CardId} (hdiscards : op.discards? = some (player, cards)) : m.Minds rules op := by
  obtain ⟨-, hends, now, hperform⟩ := perform_of_discards rules hdiscards
  have hrun := hperform m
  rcases discardCards_ways rules m player cards now with
    ⟨-, hstay⟩ | ⟨debt, -, -, -, hstay⟩ | ⟨debt, howed, -, -, -, hend⟩
  · rw [run_map, hstay] at hrun
    exact .of_quiet (by rw [hrun]; exact hmind) (by rw [hrun, hends]; rfl)
  · rw [run_map, hstay] at hrun
    refine .of_quiet ?_ (by rw [hrun, hends]; rfl)
    rw [hrun, Match.tell_eq_post]
    exact hmind.of_table rfl
  · rw [run_map, hend] at hrun
    have hpaid : ReflTransGen (Calm rules .all) m
        { m.discardAll rules player cards with debt := none } :=
      (Match.discardAll_calm player cards m).tail .settle
    have hfits := (kept_fits_calm hc).chain hpaid ⟨h.conforms hc, rfl⟩
    have hactive := (Table.activePlayer?_congr hfits.seats (steady_of_calm hpaid).turn).trans
      ((h.attentive hc).expectant.debt debt howed).1
    refine .of_unplayed ?_
    rw [hrun, run_bind_pure]
    exact endTurn_unplayed hc hfits hactive now

/-- **Every operation leaves the match mindful, and if it ends a turn nobody remembers a play.** -/
theorem perform_minds (h : Reachable rules m) (hmind : m.Mindful) (op : Operation) :
    m.Minds rules op := by
  have hm : m.Fits rules.catalog m.table.playerIds := ⟨h.conforms hc, rfl⟩
  have hres : Resolves rules .all (fun _ => True) m.table.playerIds rules.resolver :=
    resolver_resolves_all hc
  have hmap {α : Type} {step : Play α} (hstep : Leads (Mild rules .all) (fun _ => True) step m)
      (answer : α → Answer) : ((answer <$> step).run m).2.Mindful :=
    hmind.of_mild (hstep.map answer).path
  have hdone {step : Play Unit} (hstep : Leads (Change rules .all) (fun _ => True) step m) :
      ((thenDone step).run m).2.Mindful :=
    hmind.of_mild (mild_of_changes hstep.thenDone).path
  have hanswer (player : PlayerId) (choice : TargetChoice) :
      Leads (Mild rules .all) (fun _ => True) (selectTarget rules rules.resolver player choice) m :=
    selectTarget_mild hc hres (tolerates_all rules) rfl hm fun selection _ _ _ =>
      (Scope.all_covers _).grants selection choice
  cases op with
  | register name connection deck =>
      refine .of_quiet ?_ rfl
      have hregister : (Operation.register name connection deck).isRegister = true := rfl
      rcases register_cases rules m hregister with
        heq | ⟨other, line, cards, hopen, heq⟩ <;> rw [heq]
      · exact hmind
      · exact hmind.seat hopen other line
  | start now =>
      have hperform : (m.perform rules (.start now)).2
          = ((startGame rules rules.resolver now).run m).2 := by
        rw [Match.perform, performWith, thenDone, run_bind_pure]
      rcases startGame_cases hc hres rfl hm now with ⟨_, ⟨hseated, hnew, -, -⟩, -⟩ | hrun | hrun
      · exact .of_unplayed (hperform ▸ begins_unplayed hc hm hmind hnew hseated now)
      · exact .of_quiet (by rw [hperform, hrun]; exact hmind) rfl
      · exact .of_quiet (by rw [hperform, hrun]; exact hmind) rfl
  | endTurn now =>
      cases hactive : m.table.activePlayer? with
      | some active =>
          refine .of_unplayed ?_
          rw [Match.perform, performWith, thenDone, run_bind_pure]
          exact endTurn_unplayed hc hm hactive now
      | none =>
          have hrun : m.perform rules (.endTurn now) = (.error .gameNotRunning, m) :=
            run_bind_error (endTurn_refused hactive now) _
          exact .of_quiet (by rw [hrun]; exact hmind) (by rw [hrun]; rfl)
  | tick now =>
      have hrun : m.perform rules (.tick now)
        = (Answer.flag <$> tick rules rules.resolver now).run m := rfl
      rcases tick_ways rules m now with hstay | hend
      · rw [run_map, hstay] at hrun
        exact .of_quiet (by rw [hrun]; exact hmind) (by rw [hrun]; rfl)
      · cases hactive : m.table.activePlayer? with
        | some active =>
            refine .of_unplayed ?_
            rw [hrun, run_map, hend, run_bind_pure]
            exact endTurn_unplayed hc hm hactive now
        | none =>
            rw [run_map, hend, run_bind_error (endTurn_refused hactive now)] at hrun
            exact .of_quiet (by rw [hrun]; exact hmind) (by rw [hrun]; rfl)
  | stopTurn player now => exact minds_of_stops hc hm.conforms hmind rfl
  | discardCards player cards now => exact minds_of_discards hc h hmind rfl
  | requestMove player origin destination count =>
      exact .of_quiet (hmap (requestMove_abides hc hres player origin destination count m hm) _) rfl
  | playCard player card =>
      refine .of_quiet ?_ rfl
      rw [Match.perform, performWith, run_map]
      exact playCard_mindful hc hm hmind player card
  | selectTarget player choice => exact .of_quiet (hmap (hanswer player choice) _) rfl
  | intent player intent now =>
      cases intent with
      | register name deck => exact .of_quiet hmind rfl
      | playCard card =>
          refine .of_quiet ?_ rfl
          rw [Match.perform, performWith, run_map]
          exact playCard_mindful hc hm hmind player card
      | stopTurn => exact minds_of_stops hc hm.conforms hmind rfl
      | moveCards origin destination count =>
          exact .of_quiet (hmap (requestMove_abides hc hres player origin destination _ m hm) _) rfl
      | selectTarget choice => exact .of_quiet (hmap (hanswer player choice) _) rfl
      | discardCards cards => exact minds_of_discards hc h hmind rfl
  | endGame winner =>
      refine .of_quiet ?_ rfl
      rw [Match.perform, performWith, thenDone, run_bind_pure, endGame, run_get_bind]
      split
      · exact Match.Mindful.of_table (.finish m winner) rfl
      · exact hmind
  | disconnect player =>
      refine .of_quiet (hmind.of_recalls (.of_memory ?_) ?_ rfl) rfl
      · exact Table.lastPlayed?_modifyPlayer player (fun _ => rfl) fun _ => rfl
      · exact Table.playerIds_modifyPlayer player fun _ => rfl
  | moveCards player origin destination count =>
      exact .of_quiet (hmap (mild_of_changes (moveCards_walks hc hres (.inr trivial) (.inr trivial)
        (.inr trivial) count m hm)) _) rfl
  | kill card => exact .of_quiet (hdone (kill_walks hc hres card m hm)) rfl
  | transform card into =>
      exact .of_quiet (hmap (mild_of_changes
        (transform_walks hc hres rfl (.inl rfl) (.inr trivial) m hm)) _) rfl
  | attack card => exact .of_quiet (hdone (attackCard_leads hc hres hm (.inr trivial))) rfl
  | setPlayerAttribute player attr value =>
      exact .of_quiet (hdone
        (setPlayerAttribute_walks hc hres (.inr trivial) (.inr trivial) value m hm)) rfl
  | setCardAttribute card attr value =>
      exact .of_quiet (hdone
        (setCardAttribute_leads hc hres hm (.inr trivial) (.inr trivial) value)) rfl

/-- **Nobody but the active player remembers a play.** -/
theorem Reachable.mindful (h : Reachable rules m) : m.Mindful := by
  induction h with
  | opening handle dice => exact Match.Unplayed.mindful fun _ => rfl
  | perform op h ih => exact (perform_minds hc h ih op).mindful

end

end CardArena
