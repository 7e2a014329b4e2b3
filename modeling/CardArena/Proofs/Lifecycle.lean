import Mathlib
import CardArena.Proofs.Letters
import CardArena.Proofs.Waiting

/-!
# How far a match has come

A match has not started, is under way, or is over, in this order, and it may be over before it has
started.  Players take their seats before it starts.  That it starts and that it is over is told once
each, and when it is over nothing else is told of its course and nobody is asked for anything, though it
can still be used: cards move and die, and what that sets off is done.

Most operations stay callable at any time.  While a match stands still (`Match.Still`), whoever asks for
something is turned away, and so is the clock; what is left are cascades.  A match that is over stands
still, and a cascade keeps it so.

* `perform_ended` : in a match that is over, an operation does what a cascade does, or lets a player go.
* `Reachable.proceeds` : an operation goes on as before, starts the match, or ends it.
* `match_runs_its_course` : the law for every run.
-/

namespace CardArena

open Play
open Match (Posts)
open Relation (ReflTransGen)

variable {rules : Rulebook} {scope : Scope} {resolve : Resolver} {now : Nat} {m m' : Match}

/-! ## Start and end are told -/

namespace Message

/-- The message says that the match starts. -/
def isOpening : Message → Bool
  | .gameStarted _ => true
  | _ => false

/-- The message says that the match is over. -/
def isClosing : Message → Bool
  | .gameEnded _ => true
  | _ => false

/-- The message says how the match goes on, or asks a player to go on. -/
def isSolemn : Message → Bool
  | .playerRegistered .. => true
  | .gameStarted _ => true
  | .turnStarted .. => true
  | .turnEnded .. => true
  | .selectTarget .. => true
  | .selectDiscard _ => true
  | .gameEnded _ => true
  | _ => false

theorem isSolemn_of_isNews {message : Message} (h : message.isNews = true) :
    message.isSolemn = false := by
  cases message <;> first | rfl | cases h

/-- Neither news nor a question says that the match starts or is over. -/
theorem midway_of_calm {message : Message}
    (h : message.isNews = true ∨ message.isQuestion = true) :
    message.isOpening = false ∧ message.isClosing = false := by
  cases message <;> first | exact ⟨rfl, rfl⟩ | simp [isNews, isQuestion] at h

end Message

/-- What is sent when everybody at the table who can be reached is told something, each in words of
their own. -/
def Table.announcement (t : Table) (words : Player → Message) : List (ConnectionId × Message) :=
  t.connected.map fun seat => (seat.connection, words seat)

namespace Match

theorem letters_announcement {kind : Message → Bool} {words : Player → Message}
    (hkind : ∀ seat, kind (words seat) = true) (m : Match) :
    (m.post (m.table.announcement words)).letters kind
      = m.letters kind ++ m.table.announcement words := by
  have hall : (m.table.announcement words).filter (kind ·.2) = m.table.announcement words := by
    refine List.filter_eq_self.mpr fun letter hletter => ?_
    obtain ⟨seat, -, rfl⟩ := List.mem_map.mp hletter
    exact hkind seat
  rw [letters, toList_post, List.filter_append, hall]
  rfl

/-- Nobody is told in between that the match starts or is over. -/
abbrev Midway (m m' : Match) : Prop :=
  m.Posts (fun message => message.isOpening = false ∧ message.isClosing = false) m'

theorem Midway.openings (h : m.Midway m') :
    m'.letters Message.isOpening = m.letters Message.isOpening :=
  Posts.letters h fun _ => And.left

theorem Midway.closings (h : m.Midway m') :
    m'.letters Message.isClosing = m.letters Message.isClosing :=
  Posts.letters h fun _ => And.right

theorem midway_destroyAll (m : Match) (graveyard : Option String) (cards : List LiveId) :
    m.Midway (m.destroyAll graveyard cards) := by
  refine destroyAll_induction (P := m.Midway) (fun m' card h => ?_) cards (.refl m)
  cases hlive : m'.table.live? card with
  | none =>
      rw [destroy_of_none hlive]
      exact h.trans (.of_eq rfl)
  | some live =>
      rw [destroy_eq hlive]
      refine Posts.broadcast ?_ ⟨rfl, rfl⟩
      exact h.trans (.of_eq rfl)

theorem midway_destroyDue (m : Match) : m.Midway (m.destroyDue rules) := by
  have htaken : m.Midway { m with destructions := m.destructions.countDown.2 } := .of_eq rfl
  exact htaken.trans (midway_destroyAll _ _ _)

theorem midway_closeTurn (m : Match) (active : PlayerId) : m.Midway (m.closeTurn rules active) := by
  have htaken : m.Midway { m with destructions := m.destructions.takeAfterEffect.2 } := .of_eq rfl
  have hcleared : m.Midway (m.destroyAfterEffect rules).clearLastPlayed :=
    (htaken.trans (midway_destroyAll _ _ _)).trans (.of_eq rfl)
  exact (hcleared.broadcast ⟨rfl, rfl⟩).trans (.of_eq rfl)

end Match

theorem midway_of_calm (h : ReflTransGen (Calm rules scope) m m') : m.Midway m' :=
  Posts.chain (fun _ _ h => h.posts.mono fun _ => Message.midway_of_calm) h

theorem Opens.midway (h : Opens rules scope now m m') : m.Midway m' := by
  obtain ⟨-, path⟩ := h
  have hsettled : m.Midway { m.abandonSelection with debt := none } := .of_eq rfl
  have hclock := (hsettled.trans (midway_of_calm path)).trans (.of_eq rfl)
  exact hclock.broadcastViews fun _ => ⟨rfl, rfl⟩

theorem Passes.midway (h : Passes rules scope now m m') : m.Midway m' := by
  obtain ⟨-, path, opens⟩ := h
  have hdue : m.Midway (m.abandonSelection.destroyDue rules) :=
    Posts.trans (.of_eq rfl) m.abandonSelection.midway_destroyDue
  exact ((hdue.trans (midway_of_calm path)).trans (Match.midway_closeTurn _ _)).trans opens.midway

/-! ## Matches that stand still -/

/-- It is nobody's turn, and nothing is open. -/
structure Match.Still (m : Match) : Prop where
  stopped : m.table.isRunning = false
  pending : m.session.pending = none
  debt : m.debt = none

theorem Match.Attentive.still (h : m.Attentive) (hstopped : m.table.isRunning = false) :
    m.Still := by
  have hnobody : m.table.activePlayer? = none := by simp [Table.activePlayer?, hstopped]
  refine ⟨hstopped, Option.eq_none_iff_forall_ne_some.mpr ?_,
    Option.eq_none_iff_forall_ne_some.mpr ?_⟩
  · intro selection hpending
    simpa [hnobody] using h.expectant.chooser selection hpending
  · intro debt howed
    simpa [hnobody] using (h.expectant.debt debt howed).1

namespace Match.Still

theorem activePlayer? (h : m.Still) : m.table.activePlayer? = none := by
  simp [Table.activePlayer?, h.stopped]

theorem refusal? (h : m.Still) (player : PlayerId) :
    m.table.refusal? player = some .gameNotRunning := by
  simp [Table.refusal?, h.stopped]

theorem tick (h : m.Still) (now : Nat) : (tick rules resolve now).run m = (.ok false, m) := by
  rw [CardArena.tick, run_get_bind, h.stopped]
  rfl

theorem stopTurn (h : m.Still) (player : PlayerId) (now : Nat) :
    (stopTurn rules resolve player now).run m = (.ok (.rejected .gameNotRunning), m) := by
  rw [CardArena.stopTurn, run_get_bind, h.refusal? player]
  rfl

theorem discardCards (h : m.Still) (player : PlayerId) (cards : List CardId) (now : Nat) :
    (discardCards rules resolve player cards now).run m
      = (.ok (.rejected .noPendingDiscard), m) := by
  rw [CardArena.discardCards, run_get_bind, h.debt]
  rfl

theorem requestMove (h : m.Still) (player : PlayerId) (origin destination : String) (count : Nat) :
    (requestMove rules resolve player origin destination count).run m
      = (.ok (.rejected .gameNotRunning), m) := by
  rw [CardArena.requestMove, run_get_bind, h.refusal? player]
  rfl

theorem playCard (h : m.Still) (player : PlayerId) (card : CardId) :
    (playCard rules resolve player card).run m = (.ok (.rejected .gameNotRunning), m) := by
  rw [CardArena.playCard, run_get_bind, h.refusal? player]
  rfl

theorem selectTarget (h : m.Still) (player : PlayerId) (choice : TargetChoice) :
    ∃ reason, (selectTarget rules resolve player choice).run m = (.ok (.rejected reason), m) := by
  rw [CardArena.selectTarget, run_get_bind, h.pending]
  exact ⟨_, rfl⟩

/-- **Whatever a client asks of a match that stands still, they are turned away.** -/
theorem handleIntent (h : m.Still) (player : PlayerId) (intent : Intent) (now : Nat) :
    ∃ reason, (handleIntent rules resolve player intent now).run m
      = (.ok (.rejected reason), m) := by
  cases intent with
  | register name deck => exact ⟨_, rfl⟩
  | playCard card => exact ⟨_, h.playCard player card⟩
  | stopTurn => exact ⟨_, h.stopTurn player now⟩
  | moveCards origin destination count => exact ⟨_, h.requestMove player origin destination _⟩
  | selectTarget choice => exact h.selectTarget player choice
  | discardCards cards => exact ⟨_, h.discardCards player cards now⟩

/-- A cascade keeps still, and tells news only. -/
theorem change (h : m.Still) (hchange : Change rules scope m m') :
    m'.Still ∧ m.Posts (fun message => message.isSolemn = false) m' := by
  obtain ⟨hturn, hdebt, -⟩ := hchange.turn
  have hstopped : m'.table.isRunning = false := by
    rw [Table.isRunning, hturn]
    exact h.stopped
  have hpending : m'.session.pending = none := by
    cases hchange with
    | ask _ active => cases h.activePlayer?.symm.trans active
    | _ => exact h.pending
  refine ⟨⟨hstopped, hpending, hdebt.trans h.debt⟩, hchange.posts.mono ?_⟩
  rintro message (hnews | ⟨-, player, hactive⟩)
  · exact Message.isSolemn_of_isNews hnews
  · cases h.activePlayer?.symm.trans hactive

theorem changes (h : m.Still) (hpath : ReflTransGen (Change rules scope) m m') :
    m'.Still ∧ m.Posts (fun message => message.isSolemn = false) m' := by
  induction hpath with
  | refl => exact ⟨h, .refl m⟩
  | tail _ hchange ih =>
      obtain ⟨hstill, hposts⟩ := ih
      obtain ⟨hstill', hposts'⟩ := hstill.change hchange
      exact ⟨hstill', hposts.trans hposts'⟩

end Match.Still

section

variable (hc : rules.catalog.Coherent)

include hc

/-- **In a match that is over, an operation does what a cascade does, or lets a player go.** -/
theorem perform_ended (hm : m.Conforms rules.catalog) (hstill : m.Still)
    (hended : m.table.isEnded = true) (op : Operation) :
    ReflTransGen (Change rules .all) m (m.perform rules op).2 ∨ ∃ player, op = .disconnect player := by
  have hres : Resolves rules .all (fun _ => True) m.table.playerIds rules.resolver :=
    resolver_resolves_all hc
  have hfits : m.Fits rules.catalog m.table.playerIds := ⟨hm, rfl⟩
  have hstatus : m.table.turn.status ≠ .notStarted := by
    intro hnew
    simp [Table.isEnded, hnew] at hended
  have hsame {α : Type} {step : Play α} {r : Except Fault α} (hrun : step.run m = (r, m))
      (answer : α → Answer) :
      ReflTransGen (Change rules .all) m ((answer <$> step).run m).2 := by
    rw [run_map, hrun]
  have hwalk {α : Type} {step : Play α} (h : Leads (Change rules .all) (fun _ => True) step m)
      (answer : α → Answer) :
      ReflTransGen (Change rules .all) m ((answer <$> step).run m).2 :=
    (h.map answer).path
  have hdone {step : Play Unit} (h : Leads (Change rules .all) (fun _ => True) step m) :
      ReflTransGen (Change rules .all) m ((thenDone step).run m).2 :=
    h.thenDone.path
  cases op with
  | register name connection deck =>
      have hop : (Operation.register name connection deck).isRegister = true := rfl
      rcases register_cases rules m hop with heq | ⟨_, _, _, hopen, -⟩
      · rw [heq]
        exact .inl .refl
      · exact absurd hopen.notStarted hstatus
  | start now =>
      have hrun : (startGame rules rules.resolver now).run m = (.ok (), m) := by
        rw [startGame, run_get_bind]
        exact congrArg (fun step : Play Unit => step.run m) (if_pos hstatus)
      rw [Match.perform, performWith, thenDone, run_bind_ok hrun]
      exact .inl .refl
  | endTurn now =>
      rw [Match.perform, performWith, thenDone,
        run_bind_error (endTurn_refused hstill.activePlayer? now)]
      exact .inl .refl
  | endGame winner =>
      have hrun : (endGame winner).run m = (.ok (), m) := by
        rw [endGame, run_get_bind, hended]
        rfl
      rw [Match.perform, performWith, thenDone, run_bind_ok hrun]
      exact .inl .refl
  | tick now => exact .inl (hsame (hstill.tick now) _)
  | stopTurn player now => exact .inl (hsame (hstill.stopTurn player now) _)
  | discardCards player cards now => exact .inl (hsame (hstill.discardCards player cards now) _)
  | requestMove player origin destination count =>
      exact .inl (hsame (hstill.requestMove player origin destination count) _)
  | playCard player card => exact .inl (hsame (hstill.playCard player card) _)
  | selectTarget player choice =>
      obtain ⟨reason, hrun⟩ := hstill.selectTarget player choice
      exact .inl (hsame hrun _)
  | intent player intent now =>
      obtain ⟨reason, hrun⟩ := hstill.handleIntent player intent now
      exact .inl (hsame hrun _)
  | disconnect player => exact .inr ⟨player, rfl⟩
  | moveCards player origin destination count =>
      exact .inl (hwalk (moveCards_walks hc hres (.inr trivial) (.inr trivial) (.inr trivial) count m
        hfits) _)
  | kill card => exact .inl (hdone (kill_walks hc hres card m hfits))
  | transform card into =>
      exact .inl (hwalk (transform_walks hc hres rfl (.inl rfl) (.inr trivial) m hfits) _)
  | attack card => exact .inl (hdone (attackCard_leads hc hres hfits (.inr trivial)))
  | setPlayerAttribute player attr value =>
      exact .inl (hdone (setPlayerAttribute_walks hc hres (.inr trivial) (.inr trivial) value m hfits))
  | setCardAttribute card attr value =>
      exact .inl (hdone
        (setCardAttribute_leads hc hres hfits (.inr trivial) (.inr trivial) value))

end

/-! ## The course of a match -/

/-- How the status of a match may go on, at once or in the end. -/
inductive Status.Leads : Status → Status → Prop
  | stays (status : Status) : Leads status status
  | starts : Leads .notStarted .running
  | calledOff (winner : Option PlayerId) : Leads .notStarted (.ended winner)
  | ends (winner : Option PlayerId) : Leads .running (.ended winner)

theorem Status.Leads.trans {a b c : Status} (h : a.Leads b) (h' : b.Leads c) : a.Leads c := by
  cases h with
  | stays => exact h'
  | starts =>
      cases h' with
      | stays => exact .starts
      | ends winner => exact .calledOff winner
  | calledOff winner =>
      cases h'
      exact .calledOff winner
  | ends winner =>
      cases h'
      exact .ends winner

/-- The table whose players are told that the match starts, each with a view of their own. -/
def Table.opening (t : Table) : List (ConnectionId × Message) :=
  t.announcement fun seat => .gameStarted (t.snapshot (some seat.id))

/-- What an operation makes of a match: it goes on as before, and perhaps somebody takes a seat, or it
starts, or it ends. -/
inductive Match.Proceeds (m m' : Match) : Prop
  | goesOn (status : m'.table.turn.status = m.table.turn.status) (midway : m.Midway m')
      (seats : m'.table.playerIds = m.table.playerIds ∨ m.table.turn.status = .notStarted ∧
        ∃ player, m'.table.playerIds = m.table.playerIds ++ [player])
  | starts (before : m.table.turn.status = .notStarted) (after : m'.table.turn.status = .running)
      (seats : m'.table.playerIds = m.table.playerIds)
      (openings : ∃ t : Table, t.playerIds = m.table.playerIds ∧
        m'.letters Message.isOpening = m.letters Message.isOpening ++ t.opening)
      (closings : m'.letters Message.isClosing = m.letters Message.isClosing)
  | ends (winner : Option PlayerId) (before : m.table.isEnded = false)
      (after : m'.table.turn.status = .ended winner)
      (seats : m'.table.playerIds = m.table.playerIds)
      (openings : m'.letters Message.isOpening = m.letters Message.isOpening)
      (closings : m'.letters Message.isClosing
        = m.letters Message.isClosing ++ m.table.announcement fun _ => .gameEnded winner)

namespace Match.Proceeds

theorem of_calm (h : ReflTransGen (Calm rules scope) m m') : m.Proceeds m' :=
  .goesOn (status_of_calm h) (midway_of_calm h) (.inl (steady_of_calm h).playerIds)

theorem disconnect (m : Match) (player : PlayerId) :
    m.Proceeds (m.onTable (·.modifyPlayer player ({ · with isConnected := false }))) :=
  .goesOn rfl (.of_eq rfl) (.inl (Table.playerIds_modifyPlayer player fun _ => rfl))

theorem seat (m : Match) {deck : List CardId} (hopen : m.Open rules deck) (name : String)
    (connection : ConnectionId) : m.Proceeds (m.seat rules name connection deck) := by
  refine .goesOn rfl ?_ (.inr ⟨hopen.notStarted, ⟨UInt8.ofNat m.table.players.length⟩, ?_⟩)
  · refine Posts.broadcast ?_ ⟨rfl, rfl⟩
    exact .of_eq rfl
  · exact List.map_append

theorem begins (h : Begins rules scope now m m') : m.Proceeds m' := by
  have hturn := h.turn
  have hids := playerIds_of_steps h.steps
  cases h with
  | @intro m₁ _ seated notStarted path opens =>
      have hsteady := steady_of_calm path
      have hbegin : m.Midway m.begin := .of_eq rfl
      have hbegun : m.Midway m₁ := hbegin.trans (midway_of_calm path)
      have hclosings : (m₁.broadcastViews .gameStarted).letters Message.isClosing
          = m₁.letters Message.isClosing := by
        have hposts : m₁.Posts (fun message => message.isClosing = false)
            (m₁.broadcastViews .gameStarted) := (Posts.refl m₁).broadcastViews fun _ => rfl
        exact hposts.letters fun _ => id
      refine .starts notStarted (by rw [hturn]) hids ⟨m₁.table, hsteady.playerIds, ?_⟩ ?_
      · calc m'.letters Message.isOpening
            = (m₁.post m₁.table.opening).letters Message.isOpening := opens.midway.openings
          _ = m₁.letters Message.isOpening ++ m₁.table.opening :=
              Match.letters_announcement (fun _ => rfl) m₁
          _ = m.letters Message.isOpening ++ m₁.table.opening := by rw [hbegun.openings]
      · exact (opens.midway.closings.trans hclosings).trans hbegun.closings

theorem pass {m₁ : Match} (path : ReflTransGen (Calm rules scope) m m₁)
    (passes : Passes rules scope now m₁ m') : m.Proceeds m' := by
  have hids := playerIds_of_steps passes.steps
  exact .goesOn (passes.status.trans (status_of_calm path))
    ((midway_of_calm path).trans passes.midway) (.inl (hids.trans (steady_of_calm path).playerIds))

theorem finish (m : Match) (hon : m.table.isEnded = false) (winner : Option PlayerId) :
    m.Proceeds ((m.finish winner).broadcast (.gameEnded winner)) := by
  refine .ends winner hon rfl rfl ?_ ?_
  · have hposts : m.Posts (fun message => message.isOpening = false)
        ((m.finish winner).broadcast (.gameEnded winner)) := by
      refine Posts.broadcast ?_ rfl
      exact .of_eq rfl
    exact hposts.letters fun _ => id
  · exact Match.letters_announcement (fun _ => rfl) (m.finish winner)

theorem of_course (hon : m.table.isEnded = false) {ends : Nat}
    (h : Course rules scope m ends m') : m.Proceeds m' := by
  cases h with
  | stay path => exact .of_calm path
  | disconnect player => exact .disconnect m player
  | begin begins => exact .begins begins
  | pass path _ passes => exact .pass path passes
  | finish winner => exact .finish m hon winner

theorem status (h : m.Proceeds m') : m.table.turn.status.Leads m'.table.turn.status := by
  cases h with
  | goesOn status =>
      rw [status]
      exact .stays _
  | starts before after =>
      rw [before, after]
      exact .starts
  | ends winner before after =>
      rw [after]
      cases hstatus : m.table.turn.status with
      | notStarted => exact .calledOff winner
      | running => exact .ends winner
      | ended other => simp [Table.isEnded, hstatus] at before

/-- Players take their seats before the match starts, and nobody gives up a seat. -/
theorem seating (h : m.Proceeds m') : m'.table.playerIds = m.table.playerIds ∨
    m.table.turn.status = .notStarted ∧
      ∃ player, m'.table.playerIds = m.table.playerIds ++ [player] := by
  cases h with
  | goesOn _ _ seats => exact seats
  | starts _ _ seats => exact .inl seats
  | ends _ _ _ seats => exact .inl seats

end Match.Proceeds

theorem Table.isRunning_of_isEnded {t : Table} (h : t.isEnded = true) : t.isRunning = false := by
  rw [isRunning, decide_eq_false_iff_not]
  intro hrunning
  simp [isEnded, hrunning] at h

section

variable (hc : rules.catalog.Coherent)

include hc

/-- **An operation goes on as before, starts the match, or ends it.** -/
theorem Reachable.proceeds (h : Reachable rules m) (op : Operation) :
    m.Proceeds (m.perform rules op).2 := by
  cases hended : m.table.isEnded with
  | true =>
      have hstill := (h.attentive hc).still (Table.isRunning_of_isEnded hended)
      rcases perform_ended hc (h.conforms hc) hstill hended op with hpath | ⟨player, rfl⟩
      · exact .of_calm (chain_of_changes hpath)
      · exact .disconnect m player
  | false =>
      cases hop : op.isRegister with
      | true =>
          rcases register_cases rules m hop with heq | ⟨name, connection, deck, hopen, heq⟩ <;>
            rw [heq]
          · exact .goesOn rfl (.refl m) (.inl rfl)
          · exact .seat m hopen name connection
      | false =>
          exact .of_course hended
            (perform_course hc (Scope.all_covers _) (h.conforms hc) op.within_all hop)

/-- In a match that is over, no turn is written, and nothing is told of how the match goes on. -/
theorem Reachable.perform_over (h : Reachable rules m) (hended : m.table.isEnded = true)
    (op : Operation) : (m.perform rules op).2.table.turn = m.table.turn ∧
      m.Posts (fun message => message.isSolemn = false) (m.perform rules op).2 := by
  have hstill := (h.attentive hc).still (Table.isRunning_of_isEnded hended)
  rcases perform_ended hc (h.conforms hc) hstill hended op with hpath | ⟨player, rfl⟩
  · exact ⟨(steady_of_calm (chain_of_changes hpath)).turn, (hstill.changes hpath).2⟩
  · exact ⟨rfl, .of_eq rfl⟩

/-! ## Runs -/

theorem Reachable.status_run (h : Reachable rules m) (ops : List Operation) :
    m.table.turn.status.Leads (m.run rules ops).table.turn.status := by
  induction ops generalizing m with
  | nil => exact .stays _
  | cons op rest ih => exact (h.proceeds hc op).status.trans (ih (h.perform op))

theorem Reachable.seats_run (h : Reachable rules m) (ops : List Operation) :
    m.table.playerIds <+: (m.run rules ops).table.playerIds := by
  induction ops generalizing m with
  | nil => exact List.prefix_rfl
  | cons op rest ih =>
      have hrest := ih (h.perform op)
      rcases (h.proceeds hc op).seating with hsame | ⟨-, player, hmore⟩
      · rwa [hsame] at hrest
      · rw [hmore] at hrest
        exact (List.prefix_append _ _).trans hrest

/-- A match that has started takes no more players. -/
theorem Reachable.seats_run_of_started (h : Reachable rules m)
    (hstarted : m.table.turn.status ≠ .notStarted) (ops : List Operation) :
    (m.run rules ops).table.playerIds = m.table.playerIds := by
  induction ops generalizing m with
  | nil => rfl
  | cons op rest ih =>
      have hproceeds := h.proceeds hc op
      have hstill : (m.perform rules op).2.table.turn.status ≠ .notStarted := by
        intro hnew
        have hleads := hproceeds.status
        rw [hnew] at hleads
        generalize m.table.turn.status = status at hleads hstarted
        cases hleads
        exact hstarted rfl
      rcases hproceeds.seating with hsame | ⟨hnew, -⟩
      · exact (ih (h.perform op) hstill).trans hsame
      · exact absurd hnew hstarted

/-- What holds of one operation on a match that is over holds of any number. -/
theorem Reachable.run_over (h : Reachable rules m) (hended : m.table.isEnded = true)
    (ops : List Operation) : (m.run rules ops).table.turn = m.table.turn ∧
      m.Posts (fun message => message.isSolemn = false) (m.run rules ops) := by
  induction ops generalizing m with
  | nil => exact ⟨rfl, .refl m⟩
  | cons op rest ih =>
      obtain ⟨hturn, hposts⟩ := h.perform_over hc hended op
      have hended' : (m.perform rules op).2.table.isEnded = true := by
        rwa [Table.isEnded, hturn]
      obtain ⟨hturn', hposts'⟩ := ih (h.perform op) hended'
      exact ⟨hturn'.trans hturn, hposts.trans hposts'⟩

end

/-- What has been told of the start and of the end of a match, as far as it has come: nothing before it
comes to that, and afterwards what was told everybody at one moment. -/
structure Match.Chronicle (m : Match) : Prop where
  unstarted : m.table.turn.status = .notStarted → m.letters Message.isOpening = []
  started : m.letters Message.isOpening = [] ∨ ∃ t : Table, t.playerIds = m.table.playerIds ∧
    m.letters Message.isOpening = t.opening
  unended : m.table.isEnded = false → m.letters Message.isClosing = []
  ended : ∀ winner, m.table.turn.status = .ended winner → ∃ t : Table,
    t.playerIds = m.table.playerIds ∧
      m.letters Message.isClosing = t.announcement fun _ => .gameEnded winner

theorem Match.Chronicle.proceeds (hm : m.Chronicle) (h : m.Proceeds m') : m'.Chronicle := by
  cases h with
  | goesOn status midway seats =>
      rcases seats with hids | ⟨hnew, -⟩
      · refine ⟨fun hnew => ?_, ?_, fun hon => ?_, fun winner hover => ?_⟩
        · rw [midway.openings, hm.unstarted (status ▸ hnew)]
        · rw [midway.openings, hids]
          exact hm.started
        · rw [Table.isEnded, status] at hon
          rw [midway.closings, hm.unended hon]
        · rw [midway.closings, hids]
          exact hm.ended winner (status ▸ hover)
      · have hopenings := midway.openings.trans (hm.unstarted hnew)
        have hon : m.table.isEnded = false := by rw [Table.isEnded, hnew]
        refine ⟨fun _ => hopenings, .inl hopenings, fun _ => midway.closings.trans (hm.unended hon),
          fun winner hover => ?_⟩
        cases (status.symm.trans hover).symm.trans hnew
  | starts before after seats openings closings =>
      have hon : m.table.isEnded = false := by rw [Table.isEnded, before]
      obtain ⟨t, hids, htold⟩ := openings
      rw [hm.unstarted before, List.nil_append] at htold
      refine ⟨fun hnew => ?_, .inr ⟨t, hids.trans seats.symm, htold⟩,
        fun _ => closings.trans (hm.unended hon), fun winner hover => ?_⟩
      · cases after.symm.trans hnew
      · cases after.symm.trans hover
  | ends winner before after seats openings closings =>
      rw [hm.unended before, List.nil_append] at closings
      refine ⟨fun hnew => ?_, ?_, fun hon => ?_, fun other hover => ?_⟩
      · cases after.symm.trans hnew
      · rw [openings, seats]
        exact hm.started
      · simp [Table.isEnded, after] at hon
      · cases after.symm.trans hover
        exact ⟨m.table, seats.symm, closings⟩

theorem Reachable.chronicle (hc : rules.catalog.Coherent) (h : Reachable rules m) :
    m.Chronicle := by
  induction h with
  | opening handle dice => exact ⟨fun _ => rfl, .inl rfl, fun _ => rfl, nofun⟩
  | perform op h ih => exact ih.proceeds (h.proceeds hc op)

/-- **A match starts at most once and ends at most once, and both for good.**

From wherever a run sets out, the status goes on towards the end only, whatever the operations are and
whatever they answer.  Seats are added while the match has not started, behind those that there are;
none is given twice, and none is given up.  In a match that is over the turn stays as it is, with the
winner, and no letter says any more that a player is seated, that the match or a turn starts or ends,
or asks a player for anything.  All letters that ever say that the match starts were sent at one
moment, one to each player who could be reached, and so were those that say it is over; there are none
of them before the match comes to that. -/
theorem match_runs_its_course (hc : rules.catalog.Accepted) (h : Reachable rules m)
    (ops : List Operation) :
    m.table.turn.status.Leads (m.run rules ops).table.turn.status ∧
    m.table.playerIds <+: (m.run rules ops).table.playerIds ∧
    (m.table.turn.status ≠ .notStarted →
      (m.run rules ops).table.playerIds = m.table.playerIds) ∧
    (m.table.isEnded = true → (m.run rules ops).table.turn = m.table.turn ∧
      m.Posts (fun message => message.isSolemn = false) (m.run rules ops)) ∧
    m.table.playerIds.Nodup ∧
    (m.table.turn.status = .notStarted → m.letters Message.isOpening = []) ∧
    (m.letters Message.isOpening = [] ∨ ∃ t : Table, t.playerIds = m.table.playerIds ∧
      m.letters Message.isOpening = t.opening) ∧
    (m.table.isEnded = false → m.letters Message.isClosing = []) ∧
    (∀ winner, m.table.turn.status = .ended winner → ∃ t : Table,
      t.playerIds = m.table.playerIds ∧
        m.letters Message.isClosing = t.announcement fun _ => .gameEnded winner) := by
  have hchronicle := h.chronicle hc.coherent
  exact ⟨h.status_run hc.coherent ops, h.seats_run hc.coherent ops,
    fun hstarted => h.seats_run_of_started hc.coherent hstarted ops,
    fun hended => h.run_over hc.coherent hended ops,
    ((h.conforms hc.coherent).table.distinct hc.coherent).seats, hchronicle.unstarted,
    hchronicle.started, hchronicle.unended, hchronicle.ended⟩

namespace Duel

/-- Ann's archer asks whom to hit, and she gives up instead. -/
def conceded : Match :=
  after book (deal ++ [.playCard ⟨0⟩ ⟨2⟩, .endGame (some ⟨1⟩)])

/-- Whatever might take the match up again, and another archer on the board. -/
def afterlife : List Operation :=
  [.register "Cid" ⟨3⟩ [], .start 9, .selectTarget ⟨0⟩ (.player ⟨1⟩), .stopTurn ⟨0⟩ 9, .endTurn 9,
    .tick 90000, .endGame none, .moveCards ⟨0⟩ "Hand" "Board" 2]

theorem conceded_for_good :
    conceded.table.turn = ⟨.ended (some ⟨1⟩), 0, 1⟩ ∧
    (conceded.run book afterlife).table.turn = conceded.table.turn ∧
    (conceded.run book afterlife).table.playerIds = [⟨0⟩, ⟨1⟩] ∧
    conceded.outbox.size < (conceded.run book afterlife).outbox.size ∧
    conceded.Posts (fun message => message.isSolemn = false) (conceded.run book afterlife) ∧
    (conceded.letters Message.isOpening).length = 2 ∧
    ∃ t : Table, t.playerIds = [⟨0⟩, ⟨1⟩] ∧
      conceded.letters Message.isClosing = t.announcement fun _ => .gameEnded (some ⟨1⟩) := by
  have hover : conceded.table.turn = ⟨.ended (some ⟨1⟩), 0, 1⟩ := by decide +kernel
  have hids : conceded.table.playerIds = [⟨0⟩, ⟨1⟩] := by decide +kernel
  obtain ⟨-, -, hseats, hrest, -, -, -, -, hclosed⟩ :=
    match_runs_its_course accepted (reachable_after ..) (m := conceded) afterlife
  obtain ⟨hturn, hposts⟩ := hrest (by rw [Table.isEnded, hover])
  have hstarted : conceded.table.turn.status ≠ .notStarted := by simp [hover]
  obtain ⟨t, hsame, hclosings⟩ := hclosed (some ⟨1⟩) (by rw [hover])
  exact ⟨hover, hturn, (hseats hstarted).trans hids, by decide +kernel, hposts, by decide +kernel, t,
    hsame.trans hids, hclosings⟩

end Duel

end CardArena
