import Mathlib
import CardArena.Proofs.Letters
import CardArena.Proofs.Waiting

/-!
# Who is told what, and when

A match speaks in three ways only.  News goes to everybody who can be reached, in the same words.
The table is shown to everybody who can be reached, to each as they may see it.  And the active
player is asked a question.  `Table.Says` lists them; it speaks of the table at the moment of
sending, of which the match keeps a record beside the outbox (`Match.scenes`).

A step of the match utters something at the table that it leaves, or nothing (`Match.Utters`), and
everybody keeps their seat meanwhile (`Match.Speaks`).  The steps that `Step` lists do not say
enough for that: a repeated question may there go to anyone, and any message may be broadcast.  So
the functions outside of cascades are gone through once more, each from a match of the game; of a
cascade, `Change` says enough.  Only a question that is put again needs more: that what is open is
open to the active player (`Match.Expectant`), which holds between operations.

* `perform_talks` : every operation speaks in these ways only, in front of the seats that it leaves.
* `Reachable.said` : so every letter that was ever sent is one of these, at the table of its moment.
-/

namespace CardArena

open Play
open Relation (ReflTransGen)

/-! ## Ways of speaking -/

namespace Message

/-- The view of the table that a message carries. -/
def snapshot? : Message → Option Snapshot
  | .gameStarted view => some view
  | .turnStarted _ _ view => some view
  | .stateUpdated view => some view
  | _ => none

/-- A question shows nothing. -/
theorem snapshot?_of_isQuestion {message : Message} (h : message.isQuestion = true) :
    message.snapshot? = none := by
  cases message <;> first | rfl | cases h

/-- The messages that show the table. -/
inductive Showing : (Snapshot → Message) → Prop
  | gameStarted : Showing .gameStarted
  | turnStarted (player : PlayerId) (number : UInt32) : Showing (.turnStarted player number)
  | stateUpdated : Showing .stateUpdated

end Message

/-- What is said at once at a table, and to whom. -/
inductive Table.Says (t : Table) : List (ConnectionId × Message) → Prop
  | nothing : t.Says []
  /-- Everybody hears the same. -/
  | news {message : Message} (plain : message.snapshot? = none)
      (telling : message.isQuestion = false) :
      t.Says (t.connected.map fun seat => (seat.connection, message))
  /-- Everybody sees the table, each as they may see it. -/
  | views {message : Snapshot → Message} (showing : Message.Showing message) :
      t.Says (t.connected.map fun seat => (seat.connection, message (t.snapshot (some seat.id))))
  /-- The active player is asked. -/
  | question {player : PlayerId} {message : Message} (active : t.activePlayer? = some player)
      (asking : message.isQuestion = true) :
      t.Says (((t.player? player).filter Player.isConnected).toList.map
        fun seat => (seat.connection, message))

/-- Something is said at the table as it is afterwards, or nothing. -/
def Match.Utters (m m' : Match) : Prop :=
  ∃ mail, m'.table.Says mail ∧ m'.outbox.toList = m.outbox.toList ++ mail ∧
    m'.scenes.toList = m.scenes.toList ++ mail.map fun _ => m'.table

/-- Something is said, or nothing, and everybody keeps their seat. -/
def Match.Speaks (m m' : Match) : Prop :=
  m.Utters m' ∧ m'.table.lines = m.table.lines

namespace Match.Utters

variable {m m₁ m' : Match}

theorem silent (houtbox : m'.outbox = m.outbox) (hscenes : m'.scenes = m.scenes) : m.Utters m' :=
  ⟨[], .nothing, by rw [houtbox, List.append_nil], by rw [hscenes, List.map_nil, List.append_nil]⟩

/-- What is posted after silent changes is said at the table that they lead to. -/
theorem post {mail : List (ConnectionId × Message)} (houtbox : m₁.outbox = m.outbox)
    (hscenes : m₁.scenes = m.scenes) (hmail : m₁.table.Says mail) : m.Utters (m₁.post mail) := by
  refine ⟨mail, hmail, ?_, ?_⟩
  · simp [Match.post, houtbox]
  · simp [Match.post, hscenes]

theorem broadcast {message : Message} (houtbox : m₁.outbox = m.outbox)
    (hscenes : m₁.scenes = m.scenes) (plain : message.snapshot? = none)
    (telling : message.isQuestion = false) : m.Utters (m₁.broadcast message) :=
  post houtbox hscenes (.news plain telling)

theorem ask {player : PlayerId} {message : Message} (houtbox : m₁.outbox = m.outbox)
    (hscenes : m₁.scenes = m.scenes) (active : m₁.table.activePlayer? = some player)
    (asking : message.isQuestion = true) : m.Utters (m₁.tell player message) := by
  rw [tell_eq_post]
  exact post houtbox hscenes (.question active asking)

end Match.Utters

variable {rules : Rulebook} {scope : Scope} {ids : List PlayerId} {resolve : Resolver}
  {m m' : Match}

/-- **A cascade speaks in these ways only.** -/
theorem Change.utters (h : Change rules scope m m') : m.Utters m' := by
  cases h with
  | ask _ active => exact .ask rfl rfl active rfl
  | bring | deploy | condemn | replace => exact .broadcast rfl rfl rfl rfl
  | reveal => exact .post rfl rfl (.views .stateUpdated)
  | _ => exact .silent rfl rfl

theorem Change.speaks (h : Change rules scope m m') : m.Speaks m' :=
  ⟨h.utters, h.steady.lines⟩

/-- What is done within a turn keeps everybody in their seat; only what it says is in question. -/
theorem Calm.speaks (h : Calm rules scope m m') (hutters : m.Utters m') : m.Speaks m' :=
  ⟨hutters, h.steady.lines⟩

/-! ## Functions outside of cascades -/

/-- A way from one match to another, as steps and as what is said on it. -/
structure Match.Voices (rules : Rulebook) (m m' : Match) : Prop where
  steps : ReflTransGen (Step rules .all) m m'
  speaks : ReflTransGen Match.Speaks m m'

/-- From a match of the game with these seats, the step speaks in the three ways only. -/
abbrev Voiced (rules : Rulebook) (ids : List PlayerId) (step : Play α) : Prop :=
  Along (Match.Fits rules.catalog ids) (Match.Voices rules) (fun _ => True) step

theorem kept_fits_voices (hc : rules.catalog.Coherent) :
    Kept (Match.Fits rules.catalog ids) (Match.Voices rules) :=
  fun _ _ h hm => (kept_fits_step hc).chain h.steps hm

/-- Two steps in turn speak in the three ways only if both do. -/
theorem Voiced.bind (hc : rules.catalog.Coherent) {x : Play α} {k : α → Play β}
    (hx : Voiced rules ids x) (hk : ∀ a, Voiced rules ids (k a)) : Voiced rules ids (x >>= k) :=
  Along.bind (kept_fits_voices hc) hx hk

theorem Step.voices (h : Step rules .all m m') (hspeaks : m.Speaks m') : m.Voices rules m' :=
  ⟨.single h, .single hspeaks⟩

theorem Calm.voices (h : Calm rules .all m m') (hutters : m.Utters m') : m.Voices rules m' :=
  Step.voices (.calm h) (h.speaks hutters)

theorem Change.voices (h : Change rules .all m m') : m.Voices rules m' :=
  Step.voices h.step h.speaks

theorem voiced_of_changes {step : Play α} {F : Fault → Prop}
    (h : Leads (Change rules .all) F step m) : Leads (Match.Voices rules) (fun _ => True) step m :=
  h.mono (fun _ _ => Change.voices) fun _ _ => trivial

theorem Walks.voiced {step : Play α} {F : Fault → Prop} (h : Walks rules .all F ids step) :
    Voiced rules ids step :=
  fun m hm => voiced_of_changes (h m hm)

namespace Match

theorem speaks_destroy (m : Match) (graveyard : Option String) (card : LiveId) :
    m.Speaks (m.destroy graveyard card) := by
  refine ⟨?_, (m.steady_destroy graveyard card).lines⟩
  cases hlive : m.table.live? card with
  | none =>
      rw [destroy_of_none hlive]
      exact .silent rfl rfl
  | some live =>
      rw [destroy_eq hlive]
      exact .broadcast rfl rfl rfl rfl

theorem speaks_destroyAll (graveyard : Option String) (cards : List LiveId) :
    ∀ m : Match, ReflTransGen Speaks m (m.destroyAll graveyard cards) := by
  induction cards with
  | nil => exact fun _ => .refl
  | cons card rest ih => exact fun m => .head (m.speaks_destroy graveyard card) (ih _)

theorem voices_destroyDue (m : Match) : m.Voices rules (m.destroyDue rules) := by
  have htaken : m.Speaks { m with destructions := m.destructions.countDown.2 } :=
    ⟨.silent rfl rfl, rfl⟩
  exact ⟨.single .destroyDue, .head htaken (speaks_destroyAll ..)⟩

theorem voices_destroyAfterEffect (m : Match) : m.Voices rules (m.destroyAfterEffect rules) := by
  have htaken : m.Speaks { m with destructions := m.destructions.takeAfterEffect.2 } :=
    ⟨.silent rfl rfl, rfl⟩
  exact ⟨.single .destroyAfterEffect, .head htaken (speaks_destroyAll ..)⟩

/-- What is done within a turn without a word. -/
theorem Voices.of_calm (h : ReflTransGen (Calm rules .all) m m') (houtbox : m'.outbox = m.outbox)
    (hscenes : m'.scenes = m.scenes) : m.Voices rules m' :=
  ⟨steps_of_calm h, .single ⟨.silent houtbox hscenes, (steady_of_calm h).lines⟩⟩

theorem hushed_discardCard (rules : Rulebook) (m : Match) (player : PlayerId) (card : CardId) :
    (m.discardCard rules player card).outbox = m.outbox ∧
      (m.discardCard rules player card).scenes = m.scenes := by
  unfold discardCard
  split <;> exact ⟨rfl, rfl⟩

theorem hushed_discardAll (rules : Rulebook) (player : PlayerId) (cards : List CardId) :
    ∀ m : Match, (m.discardAll rules player cards).outbox = m.outbox ∧
      (m.discardAll rules player cards).scenes = m.scenes := by
  induction cards with
  | nil => exact fun _ => ⟨rfl, rfl⟩
  | cons card rest ih =>
      intro m
      have hone := m.hushed_discardCard rules player card
      exact ⟨(ih _).1.trans hone.1, (ih _).2.trans hone.2⟩

theorem hushed_discardRandom (rules : Rulebook) (player : PlayerId) (count : Nat) :
    ∀ m : Match, (m.discardRandom rules player count).outbox = m.outbox ∧
      (m.discardRandom rules player count).scenes = m.scenes := by
  induction count with
  | zero => exact fun _ => ⟨rfl, rfl⟩
  | succ count ih =>
      intro m
      rw [discardRandom]
      split
      · exact ⟨rfl, rfl⟩
      · next card dice _ =>
          have hone := hushed_discardCard rules { m with dice } player card
          exact ⟨(ih _).1.trans hone.1, (ih _).2.trans hone.2⟩

/-- A hand is brought down to the limit, and what was owed is settled, without a word. -/
theorem voices_forceDiscard (m : Match) (player : PlayerId) :
    m.Voices rules { m.forceDiscard rules player with debt := none } := by
  obtain ⟨houtbox, hscenes⟩ := hushed_discardRandom rules player (m.handExcess rules player) m
  exact .of_calm ((discardRandom_calm player _ m).tail .settle) houtbox hscenes

theorem voices_discardAll (m : Match) (player : PlayerId) (cards : List CardId) :
    m.Voices rules (m.discardAll rules player cards) := by
  obtain ⟨houtbox, hscenes⟩ := hushed_discardAll rules player cards m
  exact .of_calm (discardAll_calm player cards m) houtbox hscenes

end Match

section

variable (hc : rules.catalog.Coherent)
  (hres : Resolves rules .all (fun _ => True) ids resolve)

include hc hres

theorem runGameAction_voiced (action : GameAction) (player : PlayerId) :
    Voiced rules ids (runGameAction rules resolve action player) := by
  cases action with
  | increaseAttribute attr value =>
      exact (changePlayerAttribute_walks hc hres (.inr trivial) (.inr trivial) _).voiced
  | decreaseAttribute attr value =>
      exact (changePlayerAttribute_walks hc hres (.inr trivial) (.inr trivial) _).voiced
  | setAttribute attr value =>
      exact (setPlayerAttribute_walks hc hres (.inr trivial) (.inr trivial) _).voiced
  | moveCards origin destination count =>
      intro m hm
      exact voiced_of_changes (moveCards_walks hc hres (.inr trivial)
        (.inr trivial) (.inr trivial) _ m hm).discard
  | shuffleZone zone =>
      intro m hm
      refine .modify (Calm.voices (.shuffle player zone) ?_)
      rcases m.shuffleZone_eq player zone with heq | ⟨z, dice, -, heq⟩ <;> rw [heq] <;>
        exact .silent rfl rfl

theorem runAllScheduled_voiced (actions : List ScheduledAction) :
    Voiced rules ids (runAllScheduled rules resolve actions) := by
  refine .forM (kept_fits_voices hc) fun scheduled _ m hm => .get_bind ?_
  refine Along.forM (kept_fits_voices hc) (fun player _ m hm => ?_) m hm
  exact (runGameAction_voiced hc hres scheduled.action player m hm).attempt

theorem countTurn_voiced (card : LiveId) : Voiced rules ids (countTurn rules resolve card) := by
  intro m hm
  refine .get_bind ?_
  split
  · exact .pure ()
  · next live _ =>
      split
      · have hmove : Match.Voices rules m _ :=
          Calm.voices (.age card (nextCount live.turnsInPlay) rfl) (.silent rfl rfl)
        exact .modify_bind hmove (voiced_of_changes
          (raise_walks hc hres _ card _ (kept_fits_voices hc _ _ hmove hm))).attempt
      · exact .pure ()

theorem attempt_raiseOnAll_voiced (event : Event) :
    Voiced rules ids (Play.attempt (raiseOnAll rules resolve event)) :=
  fun m hm => (voiced_of_changes (raiseOnAll_walks hc hres event m hm)).attempt

theorem startTurn_voiced (now : Nat) : Voiced rules ids (startTurn rules resolve now) := by
  have hsettle (m : Match) : m.Voices rules { m.abandonSelection with debt := none } :=
    ⟨(ReflTransGen.single .abandon).tail (.calm .settle), .single ⟨.silent rfl rfl, rfl⟩⟩
  refine .bind hc (fun m _ => .modify (hsettle m)) fun _ m hm => .get_bind ?_
  split
  · exact .pure ()
  · next active _ =>
      refine Voiced.bind hc (runAllScheduled_voiced hc hres _) (fun _ => ?_) m hm
      refine .bind hc (attempt_raiseOnAll_voiced hc hres _) fun _ m hm => .get_bind ?_
      have hcount (cards : List LiveId) :
          Voiced rules ids (cards.forM (countTurn rules resolve)) :=
        .forM (kept_fits_voices hc) fun card _ => countTurn_voiced hc hres card
      refine Voiced.bind hc (hcount _) (fun _ m hm => ?_) m hm
      refine .modify_bind (Step.voices (.clock _) ⟨.silent rfl rfl, rfl⟩) (.modify ?_)
      exact Step.voices (.views fun _ => rfl)
        ⟨.post rfl rfl (.views (.turnStarted active _)), rfl⟩

theorem endTurn_voiced (now : Nat) : Voiced rules ids (endTurn rules resolve now) := by
  intro m hm
  refine .get_bind ?_
  dsimp only
  split
  · exact .throw trivial
  · next active _ =>
      refine Voiced.bind hc (fun m _ => .modify (Step.voices .abandon ⟨.silent rfl rfl, rfl⟩))
        (fun _ => ?_) m hm
      refine .bind hc (fun m _ => .modify m.voices_destroyDue) fun _ => ?_
      refine .bind hc (fun m _ => .modify (m.voices_forceDiscard active)) fun _ => ?_
      refine .bind hc (runAllScheduled_voiced hc hres _) fun _ => ?_
      refine .bind hc (attempt_raiseOnAll_voiced hc hres _) fun _ => ?_
      refine .bind hc (fun m _ => .modify m.voices_destroyAfterEffect) fun _ => ?_
      refine .bind hc (fun m _ => .modify (Step.voices .clearLastPlayed
        ⟨.silent rfl rfl, m.steady_clearLastPlayed.lines⟩)) fun _ => ?_
      refine .bind hc (fun m _ => .modify (Step.voices (.broadcast rfl)
        ⟨.broadcast rfl rfl rfl rfl, rfl⟩)) fun _ => ?_
      refine .bind hc (fun m _ => .modify (Step.voices .passTurn ⟨.silent rfl rfl, rfl⟩))
        fun _ m hm => .get_bind ?_
      split
      · exact startTurn_voiced hc hres now m hm
      · exact .pure ()

theorem startGame_voiced (now : Nat) : Voiced rules ids (startGame rules resolve now) := by
  intro m hm
  refine .get_bind ?_
  dsimp only
  split
  · exact .pure ()
  · next hstatus =>
      split
      · exact .throw trivial
      · next hseated =>
          have hbegin : m.Voices rules m.begin :=
            Step.voices (.begin (by simpa using hseated) (not_not.mp hstatus))
              ⟨.silent rfl rfl, rfl⟩
          refine .modify_bind hbegin ?_
          refine Voiced.bind hc (runAllScheduled_voiced hc hres _) (fun _ => ?_) _
            (kept_fits_voices hc _ _ hbegin hm)
          refine .bind hc (fun m _ => .modify (Step.voices (.views fun _ => rfl)
            ⟨.post rfl rfl (.views .gameStarted), rfl⟩)) fun _ => startTurn_voiced hc hres now

theorem tick_voiced (now : Nat) : Voiced rules ids (tick rules resolve now) := by
  intro m hm
  refine .get_bind ?_
  split
  · exact (endTurn_voiced hc hres now m hm).bind fun _ _ _ => .pure _
  · exact .pure _

theorem stopTurn_voiced (player : PlayerId) (now : Nat) :
    Voiced rules ids (stopTurn rules resolve player now) := by
  intro m hm
  refine .get_bind ?_
  cases hfree : m.table.refusal? player with
  | some reason => exact .pure _
  | none =>
      have hactive := (Table.activePlayer?_of_refusal? hfree).2
      dsimp only
      split
      · exact .pure _
      · split
        · next hexcess =>
            refine .of_run (y := pure .deferred) rfl (.single ?_) (.pure _)
            exact Calm.voices (.owe ⟨player, m.handExcess rules player⟩ hactive hexcess rfl)
              (.ask rfl rfl hactive rfl)
        · exact (endTurn_voiced hc hres now m hm).bind fun _ _ _ => .pure _

/-- Whoever owes a discard is asked for it again only while it is their turn. -/
theorem discardCards_voices (hm : m.Fits rules.catalog ids) (hopen : m.Expectant)
    (player : PlayerId) (cards : List CardId) (now : Nat) :
    Leads (Match.Voices rules) (fun _ => True) (discardCards rules resolve player cards now) m := by
  refine .get_bind ?_
  split
  · exact .pure _
  · next debt howed =>
      have hactive := (hopen.debt debt howed).1
      split
      · exact .pure _
      · next hplayer =>
          split
          · refine .modify_bind (Calm.voices (.demand ⟨player, debt.count⟩) ?_) (.pure _)
            exact .ask rfl rfl (not_not.mp hplayer ▸ hactive) rfl
          · refine Voiced.bind hc (fun m _ => .modify (m.voices_discardAll player cards))
              (fun _ => ?_) m hm
            refine .bind hc (fun m _ => .modify (Calm.voices .settle (.silent rfl rfl))) fun _ => ?_
            exact .bind hc (endTurn_voiced hc hres now) fun _ _ _ => .pure _

theorem requestMove_voiced (player : PlayerId) (origin destination : String) (count : Nat) :
    Voiced rules ids (requestMove rules resolve player origin destination count) := by
  intro m hm
  refine .get_bind ?_
  split
  · exact .pure _
  · split
    · exact .pure _
    · refine (voiced_of_changes (moveCards_walks hc hres (.inr trivial) (.inr trivial)
        (.inr trivial) count m hm).discard).bind fun _ _ _ => ?_
      exact .modify_bind (Change.voices .reveal) (.pure _)

theorem putIntoPlay_voiced {player : PlayerId} {design : CardDesign}
    (hdesign : rules.catalog.card? design.id = some design) :
    Voiced rules ids (putIntoPlay rules resolve player design) := by
  intro m hm
  obtain ⟨cardType, typed⟩ := hc.typed?_of_card? hdesign
  have henter : Walks rules .all (fun _ => True) ids
      (enterZone rules resolve player design.id rules.config.boardZone) :=
    enterZone_walks hc hres rfl (.inl (by rw [hdesign]; rfl)) (.inr trivial)
  refine (voiced_of_changes (henter m hm)).bind ?_
  intro id m' h
  have hmark : m'.Voices rules (m'.markPlayed player design.id id) :=
    Calm.voices (markPlayed_calm hc hres hm typed h) (.silent rfl rfl)
  refine .modify_bind hmark ?_
  exact (raiseOnAll_walks hc hres _).voiced _
    (kept_fits_voices hc _ _ hmark (henter.after (kept_fits hc) hm h))

theorem playCard_voiced (player : PlayerId) (card : CardId) :
    Voiced rules ids (playCard rules resolve player card) := by
  intro m hm
  rcases playCard_cases hm player card with ⟨reason, hrun⟩ | ⟨design, hplay, hrun⟩
  · exact .of_run (y := pure (.rejected reason)) hrun .refl (.pure _)
  · obtain ⟨z, hz, hcard⟩ := hplay.held
    obtain ⟨seat, hseat, hcosts⟩ := hplay.affordable
    have hp := (hm.mem_of_zone? hz).1
    have hdraw : m.Voices rules (m.draw rules player design.id) :=
      Calm.voices (.draw rfl hz hcard) (.silent rfl rfl)
    refine .of_run hrun (.single hdraw) ?_
    refine Voiced.bind hc (payCosts_walks hc hres hp (hm.attr_of_canPay hseat hcosts)).voiced
      (fun _ => ?_) _ (kept_fits_voices hc _ _ hdraw hm)
    refine .bind hc (putIntoPlay_voiced hc hres hplay.known) fun _ m _ => ?_
    exact .modify_bind (Change.voices .reveal) (.pure _)

theorem drain_voiced (count : Nat) : Voiced rules ids (drain resolve count) := by
  induction count with
  | zero => exact fun m _ => .pure ()
  | succ count ih =>
      intro m hm
      refine .get_bind ?_
      split
      · exact .pure ()
      · next firing session hnext =>
          have hmove : m.Voices rules { m with session } :=
            Calm.voices (.next rfl hnext) (.silent rfl rfl)
          obtain ⟨-, hqueue, hnone⟩ := Session.next?_eq_some hnext
          have hcarried : rules.catalog.Carries firing.effect :=
            hm.conforms.session.queue firing (hqueue ▸ List.mem_cons_self)
          have hm' := kept_fits_voices hc _ _ hmove hm
          refine .modify_bind hmove (.get_bind ?_)
          split
          · have hdo := hres firing hcarried _ ⟨hm', by simp [Session.isIdle, hnone]⟩
            exact (voiced_of_changes hdo).bind fun _ m'' h => ih m'' (hdo.after (kept_fits hc) hm' h)
          · exact ih _ hm'

/-- Whoever has to answer is asked again only while it is their turn. -/
theorem selectTarget_voices (hm : m.Fits rules.catalog ids) (hopen : m.Expectant)
    (player : PlayerId) (choice : TargetChoice) :
    Leads (Match.Voices rules) (fun _ => True) (selectTarget rules resolve player choice) m := by
  refine .get_bind ?_
  split
  · exact .pure _
  · next selection hpending =>
      split
      · exact .pure _
      · next hchooser =>
          split
          · refine .modify_bind (Calm.voices (.repeatQuestion player selection) ?_) (.pure _)
            refine .ask rfl rfl ?_ rfl
            rw [hopen.chooser selection hpending, not_not.mp hchooser]
          · next hrefused =>
              have hadmits : selection.admits rules m.table choice = true := by
                simpa using hrefused
              have hcarried := hm.conforms.session.pending selection hpending
              have hmove : m.Voices rules { m with session.pending := none } :=
                Calm.voices (.answer rfl) (.silent rfl rfl)
              refine .modify_bind hmove ?_
              refine Voiced.bind hc (resolveChosen_walks hc hres (tolerates_all rules) hcarried
                (hm.mem_of_admits hadmits) ((Scope.all_covers _).grants selection choice)).voiced
                (fun _ => ?_) _ (kept_fits_voices hc _ _ hmove hm)
              refine .bind hc (fun m hm => .get_bind (drain_voiced hc hres _ m hm)) fun _ _ _ => ?_
              exact .pure _

omit hc hres in
theorem endGame_voices (m : Match) (winner : Option PlayerId) :
    Leads (Match.Voices rules) (fun _ => True) (endGame winner) m := by
  refine .get_bind ?_
  split
  · exact .modify_bind (Step.voices (.finish winner) ⟨.silent rfl rfl, rfl⟩)
      (.modify (Step.voices (.broadcast rfl) ⟨.broadcast rfl rfl rfl rfl, rfl⟩))
  · exact .pure ()

theorem attackCard_voiced (card : LiveId) : Voiced rules ids (attackCard rules resolve card) := by
  intro m hm
  refine .get_bind ?_
  split
  · exact .throw trivial
  · exact (voiced_of_changes (raise_walks hc hres _ card m hm)).bind fun _ _ _ =>
      .modify (Change.voices .reveal)

theorem handleIntent_voices (hm : m.Fits rules.catalog ids) (hopen : m.Expectant)
    (player : PlayerId) (intent : Intent) (now : Nat) :
    Leads (Match.Voices rules) (fun _ => True)
      (handleIntent rules resolve player intent now) m := by
  cases intent with
  | register name deck => exact .pure _
  | playCard card => exact playCard_voiced hc hres player card m hm
  | stopTurn => exact stopTurn_voiced hc hres player now m hm
  | moveCards origin destination count =>
      exact requestMove_voiced hc hres player origin destination _ m hm
  | selectTarget choice => exact selectTarget_voices hc hres hm hopen player choice
  | discardCards cards => exact discardCards_voices hc hres hm hopen player cards now

/-- Whatever is asked of a match, registrations and disconnections aside, speaks in the three ways
only. -/
theorem performWith_voices (hm : m.Fits rules.catalog ids) (hopen : m.Expectant) {op : Operation}
    (hseated : op.isRegister = false) (hstays : ∀ player, op ≠ .disconnect player) :
    Leads (Match.Voices rules) (fun _ => True) (performWith rules resolve op) m := by
  have hwalk {α : Type} {step : Play α} (h : Walks rules .all (fun _ => True) ids step)
      (answer : α → Answer) : Leads (Match.Voices rules) (fun _ => True) (answer <$> step) m :=
    (h.voiced m hm).map answer
  cases op with
  | register => cases hseated
  | disconnect player => exact absurd rfl (hstays player)
  | start now => exact (startGame_voiced hc hres now m hm).thenDone
  | endTurn now => exact (endTurn_voiced hc hres now m hm).thenDone
  | tick now => exact (tick_voiced hc hres now m hm).map _
  | stopTurn player now => exact (stopTurn_voiced hc hres player now m hm).map _
  | discardCards player cards now =>
      exact (discardCards_voices hc hres hm hopen player cards now).map _
  | requestMove player origin destination count =>
      exact (requestMove_voiced hc hres player origin destination count m hm).map _
  | playCard player card => exact (playCard_voiced hc hres player card m hm).map _
  | selectTarget player choice =>
      exact (selectTarget_voices hc hres hm hopen player choice).map _
  | intent player intent now =>
      exact (handleIntent_voices hc hres hm hopen player intent now).map _
  | endGame winner => exact (endGame_voices m winner).thenDone
  | attack card => exact (attackCard_voiced hc hres card m hm).thenDone
  | moveCards player origin destination count =>
      exact hwalk (moveCards_walks hc hres (.inr trivial) (.inr trivial) (.inr trivial) count) _
  | kill card => exact ((kill_walks hc hres card).voiced m hm).thenDone
  | transform card into => exact hwalk (transform_walks hc hres rfl (.inl rfl) (.inr trivial)) _
  | setPlayerAttribute player attr value =>
      exact ((setPlayerAttribute_walks hc hres (.inr trivial) (.inr trivial) value).voiced m
        hm).thenDone
  | setCardAttribute card attr value =>
      exact (voiced_of_changes
        (setCardAttribute_leads hc hres hm (.inr trivial) (.inr trivial) value)).thenDone

end

/-! ## Operations -/

/-- Whatever is said on the way is said in front of the seats that there are in the end. -/
def Match.Talks (m m' : Match) : Prop :=
  ReflTransGen (fun a b => a.Utters b ∧ b.table.lines = m'.table.lines) m m'

theorem Match.speaks_of_voices (h : ReflTransGen (Match.Voices rules) m m') :
    ReflTransGen Match.Speaks m m' := by
  induction h with
  | refl => exact .refl
  | tail _ hstep ih => exact ih.trans hstep.speaks

theorem Match.talks_of_speaks (h : ReflTransGen Match.Speaks m m') : m.Talks m' := by
  suffices m.Talks m' ∧ m.table.lines = m'.table.lines from this.1
  induction h using ReflTransGen.head_induction_on with
  | refl => exact ⟨.refl, rfl⟩
  | head hstep _ ih =>
      obtain ⟨htalks, hlines⟩ := ih
      exact ⟨.head ⟨hstep.1, hlines⟩ htalks, hstep.2.symm.trans hlines⟩

theorem Match.talks_of_utters (h : m.Utters m') : m.Talks m' :=
  .single ⟨h, rfl⟩

/-- The operation is about nobody's seat. -/
def Operation.keepsSeats : Operation → Bool
  | .register .. | .disconnect _ => false
  | _ => true

/-- An operation that is about nobody's seat speaks in the three ways only, and everybody keeps their
seat. -/
theorem perform_speaks (hc : rules.catalog.Coherent) (hm : m.Conforms rules.catalog)
    (hopen : m.Expectant) {op : Operation} (hkeeps : op.keepsSeats = true) :
    ReflTransGen Match.Speaks m (m.perform rules op).2 := by
  have hfits : m.Fits rules.catalog m.table.playerIds := ⟨hm, rfl⟩
  have hseated : op.isRegister = false := by cases op <;> first | rfl | cases hkeeps
  have hstays : ∀ player, op ≠ .disconnect player := by rintro player rfl; cases hkeeps
  exact Match.speaks_of_voices
    (performWith_voices hc (resolver_resolves_all hc) hfits hopen hseated hstays).path

theorem Match.lines_of_speaks (h : ReflTransGen Match.Speaks m m') :
    m'.table.lines = m.table.lines := by
  induction h with
  | refl => rfl
  | tail _ hstep ih => exact hstep.2.trans ih

/-- **An operation speaks in the three ways only, in front of the seats that it leaves.** -/
theorem perform_talks (hc : rules.catalog.Coherent) (hm : m.Conforms rules.catalog)
    (hopen : m.Expectant) (op : Operation) : m.Talks (m.perform rules op).2 := by
  cases hkeeps : op.keepsSeats with
  | true => exact Match.talks_of_speaks (perform_speaks hc hm hopen hkeeps)
  | false =>
      cases op with
      | register name connection deck =>
          have hop : (Operation.register name connection deck).isRegister = true := rfl
          rcases register_cases rules m hop with heq | ⟨name, connection, deck, -, heq⟩ <;> rw [heq]
          · exact .refl
          · exact Match.talks_of_utters (.broadcast rfl rfl rfl rfl)
      | disconnect player => exact Match.talks_of_utters (.silent rfl rfl)
      | _ => cases hkeeps

theorem Reachable.talks (hc : rules.catalog.Coherent) (h : Reachable rules m) (op : Operation) :
    m.Talks (m.perform rules op).2 :=
  perform_talks hc (h.conforms hc) (h.attentive hc).expectant op

/-! ## What has ever been said -/

/-- Every letter is part of what was said at the table of its moment. -/
def Match.Testified (m : Match) : Prop :=
  List.Forall₂ (fun letter scene => ∃ mail, Table.Says scene mail ∧ letter ∈ mail)
    m.outbox.toList m.scenes.toList

theorem Match.Utters.testified (h : m.Utters m') (hm : m.Testified) : m'.Testified := by
  obtain ⟨mail, hmail, houtbox, hscenes⟩ := h
  rw [Match.Testified, houtbox, hscenes]
  refine List.rel_append hm ?_
  rw [List.forall₂_map_right_iff, List.forall₂_same]
  exact fun letter hletter => ⟨mail, hmail, hletter⟩

theorem Match.Talks.testified (h : m.Talks m') (hm : m.Testified) : m'.Testified := by
  have hkept : Kept Match.Testified fun a b => a.Utters b ∧ b.table.lines = m'.table.lines :=
    fun _ _ hstep ha => hstep.1.testified ha
  exact hkept.chain h hm

theorem Reachable.testified (hc : rules.catalog.Coherent) (h : Reachable rules m) :
    m.Testified := by
  induction h with
  | opening handle dice => exact .nil
  | perform op h ih => exact (h.talks hc op).testified ih

/-- Members in the same place are related. -/
private theorem exists_getElem?_of_forall₂ {α β : Type} {R : α → β → Prop} {xs : List α}
    {ys : List β} (h : List.Forall₂ R xs ys) :
    ∀ {i : Nat} {x : α}, xs[i]? = some x → ∃ y, ys[i]? = some y ∧ R x y := by
  induction h with
  | nil => simp
  | @cons x y xs ys hxy _ ih =>
      intro i
      cases i with
      | zero =>
          rintro _ ⟨⟩
          exact ⟨y, rfl, hxy⟩
      | succ i => exact ih

/-- **Every letter that was ever sent was said at the table of its moment.** -/
theorem Reachable.said (hc : rules.catalog.Coherent) (h : Reachable rules m) {i : Nat}
    {letter : ConnectionId × Message} (hi : m.outbox[i]? = some letter) :
    ∃ scene mail, m.scenes[i]? = some scene ∧ scene.Says mail ∧ letter ∈ mail := by
  rw [← Array.getElem?_toList] at hi
  obtain ⟨scene, hscene, mail, hmail, hletter⟩ := exists_getElem?_of_forall₂ (h.testified hc) hi
  exact ⟨scene, mail, by rwa [← Array.getElem?_toList], hmail, hletter⟩

namespace Table.Says

variable {t : Table} {mail : List (ConnectionId × Message)} {letter : ConnectionId × Message}

/-- Whoever is shown the table can be reached, and is shown what they may see. -/
theorem viewer (h : t.Says mail) (hletter : letter ∈ mail) {view : Snapshot}
    (hview : letter.2.snapshot? = some view) :
    ∃ seat ∈ t.players, seat.isConnected = true ∧ seat.connection = letter.1 ∧
      view = t.snapshot (some seat.id) := by
  cases h with
  | nothing => cases hletter
  | news plain =>
      obtain ⟨seat, -, rfl⟩ := List.mem_map.mp hletter
      cases plain.symm.trans hview
  | views showing =>
      obtain ⟨seat, hseat, rfl⟩ := List.mem_map.mp hletter
      obtain ⟨hmem, hreached⟩ := List.mem_filter.mp hseat
      refine ⟨seat, hmem, hreached, rfl, ?_⟩
      cases showing <;> exact (Option.some.inj hview).symm
  | question _ asking =>
      obtain ⟨seat, -, rfl⟩ := List.mem_map.mp hletter
      cases (Message.snapshot?_of_isQuestion asking).symm.trans hview

/-- Whoever is asked is the active player, and can be reached. -/
theorem asked (h : t.Says mail) (hletter : letter ∈ mail) (hasks : letter.2.isQuestion = true) :
    ∃ seat, t.activePlayer? = some seat.id ∧ t.player? seat.id = some seat ∧
      seat.isConnected = true ∧ seat.connection = letter.1 := by
  cases h with
  | nothing => cases hletter
  | news _ telling =>
      obtain ⟨seat, -, rfl⟩ := List.mem_map.mp hletter
      cases telling.symm.trans hasks
  | views showing =>
      obtain ⟨seat, -, rfl⟩ := List.mem_map.mp hletter
      cases showing <;> cases hasks
  | question active =>
      obtain ⟨seat, hseat, rfl⟩ := List.mem_map.mp hletter
      obtain ⟨hfound, hreached⟩ := Option.filter_eq_some_iff.mp (Option.mem_toList.mp hseat)
      obtain ⟨-, rfl⟩ := Table.mem_of_player? hfound
      exact ⟨seat, active, hfound, hreached, rfl⟩

end Table.Says

/-! ## Connections of one player -/

/-- The player is seated and can be reached, at a connection that no other player uses. -/
def Table.HasAlone (t : Table) (player : PlayerId) (connection : ConnectionId) : Prop :=
  ∃ seat ∈ t.players, seat.id = player ∧ seat.connection = connection ∧ seat.isConnected = true ∧
    ∀ other ∈ t.players, other.connection = connection → other = seat

instance (t : Table) (player : PlayerId) (connection : ConnectionId) :
    Decidable (t.HasAlone player connection) :=
  inferInstanceAs (Decidable (∃ seat ∈ t.players, _))

namespace Table.HasAlone

variable {t : Table} {player : PlayerId} {connection : ConnectionId}

/-- Whoever has a connection of their own is the one who is reached there. -/
theorem connected (hids : t.playerIds.Nodup) (h : t.HasAlone player connection) :
    ∃ seat, seat.id = player ∧ t.connected.filter (·.connection = connection) = [seat] := by
  obtain ⟨seat, hseat, hid, hhere, hreached, halone⟩ := h
  have hmem : seat ∈ t.connected := List.mem_filter.mpr ⟨hseat, hreached⟩
  have hnodup : t.connected.Nodup := (List.Nodup.of_map _ hids).filter _
  refine ⟨seat, hid, ?_⟩
  calc t.connected.filter (·.connection = connection)
      = t.connected.filter (· == seat) := by
        refine List.filter_congr fun other hother => ?_
        rw [Bool.eq_iff_iff, decide_eq_true_eq, beq_iff_eq]
        refine ⟨halone other (List.mem_filter.mp hother).1, ?_⟩
        rintro rfl
        exact hhere
    _ = [seat] := by rw [List.filter_beq, List.count_eq_one_of_mem hnodup hmem]; rfl

theorem reached (hids : t.playerIds.Nodup) (h : t.HasAlone player connection) :
    t.reached connection = 1 := by
  obtain ⟨seat, -, hseat⟩ := h.connected hids
  rw [Table.reached, List.countP_eq_length_filter, hseat]
  rfl

end Table.HasAlone

end CardArena
