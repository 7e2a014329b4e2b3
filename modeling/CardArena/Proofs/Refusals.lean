import Mathlib
import CardArena.Proofs.Letters
import CardArena.Proofs.Reachable

/-!
# What a request leaves that is not granted

A request of a client is granted, or it is rejected, answered by the same question again, or put off
until the player has discarded.  If it is not granted then whatever it was checked against has been
read and not written: every check comes before the first change, for each of the six requests
(`handleIntent_answers`).

The question that is put again is one that the player has had before.  This is an invariant of its own
(`Match.Prompted`): whoever is asked is told at once, letters are never taken back, and whoever is
reached later was reached then.

* `refused_requests_change_nothing` : what is left of a reachable match, for each way not to grant.
-/

namespace CardArena

open Play
open Relation (ReflTransGen)

variable {rules : Rulebook} {scope : Scope} {ids : List PlayerId} {resolve : Resolver}
  {m m' : Match} {player : PlayerId} {outcome : Outcome}

/-! ## Open requests -/

/-- What the match waits for a player to answer. -/
inductive Match.Requests (m : Match) : PlayerId → Message → Prop
  | target {selection : Selection} (pending : m.session.pending = some selection) :
      m.Requests selection.chooser selection.question
  | discard {debt : DiscardDebt} (owed : m.debt = some debt) : m.Requests debt.player debt.demand

/-- A message has gone out to a player, if they can be reached. -/
def Match.HasTold (m : Match) (player : PlayerId) (message : Message) : Prop :=
  ∀ seat, m.table.player? player = some seat → seat.isConnected →
    (seat.connection, message) ∈ m.outbox

/-- Whoever has to answer has been told what. -/
def Match.Prompted (m : Match) : Prop :=
  ∀ player request, m.Requests player request → m.HasTold player request

/-- Where somebody is reached is a matter of lines alone. -/
theorem Table.player?_lines (t : Table) (player : PlayerId) :
    (t.player? player).map (fun seat => (seat.id, seat.connection, seat.isConnected))
      = t.lines.find? (·.1 = player) := by
  rw [lines, List.find?_map, player?]
  rfl

namespace Match.HasTold

/-- Whoever is told has been told. -/
theorem tell (m : Match) (player : PlayerId) (message : Message) :
    (m.tell player message).HasTold player message := by
  intro seat hseat hconnected
  rw [tell_eq_post] at hseat ⊢
  rw [show m.table.player? player = some seat from hseat, ← Array.mem_toList_iff, toList_post]
  simp [Option.filter, hconnected]

/-- What has gone out has gone out, as long as the player is reached where they were. -/
theorem mono {message : Message} (h : m.HasTold player message)
    (hlines : m'.table.lines = m.table.lines) (hsends : m.Sends m') :
    m'.HasTold player message := by
  intro seat hseat hconnected
  have hsame := m.table.player?_lines player
  rw [← hlines, ← Table.player?_lines, hseat] at hsame
  obtain ⟨old, hold, heq⟩ := Option.map_eq_some_iff.mp hsame
  simp only [Prod.mk.injEq] at heq
  obtain ⟨-, hconnection, hreached⟩ := heq
  rw [← hconnection]
  exact hsends.mem (h old hold (hreached.trans hconnected))

/-- Whoever is reached after somebody has gone was reached before. -/
theorem disconnect {message : Message} (h : m.HasTold player message) (gone : PlayerId) :
    (m.onTable (·.modifyPlayer gone ({ · with isConnected := false }))).HasTold player message := by
  intro seat hseat hconnected
  change (m.table.players.map _).find? (·.id = player) = some seat at hseat
  rw [List.find?_map] at hseat
  obtain ⟨old, hold, rfl⟩ := Option.map_eq_some_iff.mp hseat
  by_cases hgone : old.id = gone
  · simp [hgone] at hconnected
  · have hid : ((fun seat : Player => decide (seat.id = player)) ∘ fun seat : Player =>
        if seat.id = gone then { seat with isConnected := false } else seat)
          = fun seat => decide (seat.id = player) := by
      funext seat
      by_cases he : seat.id = gone <;> simp [he]
    rw [hid] at hold
    simp only [hgone, if_false] at hconnected ⊢
    exact h old hold hconnected

end Match.HasTold

namespace Match.Prompted

theorem mono (h : m.Prompted) (hlines : m'.table.lines = m.table.lines) (hsends : m.Sends m')
    (hpending : ∀ selection, m'.session.pending = some selection →
      m.session.pending = some selection)
    (hdebt : ∀ debt, m'.debt = some debt → m.debt = some debt) : m'.Prompted := by
  intro player request hrequest
  cases hrequest with
  | target pending => exact (h _ _ (.target (hpending _ pending))).mono hlines hsends
  | discard owed => exact (h _ _ (.discard (hdebt _ owed))).mono hlines hsends

theorem of_empty (hpending : m.session.pending = none) (hdebt : m.debt = none) : m.Prompted := by
  intro player request hrequest
  cases hrequest with
  | target pending => cases hpending.symm.trans pending
  | discard owed => cases hdebt.symm.trans owed

end Match.Prompted

/-- A cascade tells whom it asks. -/
theorem Change.prompted (h : Change rules scope m m') (hm : m.Prompted) : m'.Prompted := by
  have hlines := h.steady.lines
  have hsends := h.sends
  obtain ⟨-, hdebt, -⟩ := h.turn
  have howed : ∀ debt, m'.debt = some debt → m.debt = some debt := fun _ h => hdebt ▸ h
  cases h with
  | @ask selection =>
      intro player request hrequest
      cases hrequest with
      | target pending =>
          have htold := Match.HasTold.tell { m with session.pending := some selection }
            selection.chooser selection.question
          rw [Match.tell_eq_post] at pending
          cases pending
          exact htold
      | discard owed => exact (hm _ _ (.discard (howed _ owed))).mono hlines hsends
  | _ => exact hm.mono hlines hsends (fun _ => id) howed

/-- **Within a turn, whoever comes to have to answer is told at once.** -/
theorem Calm.prompted (h : Calm rules scope m m') (hm : m.Prompted) : m'.Prompted := by
  have hlines := h.steady.lines
  have hsends := h.sends
  cases h with
  | change h => exact h.prompted hm
  | repeatQuestion | demand =>
      rw [Match.tell_eq_post] at hlines hsends ⊢
      exact hm.mono hlines hsends (fun _ => id) fun _ => id
  | answer =>
      refine hm.mono hlines hsends (fun selection hpending => ?_) fun _ => id
      cases hpending
  | next _ hnext =>
      obtain ⟨-, -, hnone⟩ := Session.next?_eq_some hnext
      refine hm.mono hlines hsends (fun selection hpending => ?_) fun _ => id
      cases hnone.symm.trans hpending
  | discard hzone held =>
      rw [Match.discardCard_eq hzone held] at hlines hsends ⊢
      exact hm.mono hlines hsends (fun _ => id) fun _ => id
  | shuffle player zone =>
      rcases m.shuffleZone_eq player zone with heq | ⟨z, dice, -, heq⟩ <;>
        rw [heq] at hlines hsends ⊢
      · exact hm
      · exact hm.mono hlines hsends (fun _ => id) fun _ => id
  | owe debt =>
      intro player request hrequest
      cases hrequest with
      | target pending =>
          rw [Match.tell_eq_post] at pending
          exact (hm _ _ (.target pending)).mono hlines hsends
      | discard owed =>
          have htold := Match.HasTold.tell { m with debt := some debt } debt.player debt.demand
          rw [Match.tell_eq_post] at owed
          cases owed
          exact htold
  | settle =>
      refine hm.mono hlines hsends (fun _ => id) fun debt howed => ?_
      cases howed
  | _ => exact hm.mono hlines hsends (fun _ => id) fun _ => id

theorem prompted_of_calm (h : ReflTransGen (Calm rules scope) m m') (hm : m.Prompted) :
    m'.Prompted := by
  induction h with
  | refl => exact hm
  | tail _ hstep ih => exact hstep.prompted ih

/-- Nobody is asked anything as a turn starts, until something that happens then asks them. -/
theorem Opens.prompted {now : Nat} (h : Opens rules scope now m m') : m'.Prompted := by
  cases h with
  | @intro m₁ active _ path =>
      have hempty : Match.Prompted { m.abandonSelection with debt := none } := .of_empty rfl rfl
      have hsends : m₁.Sends (m₁.openTurn rules active now) := by
        refine Match.Posts.broadcastViews ?_ fun _ => ?_
        · exact .of_eq rfl
        · rfl
      exact (prompted_of_calm path hempty).mono rfl hsends (fun _ => id) fun _ => id

theorem Course.prompted {ends : Nat} (h : Course rules scope m ends m') (hm : m.Prompted) :
    m'.Prompted := by
  cases h with
  | stay path => exact prompted_of_calm path hm
  | disconnect player =>
      intro asked request hrequest
      cases hrequest with
      | target pending => exact (hm _ _ (.target pending)).disconnect player
      | discard owed => exact (hm _ _ (.discard owed)).disconnect player
  | begin begins =>
      obtain ⟨-, -, -, opens⟩ := begins
      exact opens.prompted
  | pass _ _ passes =>
      obtain ⟨-, -, opens⟩ := passes
      exact opens.prompted
  | finish winner => exact .of_empty rfl rfl

theorem Reachable.prompted (hc : rules.catalog.Coherent) (h : Reachable rules m) : m.Prompted := by
  induction h with
  | opening handle dice => exact .of_empty rfl rfl
  | @perform m op h ih =>
      cases hop : op.isRegister with
      | true =>
          rcases register_cases rules m hop with heq | ⟨name, connection, deck, hopen, heq⟩ <;>
            rw [heq]
          · exact ih
          · have hstopped : m.table.isRunning = false := by
              rw [Table.isRunning, hopen.notStarted]
              rfl
            have htimely := h.timely hc
            refine .of_empty (Option.not_isSome_iff_eq_none.mp fun hopened => ?_)
              (Option.not_isSome_iff_eq_none.mp fun howed => ?_)
            · cases hstopped.symm.trans (htimely.question hopened)
            · cases hstopped.symm.trans (htimely.debt howed)
      | false =>
          exact (perform_course hc (Scope.all_covers _) (h.conforms hc) op.within_all hop).prompted ih

/-! ## Requests of clients -/

/-- What a request leaves of a match, if it is not granted. -/
inductive Match.Leaves (m : Match) (rules : Rulebook) (player : PlayerId) : Outcome → Match → Prop
  | rejected (reason : Refusal) : m.Leaves rules player (.rejected reason) m
  | repeated {request : Message} (isOpen : m.Requests player request) :
      m.Leaves rules player .reprompted (m.tell player request)
  | deferred {debt : DiscardDebt} (settled : m.debt = none) (debtor : debt.player = player)
      (count : debt.count = m.handExcess rules player) (positive : 0 < debt.count) :
      m.Leaves rules player .deferred ({ m with debt := some debt }.tell player debt.demand)

/-- The step can only be granted, or fail. -/
def Grants (step : Play Outcome) : Prop :=
  ∀ m outcome m', step.run m = (.ok outcome, m') → outcome = .applied

theorem Grants.pure : Grants (pure .applied) := by
  intro m outcome m' hrun
  cases hrun
  rfl

/-- What is done before the answer does not matter. -/
theorem Grants.bind {step : Play α} {k : α → Play Outcome} (hk : ∀ a, Grants (k a)) :
    Grants (step >>= k) := by
  intro m outcome m' hrun
  obtain ⟨a, m₁, -, hrest⟩ := run_bind_eq_ok hrun
  exact hk a m₁ outcome m' hrest

/-- Whatever a step answers that is not that it is granted, it leaves the match accordingly. -/
def Answers (rules : Rulebook) (player : PlayerId) (step : Play Outcome) (m : Match) : Prop :=
  ∀ outcome m', step.run m = (.ok outcome, m') →
    outcome = .applied ∨ m.Leaves rules player outcome m'

namespace Answers

theorem rejected (reason : Refusal) : Answers rules player (pure (.rejected reason)) m := by
  intro outcome m' hrun
  cases hrun
  exact .inr (.rejected reason)

/-- A step that can only be granted may do what it likes. -/
theorem granted {step : Play Outcome} (h : Grants step) : Answers rules player step m :=
  fun outcome m' hrun => .inl (h m outcome m' hrun)

theorem get_bind {k : Match → Play Outcome} (h : Answers rules player (k m) m) :
    Answers rules player (get >>= k) m :=
  h

end Answers

theorem stopTurn_answers (m : Match) (player : PlayerId) (now : Nat) :
    Answers rules player (stopTurn rules resolve player now) m := by
  refine .get_bind ?_
  split
  · exact .rejected _
  · split
    · exact .rejected _
    · next hsettled =>
        dsimp only
        split
        · next hexcess =>
            intro outcome m' hrun
            cases hrun
            exact .inr (.deferred (Option.not_isSome_iff_eq_none.mp hsettled) rfl rfl hexcess)
        · exact .granted (.bind fun _ => .pure)

theorem discardCards_answers (m : Match) (player : PlayerId) (cards : List CardId) (now : Nat) :
    Answers rules player (discardCards rules resolve player cards now) m := by
  refine .get_bind ?_
  split
  · exact .rejected _
  · next debt hdebt =>
      split
      · exact .rejected _
      · next hdebtor =>
          obtain rfl : debt.player = player := not_not.mp hdebtor
          split
          · intro outcome m' hrun
            cases hrun
            exact .inr (.repeated (.discard hdebt))
          · exact .granted (.bind fun _ => .bind fun _ => .bind fun _ => .pure)

theorem requestMove_answers (m : Match) (player : PlayerId) (origin destination : String)
    (count : Nat) :
    Answers rules player (requestMove rules resolve player origin destination count) m := by
  refine .get_bind ?_
  split
  · exact .rejected _
  · split
    · exact .rejected _
    · exact .granted (.bind fun _ => .bind fun _ => .pure)

theorem playCard_answers (m : Match) (player : PlayerId) (card : CardId) :
    Answers rules player (playCard rules resolve player card) m := by
  refine .get_bind ?_
  split
  · exact .rejected _
  · split
    · exact .rejected _
    · split
      · intro outcome m' hrun
        cases hrun
      · next design _ =>
          split
          · exact .rejected _
          · exact .granted (.bind fun _ => .bind fun _ => .bind fun _ => .bind fun _ => .pure)

theorem selectTarget_answers (m : Match) (player : PlayerId) (choice : TargetChoice) :
    Answers rules player (selectTarget rules resolve player choice) m := by
  refine .get_bind ?_
  split
  · exact .rejected _
  · next selection hpending =>
      split
      · exact .rejected _
      · next hchooser =>
          obtain rfl : selection.chooser = player := not_not.mp hchooser
          split
          · intro outcome m' hrun
            cases hrun
            exact .inr (.repeated (.target hpending))
          · exact .granted (.bind fun _ => .bind fun _ => .bind fun _ => .pure)

/-- **Of each of the six requests, every check comes before the first change.** -/
theorem handleIntent_answers (m : Match) (player : PlayerId) (intent : Intent) (now : Nat) :
    Answers rules player (handleIntent rules resolve player intent now) m := by
  cases intent with
  | register name deck => exact .rejected _
  | playCard card => exact playCard_answers m player card
  | stopTurn => exact stopTurn_answers m player now
  | moveCards origin destination count => exact requestMove_answers m player origin destination _
  | selectTarget choice => exact selectTarget_answers m player choice
  | discardCards cards => exact discardCards_answers m player cards now

/-- **A request that is not granted changes nothing but what the answer says.**

A rejected request leaves the match as it was.  If the question is put again, the player gets, if they
can be reached, the very request that is open to them and that they have had before, and that is all.
If the request is put off until the player has discarded, they come to owe that and are told. -/
theorem refused_requests_change_nothing (hc : rules.catalog.Accepted) (h : Reachable rules m)
    (player : PlayerId) (intent : Intent) (now : Nat) :
    (∀ reason, (m.perform rules (.intent player intent now)).1
        = .ok (.outcome (.rejected reason)) →
      (m.perform rules (.intent player intent now)).2 = m) ∧
    ((m.perform rules (.intent player intent now)).1 = .ok (.outcome .reprompted) →
      ∃ request, m.Requests player request ∧ m.HasTold player request ∧
        (m.perform rules (.intent player intent now)).2 = m.tell player request) ∧
    ((m.perform rules (.intent player intent now)).1 = .ok (.outcome .deferred) →
      ∃ debt : DiscardDebt, m.debt = none ∧ debt.player = player ∧
        debt.count = m.handExcess rules player ∧ 0 < debt.count ∧
        (m.perform rules (.intent player intent now)).2
          = { m with debt := some debt }.tell player debt.demand) := by
  have hanswers : Answers rules player (handleIntent rules rules.resolver player intent now) m :=
    handleIntent_answers m player intent now
  rw [Match.perform, performWith, run_map]
  rcases hrun : (handleIntent rules rules.resolver player intent now).run m with ⟨f | outcome, m'⟩
  · refine ⟨fun reason hanswer => ?_, fun hanswer => ?_, fun hanswer => ?_⟩ <;> cases hanswer
  · refine ⟨fun reason hanswer => ?_, fun hanswer => ?_, fun hanswer => ?_⟩ <;> cases hanswer <;>
      obtain hgranted | hleaves := hanswers _ _ hrun
    · cases hgranted
    · cases hleaves
      rfl
    · cases hgranted
    · cases hleaves with
      | @repeated request isOpen =>
          exact ⟨request, isOpen, h.prompted hc.coherent player request isOpen, rfl⟩
    · cases hgranted
    · cases hleaves with
      | @deferred debt settled debtor count positive =>
          exact ⟨debt, settled, debtor, count, positive, rfl⟩

namespace Duel

/-- Ann names a card as the player to hit, and the archer's question is put to her again. -/
theorem asked_again :
    ((after book (deal ++ [.playCard ⟨0⟩ ⟨2⟩])).perform book
        (.intent ⟨0⟩ (.selectTarget (.card ⟨0⟩)) 0)).1 = .ok (.outcome .reprompted) ∧
    ∃ request, (after book (deal ++ [.playCard ⟨0⟩ ⟨2⟩])).Requests ⟨0⟩ request ∧
      ((after book (deal ++ [.playCard ⟨0⟩ ⟨2⟩])).perform book
        (.intent ⟨0⟩ (.selectTarget (.card ⟨0⟩)) 0)).2
          = (after book (deal ++ [.playCard ⟨0⟩ ⟨2⟩])).tell ⟨0⟩ request := by
  have hanswer : ((after book (deal ++ [.playCard ⟨0⟩ ⟨2⟩])).perform book
      (.intent ⟨0⟩ (.selectTarget (.card ⟨0⟩)) 0)).1 = .ok (.outcome .reprompted) := by
    decide +kernel
  have hreach : Reachable book (after book (deal ++ [.playCard ⟨0⟩ ⟨2⟩])) := reachable_after ..
  obtain ⟨-, hagain, -⟩ := refused_requests_change_nothing accepted hreach ⟨0⟩
    (.selectTarget (.card ⟨0⟩)) 0
  obtain ⟨request, hopen, -, hsame⟩ := hagain hanswer
  exact ⟨hanswer, request, hopen, hsame⟩

end Duel

end CardArena
