import Mathlib
import CardArena.Proofs.Reachable

/-!
# What a match waits for

A match waits for the target of an effect, for a discard, or for time to run out.  Whatever it waits
for, it waits for the player whose turn it is: nobody else can answer in their place, and nobody has
to answer when their turn is over.

Within a turn this is kept by every single step (`Calm.expectant`).  A step between turns may break it:
when the turn passes, an open question is still a question to the player before, and there is no time
to run out yet.  But whatever a turn left open is dropped when the next one starts, so that of a turn
that starts nothing need be known of what was before (`Opens.attentive`).

* `Course.attentive` : an operation leaves a match that waits for the active player, whatever it sets
  off and whatever fails on the way.
* `waits_for_active_player` : so does every run of operations.
-/

namespace CardArena

open Relation (ReflTransGen)

/-- Whatever is open is open to the active player. -/
structure Match.Expectant (m : Match) : Prop where
  chooser : ∀ selection, m.session.pending = some selection →
    m.table.activePlayer? = some selection.chooser
  line : m.session.queue ≠ [] → m.table.isRunning
  debt : ∀ debt, m.debt = some debt → m.table.activePlayer? = some debt.player ∧ 0 < debt.count

/-- Whatever is open is open to the active player, and the time of their turn runs. -/
structure Match.Attentive (m : Match) : Prop where
  expectant : m.Expectant
  clock : m.deadline.isSome = m.table.isRunning

variable {rules : Rulebook} {scope : Scope} {m m' : Match}

namespace Match.Expectant

theorem congr (h : m.Expectant) (hactive : m'.table.activePlayer? = m.table.activePlayer?)
    (hturn : m'.table.turn = m.table.turn) (hsession : m'.session = m.session)
    (hdebt : m'.debt = m.debt) : m'.Expectant := by
  have hrunning : m'.table.isRunning = m.table.isRunning := by
    rw [Table.isRunning, Table.isRunning, hturn]
  refine ⟨fun selection hpending => ?_, fun hline => ?_, fun debt howed => ?_⟩
  · rw [hactive]
    exact h.chooser selection (hsession ▸ hpending)
  · rw [hrunning]
    exact h.line (hsession ▸ hline)
  · rw [hactive]
    exact h.debt debt (hdebt ▸ howed)

/-- Where nothing is open, nothing is open to anybody else. -/
theorem of_empty (hsession : m.session = {}) (hdebt : m.debt = none) : m.Expectant := by
  refine ⟨fun selection hpending => ?_, fun hline => ?_, fun debt howed => ?_⟩
  · rw [hsession] at hpending
    cases hpending
  · rw [hsession] at hline
    exact absurd rfl hline
  · rw [hdebt] at howed
    cases howed

/-- While a question is open the match is under way. -/
theorem isRunning (h : m.Expectant) (hopen : m.session.pending.isSome) : m.table.isRunning := by
  obtain ⟨selection, hpending⟩ := Option.isSome_iff_exists.mp hopen
  exact Table.isRunning_of_activePlayer? (h.chooser selection hpending)

end Match.Expectant

/-! ## Within a turn -/

/-- A cascade asks the active player, and firings wait only behind a question. -/
theorem Change.expectant (h : Change rules scope m m') (hm : m.Expectant) : m'.Expectant := by
  have hactive := Table.activePlayer?_congr h.playerIds h.turn.1
  obtain ⟨hturn, hdebt, -⟩ := h.turn
  cases h with
  | enqueue waiting => exact ⟨hm.chooser, fun _ => hm.isRunning waiting, hm.debt⟩
  | ask _ active =>
      rw [Match.tell_eq_post]
      refine ⟨fun selection hpending => ?_, hm.line, hm.debt⟩
      cases hpending
      exact active
  | _ => exact hm.congr hactive hturn rfl hdebt

/-- **Within a turn, whatever comes to be open is open to the active player.** -/
theorem Calm.expectant (h : Calm rules scope m m') (hm : m.Expectant) : m'.Expectant := by
  have hactive := Table.activePlayer?_congr h.playerIds h.turn
  have hturn := h.turn
  cases h with
  | change h => exact h.expectant hm
  | repeatQuestion =>
      rw [Match.tell_eq_post]
      exact hm.congr rfl rfl rfl rfl
  | answer =>
      refine ⟨fun selection hpending => ?_, hm.line, hm.debt⟩
      cases hpending
  | next _ hnext =>
      obtain ⟨-, hqueue, hnone⟩ := Session.next?_eq_some hnext
      refine ⟨fun selection hpending => ?_, fun _ => hm.line ?_, hm.debt⟩
      · cases hnone.symm.trans hpending
      · rw [hqueue]
        simp
  | discard hzone held =>
      rw [Match.discardCard_eq hzone held] at hactive hturn ⊢
      exact hm.congr hactive hturn rfl rfl
  | shuffle player zone =>
      rcases m.shuffleZone_eq player zone with heq | ⟨z, dice, -, heq⟩ <;> rw [heq] at hactive hturn ⊢
      · exact hm
      · exact hm.congr hactive hturn rfl rfl
  | owe debt active positive =>
      rw [Match.tell_eq_post]
      refine ⟨hm.chooser, hm.line, fun other howed => ?_⟩
      cases howed
      exact ⟨active, positive⟩
  | demand =>
      rw [Match.tell_eq_post]
      exact hm.congr rfl rfl rfl rfl
  | settle =>
      refine ⟨hm.chooser, hm.line, fun debt howed => ?_⟩
      cases howed
  | _ => exact hm.congr hactive hturn rfl rfl

theorem expectant_of_calm (h : ReflTransGen (Calm rules scope) m m') (hm : m.Expectant) :
    m'.Expectant := by
  induction h with
  | refl => exact hm
  | tail _ hstep ih => exact hstep.expectant ih

/-- Within a turn nobody sets the clock. -/
theorem Calm.deadline (h : Calm rules scope m m') : m'.deadline = m.deadline := by
  cases h with
  | change h => exact h.turn.2.2
  | repeatQuestion => rw [Match.tell_eq_post]; rfl
  | discard hzone held => rw [Match.discardCard_eq hzone held]; rfl
  | shuffle player zone =>
      rcases m.shuffleZone_eq player zone with heq | ⟨z, dice, -, heq⟩ <;> rw [heq]
      rfl
  | owe | demand => rw [Match.tell_eq_post]; rfl
  | _ => rfl

theorem deadline_of_calm (h : ReflTransGen (Calm rules scope) m m') :
    m'.deadline = m.deadline := by
  induction h with
  | refl => rfl
  | tail _ hstep ih => exact hstep.deadline.trans ih

theorem Match.Attentive.calm (hm : m.Attentive) (h : ReflTransGen (Calm rules scope) m m') :
    m'.Attentive := by
  refine ⟨expectant_of_calm h hm.expectant, ?_⟩
  rw [deadline_of_calm h, hm.clock, Table.isRunning, Table.isRunning, (steady_of_calm h).turn]

/-! ## Operations -/

/-- **When a turn starts, whatever was open before is dropped and the clock is set.** -/
theorem Opens.attentive {now : Nat} (h : Opens rules scope now m m') : m'.Attentive := by
  cases h with
  | @intro m₁ active hactive path =>
      have hempty : Match.Expectant { m.abandonSelection with debt := none } := .of_empty rfl rfl
      have hopened := expectant_of_calm path hempty
      have hrunning : m₁.table.isRunning = true := by
        rw [Table.isRunning, (steady_of_calm path).turn]
        exact Table.isRunning_of_activePlayer? hactive
      exact ⟨hopened.congr rfl rfl rfl rfl, hrunning.symm⟩

/-- **An operation leaves a match that waits for the active player.** -/
theorem Course.attentive {ends : Nat} (h : Course rules scope m ends m') (hm : m.Attentive) :
    m'.Attentive := by
  cases h with
  | stay path => exact hm.calm path
  | disconnect player =>
      have hids := (Step.disconnect player : Step rules scope m _).playerIds
      exact ⟨hm.expectant.congr (Table.activePlayer?_congr hids rfl) rfl rfl rfl, hm.clock⟩
  | begin begins =>
      obtain ⟨-, -, -, opens⟩ := begins
      exact opens.attentive
  | pass _ _ passes =>
      obtain ⟨-, -, opens⟩ := passes
      exact opens.attentive
  | finish winner => exact ⟨.of_empty rfl rfl, rfl⟩

/-- A seat is taken before anything is open. -/
theorem Match.Attentive.seat {deck : List CardId} (hm : m.Attentive) (hopen : m.Open rules deck)
    (name : String) (connection : ConnectionId) : (m.seat rules name connection deck).Attentive := by
  have hstopped : m.table.isRunning = false := by
    rw [Table.isRunning, hopen.notStarted]
    rfl
  have hnobody : m.table.activePlayer? = none := by
    rw [Table.activePlayer?, if_neg (by simp [hstopped])]
  refine ⟨⟨fun selection hpending => ?_, fun hline => ?_, fun debt howed => ?_⟩, hm.clock⟩
  · cases hnobody.symm.trans (hm.expectant.chooser selection hpending)
  · cases hstopped.symm.trans (hm.expectant.line hline)
  · cases hnobody.symm.trans (hm.expectant.debt debt howed).1

theorem Reachable.attentive (hc : rules.catalog.Coherent) (h : Reachable rules m) :
    m.Attentive := by
  induction h with
  | opening handle dice => exact ⟨.of_empty rfl rfl, rfl⟩
  | @perform m op h ih =>
      cases hop : op.isRegister with
      | true =>
          rcases register_cases rules m hop with heq | ⟨name, connection, deck, hopen, heq⟩ <;>
            rw [heq]
          · exact ih
          · exact ih.seat hopen name connection
      | false =>
          exact (perform_course hc (Scope.all_covers _) (h.conforms hc) op.within_all hop).attentive ih

/-- **Whatever a match waits for, it waits for the player whose turn it is.**

An open question is a question to the active player, and so is an open discard, of at least one card.
Firings wait only while the match is under way, and so does the clock run, which then runs.  Whoever is
active has a seat.  The match has come about by any operations with any answers. -/
theorem waits_for_active_player (hc : rules.catalog.Accepted) (h : Reachable rules m) :
    (∀ selection, m.session.pending = some selection →
      m.table.isRunning ∧ m.table.activePlayer? = some selection.chooser) ∧
    (m.session.queue ≠ [] → m.table.isRunning) ∧
    (∀ debt, m.debt = some debt →
      m.table.isRunning ∧ m.table.activePlayer? = some debt.player ∧ 0 < debt.count) ∧
    (m.deadline.isSome ↔ m.table.isRunning) ∧
    (m.table.isRunning → m.table.turn.activeIndex < m.table.players.length) := by
  obtain ⟨hexpectant, hclock⟩ := h.attentive hc.coherent
  refine ⟨fun selection hpending => ?_, hexpectant.line, fun debt howed => ?_, ?_, ?_⟩
  · have hactive := hexpectant.chooser selection hpending
    exact ⟨Table.isRunning_of_activePlayer? hactive, hactive⟩
  · obtain ⟨hactive, hpositive⟩ := hexpectant.debt debt howed
    exact ⟨Table.isRunning_of_activePlayer? hactive, hactive, hpositive⟩
  · rw [hclock]
  · exact (h.timely hc.coherent).active

namespace Duel

/-- The duel of players who may hold no card when their turn ends. -/
def openHanded : Rulebook :=
  { book with config := { maxHandSize := 0 } }

/-- Ann's first archer asks whom to hit and the second one waits, while Ann wants to end her turn with
the wolf in hand. -/
def overdrawn : Match :=
  after openHanded (deal ++ [.playCard ⟨0⟩ ⟨2⟩, .playCard ⟨0⟩ ⟨2⟩, .stopTurn ⟨0⟩ 5])

theorem overdrawn_waits :
    overdrawn.session.pending = some ⟨.player, shot, ⟨0⟩, ⟨0⟩⟩ ∧
    overdrawn.session.queue = [⟨shot, ⟨1⟩⟩] ∧ overdrawn.debt = some ⟨⟨0⟩, 1⟩ ∧
    overdrawn.deadline = some 60000 ∧
    overdrawn.table.isRunning ∧ overdrawn.table.activePlayer? = some ⟨0⟩ ∧ 0 < 1 ∧
    overdrawn.table.turn.activeIndex < overdrawn.table.players.length := by
  have hpending : overdrawn.session.pending = some ⟨.player, shot, ⟨0⟩, ⟨0⟩⟩ := by decide +kernel
  have howed : overdrawn.debt = some ⟨⟨0⟩, 1⟩ := by decide +kernel
  have hc : openHanded.catalog.Accepted := accepted
  obtain ⟨hquestion, -, hdebt, -, hseat⟩ := waits_for_active_player hc (reachable_after ..)
  obtain ⟨hrunning, hactive⟩ := hquestion _ hpending
  exact ⟨hpending, by decide +kernel, howed, by decide +kernel, hrunning, hactive,
    (hdebt _ howed).2.2, hseat hrunning⟩

end Duel

end CardArena
