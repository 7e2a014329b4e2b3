import Mathlib
import CardArena.Proofs.Candor
import CardArena.Proofs.Refusals
import CardArena.Proofs.Speech

/-!
# Questions and their answers

A question is put only while it has an answer.  But that is so of the table at the moment of asking.
What the operation had still to do is done then, and whoever could have been named may be gone, dead
or changed when the player comes to answer.  Nothing looks at the question again, and it stays open
until the turn ends (`Duel.lost_for_words`).

So a match that is left with a new question has put it, in one of the letters of the operation, at a
table where it had an answer (`perform_asks`).  Whether an answer is taken is decided at the table as
it is later, by what the answer names (`Selection.admits_of_unchanged`): if that has not changed, the
answer is as good as it was.

* `asked_with_an_answer` : the main statement.
-/

namespace CardArena

open Play

variable {rules : Rulebook} {resolve : Resolver} {m m' : Match}

/-! ## Answers -/

/-- There is a choice where there is an answer. -/
theorem Selection.exists_admits {s : Selection} {t : Table} (h : s.isAnswerable rules t = true) :
    ∃ choice, s.admits rules t choice = true := by
  unfold isAnswerable at h
  split at h
  · next hkind =>
      obtain ⟨seat, -, hseat⟩ := List.any_eq_true.mp h
      exact ⟨.player seat.id, by rw [admits, hkind, hseat]; rfl⟩
  · next hkind =>
      obtain ⟨card, -, hcard⟩ := List.any_eq_true.mp h
      exact ⟨.card card, by rw [admits, hkind, hcard]; rfl⟩

/-- What a choice is judged by is the same at both tables. -/
def TargetChoice.Unchanged (t t' : Table) : TargetChoice → Prop
  | .player id =>
    (t'.player? id).map Player.attributes = (t.player? id).map Player.attributes
  | .card id =>
    (t'.live? id).map (fun live => (live.card, live.owner, live.alive, live.attributes))
      = (t.live? id).map fun live => (live.card, live.owner, live.alive, live.attributes)

/-- **A choice is judged by what it names, and by nothing else.** -/
theorem Selection.admits_of_unchanged {s : Selection} {t t' : Table} {choice : TargetChoice}
    (hsame : choice.Unchanged t t') (h : s.admits rules t choice = true) :
    s.admits rules t' choice = true := by
  cases choice with
  | player id =>
      have hread (t : Table) : s.admitsPlayer t id = ((t.player? id).map Player.attributes).any
          (Condition.allHoldForPlayer s.effect.targetConditions) := by
        rw [admitsPlayer, Option.any_map]
        rfl
      rwa [admits, hread, hsame, ← hread]
  | card id =>
      cases hlive : t.live? id with
      | none => simp [admits, admitsCard, hlive] at h
      | some live =>
          rw [TargetChoice.Unchanged, hlive, Option.map_some] at hsame
          obtain ⟨live', hlive', heq⟩ := Option.map_eq_some_iff.mp hsame
          simp only [Prod.mk.injEq] at heq
          obtain ⟨hcard, howner, halive, hattributes⟩ := heq
          have hjudged : s.admitsCard rules t' id = s.admitsCard rules t id := by
            simp only [admitsCard, Effect.affects, Table.subject?, hlive, hlive', hcard, howner,
              Option.bind_eq_bind, Option.bind_some]
            cases rules.catalog.typed? live.card with
            | none => rfl
            | some _ => simp only [Option.bind_some, pure, halive, hattributes]
          rwa [admits, hjudged]

/-- A player's answer is turned away: they get the same question again, or hear that the answer is
out of place. -/
def Match.TurnsAway (rules : Rulebook) (m : Match) (player : PlayerId) (choice : TargetChoice) :
    Prop :=
  (m.perform rules (.selectTarget player choice)).1 = .ok (.outcome .reprompted) ∨
    ∃ reason, (m.perform rules (.selectTarget player choice)).1 = .ok (.outcome (.rejected reason))

/-- A choice that may not be given gets the question again. -/
theorem selectTarget_refused {s : Selection} (hopen : m.session.pending = some s)
    {choice : TargetChoice} (hrefused : s.admits rules m.table choice = false) :
    (selectTarget rules resolve s.chooser choice).run m
      = (.ok .reprompted, m.tell s.chooser s.question) := by
  rw [selectTarget, run_get_bind, hopen]
  simp only [ne_eq, not_true_eq_false, if_false, hrefused, Bool.not_false, if_true]
  rfl

/-- A choice that may be given is granted, unless what it sets off fails. -/
theorem selectTarget_granted {s : Selection} (hopen : m.session.pending = some s)
    {choice : TargetChoice} (hadmits : s.admits rules m.table choice = true) {outcome : Outcome}
    (hrun : (selectTarget rules resolve s.chooser choice).run m = (.ok outcome, m')) :
    outcome = .applied := by
  rw [selectTarget, run_get_bind, hopen] at hrun
  simp only [ne_eq, not_true_eq_false, if_false, hadmits, Bool.not_true, Bool.false_eq_true] at hrun
  exact Grants.bind (fun _ => .bind fun _ => .bind fun _ => .pure) m outcome m' hrun

/-- **An answer of the chooser is turned away just if it may not be given now.** -/
theorem Match.turnsAway_iff {s : Selection} (hopen : m.session.pending = some s)
    (choice : TargetChoice) :
    m.TurnsAway rules s.chooser choice ↔ s.admits rules m.table choice = false := by
  rw [TurnsAway, perform, performWith, run_map]
  cases hadmits : s.admits rules m.table choice with
  | false => simp [selectTarget_refused hopen hadmits, Except.map]
  | true =>
      rcases hrun : (selectTarget rules rules.resolver s.chooser choice).run m with ⟨f | outcome, m'⟩
      · simp [Except.map]
      · obtain rfl : outcome = .applied := selectTarget_granted hopen hadmits hrun
        simp [Except.map]

/-! ## The main statement -/

/-- A letter among those sent in between is found in the outbox past those sent before, and its
table in the same place. -/
theorem Match.exists_index_of_sent {sent : List ((ConnectionId × Message) × Table)}
    (haligned : m.scenes.size = m.outbox.size)
    (houtbox : m'.outbox.toList = m.outbox.toList ++ sent.map Prod.fst)
    (hscenes : m'.scenes.toList = m.scenes.toList ++ sent.map Prod.snd)
    {letter : (ConnectionId × Message) × Table} (hletter : letter ∈ sent) :
    ∃ i, m.outbox.size ≤ i ∧ m'.outbox[i]? = some letter.1 ∧ m'.scenes[i]? = some letter.2 := by
  obtain ⟨j, hj⟩ := List.mem_iff_getElem?.mp hletter
  refine ⟨m.outbox.size + j, Nat.le_add_right _ _, ?_, ?_⟩
  · rw [← Array.getElem?_toList, houtbox, List.getElem?_append_right (by simp)]
    simp [hj]
  · rw [← Array.getElem?_toList, hscenes, List.getElem?_append_right (by simp [haligned])]
    simp [haligned, hj]

/-- Whose turn it is has a seat. -/
theorem Table.isSome_player?_of_active {t : Table} {player : PlayerId}
    (h : t.activePlayer? = some player) : (t.player? player).isSome = true := by
  rw [activePlayer?] at h
  split at h
  · obtain ⟨seat, hseat, rfl⟩ := Option.map_eq_some_iff.mp h
    exact List.find?_isSome.mpr ⟨seat, List.mem_of_getElem? hseat, by simp⟩
  · cases h

/-- There is a table for every letter. -/
theorem Reachable.size_scenes (hc : rules.catalog.Coherent) (h : Reachable rules m) :
    m.scenes.size = m.outbox.size := by
  rw [← Array.length_toList, ← Array.length_toList]
  exact (h.testified hc).length_eq.symm

/-- **A question is put only while it has an answer, and the answer is good until it changes.**

The match has come about by any operations with any answers, and no question is open.  If one is
open after the next operation, whatever came of that, it was put on the way to the active player, who
could be reached, when there was a choice that they might name.  Whatever they might have named then
is not turned away now, unless it has changed since in what it is judged by.  What is turned away is
what may not be named now; a player that no condition is asked of may always be. -/
theorem asked_with_an_answer (hc : rules.catalog.Accepted) (h : Reachable rules m)
    (hidle : m.session.pending = none) (op : Operation) (hafter : (m.perform rules op).2 = m')
    {s : Selection} (hopen : m'.session.pending = some s) :
    (∃ i scene seat, m.outbox.size ≤ i ∧ m'.outbox[i]? = some (seat.connection, s.question) ∧
      m'.scenes[i]? = some scene ∧ scene.activePlayer? = some s.chooser ∧
      scene.player? s.chooser = some seat ∧ seat.isConnected = true ∧
      (∃ choice, s.admits rules scene choice = true) ∧
      ∀ choice, s.admits rules scene choice = true → choice.Unchanged scene m'.table →
        ¬m'.TurnsAway rules s.chooser choice) ∧
    (∀ choice, m'.TurnsAway rules s.chooser choice ↔ s.admits rules m'.table choice = false) ∧
    (s.kind = .player → s.effect.targetConditions = [] →
      ∃ choice, ¬m'.TurnsAway rules s.chooser choice) := by
  have hafterwards : Reachable rules m' := hafter ▸ h.perform op
  have hjudged : ∀ choice, m'.TurnsAway rules s.chooser choice
      ↔ s.admits rules m'.table choice = false := Match.turnsAway_iff hopen
  have hgood : ∀ choice, s.admits rules m'.table choice = true →
      ¬m'.TurnsAway rules s.chooser choice := by
    intro choice hadmits haway
    cases hadmits.symm.trans ((hjudged choice).mp haway)
  refine ⟨?_, hjudged, fun hkind hconditions => ?_⟩
  · obtain ⟨sent, houtbox, hscenes, hput⟩ : m.Asks rules m' := hafter ▸ perform_asks m op
    obtain hbefore | ⟨letter, hletter, active, ⟨seat, hseat, hconnected, htold⟩, hanswerable⟩ :=
      hput s hopen
    · cases hidle.symm.trans hbefore
    · obtain ⟨i, hi, hsent, hscene⟩ :=
        Match.exists_index_of_sent (h.size_scenes hc.coherent) houtbox hscenes hletter
      refine ⟨i, letter.2, seat, hi, htold ▸ hsent, hscene, active, hseat, hconnected,
        Selection.exists_admits hanswerable, fun choice hadmits hsame => ?_⟩
      exact hgood choice (Selection.admits_of_unchanged hsame hadmits)
  · -- Whoever is to choose has a seat, and might as well choose themselves.
    have hactive := (hafterwards.attentive hc.coherent).expectant.chooser s hopen
    obtain ⟨seat, hseat⟩ := Option.isSome_iff_exists.mp (Table.isSome_player?_of_active hactive)
    refine ⟨.player s.chooser, hgood _ ?_⟩
    rw [Selection.admits, hkind, Selection.admitsPlayer, hseat, Option.any_some, Effect.acceptsPlayer,
      hconditions]
    rfl

namespace Duel

/-- Ann has played an archer, who asks whom to hit. -/
def aimed : Match :=
  ((after book deal).perform book (.playCard ⟨0⟩ ⟨2⟩)).2

/-- There was an answer when Ann was asked, and there is one now. -/
theorem shot_has_an_answer :
    (after book deal).session.pending = none ∧
    ∃ s, aimed.session.pending = some s ∧
      (∃ (i : Nat) (scene : Table), aimed.scenes[i]? = some scene ∧
        ∃ choice, s.admits book scene choice = true) ∧
      ∃ choice, ¬aimed.TurnsAway book s.chooser choice := by
  have hidle : (after book deal).session.pending = none := by decide +kernel
  have hopen : aimed.session.pending = some ⟨.player, shot, ⟨0⟩, ⟨0⟩⟩ := by decide +kernel
  obtain ⟨⟨i, scene, _, _, _, hscene, _, _, _, hchoice, _⟩, _, hplayer⟩ :=
    asked_with_an_answer accepted (reachable_after book deal) hidle (.playCard ⟨0⟩ ⟨2⟩) rfl hopen
  exact ⟨hidle, _, hopen, ⟨i, scene, hscene, hchoice⟩, hplayer rfl rfl⟩

/-- A creature that leaves the board wants to take another one with it. -/
def revenge : Effect :=
  { definition := "Revenge", trigger := .cardZoneTransition .leave "Board",
    target := .card .targetCard }

/-- The duel with creatures that take revenge. -/
def vengeful : Rulebook where
  catalog := { book.catalog with
    rules := draft.rules ++ [.onCard "Revenge" .kill]
    cardTypes := [{ name := "Creature", effects := [revenge] }] }
  config := book.config

theorem accepted_vengeful : vengeful.catalog.Accepted :=
  accepted_of_checks (d := { draft with
    rules := vengeful.catalog.rules, cardTypes := vengeful.catalog.cardTypes }) rfl
    (by decide +kernel) (by decide +kernel)

/-- Ann has two wolves on the board. -/
def muster : Match :=
  after vengeful [.register "Ann" ⟨1⟩ [⟨1⟩, ⟨1⟩], .register "Bob" ⟨2⟩ [], .start 0,
    .moveCards ⟨0⟩ "Deck" "Board" 2]

/-- Ann has called both wolves off, one after the other. -/
def retreated : Match :=
  (muster.perform vengeful (.requestMove ⟨0⟩ "Board" "Graveyard" 2)).2

/-- The first wolf may take its revenge while it goes, and then there is nobody left to take it on:
Ann is asked, and no answer will do. -/
theorem lost_for_words :
    vengeful.catalog.Accepted ∧ Reachable vengeful muster ∧ muster.session.pending = none ∧
    (muster.perform vengeful (.requestMove ⟨0⟩ "Board" "Graveyard" 2)).1
      = .ok (.outcome .applied) ∧
    retreated.session.pending = some ⟨.card, revenge, ⟨1⟩, ⟨0⟩⟩ ∧
    ∀ choice, retreated.TurnsAway vengeful ⟨0⟩ choice := by
  have hopen : retreated.session.pending = some ⟨.card, revenge, ⟨1⟩, ⟨0⟩⟩ := by decide +kernel
  have hcleared : retreated.table.roster.cards = [] := by decide +kernel
  refine ⟨accepted_vengeful, reachable_after .., by decide +kernel, by decide +kernel, hopen, ?_⟩
  intro choice
  refine (Match.turnsAway_iff hopen choice).mpr ?_
  cases choice with
  | player id => rfl
  | card id => simp [Selection.admits, Selection.admitsCard, Table.live?, Roster.get?, hcleared]

end Duel

end CardArena
