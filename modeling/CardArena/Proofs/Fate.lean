import Mathlib
import CardArena.Proofs.Ghosts
import CardArena.Proofs.Letters

/-!
# The fate of a card

While handles are fresh, a handle stands for one card, from when it is handed out until the card is gone.
The dead stay dead (`Step.whose`), and whoever is gone stays gone (`Match.Gone`).

A farewell is said when a card is taken out of play for good, and to everybody who can be reached then.
So nobody hears a farewell of a card that is in play, and nobody hears a second one: `Match.Orderly` says
so, and every step keeps it.

* `Reachable.orderly` : every reachable match is orderly.
* `Match.Orderly.farewells_of_steps` : of a card that is gone nothing more is said.
-/

namespace CardArena

open Relation (ReflTransGen)

variable {rules : Rulebook} {scope : Scope} {m m' : Match}

/-! ## Clearing the table -/

namespace DestructionQueue

theorem mem_cancel {q : DestructionQueue} {card : LiveId} {d : Doomed} :
    d ∈ (q.cancel card).entries ↔ d ∈ q.entries ∧ d.card ≠ card := by
  simp [cancel]

end DestructionQueue

namespace Match

theorem live?_despawn (m : Match) (card id : LiveId) :
    (m.despawn card).2.table.live? id = if id = card then none else m.table.live? id :=
  Roster.get?_erase ..

theorem live?_destroy (m : Match) (graveyard : Option String) (card id : LiveId) :
    (m.destroy graveyard card).table.live? id
      = if id = card then none else m.table.live? id := by
  rw [← live?_despawn]
  cases hlive : m.table.live? card with
  | none => rw [destroy_of_none hlive]
  | some live =>
      rw [destroy_eq hlive]
      exact congrArg (·.get? id) (Table.roster_bury ..)

theorem destructions_destroy (m : Match) (graveyard : Option String) (card : LiveId) :
    (m.destroy graveyard card).destructions = m.destructions.cancel card := by
  cases hlive : m.table.live? card with
  | none => rw [destroy_of_none hlive]; rfl
  | some live => rw [destroy_eq hlive]; rfl

/-- Whoever is destroyed is not in play any more, and nobody else leaves. -/
theorem live?_destroyAll (graveyard : Option String) (cards : List LiveId) (id : LiveId) :
    ∀ m : Match, (m.destroyAll graveyard cards).table.live? id
      = if id ∈ cards then none else m.table.live? id := by
  induction cards with
  | nil =>
      intro m
      rfl
  | cons card rest ih =>
      intro m
      refine (ih _).trans ?_
      rw [live?_destroy]
      by_cases hhead : id = card <;> by_cases hrest : id ∈ rest <;> simp [hhead, hrest]

/-- Whoever waits and is not destroyed goes on waiting. -/
theorem mem_destructions_destroyAll (graveyard : Option String) (cards : List LiveId)
    {d : Doomed} (hother : d.card ∉ cards) :
    ∀ m : Match, d ∈ m.destructions.entries →
      d ∈ (m.destroyAll graveyard cards).destructions.entries := by
  induction cards with
  | nil =>
      intro m hd
      exact hd
  | cons card rest ih =>
      intro m hd
      obtain ⟨hne, hout⟩ := not_or.mp (List.mem_cons.not.mp hother)
      refine ih hout _ ?_
      rw [destructions_destroy]
      exact DestructionQueue.mem_cancel.mpr ⟨hd, hne⟩

end Match

/-! ## Handles -/

theorem Match.Descends.destroyAll (m : Match) (graveyard : Option String) (cards : List LiveId)
    (id : LiveId) : Match.Descends id m (m.destroyAll graveyard cards) := by
  intro live hlive
  rw [live?_destroyAll] at hlive
  split_ifs at hlive
  exact ⟨live, hlive, .refl live⟩

theorem Calm.whose (h : Calm rules scope m m') (hfresh : m'.Fresh) {id : LiveId}
    (hid : id ∈ m.spawner.handed) : Match.Descends id m m' := by
  cases h with
  | change h => exact h.whose hfresh hid
  | repeatQuestion | owe | demand => rw [Match.tell_eq_post]; exact .of_roster rfl
  | discard hzone held =>
      rw [Match.discardCard_eq hzone held]
      exact .of_roster (Table.roster_bury ..)
  | shuffle player zone =>
      rcases m.shuffleZone_eq player zone with heq | ⟨z, dice, -, heq⟩ <;> rw [heq]
      · exact .refl m
      · exact .of_roster rfl
  | @age card turns => exact .mark card rfl fun live => ⟨⟨rfl, rfl⟩, fun hdead => hdead⟩
  | _ => exact .of_roster rfl

/-- **A handle that has been handed out keeps its card, the dead stay dead, and nobody comes back.** -/
theorem Step.whose (h : Step rules scope m m') (hfresh : m'.Fresh) {id : LiveId}
    (hid : id ∈ m.spawner.handed) : Match.Descends id m m' := by
  cases h with
  | calm h => exact h.whose hfresh hid
  | destroyDue | destroyAfterEffect => exact .destroyAll { m with destructions := _ } _ _ id
  | _ => exact .of_roster rfl

theorem descends_of_steps (h : ReflTransGen (Step rules scope) m m') {id : LiveId}
    (hid : id ∈ m.spawner.handed) (hfresh : m'.Fresh) : Match.Descends id m m' := by
  induction h with
  | refl => exact .refl m
  | tail hpath hstep ih =>
      exact (ih (hstep.fresh hfresh)).trans
        (hstep.whose hfresh ((handed_of_steps hpath).subset hid))

/-- A card that was in play is not in play any more. -/
structure Match.Gone (m : Match) (card : LiveId) : Prop where
  handed : card ∈ m.spawner.handed
  absent : m.table.live? card = none

/-- Whoever is gone stays gone. -/
theorem Match.Gone.of_steps {card : LiveId} (h : m.Gone card)
    (hpath : ReflTransGen (Step rules scope) m m') (hfresh : m'.Fresh) : m'.Gone card := by
  refine ⟨(handed_of_steps hpath).subset h.handed, ?_⟩
  cases hlive : m'.table.live? card with
  | none => rfl
  | some live =>
      obtain ⟨old, hold, -⟩ := descends_of_steps hpath h.handed hfresh live hlive
      cases h.absent.symm.trans hold

/-! ## Farewells -/

namespace Match

variable {card : LiveId}

/-- The letters by which everybody who can be reached is told that a card is destroyed. -/
def farewellMail (m : Match) (card : LiveId) : List (ConnectionId × Message) :=
  m.table.connected.map fun seat => (seat.connection, .cardDestroyed card)

theorem farewellMail_congr (h : m'.table.lines = m.table.lines) (card : LiveId) :
    m'.farewellMail card = m.farewellMail card := by
  have hlines (m : Match) : m.farewellMail card
      = (m.table.lines.filter (·.2.2)).map fun line => (line.2.1, .cardDestroyed card) := by
    simp [farewellMail, Table.connected, Table.lines, List.filter_map, Function.comp_def]
  rw [hlines, hlines, h]

theorem farewells_congr (h : m'.outbox = m.outbox) (card : LiveId) :
    m'.farewells card = m.farewells card := by
  rw [farewells, farewells, h]

theorem farewells_broadcast (m : Match) (card other : LiveId) :
    (m.broadcast (.cardDestroyed other)).farewells card = m.farewells card ++
      (m.farewellMail other).filter fun letter => letter.2 = .cardDestroyed card := by
  rw [farewells, broadcast, toList_post, List.filter_append]
  rfl

/-- Everybody is told of a card that is destroyed. -/
theorem farewells_destroy {live : LiveCard} (hlive : m.table.live? card = some live)
    (graveyard : Option String) :
    (m.destroy graveyard card).farewells card = m.farewells card ++ m.farewellMail card := by
  have hlines : ((m.despawn card).2.onTable (·.bury graveyard live.owner live.card)).table.lines
      = m.table.lines := (Table.lines_bury ..).trans (Table.lines_removeLive card)
  rw [destroy_eq hlive, farewells_broadcast, ← farewellMail_congr hlines]
  refine congrArg (m.farewells card ++ ·) (List.filter_eq_self.mpr ?_)
  intro letter hletter
  obtain ⟨seat, -, rfl⟩ := List.mem_map.mp hletter
  simp

/-- Of the others, and of whoever is not there, nothing is said. -/
theorem farewells_destroy_other {other : LiveId}
    (h : card ≠ other ∨ m.table.live? other = none) (graveyard : Option String) :
    (m.destroy graveyard other).farewells card = m.farewells card := by
  cases hlive : m.table.live? other with
  | none =>
      rw [destroy_of_none hlive]
      exact farewells_congr rfl card
  | some live =>
      have hne : card ≠ other := h.resolve_right (by simp [hlive])
      rw [destroy_eq hlive, farewells_broadcast]
      refine List.append_right_eq_self.mpr (List.filter_eq_nil_iff.mpr ?_)
      intro letter hletter
      obtain ⟨seat, -, rfl⟩ := List.mem_map.mp hletter
      simpa using hne.symm

theorem farewells_destroyAll_other {graveyard : Option String} {cards : List LiveId}
    (hother : card ∉ cards ∨ m.table.live? card = none) :
    (m.destroyAll graveyard cards).farewells card = m.farewells card := by
  induction cards generalizing m with
  | nil => rfl
  | cons first rest ih =>
      have hstep : (m.destroy graveyard first).farewells card = m.farewells card := by
        refine farewells_destroy_other ?_ graveyard
        rcases hother with hout | hgone
        · exact .inl fun he => hout (he ▸ List.mem_cons_self)
        · by_cases he : card = first
          · exact .inr (he ▸ hgone)
          · exact .inl he
      refine (ih ?_).trans hstep
      refine hother.imp (fun hout hin => hout (List.mem_cons_of_mem _ hin)) fun hgone => ?_
      rw [live?_destroy, hgone, ite_self]

/-- Everybody is told once of each card that is destroyed. -/
theorem farewells_destroyAll {graveyard : Option String} {cards : List LiveId} {live : LiveCard}
    (hin : card ∈ cards) (hlive : m.table.live? card = some live) :
    (m.destroyAll graveyard cards).farewells card = m.farewells card ++ m.farewellMail card := by
  induction cards generalizing m with
  | nil => cases hin
  | cons first rest ih =>
      by_cases he : card = first
      · subst he
        have hgone : (m.destroy graveyard card).table.live? card = none := by
          rw [live?_destroy, if_pos rfl]
        exact (farewells_destroyAll_other (.inr hgone)).trans (farewells_destroy hlive graveyard)
      · have hstill : (m.destroy graveyard first).table.live? card = some live := by
          rw [live?_destroy, if_neg he, hlive]
        refine (ih ((List.mem_cons.mp hin).resolve_left he) hstill).trans ?_
        rw [farewells_destroy_other (.inl he), farewellMail_congr (steady_destroy m _ _).lines]

/-- The match is one of its game, its parts agree, and nothing has been said of the destruction of a card
that is in play or yet to come. -/
structure Orderly (rules : Rulebook) (m : Match) : Prop where
  conforms : m.Conforms rules.catalog
  integrity : m.Fresh → m.Integrity
  farewells : m.Fresh → ∀ card, m.farewells card ≠ [] → m.Gone card

namespace Orderly

/-- The queue of destructions may lose entries. -/
theorem release (h : m.Orderly rules) {q : DestructionQueue}
    (hsub : q.cards.Sublist m.destructions.cards) : Orderly rules { m with destructions := q } := by
  refine ⟨h.conforms.release q, fun hfresh => ?_, fun hfresh card hsaid => ?_⟩
  · exact ⟨(h.integrity hfresh).table, (h.integrity hfresh).books.release hsub⟩
  · obtain ⟨hhanded, habsent⟩ := h.farewells hfresh card hsaid
    exact ⟨hhanded, habsent⟩

theorem mem_handed (h : m.Orderly rules) (hfresh : m.Fresh) {live : LiveCard}
    (hlive : m.table.live? card = some live) : card ∈ m.spawner.handed := by
  obtain ⟨hmem, rfl⟩ := Roster.get?_eq_some_iff.mp hlive
  exact (h.integrity hfresh).books.handed live hmem

/-- No zone lists a card that is gone. -/
theorem unlisted (h : m.Orderly rules) (hfresh : m.Fresh) (hgone : m.Gone card) :
    card ∉ m.table.liveInOrder := by
  intro hlisted
  obtain ⟨live, hlive⟩ := (h.integrity hfresh).table.mem_liveInOrder.mp hlisted
  cases hgone.absent.symm.trans hlive

/-- Nothing has been said of the destruction of a card that is in play. -/
theorem farewells_of_live (h : m.Orderly rules) (hfresh : m.Fresh) {live : LiveCard}
    (hlive : m.table.live? card = some live) : m.farewells card = [] := by
  by_contra hsaid
  cases (h.farewells hfresh card hsaid).absent.symm.trans hlive

/-- Destructions say farewell to cards that are gone when it is said. -/
theorem farewells_destroyAll (h : m.Orderly rules) (hfresh : m.Fresh)
    {graveyard : Option String} {cards : List LiveId}
    (hsaid : (m.destroyAll graveyard cards).farewells card ≠ []) :
    (m.destroyAll graveyard cards).Gone card := by
  have hhanded : card ∈ m.spawner.handed → card ∈ (m.destroyAll graveyard cards).spawner.handed :=
    fun hin => (handed_destroyAll m graveyard cards).symm ▸ hin
  by_cases hother : card ∉ cards ∨ m.table.live? card = none
  · rw [farewells_destroyAll_other hother] at hsaid
    have hgone := h.farewells hfresh card hsaid
    refine ⟨hhanded hgone.handed, ?_⟩
    rw [live?_destroyAll, hgone.absent, ite_self]
  · obtain ⟨hin, hthere⟩ := not_or.mp hother
    obtain ⟨live, hlive⟩ := Option.ne_none_iff_exists'.mp hthere
    refine ⟨hhanded (h.mem_handed hfresh hlive), ?_⟩
    rw [live?_destroyAll, if_pos (not_not.mp hin)]

end Orderly

end Match

/-- Apart from destructions, nothing is said of them. -/
theorem Step.sends (h : Step rules scope m m') :
    m.Sends m' ∨ m' = m.destroyDue rules ∨ m' = m.destroyAfterEffect rules := by
  cases h with
  | calm h => exact .inl h.sends
  | broadcast quiet => exact .inl ((Match.Posts.refl m).broadcast quiet)
  | views quiet => exact .inl ((Match.Posts.refl m).broadcastViews quiet)
  | destroyDue => exact .inr (.inl rfl)
  | destroyAfterEffect => exact .inr (.inr rfl)
  | _ => exact .inl (.of_eq rfl)

/-- **Every step leaves a match orderly.** -/
theorem Step.orderly (hc : rules.catalog.Coherent) (h : Step rules scope m m')
    (hm : m.Orderly rules) : m'.Orderly rules := by
  have hfresh : m'.Fresh → m.Fresh := h.fresh
  refine ⟨h.conforms hc hm.conforms,
    fun hf => h.integrity hc hm.conforms (hm.integrity (hfresh hf)) hf, ?_⟩
  intro hf card hsaid
  rcases h.sends with hsends | rfl | rfl
  · rw [hsends.farewells] at hsaid
    exact (hm.farewells (hfresh hf) card hsaid).of_steps (.single h) hf
  · exact (hm.release (DestructionQueue.cards_countDown _)).farewells_destroyAll (hfresh hf) hsaid
  · exact (hm.release (List.filter_sublist.map Doomed.card)).farewells_destroyAll (hfresh hf) hsaid

theorem Match.Orderly.of_steps (hc : rules.catalog.Coherent) (hm : m.Orderly rules)
    (h : ReflTransGen (Step rules scope) m m') : m'.Orderly rules := by
  induction h with
  | refl => exact hm
  | tail _ hstep ih => exact hstep.orderly hc ih

/-- Of a card that is gone nothing more is said. -/
theorem Match.Gone.farewells_of_steps {card : LiveId} (hgone : m.Gone card)
    (h : ReflTransGen (Step rules scope) m m') (hfresh : m'.Fresh) :
    m'.farewells card = m.farewells card := by
  induction h with
  | refl => rfl
  | @tail p _ hpath hstep ih =>
      have hthere := hgone.of_steps hpath (hstep.fresh hfresh)
      refine Eq.trans ?_ (ih (hstep.fresh hfresh))
      rcases hstep.sends with hsends | rfl | rfl
      · exact hsends.farewells card
      · exact farewells_destroyAll_other (m := { p with destructions := p.destructions.countDown.2 })
          (.inr hthere.absent)
      · exact farewells_destroyAll_other
          (m := { p with destructions := p.destructions.takeAfterEffect.2 }) (.inr hthere.absent)

/-! ## Reachable matches -/

theorem Match.sends_seat (m : Match) (name : String) (connection : ConnectionId)
    (deck : List CardId) : m.Sends (m.seat rules name connection deck) := by
  refine Posts.broadcast ?_ (by rfl)
  exact .of_eq rfl

/-- **In every reachable match the destruction of a card has been told only if the card is gone.** -/
theorem Reachable.orderly (hc : rules.catalog.Coherent) (h : Reachable rules m) :
    m.Orderly rules := by
  refine (h.induction hc (P := Match.Orderly rules) (fun handle dice => ?_) ?_ ?_).2
  · exact ⟨Match.conforms_opening _ _ handle dice, fun _ => Match.integrity_opening _ handle dice,
      fun _ card hsaid => absurd rfl hsaid⟩
  · intro m name connection deck hm hopen ho
    refine ⟨hopen.conforms_seat hm name connection,
      fun hfresh => (ho.integrity hfresh).seat name connection deck, ?_⟩
    intro hfresh card hsaid
    rw [(m.sends_seat name connection deck).farewells] at hsaid
    obtain ⟨hhanded, habsent⟩ := ho.farewells hfresh card hsaid
    exact ⟨hhanded, habsent⟩
  · exact fun m m' _ hstep ho => hstep.orderly hc ho

theorem Match.Conforms.fresh_of_perform (hc : rules.catalog.Coherent) (hm : m.Conforms rules.catalog)
    (op : Operation) (hfresh : (m.perform rules op).2.Fresh) : m.Fresh := by
  rcases perform_cases hc hm op with hpath | ⟨name, connection, deck, -, heq⟩
  · exact fresh_of_steps hpath hfresh
  · rwa [heq] at hfresh

/-- Handles that are fresh after a run have been fresh all along. -/
theorem Reachable.fresh_of_run (hc : rules.catalog.Coherent) (h : Reachable rules m)
    (ops : List Operation) (hfresh : (m.run rules ops).Fresh) : m.Fresh := by
  induction ops generalizing m with
  | nil => exact hfresh
  | cons op rest ih => exact (h.conforms hc).fresh_of_perform hc op (ih (h.perform op) hfresh)

/-- **Whoever is gone stays gone, and nothing more is said of them, whatever is asked of the match.** -/
theorem Match.Gone.run (hc : rules.catalog.Coherent) {card : LiveId} (hgone : m.Gone card)
    (h : Reachable rules m) (ops : List Operation) (hfresh : (m.run rules ops).Fresh) :
    (m.run rules ops).Gone card ∧ (m.run rules ops).farewells card = m.farewells card := by
  induction ops generalizing m with
  | nil => exact ⟨hgone, rfl⟩
  | cons op rest ih =>
      have hafter := (h.perform op).fresh_of_run hc rest hfresh
      have hnext : (m.perform rules op).2.Gone card ∧
          (m.perform rules op).2.farewells card = m.farewells card := by
        rcases perform_cases hc (h.conforms hc) op with hpath | ⟨name, connection, deck, -, heq⟩
        · exact ⟨hgone.of_steps hpath hafter, hgone.farewells_of_steps hpath hafter⟩
        · rw [heq]
          exact ⟨⟨hgone.handed, hgone.absent⟩, (m.sends_seat name connection deck).farewells card⟩
      obtain ⟨hstays, hsaid⟩ := ih hnext.1 (h.perform op) hfresh
      exact ⟨hstays, hsaid.trans hnext.2⟩

end CardArena
