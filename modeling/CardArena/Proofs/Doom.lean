import Mathlib
import CardArena.Proofs.Fate
import CardArena.Proofs.Rotation
import CardArena.Proofs.Spared

/-!
# The time that a killed card has left

A card that is killed joins the queue of destructions with as many turn ends to go as the settings say.
Each turn that ends counts one of them, as the first thing that it does; the card is taken out of play
when none is left, so that one turn end is needed even if the settings ask for none.

Two things cut the time short: the card leaves play for a static zone (`Match.Departs`), or it is
transformed.  Neither is a matter of time, so the laws are about operations that spare the card
(`Match.Spares`), and say what holds if it has not left meanwhile.

Nothing else touches the entry of a card in the queue.  Within a turn that is a law of each change
(`Change.waits`), and it goes on to chains of steps; between turns the entry of a card is the only one
for it, so that nobody else's time is up in its place (`DestructionQueue.eq_of_card`).

* `Course.counts` : what one operation does to the time that is left.
* `Course.buries` : what the turn end does with which the time is up.
* `killed_cards_go_in_time` : the two over a run.
-/

namespace CardArena

open Play
open Relation (ReflTransGen)

variable {rules : Rulebook} {scope : Scope} {m m' : Match} {card : LiveId} {d : Doomed} {n : Nat}

/-! ## The queue -/

namespace Doomed

theorem reason_countedDown (d : Doomed) : d.countedDown.reason = d.reason := by
  unfold countedDown
  split <;> rfl

theorem toNat_remaining_countedDown (h : d.reason = .killed) :
    d.countedDown.remaining.toNat = d.remaining.toNat - 1 := by
  have hcounted : d.countedDown.remaining = d.remaining - min d.remaining 1 := by
    rw [countedDown, h]
  by_cases hle : d.remaining ≤ 1
  · have hnat : d.remaining.toNat ≤ 1 := UInt32.le_iff_toNat_le.mp hle
    have hmin : min d.remaining 1 = d.remaining := if_pos hle
    rw [hcounted, hmin, UInt32.sub_self, UInt32.toNat_zero]
    omega
  · have hmin : min d.remaining 1 = 1 := if_neg hle
    rw [hcounted, hmin, UInt32.toNat_sub_of_le _ _ ((UInt32.le_total d.remaining 1).resolve_left hle)]
    rfl

theorem isDue_countedDown (h : d.reason = .killed) :
    d.countedDown.isDue = true ↔ d.remaining.toNat ≤ 1 := by
  have hzero : d.countedDown.remaining = 0 ↔ d.countedDown.remaining.toNat = 0 :=
    UInt32.toNat_inj.symm
  rw [isDue, reason_countedDown, h, decide_eq_true rfl, Bool.true_and, decide_eq_true_iff, hzero,
    toNat_remaining_countedDown h]
  omega

/-- Turn ends count for those who were killed. -/
theorem iterate_countedDown (n : Nat) (d : Doomed) :
    (countedDown^[n] d).card = d.card ∧ (countedDown^[n] d).reason = d.reason ∧
      (d.reason = .killed → (countedDown^[n] d).remaining.toNat = d.remaining.toNat - n) := by
  induction n with
  | zero => exact ⟨rfl, rfl, fun _ => rfl⟩
  | succ n ih =>
      obtain ⟨hcard, hreason, hleft⟩ := ih
      rw [Function.iterate_succ_apply']
      refine ⟨(DestructionQueue.card_countedDown _).trans hcard,
        (reason_countedDown _).trans hreason, fun h => ?_⟩
      rw [toNat_remaining_countedDown (hreason.trans h), hleft h, Nat.sub_sub]

end Doomed

namespace DestructionQueue

variable {q : DestructionQueue}

theorem entries_schedule {card : LiveId} (h : q.contains card = false) (remaining : UInt32)
    (reason : DestructionReason) :
    (q.schedule card remaining reason).entries = q.entries ++ [⟨card, remaining, reason⟩] := by
  rw [schedule, if_neg (by simp [h])]

theorem contains_eq_false {card : LiveId} (h : card ∉ q.cards) : q.contains card = false := by
  simpa [contains] using h

theorem eq_of_card (h : q.cards.Nodup) {d d' : Doomed} (hd : d ∈ q.entries) (hd' : d' ∈ q.entries)
    (he : d.card = d'.card) : d = d' :=
  List.inj_on_of_nodup_map h hd hd' he

/-- Whoever is not due goes on waiting with one turn end less. -/
theorem mem_countDown_of_not_due (h : q.cards.Nodup) (hd : d ∈ q.entries)
    (hnot : d.countedDown.isDue = false) :
    d.countedDown ∈ q.countDown.2.entries ∧ d.card ∉ q.countDown.1 := by
  refine ⟨List.mem_filter.mpr ⟨List.mem_map_of_mem hd, by rw [hnot]; rfl⟩, fun hdue => ?_⟩
  obtain ⟨counted, hcounted, hcard⟩ := List.mem_map.mp hdue
  obtain ⟨hin, hout⟩ := List.mem_filter.mp hcounted
  obtain ⟨d', hd', rfl⟩ := List.mem_map.mp hin
  obtain rfl := eq_of_card h hd hd' (hcard.symm.trans (card_countedDown d'))
  cases hnot.symm.trans hout

theorem mem_countDown_of_due (hd : d ∈ q.entries) (hdue : d.countedDown.isDue = true) :
    d.card ∈ q.countDown.1 :=
  List.mem_map.mpr ⟨d.countedDown, List.mem_filter.mpr ⟨List.mem_map_of_mem hd, hdue⟩,
    card_countedDown d⟩

/-- Whoever was killed is none of those who die after their effect. -/
theorem mem_takeAfterEffect_of_killed (h : q.cards.Nodup) (hd : d ∈ q.entries)
    (hreason : d.reason = .killed) :
    d ∈ q.takeAfterEffect.2.entries ∧ d.card ∉ q.takeAfterEffect.1 := by
  refine ⟨List.mem_filter.mpr ⟨hd, by simp [hreason]⟩, fun hdue => ?_⟩
  obtain ⟨d', hd', hcard⟩ := List.mem_map.mp hdue
  obtain ⟨hin, hafter⟩ := List.mem_filter.mp hd'
  obtain rfl := eq_of_card h hd hin hcard.symm
  simp [hreason] at hafter

end DestructionQueue

/-! ## Leaving play -/

/-- A card leaves play for a static zone: it lies in a zone of its player, and is taken out of play as
its design comes on top of another. -/
inductive Match.Withdraws (card : LiveId) : Match → Match → Prop
  | intro {m : Match} {player : PlayerId} {origin destination : String} {z : Zone} {live : LiveCard}
      (hzone : m.table.zone? player origin = some z) (there : card ∈ z.live)
      (hlive : m.table.live? card = some live)
      (room : (m.table.zone? player destination).map Zone.kind = some .static) :
      Withdraws card m ((m.despawn card).2.onTable
        (·.modifyZone player destination (·.pushCard live.card)))

/-- On the way from one match to the other a card leaves play for a static zone. -/
def Match.Departs (rules : Rulebook) (card : LiveId) (m m' : Match) : Prop :=
  ∃ p q, ReflTransGen (Step rules (.sparing card)) m p ∧ Withdraws card p q ∧
    ReflTransGen (Step rules (.sparing card)) q m'

theorem Match.Withdraws.change (h : Match.Withdraws card m m') : Change rules scope m m' := by
  obtain ⟨hzone, there, hlive, room⟩ := h
  exact .withdraw hzone there hlive room

/-- Whoever leaves play is gone. -/
theorem Match.Withdraws.gone (h : Match.Withdraws card m m') (ho : m.Orderly rules)
    (hfresh : m.Fresh) : m'.Gone card := by
  obtain ⟨-, -, hlive, -⟩ := h
  refine ⟨?_, ?_⟩
  · show card ∈ (m.despawn card).2.spawner.handed
    rw [handed_despawn]
    exact ho.mem_handed hfresh hlive
  · exact (live?_despawn ..).trans (if_pos rfl)

theorem Match.Departs.extend {p q : Match} (h : Match.Departs rules card p q)
    (hbefore : ReflTransGen (Step rules (.sparing card)) m p)
    (hafter : ReflTransGen (Step rules (.sparing card)) q m') : Match.Departs rules card m m' := by
  obtain ⟨a, b, hleft, hwithdraws, hright⟩ := h
  exact ⟨a, b, hbefore.trans hleft, hwithdraws, hright.trans hafter⟩

theorem Match.Departs.gone (h : Match.Departs rules card m m') (hc : rules.catalog.Coherent)
    (ho : m.Orderly rules) (hfresh : m'.Fresh) : m'.Gone card := by
  obtain ⟨p, q, hbefore, hwithdraws, hafter⟩ := h
  have hq : q.Fresh := fresh_of_steps hafter hfresh
  have hp : p.Fresh := (hwithdraws.change : Change rules .all p q).fresh hq
  exact (hwithdraws.gone (ho.of_steps hc hbefore) hp).of_steps hafter hfresh

/-! ## Waiting within a turn -/

/-- **A cascade leaves the entry of a card alone, unless the card leaves play.** -/
theorem Change.waits (h : Change rules (.sparing card) m m')
    (hthere : (m.table.live? card).isSome) (hd : d ∈ m.destructions.entries) (hcard : d.card = card) :
    d ∈ m'.destructions.entries ∨ Match.Withdraws card m m' := by
  have hcancel {other : LiveId} (hne : other ≠ card) :
      d ∈ (m.destructions.cancel other).entries :=
    DestructionQueue.mem_cancel.mpr ⟨hd, fun he => hne (he.symm.trans hcard)⟩
  cases h with
  | ask => rw [Match.tell_eq_post]; exact .inl hd
  | @withdraw _ _ _ _ other _ hzone there hlive room =>
      by_cases he : other = card
      · subst he
        exact .inr (.intro hzone there hlive room)
      · exact .inl (hcancel he)
  | @strike other gone =>
      refine .inl (hcancel ?_)
      rintro rfl
      simp [gone] at hthere
  | condemn reason hlive fresh =>
      refine .inl ?_
      show d ∈ (m.destructions.schedule ..).entries
      rw [DestructionQueue.entries_schedule fresh]
      exact List.mem_append_left _ hd
  | fade _ changes => exact .inl (hcancel (of_decide_eq_true changes))
  | replace allowed => exact .inl (hcancel (of_decide_eq_true allowed))
  | _ => exact .inl hd

theorem Calm.waits (h : Calm rules (.sparing card) m m')
    (hthere : (m.table.live? card).isSome) (hd : d ∈ m.destructions.entries) (hcard : d.card = card) :
    d ∈ m'.destructions.entries ∨ Match.Withdraws card m m' := by
  cases h with
  | change h => exact h.waits hthere hd hcard
  | repeatQuestion | owe | demand => rw [Match.tell_eq_post]; exact .inl hd
  | discard hzone held => rw [Match.discardCard_eq hzone held]; exact .inl hd
  | shuffle player zone =>
      rcases m.shuffleZone_eq player zone with heq | ⟨z, dice, -, heq⟩ <;> rw [heq] <;> exact .inl hd
  | _ => exact .inl hd

/-- Whoever waits is in play, and dead. -/
theorem Match.Orderly.dead_of_mem (h : m.Orderly rules) (hfresh : m.Fresh)
    (hd : d ∈ m.destructions.entries) :
    ∃ live, m.table.live? d.card = some live ∧ live.alive = false :=
  (h.integrity hfresh).books.dead d.card (List.mem_map_of_mem hd)

theorem Match.Orderly.nodup (h : m.Orderly rules) (hfresh : m.Fresh) : m.destructions.cards.Nodup :=
  (h.integrity hfresh).books.doomed

/-- Whoever is due is gone once those who are due have been destroyed. -/
theorem Match.gone_destroyDue (ho : m.Orderly rules) (hfresh : m.Fresh)
    (hd : d ∈ m.destructions.entries) (hdue : d.card ∈ m.destructions.countDown.1) :
    (m.destroyDue rules).Gone d.card := by
  obtain ⟨live, hlive, -⟩ := ho.dead_of_mem hfresh hd
  refine ⟨?_, (live?_destroyAll ..).trans (if_pos hdue)⟩
  exact (Step.destroyDue : Step rules .all _ _).handed.subset (ho.mem_handed hfresh hlive)

section

variable (hc : rules.catalog.Coherent) (ho : m.Orderly rules) (hfresh : m'.Fresh)
  (hcard : d.card = card)

include hc ho hfresh hcard

theorem waits_of_calm (h : ReflTransGen (Calm rules (.sparing card)) m m')
    (hd : d ∈ m.destructions.entries) :
    d ∈ m'.destructions.entries ∨ Match.Departs rules card m m' := by
  induction h with
  | refl => exact .inl hd
  | @tail p q hpath hstep ih =>
      have hbefore := steps_of_calm hpath
      rcases ih (hstep.fresh hfresh) with hwaits | hdeparts
      · obtain ⟨live, hlive, -⟩ :=
          (ho.of_steps hc hbefore).dead_of_mem (hstep.fresh hfresh) hwaits
        rw [hcard] at hlive
        refine (hstep.waits (by rw [hlive]; rfl) hwaits hcard).imp_right fun hwithdraws => ?_
        exact ⟨p, q, hbefore, hwithdraws, .refl⟩
      · exact .inr (hdeparts.extend .refl (.single (.calm hstep)))

/-! ## Waiting between turns -/

theorem Opens.waits {now : Nat} (h : Opens rules (.sparing card) now m m')
    (hd : d ∈ m.destructions.entries) :
    d ∈ m'.destructions.entries ∨ Match.Departs rules card m m' := by
  cases h with
  | @intro m₁ active hactive path =>
      have hsettled : ReflTransGen (Step rules (.sparing card)) m
          { m.abandonSelection with debt := none } :=
        (ReflTransGen.single .abandon).tail (.calm .settle)
      have hopened : ReflTransGen (Step rules (.sparing card)) m₁ (m₁.openTurn rules active now) :=
        (ReflTransGen.single (.clock _)).tail (.views fun _ => rfl)
      have hfresh₁ : m₁.Fresh := fresh_of_steps hopened hfresh
      refine (waits_of_calm hc (ho.of_steps hc hsettled) hfresh₁ hcard path hd).imp ?_ ?_
      · exact fun hstill => hstill
      · exact fun hdeparts => hdeparts.extend hsettled hopened

end

/-- A killed card has so many turn ends to go. -/
def Match.Dying (m : Match) (card : LiveId) (n : Nat) : Prop :=
  ∃ d ∈ m.destructions.entries, d.card = card ∧ d.reason = .killed ∧ d.remaining.toNat = n

/-- Whoever has turn ends to go is in play, and dead. -/
theorem Match.Dying.dead (h : m.Dying card n) (ho : m.Orderly rules) (hfresh : m.Fresh) :
    ∃ live, m.table.live? card = some live ∧ live.alive = false := by
  obtain ⟨d, hd, rfl, -⟩ := h
  exact ho.dead_of_mem hfresh hd

/-- Those who die after their effect are others than those who were killed. -/
theorem Match.mem_destroyAfterEffect (ho : m.Orderly rules) (hfresh : m.Fresh)
    (hd : d ∈ m.destructions.entries) (hreason : d.reason = .killed) :
    d ∈ (m.destroyAfterEffect rules).destructions.entries := by
  obtain ⟨hkept, hstays⟩ :=
    DestructionQueue.mem_takeAfterEffect_of_killed (ho.nodup hfresh) hd hreason
  exact mem_destructions_destroyAll _ _ hstays _ hkept

/-- A step other than the one in which a turn end is counted. -/
def Lull (rules : Rulebook) (scope : Scope) (m m' : Match) : Prop :=
  Step rules scope m m' ∧ m' ≠ m.destroyDue rules

/-- **Only a turn end, and leaving play, take a killed card out of the queue or change its entry.** -/
theorem Lull.waits (ho : m.Orderly rules) (hfresh : m.Fresh) (h : Lull rules (.sparing card) m m')
    (hd : d ∈ m.destructions.entries) (hcard : d.card = card) (hreason : d.reason = .killed) :
    d ∈ m'.destructions.entries ∨ Match.Withdraws card m m' := by
  obtain ⟨hstep, hlull⟩ := h
  cases hstep with
  | calm h =>
      obtain ⟨live, hlive, -⟩ := ho.dead_of_mem hfresh hd
      rw [hcard] at hlive
      exact h.waits (by rw [hlive]; rfl) hd hcard
  | destroyDue => exact absurd rfl hlull
  | destroyAfterEffect => exact .inl (Match.mem_destroyAfterEffect ho hfresh hd hreason)
  | _ => exact .inl hd

theorem waits_of_lulls (hc : rules.catalog.Coherent) (ho : m.Orderly rules) (hfresh : m'.Fresh)
    (h : ReflTransGen (Lull rules (.sparing card)) m m') (hd : d ∈ m.destructions.entries)
    (hcard : d.card = card) (hreason : d.reason = .killed) :
    d ∈ m'.destructions.entries ∨ Match.Departs rules card m m' := by
  induction h with
  | refl => exact .inl hd
  | @tail p q hpath hstep ih =>
      have hbefore : ReflTransGen (Step rules (.sparing card)) m p :=
        ReflTransGen.mono (fun _ _ => And.left) _ _ hpath
      have hfresh₁ : p.Fresh := hstep.1.fresh hfresh
      rcases ih hfresh₁ with hwaits | hdeparts
      · refine (hstep.waits (ho.of_steps hc hbefore) hfresh₁ hwaits hcard hreason).imp_right ?_
        exact fun hwithdraws => ⟨p, q, hbefore, hwithdraws, .refl⟩
      · exact .inr (hdeparts.extend .refl (.single hstep.1))

/-- A turn end that does not use up the time counts. -/
theorem Match.Dying.destroyDue (ho : m.Orderly rules) (hfresh : m.Fresh) (h : m.Dying card n)
    (hn : 1 < n) : (m.destroyDue rules).Dying card (n - 1) := by
  obtain ⟨d, hd, hcard, hreason, rfl⟩ := h
  have hnot : d.countedDown.isDue = false := by
    rw [← Bool.not_eq_true, Doomed.isDue_countedDown hreason]
    omega
  obtain ⟨hcounted, hstays⟩ :=
    DestructionQueue.mem_countDown_of_not_due (ho.nodup hfresh) hd hnot
  have hsame := DestructionQueue.card_countedDown d
  refine ⟨d.countedDown, ?_, hsame.trans hcard, (Doomed.reason_countedDown d).trans hreason,
    Doomed.toNat_remaining_countedDown hreason⟩
  exact mem_destructions_destroyAll _ _ (hsame.symm ▸ hstays) _ hcounted

section

variable (hc : rules.catalog.Coherent) (ho : m.Orderly rules) (hfresh : m'.Fresh)

include hc ho hfresh

/-- **A turn end counts.** -/
theorem Passes.counts {now : Nat} (h : Passes rules (.sparing card) now m m')
    (hdying : m.Dying card n) (hn : 1 < n) :
    m'.Dying card (n - 1) ∨ Match.Departs rules card m m' := by
  cases h with
  | @intro m₁ _ active hactive path opens =>
      have habandon : ReflTransGen (Step rules (.sparing card)) m m.abandonSelection :=
        .single .abandon
      have hdue := habandon.tail .destroyDue
      have hclosed : ReflTransGen (Step rules (.sparing card)) m₁ (m₁.closeTurn rules active) :=
        Match.closeTurn_steps m₁ active
      have hbefore := hdue.trans (steps_of_calm path)
      have hfresh₂ : (m₁.closeTurn rules active).Fresh := fresh_of_steps opens.steps hfresh
      have hfresh₁ : m₁.Fresh := fresh_of_steps hclosed hfresh₂
      have hfresh₀ : m.Fresh := fresh_of_steps hbefore hfresh₁
      have hlater : ReflTransGen (Step rules (.sparing card)) m₁ m' := hclosed.trans opens.steps
      have ho₀ := ho.of_steps hc habandon
      obtain ⟨d, hd, hcard, hreason, hleft⟩ : (m.abandonSelection.destroyDue rules).Dying card (n - 1) :=
        Match.Dying.destroyDue ho₀ hfresh₀ hdying hn
      rcases waits_of_calm hc (ho.of_steps hc hdue) hfresh₁ hcard path hd with hwaits | hdeparts
      · have hd : d ∈ (m₁.closeTurn rules active).destructions.entries :=
          Match.mem_destroyAfterEffect (ho.of_steps hc hbefore) hfresh₁ hwaits hreason
        have ho₂ := (ho.of_steps hc hbefore).of_steps hc hclosed
        refine (opens.waits hc ho₂ hfresh hcard hd).imp ?_ ?_
        · exact fun hstill => ⟨d, hstill, hcard, hreason, hleft⟩
        · exact fun hdeparts => hdeparts.extend (hbefore.trans hclosed) .refl
      · exact .inr (hdeparts.extend hdue hlater)

/-- **The time that a killed card has left goes by turn ends, and by nothing else.** -/
theorem Course.counts {ends : Nat} (h : Course rules (.sparing card) m ends m')
    (hdying : m.Dying card n) (hn : ends < max 1 n) :
    m'.Dying card (n - ends) ∨ Match.Departs rules card m m' := by
  cases h with
  | stay path =>
      obtain ⟨d, hd, hcard, hrest⟩ := hdying
      exact (waits_of_calm hc ho hfresh hcard path hd).imp_left fun hstill =>
        ⟨d, hstill, hcard, hrest⟩
  | disconnect player => exact .inl hdying
  | begin begins =>
      obtain ⟨d, hd, hcard, hrest⟩ := hdying
      cases begins with
      | @intro m₁ _ seated notStarted path opens =>
          have hbegin : ReflTransGen (Step rules (.sparing card)) m m.begin :=
            .single (.begin seated notStarted)
          have htold : ReflTransGen (Step rules (.sparing card)) m₁ (m₁.broadcastViews .gameStarted) :=
            .single (.views fun _ => rfl)
          have hbefore := (hbegin.trans (steps_of_calm path)).trans htold
          have hfresh₁ : m₁.Fresh := fresh_of_steps (htold.trans opens.steps) hfresh
          rcases waits_of_calm hc (ho.of_steps hc hbegin) hfresh₁ hcard path hd with hwaits | hdeparts
          · refine (opens.waits hc (ho.of_steps hc hbefore) hfresh hcard hwaits).imp ?_ ?_
            · exact fun hstill => ⟨d, hstill, hcard, hrest⟩
            · exact fun hdeparts => hdeparts.extend hbefore .refl
          · exact .inr (hdeparts.extend hbegin (htold.trans opens.steps))
  | @pass m₁ _ now path undisturbed passes =>
      have hsame : m₁.Dying card n := by rwa [Match.Dying, undisturbed.2]
      have hbefore := steps_of_calm path
      refine (passes.counts hc (ho.of_steps hc hbefore) hfresh hsame (by omega)).imp_right ?_
      exact fun hdeparts => hdeparts.extend hbefore .refl
  | finish winner => exact .inl hdying

end

/-! ## The last turn end -/

/-- The designs of those of a player's cards that are among these, in order. -/
def Table.designsOf (t : Table) (owner : PlayerId) (cards : List LiveId) : List CardId :=
  cards.filterMap fun id => ((t.live? id).filter (·.owner = owner)).map LiveCard.card

namespace Match

/-- The design of a card that is destroyed comes on top of its owner's graveyard. -/
theorem zone?_destroy {owner : PlayerId} {zone : String} {z : Zone}
    (hz : m.table.zone? owner zone = some z) (hkind : z.kind = .static) (card : LiveId) :
    ∃ z', (m.destroy (some zone) card).table.zone? owner zone = some z' ∧ z'.kind = .static ∧
      z'.cards = z.cards ++ m.table.designsOf owner [card] := by
  have hout : (m.despawn card).2.table.zone? owner zone = some (z.removeLive card) :=
    (Table.zone?_removeLive ..).trans (congrArg (Option.map _) hz)
  have hstatic : (z.removeLive card).kind = .static :=
    (congrArg ZoneLayout.kind (Zone.layout_removeLive z card)).trans hkind
  cases hlive : m.table.live? card with
  | none =>
      rw [destroy_of_none hlive]
      exact ⟨_, hout, hstatic, by simp [Table.designsOf, hlive]⟩
  | some live =>
      rw [destroy_eq hlive]
      have hname : ∀ z : Zone, (z.pushCard live.card).name = z.name :=
        fun z => congrArg ZoneLayout.name (Zone.layout_pushCard z live.card)
      have hburied := @Table.zone?_modifyZone (m.despawn card).2.table live.owner zone
        (·.pushCard live.card) hname owner zone
      rw [hout, Option.map_some] at hburied
      by_cases howner : live.owner = owner
      · rw [if_pos ⟨howner.symm, rfl⟩] at hburied
        refine ⟨_, hburied, ?_, ?_⟩
        · exact (congrArg ZoneLayout.kind (Zone.layout_pushCard _ live.card)).trans hstatic
        · rw [Zone.cards_pushCard hstatic, Zone.cards_removeLive]
          simp [Table.designsOf, hlive, howner]
      · rw [if_neg fun h => howner h.1.symm] at hburied
        refine ⟨_, hburied, hstatic, ?_⟩
        rw [Zone.cards_removeLive]
        simp [Table.designsOf, hlive, howner]

theorem zone?_destroyAll {owner : PlayerId} {zone : String} {cards : List LiveId}
    (hnodup : cards.Nodup) {z : Zone} (hz : m.table.zone? owner zone = some z)
    (hkind : z.kind = .static) :
    ∃ z', (m.destroyAll (some zone) cards).table.zone? owner zone = some z' ∧
      z'.cards = z.cards ++ m.table.designsOf owner cards := by
  induction cards generalizing m z with
  | nil => exact ⟨z, hz, (List.append_nil _).symm⟩
  | cons card rest ih =>
      obtain ⟨hout, hrest⟩ := List.nodup_cons.mp hnodup
      obtain ⟨z₁, hz₁, hkind₁, hcards₁⟩ := zone?_destroy hz hkind card
      obtain ⟨z₂, hz₂, hcards₂⟩ := ih hrest hz₁ hkind₁
      have hothers : (m.destroy (some zone) card).table.designsOf owner rest
          = m.table.designsOf owner rest := by
        refine List.filterMap_congr ?_
        intro id hid
        have hne : id ≠ card := fun he => hout (he ▸ hid)
        rw [live?_destroy, if_neg hne]
      refine ⟨z₂, hz₂, ?_⟩
      rw [hcards₂, hcards₁, hothers, List.append_assoc]
      refine congrArg (z.cards ++ ·) ?_
      rw [Table.designsOf, Table.designsOf, ← List.filterMap_append]
      rfl

/-- As a turn ends whose end the card has waited for, it is destroyed. -/
structure Buries (rules : Rulebook) (card : LiveId) (m m' : Match) : Prop where
  /-- It is one of the cards that are taken out of play first of all, and the designs of these come
  on top of the graveyards of their owners. -/
  buried : ∃ p live, ReflTransGen (Step rules .all) m p ∧ p.table.live? card = some live ∧
    card ∈ p.destructions.countDown.1 ∧ p.destructions.countDown.1.Nodup ∧
    (∀ zone z, rules.config.graveyardZone = some zone →
      p.table.zone? live.owner zone = some z → z.kind = .static →
        ∃ z', (p.destroyDue rules).table.zone? live.owner zone = some z' ∧
          z'.cards = z.cards ++ p.table.designsOf live.owner p.destructions.countDown.1) ∧
    ReflTransGen (Step rules .all) (p.destroyDue rules) m'
  gone : m'.Gone card
  unlisted : card ∉ m'.table.liveInOrder
  told : m'.farewells card = m.farewellMail card

end Match

/-- **A killed card is destroyed when its last turn end begins.** -/
theorem Course.buries (hc : rules.catalog.Coherent) (ho : m.Orderly rules)
    (h : Course rules .all m 1 m') (hfresh : m'.Fresh) (hdying : m.Dying card n) (hn : n ≤ 1) :
    m.Buries rules card m' := by
  obtain ⟨d, hd, rfl, hreason, rfl⟩ := hdying
  cases h with
  | @pass m₁ _ now path undisturbed passes =>
      cases passes with
      | @intro m₂ _ active hactive rest opens =>
          have hbefore : ReflTransGen (Step rules .all) m m₁.abandonSelection :=
            (steps_of_calm path).tail .abandon
          have hafter : ReflTransGen (Step rules .all) (m₁.abandonSelection.destroyDue rules) m' :=
            ((steps_of_calm rest).trans (m₂.closeTurn_steps active)).trans opens.steps
          have hfreshDue : (m₁.abandonSelection.destroyDue rules).Fresh :=
            fresh_of_steps hafter hfresh
          have hfresh₁ : m₁.abandonSelection.Fresh :=
            (Step.destroyDue : Step rules .all _ _).fresh hfreshDue
          have ho₁ := ho.of_steps hc hbefore
          have hd₁ : d ∈ m₁.abandonSelection.destructions.entries := by
            show d ∈ m₁.destructions.entries
            rwa [undisturbed.2]
          obtain ⟨live, hlive, -⟩ := ho₁.dead_of_mem hfresh₁ hd₁
          have hdue : d.card ∈ m₁.abandonSelection.destructions.countDown.1 :=
            DestructionQueue.mem_countDown_of_due hd₁ ((Doomed.isDue_countedDown hreason).mpr hn)
          have hgone := Match.gone_destroyDue ho₁ hfresh₁ hd₁ hdue
          have hgone' := hgone.of_steps hafter hfresh
          refine ⟨⟨_, live, hbefore, hlive, hdue, ?_, ?_, hafter⟩, hgone',
            (ho₁.of_steps hc (hafter.head .destroyDue)).unlisted hfresh hgone', ?_⟩
          · exact DestructionQueue.nodup_countDown (ho₁.nodup hfresh₁)
          · intro zone z hzone hz hkind
            rw [Match.destroyDue, hzone]
            exact Match.zone?_destroyAll (DestructionQueue.nodup_countDown (ho₁.nodup hfresh₁))
              (m := { m₁.abandonSelection with destructions := _ }) hz hkind
          · have hsaid : (m₁.abandonSelection.destroyDue rules).farewells d.card
                = m₁.abandonSelection.farewells d.card ++ m₁.abandonSelection.farewellMail d.card :=
              Match.farewells_destroyAll (m := { m₁.abandonSelection with destructions := _ }) hdue hlive
            rw [hgone.farewells_of_steps hafter hfresh, hsaid,
              ho₁.farewells_of_live hfresh₁ hlive, List.nil_append]
            exact Match.farewellMail_congr (steady_of_calm path).lines d.card

/-! ## Coming into the queue -/

/-- A destruction puts nobody into the queue. -/
theorem Match.entries_destroyAll (m : Match) (graveyard : Option String) (cards : List LiveId) :
    (m.destroyAll graveyard cards).destructions.entries ⊆ m.destructions.entries := by
  refine destroyAll_induction (P := fun m' => m'.destructions.entries ⊆ m.destructions.entries) ?_
    cards (List.Subset.refl _)
  intro m' card h d hd
  rw [destructions_destroy] at hd
  exact h (DestructionQueue.mem_cancel.mp hd).1

/-- Whoever came into the queue in between came with the delay of the settings. -/
def Match.Fills (rules : Rulebook) (m m' : Match) : Prop :=
  ∀ d ∈ m'.destructions.entries,
    d ∈ m.destructions.entries ∨ d.remaining = d.reason.delay rules.config

namespace Match.Fills

theorem of_subset (h : m'.destructions.entries ⊆ m.destructions.entries) : Fills rules m m' :=
  fun _ hd => .inl (h hd)

theorem refl (m : Match) : Fills rules m m :=
  of_subset fun _ hd => hd

theorem trans {m'' : Match} (h : Fills rules m m') (h' : Fills rules m' m'') :
    Fills rules m m'' := by
  intro d hd
  rcases h' d hd with hold | hnew
  · exact h d hold
  · exact .inr hnew

theorem cancel {card : LiveId} (h : m'.destructions = m.destructions.cancel card) :
    Fills rules m m' := by
  refine of_subset ?_
  rw [h]
  exact fun d hd => (DestructionQueue.mem_cancel.mp hd).1

theorem destroyAfterEffect (m : Match) : Fills rules m (m.destroyAfterEffect rules) := by
  refine of_subset fun d hd => ?_
  have htaken := entries_destroyAll { m with destructions := m.destructions.takeAfterEffect.2 } _ _ hd
  exact (List.mem_filter.mp htaken).1

end Match.Fills

theorem Change.fills (h : Change rules scope m m') : Match.Fills rules m m' := by
  cases h with
  | ask => rw [Match.tell_eq_post]; exact .refl m
  | withdraw | strike | fade | replace => exact .cancel rfl
  | @condemn card live reason hlive fresh =>
      intro d hd
      change d ∈ (m.destructions.schedule card _ reason).entries at hd
      rw [DestructionQueue.entries_schedule fresh] at hd
      rcases List.mem_append.mp hd with hold | hnew
      · exact .inl hold
      · rw [List.mem_singleton.mp hnew]
        exact .inr rfl
  | _ => exact .of_subset fun _ hd => hd

theorem Calm.fills (h : Calm rules scope m m') : Match.Fills rules m m' := by
  cases h with
  | change h => exact h.fills
  | repeatQuestion | owe | demand => rw [Match.tell_eq_post]; exact .of_subset fun _ hd => hd
  | discard hzone held =>
      rw [Match.discardCard_eq hzone held]
      exact .of_subset fun _ hd => hd
  | shuffle player zone =>
      rcases m.shuffleZone_eq player zone with heq | ⟨z, dice, -, heq⟩ <;> rw [heq] <;>
        exact .of_subset fun _ hd => hd
  | _ => exact .of_subset fun _ hd => hd

theorem fills_of_calm (h : ReflTransGen (Calm rules scope) m m') : Match.Fills rules m m' := by
  induction h with
  | refl => exact .refl m
  | tail _ hstep ih => exact ih.trans hstep.fills

theorem Opens.fills {now : Nat} (h : Opens rules scope now m m') : Match.Fills rules m m' := by
  obtain ⟨-, path⟩ := h
  exact fun d hd => fills_of_calm path d hd

/-- **Whoever waits after an operation has come in during it with the whole delay, or has waited before
it, and the turn ends since have been counted.** -/
theorem Course.fills {ends : Nat} (h : Course rules scope m ends m')
    (hd : d ∈ m'.destructions.entries) :
    (∃ d₀ ∈ m.destructions.entries, d = Doomed.countedDown^[ends] d₀) ∨
      d.remaining = d.reason.delay rules.config := by
  have hsame (h : Match.Fills rules m m') :
      (∃ d₀ ∈ m.destructions.entries, d = d₀) ∨ d.remaining = d.reason.delay rules.config :=
    (h d hd).imp_left fun hold => ⟨d, hold, rfl⟩
  cases h with
  | stay path => exact hsame (fills_of_calm path)
  | disconnect player => exact hsame (.refl m)
  | begin begins =>
      obtain ⟨-, -, path, opens⟩ := begins
      have hbegun : Match.Fills rules m.begin _ :=
        (fills_of_calm path).trans fun d hd => opens.fills d hd
      exact hsame hbegun
  | @pass m₁ _ now path undisturbed passes =>
      obtain ⟨hactive, rest, opens⟩ := passes
      have hclosed := (fills_of_calm rest).trans (.destroyAfterEffect _)
      refine ((hclosed.trans fun d hd => opens.fills d hd) d hd).imp_left fun hdue => ?_
      have hcounted : d ∈ m₁.destructions.countDown.2.entries :=
        Match.entries_destroyAll { m₁.abandonSelection with
          destructions := m₁.destructions.countDown.2 } _ _ hdue
      obtain ⟨d₀, hd₀, rfl⟩ := List.mem_map.mp (List.mem_filter.mp hcounted).1
      exact ⟨d₀, undisturbed.2 ▸ hd₀, rfl⟩
  | finish winner => exact hsame (.refl m)

/-! ## Runs -/

/-- `Course.fills`, for killed cards and for all operations. -/
theorem perform_fills (hc : rules.catalog.Coherent) (h : Reachable rules m) (op : Operation)
    (hd : d ∈ (m.perform rules op).2.destructions.entries) (hreason : d.reason = .killed) :
    d.remaining = rules.config.destructionDelay ∨
      ∃ d₀ ∈ m.destructions.entries, d₀.card = d.card ∧ d₀.reason = .killed ∧
        d.remaining.toNat = d₀.remaining.toNat - op.turnEnds (m.perform rules op).1 := by
  cases hop : op.isRegister with
  | true =>
      have hsame : (m.perform rules op).2.destructions = m.destructions := by
        rcases register_cases rules m hop with heq | ⟨name, connection, deck, -, heq⟩ <;> rw [heq]
        rfl
      rw [hsame] at hd
      exact .inr ⟨d, hd, rfl, hreason, by rw [Operation.turnEnds_of_isRegister hop]; rfl⟩
  | false =>
      have hcourse := perform_course hc (Scope.all_covers _) (h.conforms hc) op.within_all hop
      rcases hcourse.fills hd with ⟨d₀, hd₀, rfl⟩ | hwhole
      · obtain ⟨hcard, hsame, hleft⟩ := d₀.iterate_countedDown (op.turnEnds (m.perform rules op).1)
        have hkilled := hsame.symm.trans hreason
        exact .inr ⟨d₀, hd₀, hcard.symm, hkilled, hleft hkilled⟩
      · rw [hreason] at hwhole
        exact .inl hwhole

/-- In one of the operations the card leaves play for a static zone. -/
def Match.DepartsAlong (rules : Rulebook) (card : LiveId) (m : Match) (ops : List Operation) : Prop :=
  ∃ before op after, ops = before ++ op :: after ∧
    Match.Departs rules card (m.run rules before) ((m.run rules before).perform rules op).2

/-- What one operation does to the time that is left. -/
theorem perform_counts (hc : rules.catalog.Coherent) (h : Reachable rules m) {op : Operation}
    (hspares : m.Spares rules card op) (hfresh : (m.perform rules op).2.Fresh)
    (hdying : m.Dying card n) (hn : op.turnEnds (m.perform rules op).1 < max 1 n) :
    (m.perform rules op).2.Dying card (n - op.turnEnds (m.perform rules op).1) ∨
      Match.Departs rules card m (m.perform rules op).2 := by
  cases hop : op.isRegister with
  | false =>
      exact (hspares.course hc (h.conforms hc) hop).counts hc (h.orderly hc) hfresh hdying hn
  | true =>
      rw [Operation.turnEnds_of_isRegister hop, Nat.sub_zero]
      rcases register_cases rules m hop with heq | ⟨name, connection, deck, -, heq⟩ <;> rw [heq] <;>
        exact .inl hdying

/-- **While less turns have ended than a killed card had to go, it has the rest to go, unless it has left
play.** -/
theorem run_counts (hc : rules.catalog.Coherent) (h : Reachable rules m) {ops : List Operation}
    (hspares : m.SparesAll rules card ops) (hfresh : (m.run rules ops).Fresh)
    (hdying : m.Dying card n) (hn : m.turnEnds rules ops < max 1 n) :
    (m.run rules ops).Dying card (n - m.turnEnds rules ops) ∨ m.DepartsAlong rules card ops := by
  induction ops generalizing m n with
  | nil => exact .inl hdying
  | cons op rest ih =>
      obtain ⟨hfirst, hrest⟩ := hspares
      rw [Match.turnEnds] at hn ⊢
      have hnext := h.perform op
      have hmiddle : (m.perform rules op).2.Fresh := hnext.fresh_of_run hc rest hfresh
      rcases perform_counts hc h hfirst hmiddle hdying (by omega) with hstill | hdeparts
      · have hlater := ih hnext hrest hfresh hstill (by omega)
        rw [Nat.sub_sub] at hlater
        refine hlater.imp_right ?_
        rintro ⟨before, last, after, rfl, hdeparts⟩
        exact ⟨op :: before, last, after, rfl, hdeparts⟩
      · exact .inr ⟨[], op, rest, rfl, hdeparts⟩

/-- Whoever is killed is in the queue before anything else is done. -/
theorem killFor_condemns (rules : Rulebook) (reason : DestructionReason) {live : LiveCard}
    (hlive : m.table.live? card = some live) (hfree : card ∉ m.destructions.cards) :
    ∃ q, (∀ scope, Change rules scope m q) ∧
      (∀ resolve, (killFor rules resolve reason card).run m = (mourn rules resolve card).run q) ∧
      ⟨card, reason.delay rules.config, reason⟩ ∈ q.destructions.entries := by
  have hcontains := DestructionQueue.contains_eq_false hfree
  refine ⟨_, fun _ => .condemn reason hlive hcontains,
    fun resolve => killFor_run hlive hcontains reason, ?_⟩
  show _ ∈ (m.destructions.schedule ..).entries
  rw [DestructionQueue.entries_schedule hcontains]
  exact List.mem_append_right _ List.mem_cons_self

/-- A card that is told to die, and is not on its way out, has the whole delay to go. -/
theorem perform_kill_waits (hc : rules.catalog.Coherent) (h : Reachable rules m)
    (hspares : m.Spares rules card (.kill card)) (hfresh : (m.perform rules (.kill card)).2.Fresh)
    {live : LiveCard} (hlive : m.table.live? card = some live)
    (hfree : card ∉ m.destructions.cards) :
    ⟨card, rules.config.destructionDelay, .killed⟩
        ∈ (m.perform rules (.kill card)).2.destructions.entries ∨
      Match.Departs rules card m (m.perform rules (.kill card)).2 := by
  obtain ⟨q, hcondemned, hrun, hentry⟩ := killFor_condemns rules .killed hlive hfree
  have hq : q.Fits rules.catalog m.table.playerIds :=
    (hcondemned .all).fits hc ⟨h.conforms hc, rfl⟩
  have hres : Resolves rules (.sparing card) (fun _ => True) m.table.playerIds
      (rules.watched card silentAlarm) := watched_resolves hc (tolerates_all rules)
  have hpath := (mourn_walks hc hres card q hq).path
  rw [← hspares.quiet silentAlarm, performWith, thenDone, run_bind_pure, kill, hrun] at hfresh ⊢
  refine (waits_of_calm hc ((h.orderly hc).of_steps hc (.single (hcondemned .all).step)) hfresh rfl
    (calm_of_changes ⟨hpath, fun _ => id⟩).path hentry).imp_right fun hdeparts =>
      hdeparts.extend (.single (hcondemned _).step) .refl

/-- **A killed card goes after as many turn ends as the settings say, and no sooner.**

The match has come about by any operations with any answers.  The laws are about one card, which leaves
play neither for a static zone nor by being transformed; and the host, as it has to, handed out no handle
twice. -/
theorem killed_cards_go_in_time (hc : rules.catalog.Accepted) (h : Reachable rules m)
    (card : LiveId) :
    -- Wherever in the course of play a kill comes, a card that is not on its way out yet joins the queue
    -- before anything else is done, and until a turn end is counted its entry stays as it is.
    (∀ p live, ReflTransGen (Step rules .all) m p → p.table.live? card = some live →
      card ∉ p.destructions.cards →
        ∃ q, (∀ resolve, (kill rules resolve card).run p = (mourn rules resolve card).run q) ∧
          ∀ q', ReflTransGen (Lull rules (.sparing card)) q q' → q'.spawner.handed.Nodup →
            ⟨card, rules.config.destructionDelay, .killed⟩ ∈ q'.destructions.entries ∨
              Match.Departs rules card q q') ∧
    (∀ live, m.table.live? card = some live → card ∉ m.destructions.cards →
      m.Spares rules card (.kill card) → (m.perform rules (.kill card)).2.spawner.handed.Nodup →
        ⟨card, rules.config.destructionDelay, .killed⟩
            ∈ (m.perform rules (.kill card)).2.destructions.entries ∨
          Match.Departs rules card m (m.perform rules (.kill card)).2) ∧
    -- An operation changes an entry by the turn end that comes with it, and by nothing else.
    (∀ op, ∀ d ∈ (m.perform rules op).2.destructions.entries, d.reason = .killed →
      d.remaining = rules.config.destructionDelay ∨
        ∃ d₀ ∈ m.destructions.entries, d₀.card = d.card ∧ d₀.reason = .killed ∧
          d.remaining.toNat = d₀.remaining.toNat - op.turnEnds (m.perform rules op).1) ∧
    ∀ delay, ⟨card, delay, .killed⟩ ∈ m.destructions.entries →
      -- While less turns have ended than there were to go, it is in play, dead, and in the queue.
      (∀ ops, m.SparesAll rules card ops → (m.run rules ops).spawner.handed.Nodup →
        m.turnEnds rules ops < max 1 delay.toNat →
          m.DepartsAlong rules card ops ∨
            (∃ live, (m.run rules ops).table.live? card = some live ∧ live.alive = false) ∧
            (m.run rules ops).Dying card (delay.toNat - m.turnEnds rules ops) ∧
            (m.run rules ops).farewells card = []) ∧
      -- With the last of the turn ends it is destroyed, and everybody is told, for good and all.
      ∀ ops last later, m.SparesAll rules card ops →
        (m.run rules (ops ++ last :: later)).spawner.handed.Nodup →
        m.turnEnds rules ops + 1 = max 1 delay.toNat →
        last.turnEnds ((m.run rules ops).perform rules last).1 = 1 →
          m.DepartsAlong rules card ops ∨
            (m.run rules ops).Buries rules card ((m.run rules ops).perform rules last).2 ∧
            (m.run rules (ops ++ last :: later)).table.live? card = none ∧
            (m.run rules (ops ++ last :: later)).farewells card
              = (m.run rules ops).farewellMail card := by
  have hcoherent := hc.coherent
  refine ⟨?_, ?_, ?_, ?_⟩
  · intro p live hpath hlive hfree
    obtain ⟨q, hcondemned, hrun, hentry⟩ := killFor_condemns rules .killed hlive hfree
    have ho := (h.orderly hcoherent).of_steps hcoherent (hpath.tail (hcondemned _).step)
    refine ⟨q, hrun, ?_⟩
    intro q' hlulls hunique
    exact waits_of_lulls hcoherent ho hunique hlulls hentry rfl rfl
  · intro live hlive hfree hspares hunique
    exact perform_kill_waits hcoherent h hspares hunique hlive hfree
  · intro op d hd hreason
    exact perform_fills hcoherent h op hd hreason
  · intro delay hentry
    have hdying : m.Dying card delay.toNat := ⟨_, hentry, rfl, rfl, rfl⟩
    refine ⟨fun ops hspares hunique hends => ?_, fun ops last later hspares hunique hends hlast => ?_⟩
    · rcases run_counts hcoherent h hspares hunique hdying hends with hdying | hdeparts
      · have ho := (h.run ops).orderly hcoherent
        obtain ⟨live, hlive, hdead⟩ := hdying.dead ho hunique
        exact .inr ⟨⟨live, hlive, hdead⟩, hdying, ho.farewells_of_live hunique hlive⟩
      · exact .inl hdeparts
    · have hr := h.run ops
      have hsplit : m.run rules (ops ++ last :: later)
          = ((m.run rules ops).perform rules last).2.run rules later := List.foldl_append
      rw [hsplit] at hunique ⊢
      have hfresh' := (hr.perform last).fresh_of_run hcoherent later hunique
      have hfresh := (hr.conforms hcoherent).fresh_of_perform hcoherent last hfresh'
      have hcourse := perform_course_of_turnEnds hcoherent (hr.conforms hcoherent) hlast
      refine (run_counts hcoherent h hspares hfresh hdying (by omega)).symm.imp_right fun hdying => ?_
      have hburies := hcourse.buries hcoherent (hr.orderly hcoherent) hfresh' hdying (by omega)
      obtain ⟨hstays, hsaid⟩ := hburies.gone.run hcoherent (hr.perform last) later hunique
      exact ⟨hburies, hstays.absent, hsaid.trans hburies.told⟩

namespace Duel

/-- Ann plays a wolf, and it is killed. -/
def condemned : Match :=
  opening.run book (deal ++ [.playCard ⟨0⟩ ⟨1⟩, .kill ⟨0⟩])

/-- Two turns have ended, and the wolf has one to go; then it is destroyed, and Ann and Bob are told. -/
theorem gone_in_three :
    ⟨⟨0⟩, 3, .killed⟩ ∈ condemned.destructions.entries ∧
    condemned.turnEnds book [.endTurn 0, .endTurn 0] = 2 ∧
    (condemned.run book [.endTurn 0, .endTurn 0]).destructions.entries = [⟨⟨0⟩, 1, .killed⟩] ∧
    (condemned.DepartsAlong book ⟨0⟩ [.endTurn 0, .endTurn 0] ∨
      (condemned.run book [.endTurn 0, .endTurn 0]).Buries book ⟨0⟩
          ((condemned.run book [.endTurn 0, .endTurn 0]).perform book (.endTurn 0)).2 ∧
        (condemned.run book [.endTurn 0, .endTurn 0, .endTurn 0, .endTurn 0]).table.live? ⟨0⟩ = none ∧
        (condemned.run book [.endTurn 0, .endTurn 0, .endTurn 0, .endTurn 0]).farewells ⟨0⟩
          = [(⟨1⟩, .cardDestroyed ⟨0⟩), (⟨2⟩, .cardDestroyed ⟨0⟩)]) := by
  have hentry : ⟨⟨0⟩, 3, .killed⟩ ∈ condemned.destructions.entries := by decide +kernel
  have hends : condemned.turnEnds book [.endTurn 0, .endTurn 0] = 2 := by decide +kernel
  have hmail : (condemned.run book [.endTurn 0, .endTurn 0]).farewellMail ⟨0⟩
      = [(⟨1⟩, .cardDestroyed ⟨0⟩), (⟨2⟩, .cardDestroyed ⟨0⟩)] := by decide +kernel
  obtain ⟨-, -, -, htime⟩ := killed_cards_go_in_time accepted (reachable _) ⟨0⟩
  obtain ⟨-, hlast⟩ := htime 3 hentry
  refine ⟨hentry, hends, by decide +kernel, ?_⟩
  rw [← hmail]
  exact hlast [.endTurn 0, .endTurn 0] (.endTurn 0) [.endTurn 0]
    (neverTransforms_book.sparesAll _ (by decide +kernel) _) (by decide +kernel)
    (hends ▸ by decide) (by decide +kernel)

end Duel

end CardArena
