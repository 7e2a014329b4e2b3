import Mathlib
import CardArena.Proofs.Doom

/-!
# Cards that die after their effect

An effect ends with its bookkeeping: a card of a type that dies after its effects is killed.  From then
on the card is in the queue of destructions, and the next turn end takes it out of play, after all that
happens in it.

A card that is on its way out already keeps the entry that it has.  So a killed card that still has
several turn ends to go stays for these, effect or no effect (`Duel.lingering`).  Otherwise the card goes
with the next turn end (`Match.Leaving`), unless it is transformed before that.  A transformation that
succeeds takes it out of play at once; nothing is said here of one that fails on the way.

* `resolveEffect_settles`, `selectTarget_settles` : an effect that is done has its bookkeeping done.
* `Match.Settles.dead` : after the bookkeeping the card is dead or gone.
* `Step.leaving`, `Course.removes` : whoever goes with the next turn end does.
* `self_destroying_cards_go` : the whole of it, over runs.
-/

namespace CardArena

open Play
open Relation (ReflTransGen)

variable {rules : Rulebook} {scope : Scope} {F : Fault → Prop} {ids : List PlayerId}
  {resolve : Resolver} {m m' : Match} {card : LiveId} {d : Doomed}

/-! ## Going with the next turn end -/

/-- The card goes with the next turn end, if it is not gone already. -/
def Match.Leaving (m : Match) (card : LiveId) : Prop :=
  m.Gone card ∨
    ∃ d ∈ m.destructions.entries, d.card = card ∧ (d.reason = .killed → d.remaining.toNat ≤ 1)

namespace Match

/-- The count of a turn end takes the card out if it was killed, and leaves it alone if not. -/
theorem leaving_destroyDue (ho : m.Orderly rules) (hfresh : m.Fresh) (hd : d ∈ m.destructions.entries)
    (hlast : d.reason = .killed → d.remaining.toNat ≤ 1) :
    (m.destroyDue rules).Gone d.card ∨
      d.reason = .afterEffect ∧ d ∈ (m.destroyDue rules).destructions.entries := by
  cases hreason : d.reason with
  | killed =>
      have hdue := DestructionQueue.mem_countDown_of_due hd
        ((Doomed.isDue_countedDown hreason).mpr (hlast hreason))
      exact .inl (gone_destroyDue ho hfresh hd hdue)
  | afterEffect =>
      have hsame : d.countedDown = d := by rw [Doomed.countedDown, hreason]
      obtain ⟨hkept, hstays⟩ := DestructionQueue.mem_countDown_of_not_due (ho.nodup hfresh) hd
        (by rw [hsame, Doomed.isDue, hreason]; rfl)
      rw [hsame] at hkept
      exact .inr ⟨rfl, mem_destructions_destroyAll _ _ hstays _ hkept⟩

theorem gone_destroyAfterEffect (ho : m.Orderly rules) (hfresh : m.Fresh)
    (hd : d ∈ m.destructions.entries) (hreason : d.reason = .afterEffect) :
    (m.destroyAfterEffect rules).Gone d.card := by
  have hdue : d.card ∈ m.destructions.takeAfterEffect.1 :=
    List.mem_map_of_mem (List.mem_filter.mpr ⟨hd, decide_eq_true hreason⟩)
  obtain ⟨live, hlive, -⟩ := ho.dead_of_mem hfresh hd
  refine ⟨?_, (live?_destroyAll ..).trans (if_pos hdue)⟩
  exact (Step.destroyAfterEffect : Step rules .all _ _).handed.subset (ho.mem_handed hfresh hlive)

end Match

/-- **No step that spares the card keeps it from going with the next turn end.** -/
theorem Step.leaving (ho : m.Orderly rules) (hfresh : m'.Fresh) (h : Step rules (.sparing card) m m')
    (hleaving : m.Leaving card) : m'.Leaving card := by
  have hfresh₀ : m.Fresh := h.fresh hfresh
  rcases hleaving with hgone | ⟨d, hd, rfl, hlast⟩
  · exact .inl (hgone.of_steps (.single h) hfresh)
  · cases h with
    | calm h =>
        obtain ⟨live, hlive, -⟩ := ho.dead_of_mem hfresh₀ hd
        rcases h.waits (by rw [hlive]; rfl) hd rfl with hwaits | hwithdraws
        · exact .inr ⟨d, hwaits, rfl, hlast⟩
        · exact .inl (hwithdraws.gone ho hfresh₀)
    | destroyDue =>
        rcases Match.leaving_destroyDue ho hfresh₀ hd hlast with hgone | ⟨-, hwaits⟩
        · exact .inl hgone
        · exact .inr ⟨d, hwaits, rfl, hlast⟩
    | destroyAfterEffect =>
        cases hreason : d.reason with
        | killed => exact .inr ⟨d, Match.mem_destroyAfterEffect ho hfresh₀ hd hreason, rfl, hlast⟩
        | afterEffect => exact .inl (Match.gone_destroyAfterEffect ho hfresh₀ hd hreason)
    | _ => exact .inr ⟨d, hd, rfl, hlast⟩

section

variable (hc : rules.catalog.Coherent) (ho : m.Orderly rules) (hfresh : m'.Fresh)

include hc ho hfresh

theorem leaving_of_steps (h : ReflTransGen (Step rules (.sparing card)) m m')
    (hleaving : m.Leaving card) : m'.Leaving card := by
  induction h with
  | refl => exact hleaving
  | tail hpath hstep ih =>
      exact hstep.leaving (ho.of_steps hc hpath) hfresh (ih (hstep.fresh hfresh))

/-- **A turn end takes out of play whoever goes with it.** -/
theorem Passes.removes {now : Nat} (h : Passes rules (.sparing card) now m m')
    (hleaving : m.Leaving card) : m'.Gone card := by
  cases h with
  | @intro m₁ _ active hactive path opens =>
      have habandon : ReflTransGen (Step rules (.sparing card)) m m.abandonSelection :=
        .single .abandon
      have hdue := habandon.tail .destroyDue
      have hbefore := hdue.trans (steps_of_calm path)
      have hlater : ReflTransGen (Step rules (.sparing card)) (m₁.destroyAfterEffect rules) m' :=
        (m₁.closeTurn_rest active).trans opens.steps
      have hfresh₂ : (m₁.destroyAfterEffect rules).Fresh := fresh_of_steps hlater hfresh
      have hfresh₁ : m₁.Fresh := (Step.destroyAfterEffect : Step rules .all _ _).fresh hfresh₂
      have hfresh₀ : m.abandonSelection.Fresh :=
        fresh_of_steps ((steps_of_calm path).head .destroyDue) hfresh₁
      have hgone (h : m₁.Gone card) : m'.Gone card :=
        (h.of_steps (.single (.destroyAfterEffect : Step rules .all _ _)) hfresh₂).of_steps hlater hfresh
      have ho₀ := ho.of_steps hc habandon
      rcases leaving_of_steps hc ho hfresh₀ habandon hleaving with h | ⟨d, hd, rfl, hlast⟩
      · exact hgone (h.of_steps ((steps_of_calm path).head .destroyDue) hfresh₁)
      rcases Match.leaving_destroyDue ho₀ hfresh₀ hd hlast with h | ⟨hreason, hwaits⟩
      · exact hgone (h.of_steps (steps_of_calm path) hfresh₁)
      rcases waits_of_calm hc (ho.of_steps hc hdue) hfresh₁ rfl path hwaits with h | h
      · exact (Match.gone_destroyAfterEffect (ho.of_steps hc hbefore) hfresh₁ h hreason).of_steps hlater
          hfresh
      · exact hgone (h.gone hc (ho.of_steps hc hdue) hfresh₁)

theorem Course.removes {ends : Nat} (h : Course rules (.sparing card) m ends m') (hends : 0 < ends)
    (hleaving : m.Leaving card) : m'.Gone card := by
  cases h with
  | pass path undisturbed passes =>
      have hbefore := steps_of_calm path
      have hfresh₁ := fresh_of_steps passes.steps hfresh
      exact passes.removes hc (ho.of_steps hc hbefore) hfresh
        (leaving_of_steps hc ho hfresh₁ hbefore hleaving)
  | _ => cases hends

end

/-! ## The bookkeeping -/

/-- The engine, as operations use it or with what room is left to it within a cascade. -/
inductive Rulebook.Engine (rules : Rulebook) : Resolver → Prop
  | resolver : Engine rules rules.resolver
  | nested (room : Nat) : Engine rules (resolveFiring rules room)

theorem Rulebook.Engine.resolves (h : rules.Engine resolve) (hc : rules.catalog.Coherent) :
    Resolves rules .all (fun _ => True) ids resolve := by
  cases h with
  | resolver => exact resolver_resolves_all hc
  | nested room => exact resolveFiring_resolves hc (Scope.all_covers _) (tolerates_all rules) room

/-- Cards of the design are of a type that dies after its effects. -/
def Catalog.Ephemeral (c : Catalog) (design : CardId) : Prop :=
  (c.typed? design).any (fun (_, cardType) => cardType.destroyAfterEffect) = true

instance (c : Catalog) (design : CardId) : Decidable (c.Ephemeral design) :=
  inferInstanceAs (Decidable (_ = true))

/-- What is left of the bookkeeping once the card has been condemned. -/
def settle (rules : Rulebook) (resolve : Resolver) (card : LiveId) : Play Unit := do
  mourn rules resolve card
  modify (·.broadcastState)

theorem finishEffect_run {live : LiveCard} (hlive : m.table.live? card = some live)
    (heph : rules.catalog.Ephemeral live.card) :
    (finishEffect rules resolve card).run m =
      (killFor rules resolve .afterEffect card >>= fun _ => modify (·.broadcastState)).run m := by
  have htype : ((m.table.live? card).bind fun live => rules.catalog.typed? live.card).any
      (fun (_, cardType) => cardType.destroyAfterEffect) = true := by
    rw [hlive]
    exact heph
  rw [finishEffect, run_get_bind]
  dsimp only
  rw [if_pos htype]

/-- **The bookkeeping puts the card into the queue before anything else is done.** -/
theorem finishEffect_condemns {live : LiveCard} (hlive : m.table.live? card = some live)
    (heph : rules.catalog.Ephemeral live.card) (hfree : card ∉ m.destructions.cards) :
    ∃ q, (∀ scope, Change rules scope m q) ∧
      (∀ resolve, (finishEffect rules resolve card).run m = (settle rules resolve card).run q) ∧
      ⟨card, 0, .afterEffect⟩ ∈ q.destructions.entries := by
  obtain ⟨q, hcondemned, hrun, hentry⟩ := killFor_condemns rules .afterEffect hlive hfree
  refine ⟨q, hcondemned, fun resolve => ?_, hentry⟩
  rw [finishEffect_run hlive heph, run_bind, hrun, settle, run_bind]

/-- On the way from one match to the other an effect of the card has been done, and the bookkeeping with
which it ends has not failed. -/
def Match.Settles (rules : Rulebook) (card : LiveId) (m m' : Match) : Prop :=
  ∃ resolve p q, rules.Engine resolve ∧ ReflTransGen (Step rules .all) m p ∧
    (finishEffect rules resolve card).run p = (.ok (), q) ∧ ReflTransGen (Step rules .all) q m'

theorem Match.Settles.extend {p q : Match} (h : Match.Settles rules card p q)
    (hbefore : ReflTransGen (Step rules .all) m p) (hafter : ReflTransGen (Step rules .all) q m') :
    Match.Settles rules card m m' := by
  obtain ⟨resolve, a, b, hengine, hleft, hrun, hright⟩ := h
  exact ⟨resolve, a, b, hengine, hbefore.trans hleft, hrun, hright.trans hafter⟩

section

variable (hc : rules.catalog.Coherent)

include hc

theorem settle_walks (hres : Resolves rules scope F ids resolve) (card : LiveId) :
    Walks rules scope F ids (settle rules resolve card) :=
  .bind (kept_fits hc) (mourn_walks hc hres card) fun _ _ _ => .modify .reveal

/-- **After the bookkeeping a card that dies after its effects is dead, if it is still in play.** -/
theorem Match.Settles.dead (h : Match.Settles rules card m m') (ho : m.Orderly rules)
    (hfresh : m'.Fresh) (hhanded : card ∈ m.spawner.handed) {live : LiveCard}
    (hlive : m'.table.live? card = some live) (heph : rules.catalog.Ephemeral live.card) :
    live.alive = false := by
  obtain ⟨resolve, p, q, hengine, hbefore, hrun, hafter⟩ := h
  have hp : p.Fits rules.catalog p.table.playerIds := ⟨ho.conforms.of_steps hc hbefore, rfl⟩
  have hpq : ReflTransGen (Step rules .all) p q := by
    have hpath := (finishEffect_walks hc (hengine.resolves hc) card p hp).path
    rw [hrun] at hpath
    exact steps_of_changes hpath
  -- It is what it was when the bookkeeping began.
  obtain ⟨old, hold, hbecomes⟩ := descends_of_steps (hpq.trans hafter)
    ((handed_of_steps hbefore).subset hhanded) hfresh live hlive
  have heph : rules.catalog.Ephemeral old.card := hbecomes.same.1 ▸ heph
  -- At some moment of the bookkeeping it is in the queue, and the dead stay dead.
  have hqueued : ∃ r, ReflTransGen (Step rules .all) p r ∧ ReflTransGen (Step rules .all) r q ∧
      card ∈ r.destructions.cards := by
    by_cases hin : card ∈ p.destructions.cards
    · exact ⟨p, .refl, hpq, hin⟩
    · obtain ⟨r, hcondemned, hsame, hentry⟩ := finishEffect_condemns hold heph hin
      have hr := (hcondemned .all).fits hc hp
      have hpath := (settle_walks hc (hengine.resolves hc) card r hr).path
      rw [← hsame resolve, hrun] at hpath
      exact ⟨r, .single (hcondemned .all).step, steps_of_changes hpath, List.mem_map_of_mem hentry⟩
  obtain ⟨r, hpr, hrq, hin⟩ := hqueued
  have hr : ReflTransGen (Step rules .all) m r := hbefore.trans hpr
  have hlater := hrq.trans hafter
  obtain ⟨d, hd, rfl⟩ := List.mem_map.mp hin
  obtain ⟨dying, hdying, hdead⟩ := (ho.of_steps hc hr).dead_of_mem (fresh_of_steps hlater hfresh) hd
  obtain ⟨found, hfound, hstays⟩ :=
    descends_of_steps hlater ((handed_of_steps hr).subset hhanded) hfresh live hlive
  obtain rfl : dying = found := Option.some.inj (hdying.symm.trans hfound)
  exact hstays.dead hdead

/-! ## Effects that are done -/

omit hc in
theorem settles_of_bind {α : Type} {x : Play α} (hengine : rules.Engine resolve)
    (hx : Leads (Change rules .all) F x m)
    (h : (x >>= fun _ => finishEffect rules resolve card).run m = (.ok (), m')) :
    Match.Settles rules card m m' := by
  obtain ⟨a, p, hp, hfinish⟩ := run_bind_eq_ok h
  have hpath := hx.path
  rw [hp] at hpath
  exact ⟨resolve, p, m', hengine, steps_of_changes hpath, hfinish, .refl⟩

/-- An effect of a card in play that does something, and for which nobody has to name a target, ends with
the bookkeeping. -/
theorem resolveEffect_settles (hengine : rules.Engine resolve) (hm : m.Fits rules.catalog ids)
    {effect : Effect} (hcarried : rules.catalog.Carries effect)
    (hactive : rules.catalog.isPermanent effect.definition = false)
    (hchoice : effect.target.requiresChoice = false) {live : LiveCard}
    (hlive : m.table.live? card = some live)
    (h : (resolveEffect rules resolve ⟨effect, card⟩).run m = (.ok (), m')) :
    Match.Settles rules card m m' := by
  have hres : Resolves rules .all (fun _ => True) ids resolve := hengine.resolves hc
  have htol := tolerates_all rules
  obtain ⟨rule, hfind, hfits⟩ := hc.rule?_of_carries hcarried
  have hrule := Catalog.rule?_mem hfind
  have hserves := Scope.all_covers rules.catalog rule hrule
  have hroll : Change rules .all m _ := m.change_roll effect
  have hm₁ := hroll.fits hc hm
  rw [resolveEffect, hfind] at h
  dsimp only at h
  rw [Catalog.isPermanent, hfind] at hactive
  cases hkind : rule.kind with
  | permanent => simp [Rule.category, hkind] at hactive
  | general action =>
      obtain ⟨name⟩ := action
      rw [hkind] at h
      dsimp only at h
      rw [run_get_bind, hlive] at h
      have htoken : Walks rules .all (fun _ => True) ids (createToken rules resolve live.owner name) :=
        createToken_walks hc hres (hserves.tokens name hkind)
          (.inl (hc.card_of_createToken hrule hkind)) (.inr trivial)
      exact settles_of_bind hengine (htoken m hm).discard h
  | targetsPlayer action =>
      cases htarget : effect.target with
      | player target =>
          rw [hkind, htarget] at h
          rw [htarget] at hchoice
          dsimp only at h
          rw [if_neg (by simpa [EffectTarget.requiresChoice] using hchoice)] at h
          have hfound : Change rules .all _ _ :=
            (m.roll effect).2.change_automaticPlayers effect target
          have hact : Walks rules .all (fun _ => True) ids
              (((m.roll effect).2.automaticPlayers effect target).1.forM
                (applyPlayerAction rules resolve action (m.roll effect).1)) :=
            .forM (kept_fits hc) fun player hplayer => applyPlayerAction_walks hc hres htol hrule hkind _
              (hm₁.seats ▸ Match.mem_automaticPlayers hplayer)
          exact (settles_of_bind hengine (hact _ (hfound.fits hc hm₁)) h).extend
            ((ReflTransGen.single hroll.step).tail hfound.step) .refl
      | _ => simp [htarget, Rule.category, hkind, Catalog.targetKind?] at hfits
  | targetsCard action cardType =>
      cases htarget : effect.target with
      | card target =>
          rw [hkind, htarget] at h
          rw [htarget] at hchoice
          dsimp only at h
          rw [if_neg (by simpa [EffectTarget.requiresChoice] using hchoice)] at h
          have hfound : Change rules .all _ _ :=
            (m.roll effect).2.change_automaticCards effect target card
          have hact : Walks rules .all (fun _ => True) ids
              (((m.roll effect).2.automaticCards rules effect target card).1.forM
                (applyCardAction rules resolve action (m.roll effect).1)) :=
            .forM (kept_fits hc) fun other _ => applyCardAction_walks hc hres htol hrule hkind _
              (hserves.actions action cardType hkind other)
          exact (settles_of_bind hengine (hact _ (hfound.fits hc hm₁)) h).extend
            ((ReflTransGen.single hroll.step).tail hfound.step) .refl
      | _ => simp [htarget, Rule.category, hkind, Catalog.targetKind?] at hfits

/-- **An effect that the engine has done by itself, at once or from the line, ends with the
bookkeeping.** -/
theorem Rulebook.Engine.settles (hengine : rules.Engine resolve) (hm : m.Fits rules.catalog ids)
    {effect : Effect} (hcarried : rules.catalog.Carries effect)
    (hactive : rules.catalog.isPermanent effect.definition = false)
    (hchoice : effect.target.requiresChoice = false) {live : LiveCard}
    (hlive : m.table.live? card = some live)
    (h : (resolve ⟨effect, card⟩).run m = (.ok (), m')) : Match.Settles rules card m m' := by
  have hfiring : ∀ room, (resolveFiring rules room ⟨effect, card⟩).run m = (.ok (), m') →
      Match.Settles rules card m m' := by
    intro room h
    cases room with
    | zero => cases h
    | succ room =>
        rw [resolveFiring, deeper_run] at h
        have hm₁ : Match.Fits rules.catalog ids { m with cascadeDepth := m.cascadeDepth + 1 } :=
          ⟨⟨hm.conforms.table, hm.conforms.session⟩, hm.seats⟩
        obtain ⟨hok, rfl⟩ := Prod.mk.inj h
        have hdone := resolveEffect_settles hc (.nested room) hm₁ hcarried hactive hchoice hlive
          (Prod.ext hok rfl)
        exact hdone.extend (.single (.calm (.change (.nest _)))) (.single (.calm (.change (.nest _))))
  cases hengine with
  | resolver => exact hfiring _ h
  | nested room => exact hfiring room h

theorem resolveChosen_settles (hengine : rules.Engine resolve) (hm : m.Fits rules.catalog ids)
    {selection : Selection} (hcarried : rules.catalog.Carries selection.effect)
    {choice : TargetChoice} (hchoice : ∀ player, choice = .player player → player ∈ ids)
    (h : (resolveChosen rules resolve selection choice).run m = (.ok (), m')) :
    Match.Settles rules selection.source m m' := by
  have hres : Resolves rules .all (fun _ => True) ids resolve := hengine.resolves hc
  have htol := tolerates_all rules
  obtain ⟨rule, hfind, -⟩ := hc.rule?_of_carries hcarried
  have hrule := Catalog.rule?_mem hfind
  have hgrants := (Scope.all_covers rules.catalog).grants selection choice
  have hroll : Change rules .all m _ := m.change_roll selection.effect
  have hm₁ := hroll.fits hc hm
  have hbefore : ReflTransGen (Step rules .all) m _ := .single hroll.step
  rw [resolveChosen, hfind] at h
  dsimp only at h
  rw [run_modifyGet_bind] at h
  split at h
  · next action player hkind =>
      have hact := applyPlayerAction_walks hc hres htol hrule hkind (m.roll selection.effect).1
        (hchoice player rfl)
      exact (settles_of_bind hengine (hact _ hm₁) h).extend hbefore .refl
  · next action cardType other hkind =>
      have hact := applyCardAction_walks hc hres htol hrule hkind (m.roll selection.effect).1
        (hgrants rule hfind action cardType other hkind rfl)
      exact (settles_of_bind hengine (hact _ hm₁) h).extend hbefore .refl
  · exact ⟨resolve, _, m', hengine, hbefore, h, .refl⟩

/-- **An accepted answer to a question ends with the bookkeeping of the effect that asked it.** -/
theorem selectTarget_settles (hm : m.Fits rules.catalog ids) {selection : Selection}
    (hpending : m.session.pending = some selection) {player : PlayerId} {choice : TargetChoice}
    (h : (selectTarget rules rules.resolver player choice).run m = (.ok .applied, m')) :
    Match.Settles rules selection.source m m' := by
  rw [selectTarget, run_get_bind, hpending] at h
  dsimp only at h
  split at h
  · cases h
  · split at h
    · cases h
    · next hrefused =>
        have hadmits : selection.admits rules m.table choice = true := by simpa using hrefused
        have hanswer : Calm rules .all m _ := .answer rfl
        have hm₁ := hanswer.fits hc hm
        rw [run_modify_bind] at h
        obtain ⟨⟨⟩, p, hchosen, hrest⟩ := run_bind_eq_ok h
        have hcarried := hm.conforms.session.pending selection hpending
        have hseated := hm.mem_of_admits hadmits
        have hdone := resolveChosen_settles hc .resolver hm₁ hcarried hseated hchosen
        have hres : Resolves rules .all (fun _ => True) ids rules.resolver := resolver_resolves_all hc
        have hp : p.Fits rules.catalog ids :=
          (resolveChosen_walks hc hres (tolerates_all rules) hcarried hseated
            ((Scope.all_covers _).grants selection choice)).after (kept_fits hc) hm₁ hchosen
        have hdrain : Leads (Calm rules .all) (fun _ => True)
            (drainQueue rules.resolver >>= fun _ => pure Outcome.applied) p :=
          Leads.bind (.get_bind (drain_stays hc hres rfl _ p hp)) fun _ _ _ => .pure _
        have hpath := hdrain.path
        rw [hrest] at hpath
        exact hdone.extend (.single (.calm hanswer)) (steps_of_calm hpath)

/-! ## Transformations -/

/-- A card that has been replaced is out of play, whatever comes of the new one. -/
theorem supplant_gone (hengine : rules.Engine resolve) (ho : m.Orderly rules) (hfresh : m'.Fresh)
    {owner : PlayerId} {zone : String} {design : CardDesign} {cardType : CardType}
    (howner : owner ∈ m.table.playerIds) (hkind : rules.catalog.kind? zone = some .dynamic)
    (typed : rules.catalog.typed? design.id = some (design, cardType)) {live : LiveCard}
    (hlive : m.table.live? card = some live) {p : Match}
    (hleave : (raiseTransition rules resolve .leave zone card).run (m.fade card) = (.ok (), p))
    {result : Except Fault (Option LiveId)}
    (h : (supplant rules resolve card owner zone design cardType).run p = (result, m')) :
    m'.Gone card := by
  have hres : Resolves rules .all (fun _ => True) m.table.playerIds resolve := hengine.resolves hc
  have hm : m.Fits rules.catalog m.table.playerIds := ⟨ho.conforms, rfl⟩
  have hfade : Change rules .all m (m.fade card) := .fade rfl rfl
  have hpath := (raiseTransition_walks hc hres .leave zone card _ (hfade.fits hc hm)).path
  rw [hleave] at hpath
  have hp := (kept_fits hc).chain hpath (hfade.fits hc hm)
  have hreplace : Change rules .all p (p.replace card owner zone design cardType) :=
    .replace rfl typed ((hp.kind howner zone).trans hkind)
  have hbefore := steps_of_changes (hpath.tail hreplace)
  have hafter := ((welcome_walks hc hres zone (p.spawner.spawn design.id owner).1 _
    (hreplace.fits hc hp)).map some).path
  rw [supplant_run] at h
  rw [h] at hafter
  have hfresh₁ := fresh_of_steps (steps_of_changes hafter) hfresh
  have hhanded := ho.mem_handed (hfade.fresh (fresh_of_steps hbefore hfresh₁)) hlive
  have hgone : (p.replace card owner zone design cardType).Gone card :=
    ⟨(handed_of_steps (hbefore.head hfade.step)).subset hhanded,
      (Match.live?_despawn ..).trans (if_pos rfl)⟩
  exact hgone.of_steps (steps_of_changes hafter) hfresh

/-- **A transformation takes the card out of play, if nothing fails as it hears that it leaves.** -/
theorem transform_leaves (hengine : rules.Engine resolve) (ho : m.Orderly rules) (hfresh : m'.Fresh)
    (into : String) {result : Except Fault (Option LiveId)} {live : LiveCard}
    (hlive : m.table.live? card = some live)
    (h : (transform rules resolve card into).run m = (result, m')) :
    m' = m ∨ m'.Gone card ∨
      ∃ owner zone fault, m.table.locate? card = some (owner, zone) ∧
        (raiseTransition rules resolve .leave zone card).run (m.fade card) = (.error fault, m') := by
  have hm : m.Fits rules.catalog m.table.playerIds := ⟨ho.conforms, rfl⟩
  cases hlocated : m.table.locate? card with
  | none =>
      rw [transform_nowhere hlocated] at h
      exact .inl (Prod.mk.inj h).2.symm
  | some place =>
      obtain ⟨owner, zone⟩ := place
      obtain ⟨howner, hkind⟩ := hm.locate? hc hlocated
      cases hnamed : rules.catalog.cardNamed? into with
      | none =>
          rw [transform_unknown hlocated hnamed] at h
          exact .inl (Prod.mk.inj h).2.symm
      | some design =>
          obtain ⟨cardType, typed, htype⟩ := hc.typed?_of_mem (Catalog.cardNamed?_mem hnamed)
          rw [transform_run hlocated hnamed htype] at h
          rcases hleave : (raiseTransition rules resolve .leave zone card).run (m.fade card) with
            ⟨fault | ⟨⟩, p⟩
          · rw [run_bind_error hleave] at h
            obtain ⟨-, rfl⟩ := Prod.mk.inj h
            exact .inr (.inr ⟨owner, zone, fault, rfl, hleave⟩)
          · rw [run_bind_ok hleave] at h
            exact .inr (.inl (supplant_gone hc hengine ho hfresh howner hkind typed hlive hleave h))

/-- A card that another has taken the place of is out of play. -/
theorem transform_gone (hengine : rules.Engine resolve) (ho : m.Orderly rules) (hfresh : m'.Fresh)
    {into : String} {new : LiveId} {live : LiveCard} (hlive : m.table.live? card = some live)
    (h : (transform rules resolve card into).run m = (.ok (some new), m')) : m'.Gone card := by
  have hm : m.Fits rules.catalog m.table.playerIds := ⟨ho.conforms, rfl⟩
  cases hlocated : m.table.locate? card with
  | none =>
      rw [transform_nowhere hlocated] at h
      cases h
  | some place =>
      obtain ⟨owner, zone⟩ := place
      obtain ⟨howner, hkind⟩ := hm.locate? hc hlocated
      cases hnamed : rules.catalog.cardNamed? into with
      | none =>
          rw [transform_unknown hlocated hnamed] at h
          cases h
      | some design =>
          obtain ⟨cardType, typed, htype⟩ := hc.typed?_of_mem (Catalog.cardNamed?_mem hnamed)
          rw [transform_run hlocated hnamed htype] at h
          obtain ⟨_, p, hleave, h⟩ := run_bind_eq_ok h
          exact supplant_gone hc hengine ho hfresh howner hkind typed hlive hleave h

end

/-! ## Runs -/

/-- No operation that spares the card keeps it from going with the next turn end. -/
theorem perform_leaves (hc : rules.catalog.Coherent) (h : Reachable rules m) {op : Operation}
    (hspares : m.Spares rules card op) (hfresh : (m.perform rules op).2.Fresh)
    (hleaving : m.Leaving card) :
    (m.perform rules op).2.Leaving card ∧
      (0 < op.turnEnds (m.perform rules op).1 → (m.perform rules op).2.Gone card) := by
  cases hop : op.isRegister with
  | false =>
      have hcourse := hspares.course hc (h.conforms hc) hop
      exact ⟨leaving_of_steps hc (h.orderly hc) hfresh hcourse.steps hleaving,
        fun hends => hcourse.removes hc (h.orderly hc) hfresh hends hleaving⟩
  | true =>
      rw [Operation.turnEnds_of_isRegister hop]
      refine ⟨?_, fun hends => absurd hends (Nat.lt_irrefl 0)⟩
      rcases register_cases rules m hop with heq | ⟨name, connection, deck, -, heq⟩ <;> rw [heq]
      · exact hleaving
      · exact hleaving.imp_left fun hgone => ⟨hgone.handed, hgone.absent⟩

/-- **Whoever goes with the next turn end is gone once a turn has ended.** -/
theorem run_leaves (hc : rules.catalog.Coherent) (h : Reachable rules m) {ops : List Operation}
    (hspares : m.SparesAll rules card ops) (hfresh : (m.run rules ops).Fresh)
    (hleaving : m.Leaving card) :
    (m.run rules ops).Leaving card ∧ (0 < m.turnEnds rules ops → (m.run rules ops).Gone card) := by
  induction ops generalizing m with
  | nil => exact ⟨hleaving, fun hends => absurd hends (Nat.lt_irrefl 0)⟩
  | cons op rest ih =>
      obtain ⟨hfirst, hrest⟩ := hspares
      have hnext := h.perform op
      have hmiddle : (m.perform rules op).2.Fresh := hnext.fresh_of_run hc rest hfresh
      obtain ⟨hstill, hgone⟩ := perform_leaves hc h hfirst hmiddle hleaving
      obtain ⟨hlater, hends⟩ := ih hnext hrest hfresh hstill
      refine ⟨hlater, fun hsome => ?_⟩
      rw [Match.turnEnds] at hsome
      rcases Nat.eq_zero_or_pos (op.turnEnds (m.perform rules op).1) with hzero | hpos
      · exact hends (by omega)
      · exact ((hgone hpos).run hc hnext rest hfresh).1

/-- **Cards that die after their effect go with the next turn end.**

The match has come about by any operations with any answers, and the host, as it has to, handed out no
handle twice.  What is said of a moment `p` holds wherever in the course of play it is. -/
theorem self_destroying_cards_go (hc : rules.catalog.Accepted) (h : Reachable rules m)
    (card : LiveId) :
    -- An effect that the engine has done by itself ends with its bookkeeping, at once or from the line,
    -- and so does one for which a target has been named.
    (∀ p q live resolve effect, ReflTransGen (Step rules .all) m p → p.table.live? card = some live →
      rules.Engine resolve → rules.catalog.Carries effect →
      rules.catalog.isPermanent effect.definition = false → effect.target.requiresChoice = false →
      (resolve ⟨effect, card⟩).run p = (.ok (), q) → Match.Settles rules card p q) ∧
    (∀ p q player choice selection, ReflTransGen (Step rules .all) m p →
      p.session.pending = some selection → selection.source = card →
      (selectTarget rules rules.resolver player choice).run p = (.ok .applied, q) →
        Match.Settles rules card p q) ∧
    -- After the bookkeeping the card is dead, if it is still in play.
    (∀ p q live, ReflTransGen (Step rules .all) m p → card ∈ p.spawner.handed →
      Match.Settles rules card p q → q.spawner.handed.Nodup → q.table.live? card = some live →
      rules.catalog.Ephemeral live.card → live.alive = false) ∧
    -- The bookkeeping puts it into the queue before anything else is done, and from then on it goes
    -- with the next turn end, as does whoever is killed and has one turn end to go at most.
    (∀ p live, ReflTransGen (Step rules .all) m p → p.table.live? card = some live →
      rules.catalog.Ephemeral live.card → card ∉ p.destructions.cards →
        ∃ q, (∀ resolve, (finishEffect rules resolve card).run p = (settle rules resolve card).run q) ∧
          ∀ q', ReflTransGen (Step rules (.sparing card)) q q' → q'.spawner.handed.Nodup →
            q'.Leaving card) ∧
    (∀ p q, ReflTransGen (Step rules .all) m p → p.Leaving card →
      ReflTransGen (Step rules (.sparing card)) p q → q.spawner.handed.Nodup → q.Leaving card) ∧
    -- Once a turn has ended it is gone, whatever has failed on the way.
    (∀ ops, m.Leaving card → m.SparesAll rules card ops → 0 < m.turnEnds rules ops →
      (m.run rules ops).spawner.handed.Nodup → (m.run rules ops).Gone card) ∧
    -- A transformation takes it out of play at once, if nothing fails as it hears that it leaves.
    (∀ p q live resolve into result, ReflTransGen (Step rules .all) m p →
      p.table.live? card = some live → rules.Engine resolve → q.spawner.handed.Nodup →
      (transform rules resolve card into).run p = (result, q) →
        q = p ∨ q.Gone card ∨
          ∃ owner zone fault, p.table.locate? card = some (owner, zone) ∧
            (raiseTransition rules resolve .leave zone card).run (p.fade card) = (.error fault, q)) ∧
    -- Whoever is gone stays gone, and is in no zone.
    (∀ p q, ReflTransGen (Step rules .all) m p → p.Gone card → ReflTransGen (Step rules .all) p q →
      q.spawner.handed.Nodup → q.Gone card ∧ card ∉ q.table.liveInOrder) ∧
    ∀ ops, m.Gone card → (m.run rules ops).spawner.handed.Nodup →
      (m.run rules ops).Gone card ∧ card ∉ (m.run rules ops).table.liveInOrder := by
  have hcoherent := hc.coherent
  have horderly {p : Match} (hpath : ReflTransGen (Step rules .all) m p) : p.Orderly rules :=
    (h.orderly hcoherent).of_steps hcoherent hpath
  have hfits {p : Match} (hpath : ReflTransGen (Step rules .all) m p) :
      p.Fits rules.catalog p.table.playerIds := ⟨(horderly hpath).conforms, rfl⟩
  refine ⟨?_, ?_, ?_, ?_, ?_, ?_, ?_, ?_, ?_⟩
  · intro p q live resolve effect hpath hlive hengine hcarried hactive hchoice hrun
    exact hengine.settles hcoherent (hfits hpath) hcarried hactive hchoice hlive hrun
  · rintro p q player choice selection hpath hpending rfl hrun
    exact selectTarget_settles hcoherent (hfits hpath) hpending hrun
  · intro p q live hpath hhanded hsettles hunique hlive heph
    exact hsettles.dead hcoherent (horderly hpath) hunique hhanded hlive heph
  · intro p live hpath hlive heph hfree
    obtain ⟨q, hcondemned, hrun, hentry⟩ := finishEffect_condemns hlive heph hfree
    refine ⟨q, hrun, fun q' hspared hunique => ?_⟩
    exact leaving_of_steps hcoherent (horderly (hpath.tail (hcondemned _).step)) hunique hspared
      (.inr ⟨_, hentry, rfl, nofun⟩)
  · intro p q hpath hleaving hspared hunique
    exact leaving_of_steps hcoherent (horderly hpath) hunique hspared hleaving
  · intro ops hleaving hspares hends hunique
    exact (run_leaves hcoherent h hspares hunique hleaving).2 hends
  · intro p q live resolve into result hpath hlive hengine hunique hrun
    exact transform_leaves hcoherent hengine (horderly hpath) hunique into hlive hrun
  · intro p q hpath hgone hlater hunique
    have hstays := hgone.of_steps hlater hunique
    exact ⟨hstays, (horderly (hpath.trans hlater)).unlisted hunique hstays⟩
  · intro ops hgone hunique
    have hstays := (hgone.run hcoherent h ops hunique).1
    exact ⟨hstays, ((h.run ops).orderly hcoherent).unlisted hunique hstays⟩

namespace Duel

/-- A card of the duel hits the current player as it leaves the board. -/
def lastBreath : Effect :=
  { definition := "Hit", trigger := .cardZoneTransition .leave "Board",
    target := .player .currentPlayer, magnitude := some (.fixed 1) }

/-- The duel of cards that die after their effects. -/
def ephemeral : Rulebook :=
  { book with catalog := { book.catalog with
      cardTypes := [{ name := "Creature", destroyAfterEffect := true, effects := [lastBreath] }] } }

theorem accepted_ephemeral : ephemeral.catalog.Accepted :=
  accepted_of_checks (d := { draft with cardTypes := ephemeral.catalog.cardTypes }) rfl
    (by decide +kernel) (by decide +kernel)

/-- Ann's archer has hit Bob. -/
def spent : Match :=
  after ephemeral (deal ++ [.playCard ⟨0⟩ ⟨2⟩, .selectTarget ⟨0⟩ (.player ⟨1⟩)])

/-- The archer is dead once it has hit, and gone as the turn ends. -/
theorem gone_spent :
    spent.destructions.entries = [⟨⟨0⟩, 0, .afterEffect⟩] ∧
    (spent.table.live? ⟨0⟩).map LiveCard.alive = some false ∧
    spent.turnEnds ephemeral [.endTurn 0] = 1 ∧
    (spent.run ephemeral [.endTurn 0]).Gone ⟨0⟩ := by
  have hentries : spent.destructions.entries = [⟨⟨0⟩, 0, .afterEffect⟩] := by decide +kernel
  have hends : spent.turnEnds ephemeral [.endTurn 0] = 1 := by decide +kernel
  have hnever : ephemeral.catalog.NeverTransforms := neverTransforms_book
  have hleaving : spent.Leaving ⟨0⟩ :=
    .inr ⟨⟨⟨0⟩, 0, .afterEffect⟩, by rw [hentries]; exact List.mem_singleton.mpr rfl, rfl, nofun⟩
  obtain ⟨-, -, -, -, -, hgoes, -⟩ :=
    self_destroying_cards_go accepted_ephemeral (reachable_after ephemeral _) ⟨0⟩
  refine ⟨hentries, by decide +kernel, hends, ?_⟩
  exact hgoes [.endTurn 0] hleaving (hnever.sparesAll _ (by decide +kernel) _)
    (hends ▸ Nat.one_pos) (by decide +kernel)

/-- Ann's wolf is in play. -/
def prowling : Match :=
  after ephemeral (deal ++ [.playCard ⟨0⟩ ⟨1⟩])

/-- The wolf is killed, and has its effect as it hears that it leaves; it was on its way out before that,
and the next turn end leaves it in play. -/
theorem lingering :
    ephemeral.catalog.Accepted ∧ Reachable ephemeral prowling ∧
    (prowling.perform ephemeral (.kill ⟨0⟩)).1 = .ok .done ∧
    ((prowling.perform ephemeral (.kill ⟨0⟩)).2.table.player? ⟨0⟩).map (·.attributes.get? "Life")
      = some (some 19) ∧
    ephemeral.catalog.Ephemeral ⟨1⟩ ∧
    (prowling.run ephemeral [.kill ⟨0⟩]).turnEnds ephemeral [.endTurn 0] = 1 ∧
    ((prowling.run ephemeral [.kill ⟨0⟩, .endTurn 0]).table.live? ⟨0⟩).map LiveCard.card = some ⟨1⟩ ∧
    (prowling.run ephemeral [.kill ⟨0⟩, .endTurn 0]).table.liveInOrder = [⟨0⟩] := by
  refine ⟨accepted_ephemeral, reachable_after .., ?_, ?_, ?_, ?_, ?_, ?_⟩ <;> decide +kernel

end Duel

end CardArena
