import Mathlib
import CardArena.Proofs.Reachable

/-!
# The arm that is never taken

To do an effect is to look at its rule and its target together, and there is an arm for a target
that the rule cannot be done to.  The checks of a catalog refuse such effects; so in an accepted game
the arm is never taken.

What it means never to be taken is that it does not matter what is done there.  `resolveEffectOr`
does anything at all in its place, and the main statement is that every operation on a reachable
match is done as if it did nothing (`perform_or`).  Nearly everything in the engine does firings by
way of `raise`, whose firings are carried by designs and types of the game whatever the match looks
like; so up to the line behind a question it is enough that two resolvers agree on those (`Agree`),
and what they do is equal, not only equal from matches of the game.
-/

namespace CardArena

open Play

/-! ## Another fallback -/

section

variable (rules : Rulebook) (misfit : Firing → Play Unit)

/-- Does an effect of a card in play, and something else where the target does not fit the rule. -/
def resolveEffectOr (resolve : Resolver) (firing : Firing) : Play Unit := do
  match rules.catalog.rule? firing.effect.definition with
  | none => throw (.ruleNotFound firing.effect.definition)
  | some rule =>
    match rule.kind, firing.effect.target with
    | .permanent, _ => resolveEffect rules resolve firing
    | .general _, _ => resolveEffect rules resolve firing
    | .targetsPlayer _, .player _ => resolveEffect rules resolve firing
    | .targetsCard _ _, .card _ => resolveEffect rules resolve firing
    | _, _ => misfit firing

/-- Does a firing and all that it sets off, with another fallback. -/
def resolveFiringOr : Nat → Resolver
  | 0, _ => do throw (.cascadeLimitExceeded (← get).cascadeDepth)
  | room + 1, firing => deeper (resolveEffectOr rules misfit (resolveFiringOr room) firing)

/-- Does a firing with all the room that the settings leave, with another fallback. -/
def Rulebook.resolverOr : Resolver := fun firing => do
  resolveFiringOr rules misfit (rules.config.maxCascadeDepth.toNat - (← get).cascadeDepth) firing

end

variable {rules : Rulebook} {misfit : Firing → Play Unit} {resolve resolve' : Resolver}

/-- With nothing done in the fallback, an effect is done as it is. -/
theorem resolveEffectOr_pure (firing : Firing) :
    resolveEffectOr rules (fun _ => pure ()) resolve firing = resolveEffect rules resolve firing := by
  obtain ⟨⟨definition, trigger, tc, uc, unavoidable, target, magnitude⟩, source⟩ := firing
  unfold resolveEffectOr
  dsimp only
  cases hrule : rules.catalog.rule? definition with
  | none => simp only [resolveEffect, hrule]
  | some rule =>
      obtain ⟨name, kind⟩ := rule
      cases kind <;> cases target <;> simp only [resolveEffect, hrule]

theorem resolveFiringOr_pure (room : Nat) :
    resolveFiringOr rules (fun _ => pure ()) room = resolveFiring rules room := by
  induction room with
  | zero => rfl
  | succ room ih =>
      funext firing
      rw [resolveFiringOr, resolveFiring, resolveEffectOr_pure, ih]

/-- **The engine is the one whose fallback does nothing.** -/
theorem resolverOr_pure : rules.resolverOr (fun _ => pure ()) = rules.resolver := by
  funext firing
  simp only [Rulebook.resolverOr, Rulebook.resolver, resolveFiringOr_pure]

/-- An effect of the game is aimed as its rule asks. -/
theorem resolveEffectOr_eq (hc : rules.catalog.Coherent) {firing : Firing}
    (hcarried : rules.catalog.Carries firing.effect) :
    resolveEffectOr rules misfit resolve firing = resolveEffect rules resolve firing := by
  obtain ⟨rule, hrule, hfits⟩ := hc.rule?_of_carries hcarried
  rw [resolveEffectOr, hrule]
  dsimp only
  obtain ⟨name, kind⟩ := rule
  cases kind <;> cases htarget : firing.effect.target <;>
    first | rfl | simp [Rule.category, Catalog.targetKind?, htarget] at hfits

/-! ## Resolvers that agree on the game -/

/-- The resolvers do the firings of the game alike. -/
def Agree (rules : Rulebook) (resolve resolve' : Resolver) : Prop :=
  ∀ firing, rules.catalog.Carries firing.effect → resolve' firing = resolve firing

theorem forM_congr {α : Type} {f g : α → Play Unit} :
    ∀ {xs : List α}, (∀ a ∈ xs, f a = g a) → xs.forM f = xs.forM g
  | [], _ => rfl
  | a :: rest, h => by
      rw [forM_cons, forM_cons, h a List.mem_cons_self,
        forM_congr fun b hb => h b (List.mem_cons_of_mem _ hb)]

namespace Agree

variable (h : Agree rules resolve resolve')

include h

/-- Whatever an event sets off is an effect of the game. -/
theorem raise : raise rules resolve' = raise rules resolve := by
  funext event source
  rw [CardArena.raise, CardArena.raise]
  refine congrArg (get >>= ·) (funext fun m => ?_)
  cases m.table.live? source with
  | none => rfl
  | some card =>
      refine forM_congr ?_
      intro effect heffect
      have hcarried := Catalog.carries_of_listener heffect
      rw [offer, offer, dispatch, dispatch, h ⟨effect, source⟩ hcarried]

theorem raiseTransition : raiseTransition rules resolve' = raiseTransition rules resolve := by
  funext direction zone card
  simp only [CardArena.raiseTransition, h.raise]

theorem raiseOnAll : raiseOnAll rules resolve' = raiseOnAll rules resolve := by
  have halive : raiseIfAlive rules resolve' = raiseIfAlive rules resolve := by
    funext event card
    simp only [raiseIfAlive, h.raise]
  funext event
  simp only [CardArena.raiseOnAll, halive]

/-! ### Writing, moving and dying -/

theorem setPlayerAttribute :
    setPlayerAttribute rules resolve' = setPlayerAttribute rules resolve := by
  funext player attr value
  simp only [CardArena.setPlayerAttribute, h.raiseOnAll]

theorem setCardAttribute : setCardAttribute rules resolve' = setCardAttribute rules resolve := by
  funext card attr value
  simp only [CardArena.setCardAttribute, h.raise]

theorem changePlayerAttribute :
    changePlayerAttribute rules resolve' = changePlayerAttribute rules resolve := by
  funext player attr change
  simp only [CardArena.changePlayerAttribute, h.setPlayerAttribute]

theorem changeCardAttribute :
    changeCardAttribute rules resolve' = changeCardAttribute rules resolve := by
  funext card attr change
  simp only [CardArena.changeCardAttribute, h.setCardAttribute]

theorem enterZone : enterZone rules resolve' = enterZone rules resolve := by
  funext owner design zone
  simp only [CardArena.enterZone, h.raiseTransition]

theorem moveCards : moveCards rules resolve' = moveCards rules resolve := by
  have hmove : moveTop rules resolve' = moveTop rules resolve := by
    funext kinds player origin destination
    obtain ⟨_ | _, _ | _⟩ := kinds
    · rfl
    · simp only [moveTop, moveIntoPlay, h.enterZone]
    · simp only [moveTop, moveOutOfPlay, h.raiseTransition]
    · simp only [moveTop, moveBetweenDynamic, h.raiseTransition]
  funext player origin destination count
  simp only [CardArena.moveCards, hmove]

theorem killFor : killFor rules resolve' = killFor rules resolve := by
  funext reason card
  simp only [CardArena.killFor, h.raiseTransition]

theorem kill : kill rules resolve' = kill rules resolve := by
  funext card
  simp only [CardArena.kill, h.killFor]

theorem transform : transform rules resolve' = transform rules resolve := by
  funext card into
  simp only [CardArena.transform, h.raiseTransition]

/-! ### Effects -/

theorem applyPlayerAction : applyPlayerAction rules resolve' = applyPlayerAction rules resolve := by
  funext action magnitude player
  cases action <;> simp only [CardArena.applyPlayerAction, h.changePlayerAttribute,
    h.setPlayerAttribute, h.moveCards]

theorem applyCardAction : applyCardAction rules resolve' = applyCardAction rules resolve := by
  funext action magnitude card
  cases action <;> simp only [CardArena.applyCardAction, h.changeCardAttribute,
    h.setCardAttribute, h.kill, h.transform]

theorem finishEffect : finishEffect rules resolve' = finishEffect rules resolve := by
  funext source
  simp only [CardArena.finishEffect, h.killFor]

theorem resolveEffect : resolveEffect rules resolve' = resolveEffect rules resolve := by
  funext firing
  simp only [CardArena.resolveEffect, createToken, h.enterZone, h.applyPlayerAction,
    h.applyCardAction, h.finishEffect]

theorem resolveChosen : resolveChosen rules resolve' = resolveChosen rules resolve := by
  funext selection choice
  simp only [CardArena.resolveChosen, h.applyPlayerAction, h.applyCardAction, h.finishEffect]

/-! ### Turns and cards from hand -/

theorem runAllScheduled : runAllScheduled rules resolve' = runAllScheduled rules resolve := by
  have hrun : runGameAction rules resolve' = runGameAction rules resolve := by
    funext action player
    cases action <;> simp only [runGameAction, h.changePlayerAttribute, h.setPlayerAttribute,
      h.moveCards]
  have hone : runScheduled rules resolve' = runScheduled rules resolve := by
    funext scheduled
    simp only [runScheduled, hrun]
  funext actions
  simp only [CardArena.runAllScheduled, hone]

theorem startTurn : startTurn rules resolve' = startTurn rules resolve := by
  have hcount : countTurn rules resolve' = countTurn rules resolve := by
    funext card
    simp only [countTurn, h.raise]
  funext now
  simp only [CardArena.startTurn, h.runAllScheduled, h.raiseOnAll, hcount]

theorem endTurn : endTurn rules resolve' = endTurn rules resolve := by
  funext now
  simp only [CardArena.endTurn, h.runAllScheduled, h.raiseOnAll, h.startTurn]

theorem playCard : playCard rules resolve' = playCard rules resolve := by
  funext player card
  simp only [CardArena.playCard, payCosts, putIntoPlay, h.changePlayerAttribute, h.enterZone,
    h.raiseOnAll]

end Agree

/-! ## The line behind a question -/

section

variable {scope : Scope} {F : Fault → Prop} {ids : List PlayerId} (h : Agree rules resolve resolve')
  (hc : rules.catalog.Coherent) (hres : Resolves rules scope F ids resolve)

include h hc hres

/-- Firings in line are effects of the game as long as the match is one of the game. -/
theorem Agree.drain_run (count : Nat) {m : Match} (hm : m.Fits rules.catalog ids) :
    (drain resolve' count).run m = (drain resolve count).run m := by
  induction count generalizing m with
  | zero => rfl
  | succ count ih =>
      rw [drain, drain, run_get_bind, run_get_bind]
      cases hnext : m.session.next? with
      | none => rfl
      | some taken =>
          obtain ⟨firing, session⟩ := taken
          have hmove : Calm rules .all m _ := .next rfl hnext
          have hm' := hmove.fits hc hm
          obtain ⟨-, hqueue, hnone⟩ := Session.next?_eq_some hnext
          have hcarried : rules.catalog.Carries firing.effect :=
            hm.conforms.session.queue firing (hqueue ▸ List.mem_cons_self)
          dsimp only
          rw [run_modify_bind, run_modify_bind, run_get_bind, run_get_bind]
          split
          · have hdo := hres firing hcarried _ ⟨hm', by simp [Session.isIdle, hnone]⟩
            rw [h firing hcarried, run_bind, run_bind]
            split
            · next result m'' hrun => exact ih (hdo.after (kept_fits hc) hm' hrun)
            · rfl
          · exact ih hm'

theorem Agree.selectTarget_run (hcovers : scope.Covers rules.catalog) (htol : Tolerates rules F)
    (player : PlayerId) (choice : TargetChoice) {m : Match} (hm : m.Fits rules.catalog ids) :
    (selectTarget rules resolve' player choice).run m
      = (selectTarget rules resolve player choice).run m := by
  rw [selectTarget, selectTarget, run_get_bind, run_get_bind]
  split
  · rfl
  · next selection hpending =>
      split
      · rfl
      · split
        · rfl
        · next hadmits =>
            have hmove : Calm rules .all m _ := .answer rfl
            have hwalk := resolveChosen_walks hc hres htol
              (hm.conforms.session.pending selection hpending)
              (hm.mem_of_admits (by simpa using hadmits)) (hcovers.grants _ _)
            rw [run_modify_bind, run_modify_bind, h.resolveChosen, run_bind, run_bind]
            split
            · next _ m' hrun =>
                have hm' := hwalk.after (kept_fits hc) (hmove.fits hc hm) hrun
                have hdrain : (drainQueue resolve').run m' = (drainQueue resolve).run m' := by
                  rw [drainQueue, drainQueue, run_get_bind, run_get_bind]
                  exact h.drain_run hc hres _ hm'
                rw [run_bind, run_bind, hdrain]
            · rfl

end

/-! ## The fallback is never taken -/

theorem agree_resolveFiringOr (hc : rules.catalog.Coherent) (room : Nat) :
    Agree rules (resolveFiring rules room) (resolveFiringOr rules misfit room) := by
  induction room with
  | zero => exact fun _ _ => rfl
  | succ room ih =>
      intro firing hcarried
      rw [resolveFiringOr, resolveFiring, resolveEffectOr_eq hc hcarried, ih.resolveEffect]

theorem agree_resolverOr (hc : rules.catalog.Coherent) :
    Agree rules rules.resolver (rules.resolverOr misfit) := by
  intro firing hcarried
  refine congrArg (get >>= ·) (funext fun m => ?_)
  exact agree_resolveFiringOr hc _ firing hcarried

/-- **Whatever the fallback does, operations on matches of the game are done alike.** -/
theorem perform_or (hc : rules.catalog.Coherent) (misfit : Firing → Play Unit) {m : Match}
    (hm : m.Conforms rules.catalog) (op : Operation) :
    (performWith rules (rules.resolverOr misfit) op).run m = m.perform rules op := by
  have h : Agree rules rules.resolver (rules.resolverOr misfit) := agree_resolverOr hc
  have hres : Resolves rules .all (fun _ => True) m.table.playerIds rules.resolver :=
    resolver_resolves_all hc
  have hselect := fun player choice =>
    h.selectTarget_run hc hres (Scope.all_covers _) (tolerates_all rules) player choice ⟨hm, rfl⟩
  rw [Match.perform]
  cases op with
  | selectTarget player choice => simp only [performWith, run_map, hselect]
  | intent player intent now =>
      cases intent with
      | selectTarget choice => simp only [performWith, handleIntent, run_map, hselect]
      | _ => simp only [performWith, handleIntent, requestMove, stopTurn, discardCards, h.playCard,
          h.moveCards, h.endTurn]
  | _ => simp only [performWith, startGame, tick, stopTurn, discardCards, requestMove, attackCard,
      h.runAllScheduled, h.startTurn, h.endTurn, h.playCard, h.moveCards, h.kill, h.transform,
      h.raise, h.setPlayerAttribute, h.setCardAttribute]

end CardArena
