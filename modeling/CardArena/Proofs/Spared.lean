import Mathlib
import CardArena.Proofs.Ghosts

/-!
# Operations that spare a card

A card may come to be transformed in three ways.  The operation asks for it, or answers a question by
naming the card for a rule that transforms, or a cascade comes to it by itself.  `Match.Spares` says
that an operation does none of the three to a given card.

Of a cascade it is said with the help of an alarm.  The engine is watched (`Rulebook.watched`): it is
the engine itself, except that an alarm is rung instead of transforming the card, and the alarm may do
anything at all.  If the operation comes to the same whatever the alarm does, the alarm has not been
rung.  Where the alarm does what it stands for, the engine that is watched is the engine (`watched_unheeded`).

* `Match.Spares.course` : what a spared card may see is what `Scope.sparing` allows.
-/

namespace CardArena

open Play
open Relation (ReflTransGen)

/-- Every card but one may be transformed. -/
def Scope.sparing (card : LiveId) : Scope :=
  ⟨true, fun other => decide (other ≠ card), true, true, true⟩

/-- What is done instead of transforming a card, given how firings are done and what it was to
become. -/
abbrev Alarm := Resolver → String → Play Unit

section

variable (rules : Rulebook) (card : LiveId) (alarm : Alarm)

/-- Does an effect, and rings the alarm instead of transforming the card. -/
def watchedEffect (resolve : Resolver) (firing : Firing) : Play Unit :=
  match (rules.catalog.rule? firing.effect.definition).map Rule.kind, firing.effect.target with
  | some (.targetsCard (.transform into) _), .card target =>
    if target.requiresChoice then
      askForTarget rules .card firing
    else
      doToCards rules resolve firing target fun magnitude other =>
        if other = card then
          alarm resolve into
        else
          applyCardAction rules resolve (.transform into) magnitude other
  | _, _ => resolveEffect rules resolve firing

/-- Does a firing and all that it sets off, nested no deeper than `room`, and rings the alarm instead of
transforming the card. -/
def watchedFiring : Nat → Resolver
  | 0, _ => do throw (.cascadeLimitExceeded (← get).cascadeDepth)
  | room + 1, firing => deeper (watchedEffect rules card alarm (watchedFiring room) firing)

/-- Does a firing with all the room that the settings leave, and rings the alarm instead of transforming
the card. -/
def Rulebook.watched : Resolver := fun firing => do
  watchedFiring rules card alarm (rules.config.maxCascadeDepth.toNat - (← get).cascadeDepth) firing

end

variable {rules : Rulebook} {F : Fault → Prop} {ids : List PlayerId} {resolve : Resolver}
  {card : LiveId} {alarm : Alarm} {m : Match} {op : Operation}

/-! ## Alarms that are not needed -/

/-- The alarm does to the card what it is rung for, if there is a rule that it is rung for. -/
def Unheeded (rules : Rulebook) (card : LiveId) (alarm : Alarm) : Prop :=
  ∀ rule ∈ rules.catalog.rules, ∀ into cardType,
    rule.kind = .targetsCard (.transform into) cardType → ∀ resolve magnitude,
      alarm resolve into = applyCardAction rules resolve (.transform into) magnitude card

theorem watchedEffect_eq (h : Unheeded rules card alarm) (resolve : Resolver) (firing : Firing) :
    watchedEffect rules card alarm resolve firing = resolveEffect rules resolve firing := by
  unfold watchedEffect
  split
  · next into cardType target hkind htarget =>
      obtain ⟨rule, hfind, hrule⟩ := Option.map_eq_some_iff.mp hkind
      have hact : (fun magnitude other => if other = card then alarm resolve into
          else applyCardAction rules resolve (.transform into) magnitude other)
            = applyCardAction rules resolve (.transform into) := by
        funext magnitude other
        split
        · next he => rw [he, h rule (Catalog.rule?_mem hfind) into cardType hrule]
        · rfl
      rw [hact, resolveEffect, hfind]
      dsimp only
      rw [hrule, htarget]
      rfl
  · rfl

/-- **An engine whose alarm does what it stands for is the engine.** -/
theorem watched_unheeded (h : Unheeded rules card alarm) :
    rules.watched card alarm = rules.resolver := by
  have hfiring (room : Nat) : watchedFiring rules card alarm room = resolveFiring rules room := by
    induction room with
    | zero => rfl
    | succ room ih =>
        funext firing
        rw [watchedFiring, resolveFiring, ih, watchedEffect_eq h]
  funext firing
  rw [Rulebook.watched, Rulebook.resolver]
  simp only [hfiring]

/-- The alarm that transforms the card is not needed. -/
theorem unheeded_transform (rules : Rulebook) (card : LiveId) :
    Unheeded rules card fun resolve into => applyCardAction rules resolve (.transform into) 0 card := by
  intro rule _ into cardType _ resolve magnitude
  rfl

/-- Where no rule transforms cards no alarm is needed. -/
theorem Catalog.NeverTransforms.unheeded (h : rules.catalog.NeverTransforms) (card : LiveId)
    (alarm : Alarm) : Unheeded rules card alarm :=
  fun rule hrule into cardType hkind => absurd hkind (h rule hrule into cardType)

/-! ## Engines whose alarm does nothing -/

/-- The alarm that does nothing. -/
def silentAlarm : Alarm := fun _ _ => pure ()

section

variable (hc : rules.catalog.Coherent) (htol : Tolerates rules F)

include hc htol

/-- An effect makes changes only, none of which transforms the card. -/
theorem watchedEffect_leads (hres : Resolves rules (.sparing card) F ids resolve)
    (hm : m.Fits rules.catalog ids) (hidle : m.session.isIdle) {firing : Firing}
    (hcarried : rules.catalog.Carries firing.effect) :
    Leads (Change rules (.sparing card)) F
      (watchedEffect rules card silentAlarm resolve firing) m := by
  have hnone : m.session.pending = none := Option.isNone_iff_eq_none.mp hidle
  unfold watchedEffect
  split
  · next into cardType target hkind htarget =>
      obtain ⟨rule, hfind, hrule⟩ := Option.map_eq_some_iff.mp hkind
      split
      · exact askForTarget_leads hc hm hnone .card hcarried
      · refine doToCards_walks hc hres firing target (fun magnitude other => ?_) m hm
        split
        · exact fun _ _ => .pure ()
        · next hother =>
            refine applyCardAction_walks hc hres htol (Catalog.rule?_mem hfind) hrule magnitude ?_
            exact fun _ _ => ⟨decide_eq_true hother, .inl rfl⟩
  · next hno =>
      refine resolveEffect_leads hc hres htol hm hidle hcarried ?_
      refine fun rule hfind => ⟨fun _ _ => rfl, ?_⟩
      -- A rule that transforms is aimed at cards, and that is where the alarm is.
      rintro action cardType hkind other into rfl
      obtain ⟨target, htarget⟩ := hc.target_of_action hcarried hfind hkind
      exact (hno into cardType target (by rw [hfind, ← hkind]; rfl) htarget).elim

theorem watchedFiring_resolves (room : Nat) :
    Resolves rules (.sparing card) F ids (watchedFiring rules card silentAlarm room) := by
  induction room with
  | zero => exact fun firing _ m _ => .get_bind (.throw (htol.depth _))
  | succ room ih =>
      intro firing hcarried m ⟨hm, hidle⟩
      have hm₁ : Match.Fits rules.catalog ids { m with cascadeDepth := m.cascadeDepth + 1 } :=
        ⟨⟨hm.conforms.table, hm.conforms.session⟩, hm.seats⟩
      exact deeper_leads (watchedEffect_leads hc htol ih hm₁ hidle hcarried)

/-- **Whatever a firing sets off does not transform the card, if the alarm does nothing.** -/
theorem watched_resolves :
    Resolves rules (.sparing card) F ids (rules.watched card silentAlarm) :=
  fun firing hcarried m hm =>
    .get_bind (watchedFiring_resolves hc htol _ firing hcarried m hm)

end

/-! ## Operations -/

/-- The operation does not transform the card. -/
structure Match.Spares (m : Match) (rules : Rulebook) (card : LiveId) (op : Operation) : Prop where
  asked : ∀ into, op ≠ .transform card into
  named : ∀ selection, m.Answers rules op selection (.card card) → ∀ rule into cardType,
    rules.catalog.rule? selection.effect.definition = some rule →
      rule.kind ≠ .targetsCard (.transform into) cardType
  quiet : ∀ alarm, (performWith rules (rules.watched card alarm) op).run m = m.perform rules op

/-- The operations, in turn, do not transform the card. -/
def Match.SparesAll (rules : Rulebook) (card : LiveId) : Match → List Operation → Prop
  | _, [] => True
  | m, op :: rest => m.Spares rules card op ∧ (m.perform rules op).2.SparesAll rules card rest

/-- **An operation that does not transform the card goes the way of operations, and nothing on that way
transforms it.** -/
theorem Match.Spares.course (hc : rules.catalog.Coherent) (hm : m.Conforms rules.catalog)
    (h : m.Spares rules card op) (hseated : op.isRegister = false) :
    Course rules (.sparing card) m (op.turnEnds (m.perform rules op).1) (m.perform rules op).2 := by
  have hwithin : op.Within (.sparing card) := by
    cases op with
    | transform other into => exact ⟨decide_eq_true fun he => h.asked into (he ▸ rfl), rfl⟩
    | intent player intent now => cases intent <;> first | rfl | trivial
    | _ => first | rfl | trivial
  have hcourse := performWith_course hc (watched_resolves hc (tolerates_all rules)) ⟨hm, rfl⟩ hwithin
    (fun selection choice hanswers rule hfind action cardType other hkind hchoice into haction => ?_)
    hseated
  · rwa [h.quiet silentAlarm] at hcourse
  · refine ⟨decide_eq_true fun he => ?_, .inl rfl⟩
    subst he hchoice haction
    exact h.named selection hanswers rule into cardType hfind hkind

/-- Where no rule transforms cards, a card is spared unless the operation asks for it. -/
theorem Catalog.NeverTransforms.spares (h : rules.catalog.NeverTransforms) (m : Match) (card : LiveId)
    (hop : op.transforms = false) : m.Spares rules card op := by
  refine ⟨fun into he => ?_, fun selection _ rule into cardType hfind => ?_, fun alarm => ?_⟩
  · subst he
    cases hop
  · exact h rule (Catalog.rule?_mem hfind) into cardType
  · rw [watched_unheeded (h.unheeded card alarm), Match.perform]

theorem Catalog.NeverTransforms.sparesAll (h : rules.catalog.NeverTransforms) (card : LiveId)
    {ops : List Operation} (hops : ops.all (!·.transforms) = true) (m : Match) :
    m.SparesAll rules card ops := by
  induction ops generalizing m with
  | nil => trivial
  | cons op rest ih =>
      rw [List.all_cons, Bool.and_eq_true, Bool.not_eq_true'] at hops
      exact ⟨h.spares m card hops.1, ih hops.2 _⟩

end CardArena
