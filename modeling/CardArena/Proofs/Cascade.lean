import Mathlib
import CardArena.Proofs.Dice
import CardArena.Proofs.Moves

/-!
# A cascade is a chain of changes

`resolveEffect` needs a resolver for what it sets off, and `resolveFiring room` is its own resolver
with less room; so the induction is on the room that is left, and its step is the law of one effect.

What an effect may do is to transform a card, and that is the one thing that a relation which keeps up
with the changes need not keep up with; so the laws of effects ask for it (`Transforms`).

* `resolver_resolves` : whatever a firing of the game sets off, however deep, is a chain of changes,
  and the faults that it may end with are those of `Tolerates`.
-/

namespace CardArena

open Play

/-- The faults of `F` include whatever doing an effect of the game can fail with: that cascades go
too deep, that tokens find no board, and that a rule writes an attribute that is not there. -/
structure Tolerates (rules : Rulebook) (F : Fault → Prop) : Prop where
  depth : ∀ depth, F (.cascadeLimitExceeded depth)
  board : rules.catalog.kind? rules.config.boardZone = some .dynamic ∨
    ∀ player, F (.unknownZone player rules.config.boardZone)
  players : ∀ rule ∈ rules.catalog.rules, ∀ action attr, rule.kind = .targetsPlayer action →
    action.attr? = some attr →
      attr ∈ rules.catalog.playerAttributes.map PlayerAttribute.name ∨
        ∀ entity, F (.attributeNotFound entity attr)
  cards : ∀ rule ∈ rules.catalog.rules, ∀ action cardType attr,
    rule.kind = .targetsCard action cardType → action.attr? = some attr →
      (∀ cardType ∈ rules.catalog.cardTypes, (cardType.attributes.get? attr).isSome) ∨
        ∀ entity, F (.attributeNotFound entity attr)

/-- To tolerate everything is enough for any game. -/
theorem tolerates_all (rules : Rulebook) : Tolerates rules fun _ => True :=
  ⟨fun _ => trivial, .inr fun _ => trivial, fun _ _ _ _ _ _ => .inr fun _ => trivial,
    fun _ _ _ _ _ _ _ => .inr fun _ => trivial⟩

/-- If the action is to transform the card, then to do so leads along `r`. -/
def Transforms (rules : Rulebook) (P : Match → Prop) (r : Match → Match → Prop) (F : Fault → Prop)
    (resolve : Resolver) (action : CardAction) (card : LiveId) : Prop :=
  ∀ into, action = .transform into → Along P r F (transform rules resolve card into)

variable {rules : Rulebook} {scope : Scope} {F : Fault → Prop} {ids : List PlayerId}
  {resolve : Resolver} {P : Match → Prop} {r : Match → Match → Prop}

/-! ## What an accepted effect refers to -/

namespace Catalog

variable {c : Catalog}

/-- The rule of an effect of the game is there, and the effect is aimed as the rule asks. -/
theorem Coherent.rule?_of_carries (hc : c.Coherent) {effect : Effect} (h : c.Carries effect) :
    ∃ rule, c.rule? effect.definition = some rule ∧
      (targetKind? rule.category effect.target).isSome := by
  obtain ⟨owner, hcheck⟩ := hc.effects effect h
  unfold checkEffect at hcheck
  split at hcheck
  · cases hcheck
  · next rule hrule =>
      split at hcheck
      · cases hcheck
      · next kind hkind => exact ⟨rule, hrule, by rw [hkind]; rfl⟩

theorem kind?_isSome_of_checkZone {owner zone : String} (h : c.checkZone owner zone = .ok ()) :
    (c.kind? zone).isSome := by
  unfold checkZone at h
  split at h
  · next hzone => rw [kind?, Option.isSome_map]; exact hzone
  · cases h

theorem cardNamed?_isSome_of_checkCard {owner card : String}
    (h : c.checkCard owner card = .ok ()) : (c.cardNamed? card).isSome := by
  unfold checkCard at h
  split at h
  · next hcard => exact hcard
  · cases h

/-- A rule that moves cards names zones of the game. -/
theorem Coherent.zones_of_moveCards (hc : c.Coherent) {rule : Rule} (hrule : rule ∈ c.rules)
    {origin destination : String}
    (hkind : rule.kind = .targetsPlayer (.moveCards origin destination)) :
    (c.kind? origin).isSome ∧ (c.kind? destination).isSome := by
  have hcheck := hc.rules rule hrule
  rw [checkRule, hkind] at hcheck
  obtain ⟨ho, hd⟩ := seq_eq_ok_iff.mp hcheck
  exact ⟨kind?_isSome_of_checkZone ho, kind?_isSome_of_checkZone hd⟩

/-- A rule that transforms cards names a design of the game. -/
theorem Coherent.card_of_transform (hc : c.Coherent) {rule : Rule} (hrule : rule ∈ c.rules)
    {into : String} {cardType : Option String}
    (hkind : rule.kind = .targetsCard (.transform into) cardType) :
    (c.cardNamed? into).isSome := by
  have hcheck := hc.rules rule hrule
  rw [checkRule, hkind] at hcheck
  exact cardNamed?_isSome_of_checkCard (seq_eq_ok_iff.mp hcheck).1

/-- An effect of a rule for cards is aimed at cards. -/
theorem Coherent.target_of_action (hc : c.Coherent) {effect : Effect} (hcarried : c.Carries effect)
    {rule : Rule} (hfind : c.rule? effect.definition = some rule) {action : CardAction}
    {cardType : Option String} (hkind : rule.kind = .targetsCard action cardType) :
    ∃ target, effect.target = .card target := by
  obtain ⟨found, hfound, hfits⟩ := hc.rule?_of_carries hcarried
  obtain rfl : rule = found := Option.some.inj (hfind.symm.trans hfound)
  cases htarget : effect.target with
  | card target => exact ⟨target, rfl⟩
  | _ => simp [htarget, Rule.category, hkind, targetKind?] at hfits

/-- A rule that makes tokens names a design of the game. -/
theorem Coherent.card_of_createToken (hc : c.Coherent) {rule : Rule} (hrule : rule ∈ c.rules)
    {name : String} (hkind : rule.kind = .general (.createToken name)) :
    (c.cardNamed? name).isSome := by
  have hcheck := hc.rules rule hrule
  rw [checkRule, hkind] at hcheck
  exact cardNamed?_isSome_of_checkCard hcheck

end Catalog

/-! ## Actions -/

section

variable (h : Follows rules scope ids P r) (hres : ResolvesAlong rules P r F resolve)
  (htol : Tolerates rules F)

include h hres htol

theorem applyPlayerAction_along {rule : Rule} (hrule : rule ∈ rules.catalog.rules)
    {action : PlayerAction} (hkind : rule.kind = .targetsPlayer action) (magnitude : Amount)
    {player : PlayerId} (hp : player ∈ ids) :
    Along P r F (applyPlayerAction rules resolve action magnitude player) := by
  have hattr := htol.players rule hrule action
  cases action with
  | increaseAttribute attr =>
      exact changePlayerAttribute_along h hres (.inl hp)
        ((hattr attr hkind rfl).imp_right fun h => h _) _
  | decreaseAttribute attr =>
      exact changePlayerAttribute_along h hres (.inl hp)
        ((hattr attr hkind rfl).imp_right fun h => h _) _
  | setAttribute attr =>
      exact setPlayerAttribute_along h hres (.inl hp)
        ((hattr attr hkind rfl).imp_right fun h => h _) _
  | moveCards origin destination =>
      obtain ⟨ho, hd⟩ := h.coherent.zones_of_moveCards hrule hkind
      intro m hm
      exact (moveCards_along h hres (.inl hp) (.inl ho) (.inl hd) _ m hm).discard

theorem applyCardAction_along {rule : Rule} (hrule : rule ∈ rules.catalog.rules)
    {action : CardAction} {cardType : Option String}
    (hkind : rule.kind = .targetsCard action cardType) (magnitude : Amount) {card : LiveId}
    (htransforms : Transforms rules P r F resolve action card) :
    Along P r F (applyCardAction rules resolve action magnitude card) := by
  have hattr := htol.cards rule hrule action cardType
  intro m hm
  refine .get_bind ?_
  split
  · next hlive =>
      cases action with
      | addCounter attr =>
          exact changeCardAttribute_follows h hres hm (.inl hlive)
            ((hattr attr hkind rfl).imp_right fun h => h _) _
      | removeCounter attr =>
          exact changeCardAttribute_follows h hres hm (.inl hlive)
            ((hattr attr hkind rfl).imp_right fun h => h _) _
      | setAttribute attr =>
          exact setCardAttribute_follows h hres hm (.inl hlive)
            ((hattr attr hkind rfl).imp_right fun h => h _) _
      | kill => exact killFor_along h hres .killed card m hm
      | transform into => exact (htransforms into rfl m hm).discard
  · exact .pure ()

end

/-! ## Targets -/

namespace Match

variable (m : Match)

theorem change_roll (effect : Effect) : Change rules scope m (m.roll effect).2 := by
  have heq : (m.roll effect).2 = { m with dice := (m.roll effect).2.dice } := by
    unfold roll
    split <;> rfl
  rw [heq]
  exact .roll _

theorem change_automaticPlayers (effect : Effect) (target : PlayerTarget) :
    Change rules scope m (m.automaticPlayers effect target).2 := by
  have heq : (m.automaticPlayers effect target).2
      = { m with dice := (m.automaticPlayers effect target).2.dice } := by
    unfold automaticPlayers
    dsimp only
    split <;> rfl
  rw [heq]
  exact .roll _

theorem change_automaticCards (effect : Effect) (target : CardTarget) (source : LiveId) :
    Change rules scope m (m.automaticCards rules effect target source).2 := by
  have heq : (m.automaticCards rules effect target source).2
      = { m with dice := (m.automaticCards rules effect target source).2.dice } := by
    unfold automaticCards
    dsimp only
    split
    · rfl
    · split <;> rfl
  rw [heq]
  exact .roll _

end Match

/-- An effect finds players at the table. -/
theorem Match.mem_automaticPlayers {m : Match} {effect : Effect} {target : PlayerTarget}
    {player : PlayerId} (h : player ∈ (m.automaticPlayers effect target).1) :
    player ∈ m.table.playerIds := by
  have hscope : ∀ id ∈ target.scope m.table, id ∈ m.table.playerIds := by
    intro id hid
    cases target with
    | currentPlayer =>
        simp only [PlayerTarget.scope, Option.mem_toList, Table.activePlayer?] at hid
        split at hid
        · obtain ⟨seat, hseat, rfl⟩ := Option.map_eq_some_iff.mp hid
          exact List.mem_map_of_mem (List.mem_of_getElem? hseat)
        · cases hid
    | currentOpponent => exact (List.mem_filter.mp hid).1
    | allPlayers => exact hid
    | randomPlayer => exact hid
    | targetPlayer => exact absurd hid List.not_mem_nil
  have hvalid : ∀ id ∈ (target.scope m.table).filter fun id =>
      (m.table.player? id).any effect.acceptsPlayer, id ∈ m.table.playerIds :=
    fun id hid => hscope id (List.mem_filter.mp hid).1
  unfold automaticPlayers at h
  dsimp only at h
  split at h
  · exact hvalid player (Dice.mem_of_choose (Option.mem_toList.mp h))
  · exact hvalid player h

/-! ## Effects -/

theorem askForTarget_follows (h : Follows rules scope ids P r) {m : Match} (hm : P m)
    (hidle : m.session.pending = none) (kind : TargetKind) {firing : Firing}
    (hcarried : rules.catalog.Carries firing.effect) :
    Leads r F (askForTarget rules kind firing) m := by
  refine .get_bind ?_
  split
  · exact .pure ()
  · next chooser hchooser =>
      dsimp only
      split
      · next hask =>
          have hmove : Change rules scope m _ := .ask hidle hchooser hcarried
            ((Bool.and_eq_true_iff.mp hask).2)
          exact ⟨.single (h.move hm hmove), nofun⟩
      · exact .pure ()

section

/-- What an effect does to the cards that it finds by itself, by how strong it turns out. -/
def doToCards (rules : Rulebook) (resolve : Resolver) (firing : Firing) (target : CardTarget)
    (act : Amount → LiveId → Play Unit) : Play Unit := do
  let magnitude ← modifyGet (·.roll firing.effect)
  let cards ← modifyGet (·.automaticCards rules firing.effect target firing.source)
  cards.forM (act magnitude)
  finishEffect rules resolve firing.source

variable (h : Follows rules scope ids P r) (hres : ResolvesAlong rules P r F resolve)
  (htol : Tolerates rules F)

include h hres

theorem finishEffect_along (source : LiveId) :
    Along P r F (finishEffect rules resolve source) := by
  intro m hm
  refine .get_bind ?_
  have hreveal : Along P r F (modify (·.broadcastState)) :=
    fun _ hm => .modify (h.move hm .reveal)
  dsimp only
  split
  · exact Along.bind h.kept (killFor_along h hres .afterEffect source)
      (fun _ => hreveal) m hm
  · exact hreveal m hm

theorem doToCards_along (firing : Firing) (target : CardTarget)
    {act : Amount → LiveId → Play Unit}
    (hact : ∀ magnitude card, Along P r F (act magnitude card)) :
    Along P r F (doToCards rules resolve firing target act) := by
  intro m hm
  have hroll : Change rules scope m _ := m.change_roll firing.effect
  have hfind : Change rules scope _ _ :=
    (m.roll firing.effect).2.change_automaticCards firing.effect target firing.source
  have hm₁ := h.after hm hroll
  refine .modifyGet_bind (h.move hm hroll) (.modifyGet_bind (h.move hm₁ hfind) ?_)
  exact Along.bind h.kept (.forM h.kept fun card _ => hact _ card)
    (fun _ => finishEffect_along h hres firing.source) _ (h.after hm₁ hfind)

include htol

/-- **To do one effect of the game makes changes only, given that what it sets off does, and that it
does to transform a card.** -/
theorem resolveEffect_follows {m : Match} (hm : P m) (hidle : m.session.isIdle)
    {firing : Firing} (hcarried : rules.catalog.Carries firing.effect)
    (htokens : ∀ rule, rules.catalog.rule? firing.effect.definition = some rule →
      ∀ name, rule.kind = .general (.createToken name) → scope.creates = true)
    (htransforms : ∀ rule, rules.catalog.rule? firing.effect.definition = some rule →
      ∀ action cardType, rule.kind = .targetsCard action cardType →
        ∀ card, Transforms rules P r F resolve action card) :
    Leads r F (resolveEffect rules resolve firing) m := by
  obtain ⟨rule, hfind, -⟩ := h.coherent.rule?_of_carries hcarried
  have hrule := Catalog.rule?_mem hfind
  have hfits := h.fits m hm
  have hnone : m.session.pending = none := Option.isNone_iff_eq_none.mp hidle
  have hfinish := finishEffect_along h hres firing.source
  rw [resolveEffect, hfind]
  dsimp only
  split
  case h_1 => exact .pure ()
  case h_2 name hkind =>
      refine .get_bind ?_
      split
      · exact .pure ()
      · next card hcard =>
          have howner : card.owner ∈ ids :=
            hfits.seats ▸ hfits.conforms.table.owners card (Roster.get?_eq_some_iff.mp hcard).1
          have htoken : Along P r F (createToken rules resolve card.owner name) :=
            createToken_along h hres (htokens rule hfind name hkind)
              (.inl (h.coherent.card_of_createToken hrule hkind))
              (htol.board.imp (fun h => ⟨howner, h⟩) fun h => h _)
          exact Along.bind h.kept (fun m hm => (htoken m hm).discard) (fun _ => hfinish) m hm
  case h_3 action target hkind _ =>
      split
      · exact askForTarget_follows h hm hnone .player hcarried
      · have hroll : Change rules scope m _ := m.change_roll firing.effect
        have hm₁ := h.after hm hroll
        have hfind : Change rules scope _ _ :=
          (m.roll firing.effect).2.change_automaticPlayers firing.effect target
        refine .modifyGet_bind (h.move hm hroll) (.modifyGet_bind (h.move hm₁ hfind) ?_)
        refine Along.bind h.kept (.forM h.kept fun player hplayer => ?_)
          (fun _ => hfinish) _ (h.after hm₁ hfind)
        exact applyPlayerAction_along h hres htol hrule hkind _
          ((h.fits _ hm₁).seats ▸ Match.mem_automaticPlayers hplayer)
  case h_4 action cardType target hkind _ =>
      split
      · exact askForTarget_follows h hm hnone .card hcarried
      · exact doToCards_along h hres firing target (fun magnitude card =>
          applyCardAction_along h hres htol hrule hkind magnitude
            (htransforms rule hfind action cardType hkind card)) m hm
  case h_5 => exact .pure ()

end

/-! ### Along changes -/

section

variable (hc : rules.catalog.Coherent) (hres : Resolves rules scope F ids resolve)
  (htol : Tolerates rules F)

include hc

theorem askForTarget_leads {m : Match} (hm : m.Fits rules.catalog ids)
    (hidle : m.session.pending = none) (kind : TargetKind) {firing : Firing}
    (hcarried : rules.catalog.Carries firing.effect) :
    Leads (Change rules scope) F (askForTarget rules kind firing) m :=
  askForTarget_follows (follows_changes hc) hm hidle kind hcarried

include hres

/-- Where an action is permitted, to transform a card by it makes changes and no more. -/
theorem Scope.Permits.transforms {rule : Rule} (hrule : rule ∈ rules.catalog.rules)
    {action : CardAction} {cardType : Option String}
    (hkind : rule.kind = .targetsCard action cardType) {card : LiveId}
    (hpermits : scope.Permits rules.catalog action card) :
    Transforms rules (Match.Fits rules.catalog ids) (Change rules scope) F resolve action card := by
  rintro into rfl
  obtain ⟨hallowed, hfades⟩ := hpermits into rfl
  exact transform_walks hc hres hallowed hfades (.inl (hc.card_of_transform hrule hkind))

theorem finishEffect_walks (source : LiveId) :
    Walks rules scope F ids (finishEffect rules resolve source) :=
  finishEffect_along (follows_changes hc) hres source

theorem doToCards_walks (firing : Firing) (target : CardTarget)
    {act : Amount → LiveId → Play Unit}
    (hact : ∀ magnitude card, Walks rules scope F ids (act magnitude card)) :
    Walks rules scope F ids (doToCards rules resolve firing target act) :=
  doToCards_along (follows_changes hc) hres firing target hact

include htol

theorem applyPlayerAction_walks {rule : Rule} (hrule : rule ∈ rules.catalog.rules)
    {action : PlayerAction} (hkind : rule.kind = .targetsPlayer action) (magnitude : Amount)
    {player : PlayerId} (hp : player ∈ ids) :
    Walks rules scope F ids (applyPlayerAction rules resolve action magnitude player) :=
  applyPlayerAction_along (follows_changes hc) hres htol hrule hkind magnitude hp

theorem applyCardAction_walks {rule : Rule} (hrule : rule ∈ rules.catalog.rules)
    {action : CardAction} {cardType : Option String}
    (hkind : rule.kind = .targetsCard action cardType) (magnitude : Amount) {card : LiveId}
    (hpermits : scope.Permits rules.catalog action card) :
    Walks rules scope F ids (applyCardAction rules resolve action magnitude card) :=
  applyCardAction_along (follows_changes hc) hres htol hrule hkind magnitude
    (hpermits.transforms hc hres hrule hkind)

/-- **To do one effect of the game makes changes only, given that what it sets off does.** -/
theorem resolveEffect_leads {m : Match} (hm : m.Fits rules.catalog ids) (hidle : m.session.isIdle)
    {firing : Firing} (hcarried : rules.catalog.Carries firing.effect)
    (hserves : ∀ rule, rules.catalog.rule? firing.effect.definition = some rule →
      scope.Serves rules.catalog rule) :
    Leads (Change rules scope) F (resolveEffect rules resolve firing) m := by
  refine resolveEffect_follows (follows_changes hc) hres htol hm hidle hcarried ?_ ?_
  · exact fun rule hfind => (hserves rule hfind).tokens
  · intro rule hfind action cardType hkind card
    exact ((hserves rule hfind).actions action cardType hkind card).transforms hc hres
      (Catalog.rule?_mem hfind) hkind

end

/-! ## The knot -/

theorem deeper_run (step : Play Unit) (m : Match) :
    (deeper step).run m = ((step.run { m with cascadeDepth := m.cascadeDepth + 1 }).1,
      (fun m => { m with cascadeDepth := m.cascadeDepth - 1 })
        (step.run { m with cascadeDepth := m.cascadeDepth + 1 }).2) :=
  run_finally step _ _

/-- A step that goes deeper goes where the step goes, if one may go down and come back up. -/
theorem Play.Leads.deeper {step : Play Unit} {m : Match}
    (hdown : r m { m with cascadeDepth := m.cascadeDepth + 1 })
    (hup : ∀ m', Relation.ReflTransGen r m m' → ∀ depth, r m' { m' with cascadeDepth := depth })
    (hstep : Leads r F step { m with cascadeDepth := m.cascadeDepth + 1 }) :
    Leads r F (deeper step) m := by
  refine ⟨?_, ?_⟩ <;> rw [deeper_run]
  · have hpath := hstep.path.head hdown
    exact hpath.tail (hup _ hpath _)
  · exact hstep.fault

theorem deeper_follows (h : Follows rules scope ids P r) {step : Play Unit} {m : Match} (hm : P m)
    (hstep : Leads r F step { m with cascadeDepth := m.cascadeDepth + 1 }) :
    Leads r F (deeper step) m :=
  .deeper (h.move hm (.nest _)) (fun _ hpath _ => h.move (h.kept.chain hpath hm) (.nest _)) hstep

theorem deeper_leads {step : Play Unit} {m : Match}
    (h : Leads (Change rules scope) F step { m with cascadeDepth := m.cascadeDepth + 1 }) :
    Leads (Change rules scope) F (deeper step) m :=
  .deeper (.nest _) (fun _ _ _ => .nest _) h

theorem resolveFiring_resolves (hc : rules.catalog.Coherent) (hcovers : scope.Covers rules.catalog)
    (htol : Tolerates rules F) (room : Nat) :
    Resolves rules scope F ids (resolveFiring rules room) := by
  induction room with
  | zero => exact fun firing _ m _ => .get_bind (.throw (htol.depth _))
  | succ room ih =>
      intro firing hcarried m ⟨hm, hidle⟩
      have hm₁ : Match.Fits rules.catalog ids { m with cascadeDepth := m.cascadeDepth + 1 } :=
        ⟨⟨hm.conforms.table, hm.conforms.session⟩, hm.seats⟩
      exact deeper_leads (resolveEffect_leads hc ih htol hm₁ hidle hcarried
        fun rule hfind => hcovers rule (Catalog.rule?_mem hfind))

/-- **Whatever a firing sets off is a chain of changes, and it fails with tolerated faults only.** -/
theorem resolver_resolves (hc : rules.catalog.Coherent) (hcovers : scope.Covers rules.catalog)
    (htol : Tolerates rules F) : Resolves rules scope F ids rules.resolver :=
  fun firing hcarried m hm =>
    .get_bind (resolveFiring_resolves hc hcovers htol _ firing hcarried m hm)

theorem resolver_resolves_all (hc : rules.catalog.Coherent) :
    Resolves rules .all (fun _ => True) ids rules.resolver :=
  resolver_resolves hc (Scope.all_covers _) (tolerates_all rules)

end CardArena
