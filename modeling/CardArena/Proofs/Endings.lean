import Mathlib
import CardArena.Proofs.Cascade

/-!
# What a cascade keeps if it ends well

What every change keeps, every cascade keeps, wherever it is broken off.  Some things are kept by
all changes but one: a card that is transformed fades first, hears that it leaves, and only then is
another put in its place.  If the cascade is broken off in between, it stays as it is; if it ends
well, it was not.

So here the laws of the engine are taken up once more, for steps that do not fail.  `P` is a
property that the changes of a scope keep, and the scope is one in which nothing is transformed;
what it takes to transform a card is left open (`TransformsWell`), to be shown of `P` as a whole.
In return no step has to say what it fails with.

* `resolver_ends_well` : what the changes keep, and every transformation that ends well, every firing
  keeps that ends well.
-/

namespace CardArena

open Play

/-- While no question is open, a firing of the game that ends well leaves a match of `P` in `P`. -/
def ResolvesWell (rules : Rulebook) (P : Match → Prop) (resolve : Resolver) : Prop :=
  ∀ firing, rules.catalog.Carries firing.effect →
    Yields (fun m => P m ∧ m.session.isIdle) (resolve firing) fun _ => P

/-- A transformation that ends well leaves a match of `P` in `P`. -/
def TransformsWell (rules : Rulebook) (P : Match → Prop) (resolve : Resolver) : Prop :=
  ∀ card into, Keeps P (transform rules resolve card into)

variable {rules : Rulebook} {scope : Scope} {ids : List PlayerId} {resolve : Resolver}
  {P : Match → Prop}

section

variable (h : Follows rules scope ids P (Change rules scope)) (hres : ResolvesWell rules P resolve)

include h hres

/-! ## Raising events -/

theorem dispatch_keeps {firing : Firing} (hcarried : rules.catalog.Carries firing.effect) :
    Keeps P (dispatch resolve firing) := by
  intro m a m' hm hrun
  rw [dispatch, run_get_bind] at hrun
  split at hrun
  · next hidle => exact hres firing hcarried m a m' ⟨hm, hidle⟩ hrun
  · next hbusy =>
      cases hrun
      refine h.after hm (.enqueue ?_ hcarried)
      simpa [Session.isIdle, Option.isSome_iff_ne_none] using hbusy

theorem offer_keeps {effect : Effect} (hcarried : rules.catalog.Carries effect)
    (source : LiveId) : Keeps P (offer rules resolve source effect) := by
  refine .get_bind fun m => ?_
  split
  · exact dispatch_keeps h hres hcarried
  · exact .pure fun _ hm => hm

theorem raise_keeps (event : Event) (source : LiveId) :
    Keeps P (raise rules resolve event source) := by
  refine .get_bind fun m => ?_
  split
  · exact .pure fun _ hm => hm
  · exact .forM fun effect heffect =>
      offer_keeps h hres (Catalog.carries_of_listener heffect) source

theorem raiseIfAlive_keeps (event : Event) (card : LiveId) :
    Keeps P (raiseIfAlive rules resolve event card) := by
  refine .get_bind fun m => ?_
  split
  · exact raise_keeps h hres event card
  · exact .pure fun _ hm => hm

theorem raiseOnAll_keeps (event : Event) : Keeps P (raiseOnAll rules resolve event) :=
  .get_bind fun _ => .forM fun card _ => raiseIfAlive_keeps h hres event card

theorem raiseTransition_keeps (direction : Direction) (zone : String) (card : LiveId) :
    Keeps P (raiseTransition rules resolve direction zone card) :=
  raise_keeps h hres _ card

/-! ## Writing attributes -/

theorem setPlayerAttribute_keeps (player : PlayerId) (attr : String) (value : Amount) :
    Keeps P (setPlayerAttribute rules resolve player attr value) := by
  intro m a m' hm hrun
  obtain ⟨old, m₁, hread, hrest⟩ := run_bind_eq_ok hrun
  obtain ⟨rfl, seat, hseat, hold⟩ := playerAttribute_run hread
  have hwritten := h.after hm (.writePlayer value hseat hold)
  rw [run_modify_bind] at hrest
  split at hrest
  · cases hrest
    exact hwritten
  · exact raiseOnAll_keeps h hres _ _ a m' hwritten hrest

theorem changePlayerAttribute_keeps (player : PlayerId) (attr : String)
    (change : Amount → Amount) :
    Keeps P (changePlayerAttribute rules resolve player attr change) := by
  intro m a m' hm hrun
  obtain ⟨old, m₁, hread, hrest⟩ := run_bind_eq_ok hrun
  obtain ⟨rfl, -⟩ := playerAttribute_run hread
  exact setPlayerAttribute_keeps h hres player attr _ _ a m' hm hrest

theorem setCardAttribute_keeps (card : LiveId) (attr : String) (value : Amount) :
    Keeps P (setCardAttribute rules resolve card attr value) := by
  intro m a m' hm hrun
  obtain ⟨old, m₁, hread, hrest⟩ := run_bind_eq_ok hrun
  obtain ⟨rfl, live, hlive, hold⟩ := cardAttribute_run hread
  have hwritten := h.after hm (.writeCard value hlive hold)
  have hcompare : Keeps P (Comparison.all.forM fun op =>
      raise rules resolve (.cardAttributeCompare op attr value) card) :=
    .forM fun op _ => raise_keeps h hres _ card
  rw [run_modify_bind] at hrest
  cases hdirection : Direction.between? old value with
  | none =>
      rw [hdirection] at hrest
      exact hcompare _ a m' hwritten hrest
  | some direction =>
      rw [hdirection] at hrest
      obtain ⟨_, m₂, hdelta, hrest⟩ := run_bind_eq_ok hrest
      exact hcompare m₂ a m' (raise_keeps h hres _ card _ _ m₂ hwritten hdelta) hrest

theorem changeCardAttribute_keeps (card : LiveId) (attr : String) (change : Amount → Amount) :
    Keeps P (changeCardAttribute rules resolve card attr change) := by
  intro m a m' hm hrun
  obtain ⟨old, m₁, hread, hrest⟩ := run_bind_eq_ok hrun
  obtain ⟨rfl, -⟩ := cardAttribute_run hread
  exact setCardAttribute_keeps h hres card attr _ _ a m' hm hrest

/-! ## Moving -/

theorem welcome_keeps (zone : String) (card : LiveId) :
    Keeps P (welcome rules resolve zone card) :=
  .bind (raiseTransition_keeps h hres _ _ card) fun _ => .pure fun _ hm => hm

section

variable {player : PlayerId} (hp : player ∈ ids) (origin : String) {destination : String}

include hp

theorem moveIntoPlay_keeps (hd : rules.catalog.kind? destination = some .dynamic) :
    Keeps P (moveIntoPlay rules resolve player origin destination) := by
  intro m a m' hm hrun
  cases htop : (m.table.zone? player origin).bind fun z => z.pile.popCard? with
  | none =>
      rw [moveIntoPlay_empty htop] at hrun
      cases hrun
      exact hm
  | some top =>
      obtain ⟨card, pile⟩ := top
      obtain ⟨z, hz, htop'⟩ := Option.bind_eq_some_iff.mp htop
      have hfits := h.fits m hm
      obtain ⟨design, cardType, rfl, typed⟩ := hfits.typed_top h.coherent hz htop'
      have hmove : Change rules scope m _ :=
        .deploy hz htop' typed ((hfits.kind hp destination).trans hd)
      have hroom := ((hfits.popTop h.coherent hz htop').kind hp destination).trans hd
      rw [moveIntoPlay_run hz htop' typed hroom] at hrun
      have hwelcome : Keeps P (welcome rules resolve destination
          (m.spawner.spawn design.id player).1 >>= fun _ => pure true) :=
        .bind (welcome_keeps h hres _ _) fun _ => .pure fun _ hm => hm
      exact hwelcome _ a m' (h.after hm hmove) hrun

theorem moveOutOfPlay_keeps (hd : rules.catalog.kind? destination = some .static) :
    Keeps P (moveOutOfPlay rules resolve player origin destination) := by
  intro m a m' hm hrun
  cases htop : (m.table.zone? player origin).bind Zone.topLive? with
  | none =>
      rw [moveOutOfPlay_empty htop] at hrun
      cases hrun
      exact hm
  | some card =>
      rw [moveOutOfPlay_run htop] at hrun
      have hdepart : Along P (Change rules scope) (fun _ => True)
          (depart player origin destination card) := depart_along h hp origin hd card
      exact Yields.bind (raiseTransition_keeps h hres _ _ card)
        (fun _ => .of_along h.kept hdepart) m a m' hm hrun

theorem moveBetweenDynamic_keeps (hd : rules.catalog.kind? destination = some .dynamic) :
    Keeps P (moveBetweenDynamic rules resolve player origin destination) := by
  intro m a m' hm hrun
  cases htop : (m.table.zone? player origin).bind Zone.topLive? with
  | none =>
      rw [moveBetweenDynamic_empty htop] at hrun
      cases hrun
      exact hm
  | some card =>
      obtain ⟨z, hz, hlast⟩ := Option.bind_eq_some_iff.mp htop
      have hmove : Change rules scope m _ :=
        .carry hz (List.mem_of_getLast? hlast) (((h.fits m hm).kind hp destination).trans hd)
      rw [moveBetweenDynamic_run htop] at hrun
      have hheard : Keeps P (raiseTransition rules resolve .leave origin card >>= fun _ =>
          raiseTransition rules resolve .enter destination card >>= fun _ => pure true) :=
        .bind (raiseTransition_keeps h hres _ _ card) fun _ =>
          .bind (raiseTransition_keeps h hres _ _ card) fun _ => .pure fun _ hm => hm
      exact hheard _ a m' (h.after hm hmove) hrun

theorem moveTop_keeps {kinds : ZoneKind × ZoneKind}
    (hd : rules.catalog.kind? destination = some kinds.2) :
    Keeps P (moveTop rules resolve kinds player origin destination) := by
  obtain ⟨_ | _, _ | _⟩ := kinds
  · have hstatic : Along P (Change rules scope) (fun _ => True)
        (moveStatic player origin destination) := moveStatic_along h hp origin hd
    exact .of_along h.kept hstatic
  · exact moveIntoPlay_keeps h hres hp origin hd
  · exact moveOutOfPlay_keeps h hres hp origin hd
  · exact moveBetweenDynamic_keeps h hres hp origin hd

end

omit h hres in
theorem repeatStep_keeps {step : Play Bool} (hstep : Keeps P step) (count : Nat) :
    Keeps P (repeatStep step count) := by
  induction count with
  | zero => exact .pure fun _ hm => hm
  | succ count ih =>
      refine .bind hstep fun moved => ?_
      cases moved with
      | false => exact .pure fun _ hm => hm
      | true => exact .bind ih fun _ => .pure fun _ hm => hm

theorem moveCards_keeps (player : PlayerId) (origin destination : String) (count : Nat) :
    Keeps P (moveCards rules resolve player origin destination count) := by
  intro m a m' hm hrun
  have hfits := h.fits m hm
  rw [moveCards, run_get_bind] at hrun
  split at hrun
  · cases hrun
  · next seat hseat =>
      obtain ⟨hmem, -⟩ := hfits.mem_of_player? hseat
      split at hrun
      · cases hrun
      · cases hrun
      · next source target hsource htarget =>
          have hfound : m.table.zone? player destination = some target := by
            rw [Table.zone?_eq, hseat]
            exact htarget
          have hkind := (hfits.mem_of_zone? hfound).2
          exact repeatStep_keeps (moveTop_keeps h hres hmem origin hkind) _ m a m' hm hrun

/-! ## Dying -/

theorem mourn_keeps (card : LiveId) : Keeps P (mourn rules resolve card) := by
  refine .get_bind fun m => ?_
  split
  · exact .pure fun _ hm => hm
  · exact raiseTransition_keeps h hres _ _ card

theorem killFor_keeps (reason : DestructionReason) (card : LiveId) :
    Keeps P (killFor rules resolve reason card) := by
  intro m a m' hm hrun
  cases hfree : m.destructions.contains card with
  | true =>
      rw [killFor_spared (.inl hfree)] at hrun
      cases hrun
      exact hm
  | false =>
      cases hlive : m.table.live? card with
      | none =>
          rw [killFor_spared (.inr hlive)] at hrun
          cases hrun
          exact hm
      | some live =>
          rw [killFor_run hlive hfree] at hrun
          exact mourn_keeps h hres card _ a m' (h.after hm (.condemn reason hlive hfree)) hrun

variable (hcreates : scope.creates = true)

section

include hcreates

theorem enterZone_keeps (owner : PlayerId) (design : CardId) (zone : String) :
    Keeps P (enterZone rules resolve owner design zone) := by
  intro m a m' hm hrun
  cases typed : rules.catalog.typed? design with
  | none =>
      rw [enterZone, typed] at hrun
      cases hrun
  | some found =>
      obtain ⟨card, cardType⟩ := found
      obtain ⟨-, rfl⟩ := Catalog.card?_some (Catalog.typed?_eq_some_iff.mp typed).1
      by_cases room : (m.table.zone? owner zone).map Zone.kind = some .dynamic
      · rw [enterZone_run typed room] at hrun
        exact welcome_keeps h hres zone _ _ a m' (h.after hm (.bring hcreates typed room)) hrun
      · rw [enterZone_refused typed room] at hrun
        cases hrun

theorem createToken_keeps (owner : PlayerId) (name : String) :
    Keeps P (createToken rules resolve owner name) := by
  unfold createToken
  split
  · exact .throw
  · exact enterZone_keeps h hres hcreates owner _ _

end

/-! ## Effects -/

theorem applyPlayerAction_keeps (action : PlayerAction) (magnitude : Amount) (player : PlayerId) :
    Keeps P (applyPlayerAction rules resolve action magnitude player) := by
  cases action with
  | increaseAttribute attr => exact changePlayerAttribute_keeps h hres player attr _
  | decreaseAttribute attr => exact changePlayerAttribute_keeps h hres player attr _
  | setAttribute attr => exact setPlayerAttribute_keeps h hres player attr magnitude
  | moveCards origin destination =>
      exact .discard (moveCards_keeps h hres player origin destination _)

theorem finishEffect_keeps (source : LiveId) : Keeps P (finishEffect rules resolve source) := by
  have hreveal : Keeps P (modify (·.broadcastState)) := .modify fun m hm => h.after hm .reveal
  refine .get_bind fun m => ?_
  dsimp only
  split
  · exact .bind (killFor_keeps h hres .afterEffect source) fun _ => hreveal
  · exact hreveal

variable (htransforms : TransformsWell rules P resolve)

include htransforms in
theorem applyCardAction_keeps (action : CardAction) (magnitude : Amount) (card : LiveId) :
    Keeps P (applyCardAction rules resolve action magnitude card) := by
  refine .get_bind fun m => ?_
  split
  · cases action with
    | addCounter attr => exact changeCardAttribute_keeps h hres card attr _
    | removeCounter attr => exact changeCardAttribute_keeps h hres card attr _
    | setAttribute attr => exact setCardAttribute_keeps h hres card attr magnitude
    | kill => exact killFor_keeps h hres .killed card
    | transform into => exact .discard (htransforms card into)
  · exact .pure fun _ hm => hm

include hcreates htransforms

/-- **An effect that ends well keeps what the changes keep, and what it takes to transform cards.**
-/
theorem resolveEffect_keeps {firing : Firing} (hcarried : rules.catalog.Carries firing.effect) :
    Yields (fun m => P m ∧ m.session.isIdle) (resolveEffect rules resolve firing) fun _ => P := by
  rintro m a m' ⟨hm, hidle⟩ hrun
  have hnone : m.session.pending = none := Option.isNone_iff_eq_none.mp hidle
  have hfinish := finishEffect_keeps h hres firing.source
  have hask (kind : TargetKind) (hrun : (askForTarget rules kind firing).run m = (.ok a, m')) :
      P m' := by
    have hleads : Leads (Change rules scope) (fun _ => True) (askForTarget rules kind firing) m :=
      askForTarget_follows h hm hnone kind hcarried
    exact hleads.after h.kept hm hrun
  have hroll := h.after hm (m.change_roll firing.effect)
  rw [resolveEffect] at hrun
  split at hrun
  · cases hrun
  · next rule hfind =>
      split at hrun
      · cases hrun
        exact hm
      · next name _ =>
          rw [run_get_bind] at hrun
          split at hrun
          · cases hrun
            exact hm
          · next card _ =>
              exact Yields.bind (.discard (createToken_keeps h hres hcreates card.owner name))
                (fun _ => hfinish) m a m' hm hrun
      · next action target _ _ =>
          split at hrun
          · exact hask .player hrun
          · rw [run_modifyGet_bind, run_modifyGet_bind] at hrun
            have hfound := h.after hroll
              ((m.roll firing.effect).2.change_automaticPlayers firing.effect target)
            exact Yields.bind (.forM fun player _ => applyPlayerAction_keeps h hres action _ player)
              (fun _ => hfinish) _ a m' hfound hrun
      · next action _ target _ _ =>
          split at hrun
          · exact hask .card hrun
          · rw [run_modifyGet_bind, run_modifyGet_bind] at hrun
            have hfound := h.after hroll
              ((m.roll firing.effect).2.change_automaticCards firing.effect target firing.source)
            exact Yields.bind
              (.forM fun card _ => applyCardAction_keeps h hres htransforms action _ card)
              (fun _ => hfinish) _ a m' hfound hrun
      · cases hrun
        exact hm

end

/-! ## The knot -/

theorem deeper_keeps (h : Follows rules scope ids P (Change rules scope)) {step : Play Unit}
    (hstep : Yields (fun m => P m ∧ m.session.isIdle) step fun _ => P) :
    Yields (fun m => P m ∧ m.session.isIdle) (deeper step) fun _ => P := by
  rintro m a m' ⟨hm, hidle⟩ hrun
  rw [deeper_run] at hrun
  obtain ⟨hok, rfl⟩ := Prod.mk.inj hrun
  have hbelow := h.after hm (.nest (m.cascadeDepth + 1))
  exact h.after (hstep _ a _ ⟨hbelow, hidle⟩ (Prod.ext hok rfl)) (.nest _)

/-- **A firing that ends well keeps what the changes keep, if a transformation that ends well
does.**

There may be many such properties, and to transform a card may take several of them: while others
hear that the card leaves, another one holds than before and after. -/
theorem resolver_ends_well {ι : Type} {P : ι → Match → Prop}
    (h : ∀ i, Follows rules scope ids (P i) (Change rules scope)) (hcreates : scope.creates = true)
    (htransforms : ∀ resolve, (∀ i, ResolvesWell rules (P i) resolve) →
      ∀ i, TransformsWell rules (P i) resolve) (i : ι) :
    ResolvesWell rules (P i) rules.resolver := by
  have hfiring (room : Nat) : ∀ i, ResolvesWell rules (P i) (resolveFiring rules room) := by
    induction room with
    | zero => exact fun i firing _ => .get_bind fun _ => .throw
    | succ room ih =>
        intro i firing hcarried
        exact deeper_keeps (h i) (resolveEffect_keeps (h i) (ih i) hcreates
          (htransforms _ ih i) hcarried)
  exact fun firing hcarried => .get_bind fun _ => hfiring _ i firing hcarried

end CardArena
