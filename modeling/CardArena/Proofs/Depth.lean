import Mathlib
import CardArena.Proofs.Line

/-!
# How deep a cascade goes

Every step of the engine takes a resolver, and the resolver that there is does a firing by steps that
take it again.  Nothing else in the engine calls itself but loops over lists.  So the question is how
often that recursion goes round.

`Level limit depth x y` says of two steps that from this depth they do the same, that they come back
to the depth whether or not they fail, and that a fault about depth names the limit.  A step of the
engine asks its resolver for firings at its own depth only, so it is on a level with itself for any two
resolvers that are (there is one law for each step); and `deeper` goes from one depth to the next.

Hence the recursion can be cut off: `Rulebook.unfolded` goes round so many times and then does
anything at all, and after one round more than there are levels left nobody ever gets there
(`unfolded_level`).

* `cascades_bounded` : the main statement.
-/

namespace CardArena

open Play

/-! ## Depth and the match -/

namespace Match

variable (m : Match)

@[simp]
theorem cascadeDepth_tell (player : PlayerId) (message : Message) :
    (m.tell player message).cascadeDepth = m.cascadeDepth := by
  rw [tell_eq_post]
  rfl

@[simp]
theorem cascadeDepth_roll (effect : Effect) :
    (m.roll effect).2.cascadeDepth = m.cascadeDepth := by
  unfold roll
  split <;> rfl

@[simp]
theorem cascadeDepth_automaticPlayers (effect : Effect) (target : PlayerTarget) :
    (m.automaticPlayers effect target).2.cascadeDepth = m.cascadeDepth := by
  unfold automaticPlayers
  dsimp only
  split <;> rfl

@[simp]
theorem cascadeDepth_automaticCards (rules : Rulebook) (effect : Effect) (target : CardTarget)
    (source : LiveId) :
    (m.automaticCards rules effect target source).2.cascadeDepth = m.cascadeDepth := by
  unfold automaticCards
  dsimp only
  split
  · rfl
  · split <;> rfl

@[simp]
theorem cascadeDepth_shuffleZone (player : PlayerId) (zone : String) :
    (m.shuffleZone player zone).cascadeDepth = m.cascadeDepth := by
  unfold shuffleZone
  split <;> rfl

@[simp]
theorem cascadeDepth_discardCard (rules : Rulebook) (player : PlayerId) (card : CardId) :
    (m.discardCard rules player card).cascadeDepth = m.cascadeDepth := by
  unfold discardCard
  split <;> rfl

theorem cascadeDepth_discardAll (rules : Rulebook) (player : PlayerId) (cards : List CardId) :
    (m.discardAll rules player cards).cascadeDepth = m.cascadeDepth := by
  induction cards generalizing m with
  | nil => rfl
  | cons card rest ih => exact (ih _).trans (m.cascadeDepth_discardCard rules player card)

theorem cascadeDepth_discardRandom (rules : Rulebook) (player : PlayerId) (count : Nat) :
    (m.discardRandom rules player count).cascadeDepth = m.cascadeDepth := by
  induction count generalizing m with
  | zero => rfl
  | succ count ih =>
      rw [discardRandom]
      split
      · rfl
      · exact (ih _).trans (cascadeDepth_discardCard ..)

@[simp]
theorem cascadeDepth_destroy (graveyard : Option String) (card : LiveId) :
    (m.destroy graveyard card).cascadeDepth = m.cascadeDepth := by
  cases hlive : m.table.live? card with
  | none =>
      rw [destroy_of_none hlive]
      rfl
  | some live =>
      rw [destroy_eq hlive]
      rfl

theorem cascadeDepth_destroyAll (graveyard : Option String) (cards : List LiveId) :
    (m.destroyAll graveyard cards).cascadeDepth = m.cascadeDepth := by
  induction cards generalizing m with
  | nil => rfl
  | cons card rest ih => exact (ih _).trans (m.cascadeDepth_destroy graveyard card)

end Match

/-! ## Steps on a level -/

/-- A fault about depth is about this depth. -/
def Fault.AtDepth (limit : Nat) : Fault → Prop
  | .cascadeLimitExceeded reached => reached = limit
  | _ => True

namespace Play

/-- From this depth the two steps do the same and come back to it, and fail for being too deep at the
limit only. -/
def Level (limit depth : Nat) (x y : Play α) : Prop :=
  ∀ m, m.cascadeDepth = depth → x.run m = y.run m ∧ (y.run m).2.cascadeDepth = depth ∧
    ∀ f, (y.run m).1 = .error f → f.AtDepth limit

namespace Level

variable {limit depth : Nat}

theorem pure (a : α) : Level limit depth (pure a : Play α) (pure a) := by
  intro m hm
  exact ⟨rfl, hm, nofun⟩

/-- What is on a level with another step is on a level with itself. -/
theorem right {x y : Play α} (h : Level limit depth x y) : Level limit depth y y := by
  intro m hm
  exact ⟨rfl, (h m hm).2⟩

theorem throw {f : Fault} (hf : f.AtDepth limit) :
    Level limit depth (throw f : Play α) (throw f) := by
  intro m hm
  refine ⟨rfl, hm, ?_⟩
  rintro _ ⟨⟩
  exact hf

theorem bind {x y : Play α} {k l : α → Play β} (hx : Level limit depth x y)
    (hk : ∀ a, Level limit depth (k a) (l a)) : Level limit depth (x >>= k) (y >>= l) := by
  intro m hm
  obtain ⟨hrun, hdepth, hlimit⟩ := hx m hm
  rcases hy : y.run m with ⟨f | a, m₁⟩ <;> rw [hy] at hrun hdepth hlimit
  · rw [run_bind_error hrun, run_bind_error hy]
    refine ⟨rfl, hdepth, ?_⟩
    rintro _ ⟨⟩
    exact hlimit f rfl
  · rw [run_bind_ok hrun, run_bind_ok hy]
    exact hk a m₁ hdepth

theorem get_bind {k l : Match → Play β}
    (h : ∀ m, m.cascadeDepth = depth → Level limit depth (k m) (l m)) :
    Level limit depth (get >>= k) (get >>= l) := by
  intro m hm
  exact h m hm m hm

theorem set_bind {m₁ : Match} {k l : Unit → Play β} (hm₁ : m₁.cascadeDepth = depth)
    (h : Level limit depth (k ()) (l ())) : Level limit depth (set m₁ >>= k) (set m₁ >>= l) := by
  intro _ _
  exact h m₁ hm₁

theorem modify_bind {f : Match → Match} {k l : Unit → Play β}
    (hf : ∀ m, (f m).cascadeDepth = m.cascadeDepth) (h : Level limit depth (k ()) (l ())) :
    Level limit depth (modify f >>= k) (modify f >>= l) := by
  intro m hm
  exact h (f m) ((hf m).trans hm)

theorem modify {f : Match → Match} (hf : ∀ m, (f m).cascadeDepth = m.cascadeDepth) :
    Level limit depth (modify f : Play Unit) (modify f) := by
  intro m hm
  exact ⟨rfl, (hf m).trans hm, nofun⟩

theorem modifyGet_bind {f : Match → α × Match} {k l : α → Play β}
    (hf : ∀ m, (f m).2.cascadeDepth = m.cascadeDepth) (h : ∀ a, Level limit depth (k a) (l a)) :
    Level limit depth (modifyGet f >>= k) (modifyGet f >>= l) := by
  intro m hm
  exact h (f m).1 (f m).2 ((hf m).trans hm)

theorem ite {p : Prop} [Decidable p] {x x' y y' : Play α} (hpos : p → Level limit depth x y)
    (hneg : ¬ p → Level limit depth x' y') :
    Level limit depth (if p then x else x') (if p then y else y') := by
  by_cases hp : p
  · rw [if_pos hp, if_pos hp]
    exact hpos hp
  · rw [if_neg hp, if_neg hp]
    exact hneg hp

theorem map {x y : Play α} (h : Level limit depth x y) (f : α → β) :
    Level limit depth (f <$> x) (f <$> y) :=
  h.bind fun a => .pure (f a)

theorem discard {x y : Play α} (h : Level limit depth x y) :
    Level limit depth (discard x) (discard y) :=
  h.map _

theorem attempt {x y : Play Unit} (h : Level limit depth x y) :
    Level limit depth (attempt x) (attempt y) := by
  intro m hm
  obtain ⟨hrun, hdepth, -⟩ := h m hm
  rw [run_attempt, run_attempt, hrun]
  exact ⟨rfl, hdepth, nofun⟩

theorem forM {f g : α → Play Unit} {xs : List α} (h : ∀ a, Level limit depth (f a) (g a)) :
    Level limit depth (xs.forM f) (xs.forM g) := by
  induction xs with
  | nil => exact .pure ()
  | cons a rest ih =>
      rw [forM_cons, forM_cons]
      exact (h a).bind fun _ => ih

theorem repeatStep {x y : Play Bool} (h : Level limit depth x y) (n : Nat) :
    Level limit depth (repeatStep x n) (repeatStep y n) := by
  induction n with
  | zero => exact .pure 0
  | succ n ih =>
      refine h.bind ?_
      intro moved
      cases moved with
      | false => exact .pure 0
      | true => exact ih.bind fun count => .pure (count + 1)

/-- One level deeper is the next depth, and the way back leads here again. -/
theorem deeper {x y : Play Unit} (h : Level limit (depth + 1) x y) :
    Level limit depth (deeper x) (deeper y) := by
  intro m hm
  obtain ⟨hrun, hdepth, hlimit⟩ := h { m with cascadeDepth := m.cascadeDepth + 1 } (by rw [← hm])
  have hdeeper (step : Play Unit) : (CardArena.deeper step).run m =
      ((step.run { m with cascadeDepth := m.cascadeDepth + 1 }).1,
        (fun m => { m with cascadeDepth := m.cascadeDepth - 1 })
          (step.run { m with cascadeDepth := m.cascadeDepth + 1 }).2) :=
    run_finally step _ _
  rw [hdeeper, hdeeper, hrun]
  refine ⟨rfl, ?_, hlimit⟩
  show _ - 1 = depth
  omega

end Level

end Play

/-! ## The steps of the engine -/

section

variable {rules : Rulebook} {resolve resolve' : Resolver} {limit depth : Nat}
  (hres : ∀ firing, Level limit depth (resolve firing) (resolve' firing))

/-! ### Raising events and writing attributes -/

theorem playerAttribute_level (player : PlayerId) (attr : String) :
    Level limit depth (playerAttribute player attr) (playerAttribute player attr) := by
  refine .get_bind ?_
  intro m _
  cases m.table.player? player with
  | none => exact .throw trivial
  | some seat =>
      dsimp only
      cases seat.attributes.get? attr with
      | none => exact .throw trivial
      | some value => exact .pure value

theorem cardAttribute_level (card : LiveId) (attr : String) :
    Level limit depth (cardAttribute card attr) (cardAttribute card attr) := by
  refine .get_bind ?_
  intro m _
  cases m.table.live? card with
  | none => exact .throw trivial
  | some live =>
      dsimp only
      cases live.attributes.get? attr with
      | none => exact .throw trivial
      | some value => exact .pure value

include hres

theorem offer_level (source : LiveId) (effect : Effect) :
    Level limit depth (offer rules resolve source effect) (offer rules resolve' source effect) := by
  refine .get_bind fun _ _ => .ite (fun _ => .get_bind fun _ _ => ?_) fun _ => .pure ()
  exact .ite (fun _ => hres _) fun _ => .modify fun _ => rfl

theorem raise_level (event : Event) (source : LiveId) :
    Level limit depth (raise rules resolve event source) (raise rules resolve' event source) := by
  refine .get_bind ?_
  intro m _
  cases m.table.live? source with
  | none => exact .pure ()
  | some card => exact .forM (offer_level hres source)

theorem raiseTransition_level (direction : Direction) (zone : String) (card : LiveId) :
    Level limit depth (raiseTransition rules resolve direction zone card)
      (raiseTransition rules resolve' direction zone card) :=
  raise_level hres _ card

theorem raiseOnAll_level (event : Event) :
    Level limit depth (raiseOnAll rules resolve event) (raiseOnAll rules resolve' event) := by
  refine .get_bind fun m _ => .forM ?_
  intro card
  exact .get_bind fun _ _ => .ite (fun _ => raise_level hres event card) fun _ => .pure ()

theorem setPlayerAttribute_level (player : PlayerId) (attr : String) (value : Amount) :
    Level limit depth (setPlayerAttribute rules resolve player attr value)
      (setPlayerAttribute rules resolve' player attr value) := by
  refine (playerAttribute_level player attr).bind fun old => .modify_bind (fun _ => rfl) ?_
  cases Direction.between? old value with
  | none => exact .pure ()
  | some direction => exact raiseOnAll_level hres _

theorem setCardAttribute_level (card : LiveId) (attr : String) (value : Amount) :
    Level limit depth (setCardAttribute rules resolve card attr value)
      (setCardAttribute rules resolve' card attr value) := by
  refine (cardAttribute_level card attr).bind fun old => .modify_bind (fun _ => rfl) ?_
  have hcompare : Level limit depth
      (Comparison.all.forM fun op => raise rules resolve (.cardAttributeCompare op attr value) card)
      (Comparison.all.forM fun op => raise rules resolve' (.cardAttributeCompare op attr value) card) :=
    .forM fun op => raise_level hres _ card
  cases Direction.between? old value with
  | none => exact hcompare
  | some direction => exact (raise_level hres _ card).bind fun _ => hcompare

theorem changePlayerAttribute_level (player : PlayerId) (attr : String)
    (change : Amount → Amount) :
    Level limit depth (changePlayerAttribute rules resolve player attr change)
      (changePlayerAttribute rules resolve' player attr change) :=
  (playerAttribute_level player attr).bind fun _ => setPlayerAttribute_level hres player attr _

theorem changeCardAttribute_level (card : LiveId) (attr : String) (change : Amount → Amount) :
    Level limit depth (changeCardAttribute rules resolve card attr change)
      (changeCardAttribute rules resolve' card attr change) :=
  (cardAttribute_level card attr).bind fun _ => setCardAttribute_level hres card attr _

/-! ### Moving -/

theorem enterZone_level (owner : PlayerId) (design : CardId) (zone : String) :
    Level limit depth (enterZone rules resolve owner design zone)
      (enterZone rules resolve' owner design zone) := by
  rw [enterZone, enterZone]
  cases rules.catalog.typed? design with
  | none => exact .throw trivial
  | some found =>
      refine .get_bind fun m hm => .ite (fun _ => ?_) fun _ => .set_bind hm (.throw trivial)
      refine .set_bind hm (.modify_bind (fun _ => rfl) (.modify_bind (fun _ => rfl) ?_))
      exact (raiseTransition_level hres .enter zone _).bind fun _ => .pure _

omit hres in
theorem takeTop_level (player : PlayerId) (zone : String) :
    Level limit depth (takeTop player zone) (takeTop player zone) := by
  refine .get_bind ?_
  intro m _
  cases m.table.zone? player zone with
  | none => exact .pure none
  | some state =>
      dsimp only
      cases state.pile.popCard? with
      | none => exact .pure none
      | some top => exact .modify_bind (fun _ => rfl) (.pure _)

omit hres in
theorem topLive?_level (player : PlayerId) (zone : String) :
    Level limit depth (topLive? player zone) (topLive? player zone) :=
  .get_bind fun _ _ => .pure _

theorem moveTop_level (kinds : ZoneKind × ZoneKind) (player : PlayerId)
    (origin destination : String) :
    Level limit depth (moveTop rules resolve kinds player origin destination)
      (moveTop rules resolve' kinds player origin destination) := by
  obtain ⟨_ | _, _ | _⟩ := kinds
  case static.static =>
      refine (takeTop_level player origin).bind ?_
      intro top
      cases top with
      | none => exact .pure false
      | some card => exact .modify_bind (fun _ => rfl) (.pure true)
  case static.dynamic =>
      refine (takeTop_level player origin).bind ?_
      intro top
      cases top with
      | none => exact .pure false
      | some card =>
          exact (enterZone_level hres player card destination).discard.bind fun _ => .pure true
  case dynamic.static =>
      refine (topLive?_level player origin).bind ?_
      intro top
      cases top with
      | none => exact .pure false
      | some card =>
          refine (raiseTransition_level hres .leave origin card).bind fun _ => .get_bind ?_
          intro m hm
          refine .ite (fun _ => ?_) fun _ => .pure true
          have hpair : m.despawn card = (m.table.live? card, (m.despawn card).2) := rfl
          rw [hpair]
          cases m.table.live? card with
          | none => exact .set_bind hm (.pure true)
          | some removed => exact .set_bind hm (.pure true)
  case dynamic.dynamic =>
      refine (topLive?_level player origin).bind ?_
      intro top
      cases top with
      | none => exact .pure false
      | some card =>
          refine .modify_bind (fun _ => rfl) ((raiseTransition_level hres .leave origin card).bind ?_)
          intro _
          exact (raiseTransition_level hres .enter destination card).bind fun _ => .pure true

theorem moveCards_level (player : PlayerId) (origin destination : String) (count : Nat) :
    Level limit depth (moveCards rules resolve player origin destination count)
      (moveCards rules resolve' player origin destination count) := by
  refine .get_bind ?_
  intro m _
  cases m.table.player? player with
  | none => exact .throw trivial
  | some seat =>
      dsimp only
      cases seat.zone? origin <;> cases seat.zone? destination
      case some.some => exact (moveTop_level hres _ player origin destination).repeatStep _
      all_goals exact .throw trivial

/-! ### Dying and changing -/

theorem killFor_level (reason : DestructionReason) (card : LiveId) :
    Level limit depth (killFor rules resolve reason card)
      (killFor rules resolve' reason card) := by
  refine .get_bind fun m _ => .ite (fun _ => .pure ()) fun _ => ?_
  refine .modify_bind (fun _ => rfl) (.modify_bind (fun _ => rfl) (.get_bind ?_))
  intro m _
  cases m.table.locate? card with
  | none => exact .pure ()
  | some place => exact raiseTransition_level hres .leave place.2 card

theorem transform_level (card : LiveId) (into : String) :
    Level limit depth (transform rules resolve card into) (transform rules resolve' card into) := by
  refine .get_bind ?_
  intro m _
  cases m.table.locate? card with
  | none => exact .pure none
  | some place =>
      obtain ⟨owner, zone⟩ := place
      dsimp only
      cases rules.catalog.cardNamed? into with
      | none => exact .throw trivial
      | some design =>
          dsimp only
          cases rules.catalog.cardType? design.cardType with
          | none => exact .throw trivial
          | some cardType =>
              refine .modify_bind (fun _ => rfl) ((raiseTransition_level hres .leave zone card).bind ?_)
              intro _
              refine .get_bind fun m hm => .set_bind hm (.modify_bind (fun _ => rfl) ?_)
              refine .modify_bind (fun _ => rfl) (.modify_bind (fun _ => rfl) ?_)
              exact (raiseTransition_level hres .enter zone _).bind fun _ => .pure _

theorem createToken_level (owner : PlayerId) (name : String) :
    Level limit depth (createToken rules resolve owner name)
      (createToken rules resolve' owner name) := by
  rw [createToken, createToken]
  cases rules.catalog.cardNamed? name with
  | none => exact .throw trivial
  | some design => exact enterZone_level hres owner design.id _

/-! ### Effects -/

theorem applyPlayerAction_level (action : PlayerAction) (magnitude : Amount)
    (player : PlayerId) :
    Level limit depth (applyPlayerAction rules resolve action magnitude player)
      (applyPlayerAction rules resolve' action magnitude player) := by
  cases action with
  | increaseAttribute attr => exact changePlayerAttribute_level hres player attr _
  | decreaseAttribute attr => exact changePlayerAttribute_level hres player attr _
  | setAttribute attr => exact setPlayerAttribute_level hres player attr magnitude
  | moveCards origin destination => exact (moveCards_level hres player origin destination _).discard

theorem applyCardAction_level (action : CardAction) (magnitude : Amount) (card : LiveId) :
    Level limit depth (applyCardAction rules resolve action magnitude card)
      (applyCardAction rules resolve' action magnitude card) := by
  refine .get_bind fun m _ => .ite (fun _ => ?_) fun _ => .pure ()
  cases action with
  | addCounter attr => exact changeCardAttribute_level hres card attr _
  | removeCounter attr => exact changeCardAttribute_level hres card attr _
  | setAttribute attr => exact setCardAttribute_level hres card attr magnitude
  | kill => exact killFor_level hres .killed card
  | transform into => exact (transform_level hres card into).discard

theorem finishEffect_level (source : LiveId) :
    Level limit depth (finishEffect rules resolve source) (finishEffect rules resolve' source) := by
  refine .get_bind fun m _ => .ite (fun _ => ?_) fun _ => .modify fun _ => rfl
  exact (killFor_level hres .afterEffect source).bind fun _ => .modify fun _ => rfl

omit hres in
theorem askForTarget_level (kind : TargetKind) (firing : Firing) :
    Level limit depth (askForTarget rules kind firing) (askForTarget rules kind firing) := by
  refine .get_bind ?_
  intro m hm
  cases m.table.activePlayer? with
  | none => exact .pure ()
  | some chooser =>
      refine .ite (fun _ => .set_bind hm ?_) fun _ => .pure ()
      exact .modify fun m => m.cascadeDepth_tell _ _

/-- **An effect asks for what it sets off at its own depth.** -/
theorem resolveEffect_level (firing : Firing) :
    Level limit depth (resolveEffect rules resolve firing)
      (resolveEffect rules resolve' firing) := by
  rw [resolveEffect, resolveEffect]
  cases rules.catalog.rule? firing.effect.definition with
  | none => exact .throw trivial
  | some rule =>
      dsimp only
      have hfinish : Level limit depth (finishEffect rules resolve firing.source)
        (finishEffect rules resolve' firing.source) := finishEffect_level hres firing.source
      cases rule.kind with
      | permanent => exact .pure ()
      | general action =>
          cases action with
          | createToken name =>
              refine .get_bind ?_
              intro m _
              cases m.table.live? firing.source with
              | none => exact .pure ()
              | some card => exact (createToken_level hres card.owner name).discard.bind fun _ => hfinish
      | targetsPlayer action =>
          cases firing.effect.target with
          | player target =>
              refine .ite (fun _ => askForTarget_level .player firing) fun _ => ?_
              refine .modifyGet_bind (·.cascadeDepth_roll _) fun magnitude =>
                .modifyGet_bind (·.cascadeDepth_automaticPlayers _ _) fun players => ?_
              exact Level.bind (.forM (applyPlayerAction_level hres action magnitude)) fun _ => hfinish
          | _ => exact .pure ()
      | targetsCard action cardType =>
          cases firing.effect.target with
          | card target =>
              refine .ite (fun _ => askForTarget_level .card firing) fun _ => ?_
              refine .modifyGet_bind (·.cascadeDepth_roll _) fun magnitude =>
                .modifyGet_bind (·.cascadeDepth_automaticCards _ _ _ _) fun cards => ?_
              exact Level.bind (.forM (applyCardAction_level hres action magnitude)) fun _ => hfinish
          | _ => exact .pure ()

/-! ### Answers -/

theorem drain_level (count : Nat) :
    Level limit depth (drain resolve count) (drain resolve' count) := by
  induction count with
  | zero => exact .pure ()
  | succ count ih =>
      refine .get_bind ?_
      intro m _
      cases m.session.next? with
      | none => exact .pure ()
      | some taken =>
          refine .modify_bind (fun _ => rfl) (.get_bind fun m _ => .ite (fun _ => ?_) fun _ => ih)
          exact (hres taken.1).bind fun _ => ih

theorem resolveChosen_level (selection : Selection) (choice : TargetChoice) :
    Level limit depth (resolveChosen rules resolve selection choice)
      (resolveChosen rules resolve' selection choice) := by
  rw [resolveChosen, resolveChosen]
  cases rules.catalog.rule? selection.effect.definition with
  | none => exact .throw trivial
  | some rule =>
      dsimp only
      refine .modifyGet_bind (·.cascadeDepth_roll _) fun magnitude => ?_
      have hfinish : Level limit depth (finishEffect rules resolve selection.source)
        (finishEffect rules resolve' selection.source) := finishEffect_level hres selection.source
      cases rule.kind with
      | targetsPlayer action =>
          cases choice with
          | player id => exact (applyPlayerAction_level hres action magnitude id).bind fun _ => hfinish
          | card id => exact hfinish
      | targetsCard action cardType =>
          cases choice with
          | player id => exact hfinish
          | card id => exact (applyCardAction_level hres action magnitude id).bind fun _ => hfinish
      | _ => exact hfinish

theorem selectTarget_level (player : PlayerId) (choice : TargetChoice) :
    Level limit depth (selectTarget rules resolve player choice)
      (selectTarget rules resolve' player choice) := by
  refine .get_bind ?_
  intro m _
  cases m.session.pending with
  | none => exact .pure _
  | some selection =>
      refine .ite (fun _ => .pure _) fun _ => .ite (fun _ => ?_) fun _ => ?_
      · exact .modify_bind (·.cascadeDepth_tell _ _) (.pure _)
      · refine .modify_bind (fun _ => rfl) ((resolveChosen_level hres selection choice).bind ?_)
        intro _
        exact Level.bind (.get_bind fun m _ => drain_level hres _) fun _ => .pure _

/-! ### Cards from hand -/

theorem requestMove_level (player : PlayerId) (origin destination : String) (count : Nat) :
    Level limit depth (requestMove rules resolve player origin destination count)
      (requestMove rules resolve' player origin destination count) := by
  refine .get_bind ?_
  intro m _
  cases m.table.refusal? player with
  | some reason => exact .pure _
  | none =>
      refine .ite (fun _ => .pure _) fun _ => ?_
      refine (moveCards_level hres player origin destination count).discard.bind fun _ => ?_
      exact .modify_bind (fun _ => rfl) (.pure _)

theorem putIntoPlay_level (player : PlayerId) (design : CardDesign) :
    Level limit depth (putIntoPlay rules resolve player design)
      (putIntoPlay rules resolve' player design) :=
  (enterZone_level hres player design.id _).bind fun _ =>
    .modify_bind (fun _ => rfl) (raiseOnAll_level hres _)

theorem playCard_level (player : PlayerId) (card : CardId) :
    Level limit depth (playCard rules resolve player card)
      (playCard rules resolve' player card) := by
  refine .get_bind ?_
  intro m _
  cases m.table.refusal? player with
  | some reason => exact .pure _
  | none =>
      refine .ite (fun _ => .pure _) fun _ => ?_
      cases rules.catalog.card? card with
      | none => exact .throw trivial
      | some design =>
          refine .ite (fun _ => .pure _) fun _ => .modify_bind (fun _ => rfl) ?_
          have hcosts : Level limit depth (payCosts rules resolve player design.costs)
              (payCosts rules resolve' player design.costs) :=
            .forM fun cost => changePlayerAttribute_level hres player cost.attr _
          refine hcosts.bind fun _ => (putIntoPlay_level hres player design).bind fun _ => ?_
          exact .modify_bind (fun _ => rfl) (.pure _)

/-! ### Turns -/

theorem runAllScheduled_level (actions : List ScheduledAction) :
    Level limit depth (runAllScheduled rules resolve actions)
      (runAllScheduled rules resolve' actions) := by
  refine .forM fun scheduled => .get_bind fun m _ => .forM fun player => .attempt ?_
  unfold runGameAction
  cases scheduled.action with
  | increaseAttribute attr value => exact changePlayerAttribute_level hres player attr _
  | decreaseAttribute attr value => exact changePlayerAttribute_level hres player attr _
  | setAttribute attr value => exact setPlayerAttribute_level hres player attr value
  | moveCards origin destination count =>
      exact (moveCards_level hres player origin destination _).discard
  | shuffleZone zone => exact .modify (·.cascadeDepth_shuffleZone player zone)

theorem countTurn_level (card : LiveId) :
    Level limit depth (countTurn rules resolve card) (countTurn rules resolve' card) := by
  refine .get_bind ?_
  intro m _
  cases m.table.live? card with
  | none => exact .pure ()
  | some live =>
      refine .ite (fun _ => .modify_bind (fun _ => rfl) ?_) fun _ => .pure ()
      exact .attempt (raise_level hres _ card)

theorem startTurn_level (now : Nat) :
    Level limit depth (startTurn rules resolve now) (startTurn rules resolve' now) := by
  refine .modify_bind (fun _ => rfl) (.get_bind ?_)
  intro m _
  cases m.table.activePlayer? with
  | none => exact .pure ()
  | some active =>
      refine (runAllScheduled_level hres _).bind fun _ => ?_
      refine Level.bind (.attempt (raiseOnAll_level hres _)) fun _ => .get_bind fun m _ => ?_
      refine Level.bind (.forM (countTurn_level hres)) fun _ => ?_
      exact .modify_bind (fun _ => rfl) (.modify fun _ => rfl)

theorem startGame_level (now : Nat) :
    Level limit depth (startGame rules resolve now) (startGame rules resolve' now) := by
  refine .get_bind fun m _ => .ite (fun _ => .pure ()) fun _ => .ite (fun _ => .throw trivial) fun _ => ?_
  refine .modify_bind (fun _ => rfl) ((runAllScheduled_level hres _).bind fun _ => ?_)
  exact .modify_bind (fun _ => rfl) (startTurn_level hres now)

theorem endTurn_level (now : Nat) :
    Level limit depth (endTurn rules resolve now) (endTurn rules resolve' now) := by
  refine .get_bind ?_
  intro m _
  dsimp only
  cases m.table.activePlayer? with
  | none => exact .throw trivial
  | some active =>
      refine .modify_bind (fun _ => rfl) ?_
      refine .modify_bind (fun m => Match.cascadeDepth_destroyAll _ _ _) ?_
      refine .modify_bind (fun m => m.cascadeDepth_discardRandom rules active _) ?_
      refine (runAllScheduled_level hres _).bind fun _ => ?_
      refine Level.bind (.attempt (raiseOnAll_level hres _)) fun _ => ?_
      refine .modify_bind (fun m => Match.cascadeDepth_destroyAll _ _ _) ?_
      refine .modify_bind (fun _ => rfl) (.modify_bind (fun _ => rfl) (.modify_bind (fun _ => rfl) ?_))
      exact .get_bind fun m _ => .ite (fun _ => startTurn_level hres now) fun _ => .pure ()

theorem stopTurn_level (player : PlayerId) (now : Nat) :
    Level limit depth (stopTurn rules resolve player now)
      (stopTurn rules resolve' player now) := by
  refine .get_bind ?_
  intro m _
  cases m.table.refusal? player with
  | some reason => exact .pure _
  | none =>
      refine .ite (fun _ => .pure _) fun _ => .ite (fun _ => .modify_bind (fun _ => rfl) ?_) fun _ => ?_
      · exact .modify_bind (·.cascadeDepth_tell _ _) (.pure _)
      · exact (endTurn_level hres now).bind fun _ => .pure _

theorem discardCards_level (player : PlayerId) (cards : List CardId) (now : Nat) :
    Level limit depth (discardCards rules resolve player cards now)
      (discardCards rules resolve' player cards now) := by
  refine .get_bind ?_
  intro m _
  cases m.debt with
  | none => exact .pure _
  | some debt =>
      refine .ite (fun _ => .pure _) fun _ => .ite (fun _ => ?_) fun _ => ?_
      · exact .modify_bind (·.cascadeDepth_tell _ _) (.pure _)
      · refine .modify_bind (·.cascadeDepth_discardAll rules player cards) ?_
        exact .modify_bind (fun _ => rfl) ((endTurn_level hres now).bind fun _ => .pure _)

/-! ### Operations -/

omit hres in
theorem registerPlayer_level (name : String) (connection : ConnectionId) (deck : List CardId) :
    Level limit depth (registerPlayer rules name connection deck)
      (registerPlayer rules name connection deck) := by
  refine .get_bind fun m _ => .ite (fun _ => .throw trivial) fun _ => .ite (fun _ => .throw trivial) ?_
  intro _
  cases deck.find? fun card => (rules.catalog.card? card).isNone with
  | some unknown => exact .throw trivial
  | none =>
      refine .ite (fun _ => .throw trivial) fun _ => .ite (fun _ => .throw trivial) fun _ => ?_
      exact .modify_bind (fun _ => rfl) (.modify_bind (fun _ => rfl) (.pure _))

theorem handleIntent_level (player : PlayerId) (intent : Intent) (now : Nat) :
    Level limit depth (handleIntent rules resolve player intent now)
      (handleIntent rules resolve' player intent now) := by
  cases intent with
  | register name deck => exact .pure _
  | playCard card => exact playCard_level hres player card
  | stopTurn => exact stopTurn_level hres player now
  | moveCards origin destination count => exact requestMove_level hres player origin destination _
  | selectTarget choice => exact selectTarget_level hres player choice
  | discardCards cards => exact discardCards_level hres player cards now

/-- **An operation asks for what it sets off at the depth at which it is done.** -/
theorem performWith_level (op : Operation) :
    Level limit depth (performWith rules resolve op) (performWith rules resolve' op) := by
  have hdone {step step' : Play Unit} (h : Level limit depth step step') :
      Level limit depth (thenDone step) (thenDone step') := h.bind fun _ => .pure _
  cases op with
  | register name connection deck => exact (registerPlayer_level name connection deck).map _
  | start now => exact hdone (startGame_level hres now)
  | endTurn now => exact hdone (endTurn_level hres now)
  | tick now =>
      refine Level.map (.get_bind fun m _ => .ite (fun _ => ?_) fun _ => .pure _) _
      exact (endTurn_level hres now).bind fun _ => .pure _
  | stopTurn player now => exact (stopTurn_level hres player now).map _
  | discardCards player cards now => exact (discardCards_level hres player cards now).map _
  | requestMove player origin destination count =>
      exact (requestMove_level hres player origin destination count).map _
  | playCard player card => exact (playCard_level hres player card).map _
  | selectTarget player choice => exact (selectTarget_level hres player choice).map _
  | intent player intent now => exact (handleIntent_level hres player intent now).map _
  | endGame winner =>
      refine hdone (.get_bind fun m _ => .ite (fun _ => .modify_bind (fun _ => rfl) ?_) fun _ => .pure ())
      exact .modify fun _ => rfl
  | disconnect player => exact hdone (.modify fun _ => rfl)
  | moveCards player origin destination count =>
      exact (moveCards_level hres player origin destination count).map _
  | kill card => exact hdone (killFor_level hres .killed card)
  | transform card into => exact (transform_level hres card into).map _
  | attack card =>
      refine hdone (.get_bind fun m _ => .ite (fun _ => .throw trivial) fun _ => ?_)
      exact (raise_level hres _ card).bind fun _ => .modify fun _ => rfl
  | setPlayerAttribute player attr value =>
      exact hdone (setPlayerAttribute_level hres player attr value)
  | setCardAttribute card attr value => exact hdone (setCardAttribute_level hres card attr value)

end

/-! ## The recursion -/

namespace Rulebook

variable (rules : Rulebook)

/-- How many firings may be nested. -/
def depthLimit : Nat :=
  rules.config.maxCascadeDepth.toNat

/-- One round of the recursion: a firing that is not too deep goes one level deeper and does its
effect, with `resolve` for what that sets off.  The alarm goes off if that is below the limit. -/
def round (alarm resolve : Resolver) : Resolver := fun firing => do
  let depth := (← get).cascadeDepth
  if rules.depthLimit ≤ depth then
    throw (.cascadeLimitExceeded depth)
  else
    deeper do
      if rules.depthLimit < (← get).cascadeDepth then
        alarm firing
      else
        resolveEffect rules resolve firing

/-- So many rounds of the recursion, and anything at all after the last. -/
def unfolded (alarm bottom : Resolver) : Nat → Resolver
  | 0 => bottom
  | rounds + 1 => rules.round alarm (unfolded alarm bottom rounds)

end Rulebook

section

variable {rules : Rulebook} {depth : Nat} {resolve resolve' alarm alarm' bottom : Resolver}

/-- A round at a depth asks for firings one level deeper, and never goes below the limit. -/
theorem round_level (hdepth : depth ≤ rules.depthLimit)
    (hres : depth < rules.depthLimit →
      ∀ firing, Level rules.depthLimit (depth + 1) (resolve firing) (resolve' firing))
    (firing : Firing) :
    Level rules.depthLimit depth (rules.round alarm resolve firing)
      (rules.round alarm' resolve' firing) := by
  refine .get_bind ?_
  intro m hm
  refine .ite (fun hfull => .throw ?_) fun hroom => .deeper (.get_bind ?_)
  · show m.cascadeDepth = rules.depthLimit
    omega
  · intro m₁ hm₁
    have hwithin : ¬ rules.depthLimit < m₁.cascadeDepth := by omega
    rw [if_neg hwithin, if_neg hwithin]
    exact resolveEffect_level (hres (by omega)) firing

/-- A resolver with just the room that is left comes back to its depth. -/
theorem resolveFiring_level (room : Nat) (hroom : room + depth = rules.depthLimit)
    (firing : Firing) :
    Level rules.depthLimit depth (resolveFiring rules room firing)
      (resolveFiring rules room firing) := by
  induction room generalizing depth firing with
  | zero =>
      refine .get_bind fun m hm => .throw ?_
      show m.cascadeDepth = rules.depthLimit
      omega
  | succ room ih => exact .deeper (resolveEffect_level (ih (by omega)) firing)

/-- The resolver there is takes the room that is left. -/
theorem resolver_level (hdepth : depth ≤ rules.depthLimit) (firing : Firing) :
    Level rules.depthLimit depth (resolveFiring rules (rules.depthLimit - depth) firing)
      (rules.resolver firing) := by
  intro m hm
  have hrun : (rules.resolver firing).run m
      = (resolveFiring rules (rules.depthLimit - depth) firing).run m := by
    rw [← hm]
    rfl
  rw [hrun]
  exact resolveFiring_level _ (by omega) firing m hm

/-- **The resolver is the recursion**: each firing is one round of it. -/
theorem resolver_round (alarm : Resolver) (firing : Firing) (m : Match) :
    (rules.resolver firing).run m = (rules.round alarm rules.resolver firing).run m := by
  have hresolver : (rules.resolver firing).run m
      = (resolveFiring rules (rules.depthLimit - m.cascadeDepth) firing).run m := rfl
  rw [hresolver, Rulebook.round, run_get_bind]
  by_cases hfull : rules.depthLimit ≤ m.cascadeDepth
  · rw [if_pos hfull, Nat.sub_eq_zero_of_le hfull]
    rfl
  · obtain ⟨room, hroom⟩ : ∃ room, rules.depthLimit - m.cascadeDepth = room + 1 :=
      ⟨rules.depthLimit - m.cascadeDepth - 1, by omega⟩
    rw [if_neg hfull, hroom, resolveFiring]
    have hbelow : ∀ firing, Level rules.depthLimit (m.cascadeDepth + 1)
        (resolveFiring rules room firing) (rules.resolver firing) := by
      intro firing
      obtain rfl : rules.depthLimit - (m.cascadeDepth + 1) = room := by omega
      exact resolver_level (by omega) firing
    have hlevel : Level rules.depthLimit m.cascadeDepth
        (deeper (resolveEffect rules (resolveFiring rules room) firing))
        (deeper do
          if rules.depthLimit < (← get).cascadeDepth then alarm firing
          else resolveEffect rules rules.resolver firing) := by
      refine .deeper ?_
      intro m₁ hm₁
      rw [run_get_bind, if_neg (by omega)]
      exact resolveEffect_level hbelow firing m₁ hm₁
    exact (hlevel m rfl).1

/-- **After one round more than there are levels left nobody gets.** -/
theorem unfolded_level (rounds : Nat) (hdepth : depth ≤ rules.depthLimit)
    (hrounds : rules.depthLimit - depth < rounds) (firing : Firing) :
    Level rules.depthLimit depth (rules.unfolded alarm bottom rounds firing)
      (rules.resolver firing) := by
  induction rounds generalizing depth firing with
  | zero => omega
  | succ rounds ih =>
      intro m hm
      rw [resolver_round alarm]
      exact round_level hdepth (fun hroom => ih hroom (by omega)) firing m hm

/-- No cascade is under way between operations. -/
theorem Reachable.cascadeDepth {m : Match} (h : Reachable rules m) : m.cascadeDepth = 0 := by
  induction h with
  | opening handle dice => rfl
  | perform op _ ih =>
      have hres : ∀ firing, Level rules.depthLimit 0 (rules.resolver firing) (rules.resolver firing) :=
        fun firing => (resolver_level (Nat.zero_le _) firing).right
      exact (performWith_level hres op _ ih).2.1

end

/-- **Every cascade ends, no deeper than it may, and leaves no trace of its depth.**

The match has come about by any operations with any answers, for any settings, and the rules may set
each other off in circles. -/
theorem cascades_bounded {rules : Rulebook} {m : Match} (hc : rules.catalog.Accepted)
    (h : Reachable rules m) (op : Operation) :
    -- No cascade is under way before or after an operation, whatever it answers, and if it was cut
    -- off the answer names the limit.
    (m.cascadeDepth = 0 ∧ (m.perform rules op).2.cascadeDepth = 0 ∧
      ∀ depth, (m.perform rules op).1 = .error (.cascadeLimitExceeded depth) →
        depth = rules.depthLimit) ∧
    -- Nor does it matter what would be done below the limit, or by the recursion if it went round
    -- more often than there are levels: the operation never gets there.
    (∀ alarm bottom rounds, rules.depthLimit < rounds →
      (performWith rules (rules.unfolded alarm bottom rounds) op).run m = m.perform rules op) ∧
    -- So it is with each firing on the way.  It is one round of the recursion; it takes at most as many
    -- more as there are levels left; and it comes back to its depth, or is cut off at the limit.
    (∀ firing m', m'.cascadeDepth ≤ rules.depthLimit →
      (∀ alarm, (rules.resolver firing).run m'
        = (rules.round alarm rules.resolver firing).run m') ∧
      (∀ alarm bottom rounds, rules.depthLimit - m'.cascadeDepth < rounds →
        (rules.unfolded alarm bottom rounds firing).run m' = (rules.resolver firing).run m') ∧
      ((rules.resolver firing).run m').2.cascadeDepth = m'.cascadeDepth ∧
      ∀ depth, ((rules.resolver firing).run m').1 = .error (.cascadeLimitExceeded depth) →
        depth = rules.depthLimit) ∧
    -- And an answer is done with the line: there are no more firings to do than stand in it.
    ∀ m' count, m'.Conforms rules.catalog → m'.session.queue.length ≤ count →
      (drain rules.resolver count).run m' = (drainQueue rules.resolver).run m' := by
  have hunfolded : ∀ alarm bottom rounds, rules.depthLimit < rounds →
      Level rules.depthLimit 0 (performWith rules (rules.unfolded alarm bottom rounds) op)
        (performWith rules rules.resolver op) := by
    intro alarm bottom rounds hrounds
    exact performWith_level (unfolded_level rounds (Nat.zero_le _) (by omega)) op
  have hstart := h.cascadeDepth
  obtain ⟨-, hend, hlimit⟩ :=
    hunfolded rules.resolver rules.resolver _ (Nat.lt_succ_self _) m hstart
  refine ⟨⟨hstart, hend, fun depth => hlimit (.cascadeLimitExceeded depth)⟩, ?_, ?_, ?_⟩
  · intro alarm bottom rounds hrounds
    exact (hunfolded alarm bottom rounds hrounds m hstart).1
  · intro firing m' hdepth
    obtain ⟨-, hback, hcut⟩ := resolver_level hdepth firing m' rfl
    refine ⟨fun alarm => resolver_round alarm firing m', ?_, hback,
      fun depth => hcut (.cascadeLimitExceeded depth)⟩
    intro alarm bottom rounds hrounds
    exact (unfolded_level rounds hdepth hrounds firing m' rfl).1
  · intro m' count hm' hcount
    obtain ⟨extra, rfl⟩ := Nat.exists_eq_add_of_le hcount
    exact drain_add hc.coherent (resolver_resolves_all hc.coherent) _ extra ⟨hm', rfl⟩ fun _ => le_rfl

namespace Duel

/-- Every card hits the active player when anybody is hit. -/
def echo : Effect :=
  { definition := "Hit", trigger := .playerAttributeDelta .decrease "Life" .anyPlayer,
    target := .player .currentPlayer, magnitude := some (.fixed 1) }

/-- The duel of cards that echo each other, three times at most. -/
def echoing : Rulebook where
  catalog := { book.catalog with cardTypes := [{ name := "Creature", effects := [echo] }] }
  config := { maxCascadeDepth := 3 }

theorem accepted_echoing : echoing.catalog.Accepted :=
  accepted_of_checks (d := { draft with cardTypes := echoing.catalog.cardTypes }) rfl
    (by decide +kernel) (by decide +kernel)

/-- A wolf that echoes itself is in play. -/
def hushed : Match :=
  after echoing (deal ++ [.playCard ⟨0⟩ ⟨1⟩])

/-- Ann is hit, and by three echoes more; then the cascade is cut off, in the middle of the fourth
round of the recursion. -/
theorem bounded_echoes :
    echoing.catalog.Accepted ∧ Reachable echoing hushed ∧
    (hushed.perform echoing (.setPlayerAttribute ⟨0⟩ "Life" 10)).1
      = .error (.cascadeLimitExceeded 3) ∧
    (hushed.perform echoing (.setPlayerAttribute ⟨0⟩ "Life" 10)).2.cascadeDepth = 0 ∧
    (performWith echoing (echoing.unfolded (fun _ => throw .noPlayers) (fun _ => throw .noPlayers) 4)
      (.setPlayerAttribute ⟨0⟩ "Life" 10)).run hushed
        = hushed.perform echoing (.setPlayerAttribute ⟨0⟩ "Life" 10) ∧
    echoing.depthLimit = 3 := by
  have hreach : Reachable echoing hushed := reachable_after ..
  have hfault : (hushed.perform echoing (.setPlayerAttribute ⟨0⟩ "Life" 10)).1
      = .error (.cascadeLimitExceeded 3) := by decide +kernel
  obtain ⟨⟨-, hend, hlimit⟩, hrounds, -⟩ :=
    cascades_bounded accepted_echoing hreach (.setPlayerAttribute ⟨0⟩ "Life" 10)
  exact ⟨accepted_echoing, hreach, hfault, hend, hrounds _ _ 4 (by decide), (hlimit 3 hfault).symm⟩

end Duel

end CardArena
