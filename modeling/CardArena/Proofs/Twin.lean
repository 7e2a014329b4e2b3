import Mathlib
import CardArena.Proofs.Moves
import CardArena.Proofs.Muted

/-!
# Two runs side by side

While a question is open nothing fires: whatever would, waits in line.  So a step on a match with an
open question does what the same step does in the muted game, where nothing listens at all, and the
two matches that come about differ in the line behind the question and in nothing else.

`Twin x y line m` says so of two steps, `x` of the game and `y` of the muted one, where `x` starts
with some more firings in line than `y`.  The resolvers of the two games never come into it: they
are asked for nothing while a question is open.  Like `Leads`, `Twin` is closed under everything that
steps are built with, and there is one law for each step of the engine that an operation may take
before it answers the question or ends the turn.
-/

namespace CardArena

/-- The match with more firings in line. -/
def Match.behind (m : Match) (line : List Firing) : Match :=
  { m with session := { m.session with queue := m.session.queue ++ line } }

namespace Match

variable (m : Match) (line : List Firing)

@[simp]
theorem table_behind : (m.behind line).table = m.table := rfl

@[simp]
theorem destructions_behind : (m.behind line).destructions = m.destructions := rfl

@[simp]
theorem pending_behind : (m.behind line).session.pending = m.session.pending := rfl

end Match

namespace Play

/-- While a question is open, `x` ends from behind the line as `y` ends, behind a line of its own,
and `y` leaves question and line as they are. -/
def Twin (x y : Play α) (line : List Firing) (m : Match) : Prop :=
  m.session.pending.isSome →
    ∃ line', x.run (m.behind line) = ((y.run m).1, (y.run m).2.behind line') ∧
      (y.run m).2.session = m.session

namespace Twin

variable {line : List Firing} {m : Match}

theorem pure (a : α) : Twin (pure a : Play α) (pure a) line m :=
  fun _ => ⟨line, rfl, rfl⟩

theorem throw (f : Fault) : Twin (throw f : Play α) (throw f) line m :=
  fun _ => ⟨line, rfl, rfl⟩

theorem bind {x y : Play α} {k k' : α → Play β} (hx : Twin x y line m)
    (hk : ∀ a line m, Twin (k a) (k' a) line m) : Twin (x >>= k) (y >>= k') line m := by
  intro hpending
  obtain ⟨line₁, hrun, hsession⟩ := hx hpending
  rcases hy : y.run m with ⟨f | a, m₁⟩ <;> rw [hy] at hrun hsession
  · refine ⟨line₁, ?_, ?_⟩ <;> rw [run_bind_error hy]
    · exact run_bind_error hrun k
    · exact hsession
  · obtain ⟨line₂, hrun₂, hsession₂⟩ := hk a line₁ m₁ (by rw [hsession]; exact hpending)
    refine ⟨line₂, ?_, ?_⟩ <;> rw [run_bind_ok hy]
    · exact (run_bind_ok hrun k).trans hrun₂
    · exact hsession₂.trans hsession

theorem get_bind {k k' : Match → Play β} (h : Twin (k (m.behind line)) (k' m) line m) :
    Twin (get >>= k) (get >>= k') line m :=
  h

theorem set_bind {m₁ m₂ : Match} {k k' : Unit → Play β} (heq : m₁ = m₂.behind line)
    (hsession : m₂.session = m.session) (h : Twin (k ()) (k' ()) line m₂) :
    Twin (set m₁ >>= k) (set m₂ >>= k') line m := by
  intro hpending
  obtain ⟨line', hrun, hs⟩ := h (by rw [hsession]; exact hpending)
  exact ⟨line', heq ▸ hrun, hs.trans hsession⟩

theorem modify_bind {f g : Match → Match} {k k' : Unit → Play β}
    (heq : f (m.behind line) = (g m).behind line) (hsession : (g m).session = m.session)
    (h : Twin (k ()) (k' ()) line (g m)) :
    Twin (modify f >>= k) (modify g >>= k') line m := by
  intro hpending
  obtain ⟨line', hrun, hs⟩ := h (by rw [hsession]; exact hpending)
  exact ⟨line', by rw [run_modify_bind, run_modify_bind, heq, hrun], hs.trans hsession⟩

theorem modify {f g : Match → Match} (heq : f (m.behind line) = (g m).behind line)
    (hsession : (g m).session = m.session) : Twin (modify f : Play Unit) (modify g) line m :=
  fun _ => ⟨line, by rw [run_modify, run_modify, heq], hsession⟩

theorem ite {p : Prop} [Decidable p] {x x' y y' : Play α} (hpos : p → Twin x y line m)
    (hneg : ¬ p → Twin x' y' line m) :
    Twin (if p then x else x') (if p then y else y') line m := by
  by_cases hp : p
  · rw [if_pos hp, if_pos hp]
    exact hpos hp
  · rw [if_neg hp, if_neg hp]
    exact hneg hp

theorem map {x y : Play α} (h : Twin x y line m) (f : α → β) :
    Twin (f <$> x) (f <$> y) line m := by
  intro hpending
  obtain ⟨line', hrun, hsession⟩ := h hpending
  refine ⟨line', ?_, ?_⟩ <;> simp only [run_map]
  · rw [hrun]
  · exact hsession

theorem discard {x y : Play α} (h : Twin x y line m) : Twin (discard x) (discard y) line m :=
  h.map _

theorem forM {f g : α → Play Unit} {xs : List α} (h : ∀ a line m, Twin (f a) (g a) line m) :
    Twin (xs.forM f) (xs.forM g) line m := by
  induction xs generalizing line m with
  | nil => exact .pure ()
  | cons a rest ih =>
      rw [forM_cons, forM_cons]
      exact (h a line m).bind fun _ _ _ => ih

/-- Steps that do nothing but join the line do nothing where there is nothing to join. -/
theorem forM_pure {f : α → Play Unit} {xs : List α}
    (h : ∀ a line m, Twin (f a) (Pure.pure ()) line m) :
    Twin (xs.forM f) (Pure.pure ()) line m := by
  induction xs generalizing line m with
  | nil => exact .pure ()
  | cons a rest ih =>
      rw [forM_cons, ← pure_bind () fun _ => (Pure.pure () : Play Unit)]
      exact (h a line m).bind fun _ _ _ => ih

end Twin

end Play

open Play

variable {rules : Rulebook} {resolve resolve' : Resolver} {line : List Firing} {m : Match}

/-! ## Raising events -/

/-- An effect that may fire joins the line. -/
theorem offer_twin (source : LiveId) (effect : Effect) :
    Twin (offer rules resolve source effect) (pure ()) line m := by
  intro hpending
  have hbusy : (m.behind line).session.isIdle = false := by
    rw [Session.isIdle, Match.pending_behind, Option.isNone_eq_false_iff]
    exact hpending
  rw [offer, run_get_bind, Match.table_behind]
  by_cases hfire : effect.canFire rules.catalog m.table source = true
  · refine ⟨line ++ [⟨effect, source⟩], ?_, rfl⟩
    rw [if_pos hfire, dispatch, run_get_bind, hbusy]
    simp [Match.behind, Session.enqueue]
  · refine ⟨line, ?_, rfl⟩
    rw [if_neg hfire]
    rfl

theorem raise_twin (event : Event) (source : LiveId) :
    Twin (raise rules resolve event source) (raise rules.muted resolve' event source) line m := by
  refine .get_bind ?_
  dsimp only [Match.table_behind]
  cases m.table.live? source with
  | none => exact .pure ()
  | some card =>
      dsimp only
      rw [Rulebook.catalog_muted, Catalog.listeners_muted]
      exact .forM_pure fun effect _ _ => offer_twin source effect

theorem raiseTransition_twin (direction : Direction) (zone : String) (card : LiveId) :
    Twin (raiseTransition rules resolve direction zone card)
      (raiseTransition rules.muted resolve' direction zone card) line m :=
  raise_twin _ card

theorem raiseIfAlive_twin (event : Event) (card : LiveId) :
    Twin (raiseIfAlive rules resolve event card) (raiseIfAlive rules.muted resolve' event card)
      line m := by
  refine .get_bind ?_
  dsimp only [Match.table_behind]
  exact .ite (fun _ => raise_twin event card) fun _ => .pure ()

theorem raiseOnAll_twin (event : Event) :
    Twin (raiseOnAll rules resolve event) (raiseOnAll rules.muted resolve' event) line m :=
  .get_bind <| .forM fun card _ _ => raiseIfAlive_twin event card

/-! ## Writing attributes -/

theorem playerAttribute_twin (player : PlayerId) (attr : String) :
    Twin (playerAttribute player attr) (playerAttribute player attr) line m := by
  refine .get_bind ?_
  dsimp only [Match.table_behind]
  cases m.table.player? player with
  | none => exact .throw _
  | some seat =>
      dsimp only
      cases seat.attributes.get? attr with
      | none => exact .throw _
      | some value => exact .pure value

theorem cardAttribute_twin (card : LiveId) (attr : String) :
    Twin (cardAttribute card attr) (cardAttribute card attr) line m := by
  refine .get_bind ?_
  dsimp only [Match.table_behind]
  cases m.table.live? card with
  | none => exact .throw _
  | some live =>
      dsimp only
      cases live.attributes.get? attr with
      | none => exact .throw _
      | some value => exact .pure value

theorem setPlayerAttribute_twin (player : PlayerId) (attr : String) (value : Amount) :
    Twin (setPlayerAttribute rules resolve player attr value)
      (setPlayerAttribute rules.muted resolve' player attr value) line m := by
  refine (playerAttribute_twin player attr).bind fun old line m => .modify_bind rfl rfl ?_
  cases Direction.between? old value with
  | none => exact .pure ()
  | some direction => exact raiseOnAll_twin _

theorem setCardAttribute_twin (card : LiveId) (attr : String) (value : Amount) :
    Twin (setCardAttribute rules resolve card attr value)
      (setCardAttribute rules.muted resolve' card attr value) line m := by
  refine (cardAttribute_twin card attr).bind fun old line m => .modify_bind rfl rfl ?_
  have hcompare : ∀ line m, Twin
      (Comparison.all.forM fun op => raise rules resolve (.cardAttributeCompare op attr value) card)
      (Comparison.all.forM fun op =>
        raise rules.muted resolve' (.cardAttributeCompare op attr value) card) line m :=
    fun _ _ => .forM fun op _ _ => raise_twin _ card
  cases Direction.between? old value with
  | none => exact hcompare _ _
  | some direction => exact (raise_twin _ card).bind fun _ => hcompare

theorem changePlayerAttribute_twin (player : PlayerId) (attr : String) (change : Amount → Amount) :
    Twin (changePlayerAttribute rules resolve player attr change)
      (changePlayerAttribute rules.muted resolve' player attr change) line m :=
  (playerAttribute_twin player attr).bind fun _ _ _ => setPlayerAttribute_twin player attr _

/-! ## Moving -/

theorem enterZone_twin (owner : PlayerId) (design : CardId) (zone : String) :
    Twin (enterZone rules resolve owner design zone)
      (enterZone rules.muted resolve' owner design zone) line m := by
  rw [enterZone, enterZone, Rulebook.catalog_muted, Catalog.typed?_muted]
  cases rules.catalog.typed? design with
  | none => exact .throw _
  | some found =>
      obtain ⟨card, cardType⟩ := found
      refine .get_bind (.ite (fun _ => ?_) fun _ => ?_)
      · refine .set_bind rfl rfl (.modify_bind rfl rfl (.modify_bind rfl rfl ?_))
        exact (raiseTransition_twin .enter zone _).bind fun _ _ _ => .pure _
      · exact .set_bind rfl rfl (.throw _)

theorem takeTop_twin (player : PlayerId) (zone : String) :
    Twin (takeTop player zone) (takeTop player zone) line m := by
  refine .get_bind ?_
  dsimp only [Match.table_behind]
  cases m.table.zone? player zone with
  | none => exact .pure none
  | some state =>
      dsimp only
      cases state.pile.popCard? with
      | none => exact .pure none
      | some top => exact .modify_bind rfl rfl (.pure _)

theorem topLive?_twin (player : PlayerId) (zone : String) :
    Twin (topLive? player zone) (topLive? player zone) line m :=
  .get_bind (.pure _)

theorem moveTop_twin (kinds : ZoneKind × ZoneKind) (player : PlayerId)
    (origin destination : String) :
    Twin (moveTop rules resolve kinds player origin destination)
      (moveTop rules.muted resolve' kinds player origin destination) line m := by
  obtain ⟨_ | _, _ | _⟩ := kinds
  case static.static =>
      refine (takeTop_twin player origin).bind ?_
      intro top line m
      cases top with
      | none => exact .pure false
      | some card => exact .modify_bind rfl rfl (.pure true)
  case static.dynamic =>
      refine (takeTop_twin player origin).bind ?_
      intro top line m
      cases top with
      | none => exact .pure false
      | some card =>
          exact (enterZone_twin player card destination).discard.bind fun _ _ _ => .pure true
  case dynamic.static =>
      refine (topLive?_twin player origin).bind fun top line m => ?_
      cases top with
      | none => exact .pure false
      | some card =>
          refine (raiseTransition_twin .leave origin card).bind fun _ line m => .get_bind ?_
          dsimp only [Match.table_behind]
          refine .ite (fun _ => ?_) fun _ => .pure true
          have hleft : (m.behind line).despawn card
              = (m.table.live? card, (m.despawn card).2.behind line) := rfl
          have hright : m.despawn card = (m.table.live? card, (m.despawn card).2) := rfl
          rw [hleft, hright]
          cases m.table.live? card with
          | none => exact .set_bind rfl rfl (.pure true)
          | some removed => exact .set_bind rfl rfl (.pure true)
  case dynamic.dynamic =>
      refine (topLive?_twin player origin).bind fun top line m => ?_
      cases top with
      | none => exact .pure false
      | some card =>
          refine .modify_bind rfl rfl ((raiseTransition_twin .leave origin card).bind fun _ _ _ => ?_)
          exact (raiseTransition_twin .enter destination card).bind fun _ _ _ => .pure true

theorem repeatStep_twin {x y : Play Bool} (h : ∀ line m, Twin x y line m) (n : Nat) :
    Twin (repeatStep x n) (repeatStep y n) line m := by
  induction n generalizing line m with
  | zero => exact .pure 0
  | succ n ih =>
      refine (h line m).bind ?_
      intro moved line m
      cases moved with
      | false => exact .pure 0
      | true => exact ih.bind fun count _ _ => .pure (count + 1)

theorem moveCards_twin (player : PlayerId) (origin destination : String) (count : Nat) :
    Twin (moveCards rules resolve player origin destination count)
      (moveCards rules.muted resolve' player origin destination count) line m := by
  refine .get_bind ?_
  dsimp only [Match.table_behind]
  cases m.table.player? player with
  | none => exact .throw _
  | some seat =>
      dsimp only
      cases seat.zone? origin <;> cases seat.zone? destination
      case some.some => exact repeatStep_twin (fun _ _ => moveTop_twin _ player origin destination) _
      all_goals exact .throw _

/-! ## Dying and changing -/

theorem kill_twin (card : LiveId) :
    Twin (kill rules resolve card) (kill rules.muted resolve' card) line m := by
  refine .get_bind ?_
  dsimp only [Match.table_behind, Match.destructions_behind]
  refine .ite (fun _ => .pure ()) fun _ => .modify_bind rfl rfl (.modify_bind rfl rfl (.get_bind ?_))
  dsimp only [Match.table_behind]
  cases Table.locate? _ card with
  | none => exact .pure ()
  | some place => exact raiseTransition_twin .leave place.2 card

theorem transform_twin (card : LiveId) (into : String) :
    Twin (transform rules resolve card into) (transform rules.muted resolve' card into) line m := by
  refine .get_bind ?_
  dsimp only [Match.table_behind]
  cases m.table.locate? card with
  | none => exact .pure none
  | some place =>
      obtain ⟨owner, zone⟩ := place
      dsimp only
      rw [Rulebook.catalog_muted, Catalog.cardNamed?_muted]
      cases rules.catalog.cardNamed? into with
      | none => exact .throw _
      | some design =>
          have htype : (rules.catalog.muteDesign design).cardType = design.cardType := rfl
          dsimp only [Option.map_some]
          rw [Catalog.cardType?_muted, htype]
          cases rules.catalog.cardType? design.cardType with
          | none => exact .throw _
          | some cardType =>
              refine .modify_bind rfl rfl ((raiseTransition_twin .leave zone card).bind
                fun _ line m => .get_bind (.set_bind rfl rfl ?_))
              refine .modify_bind rfl rfl (.modify_bind rfl rfl (.modify_bind rfl rfl ?_))
              exact (raiseTransition_twin .enter zone _).bind fun _ _ _ => .pure _

/-! ## Cards from hand -/

theorem requestMove_twin (player : PlayerId) (origin destination : String) (count : Nat) :
    Twin (requestMove rules resolve player origin destination count)
      (requestMove rules.muted resolve' player origin destination count) line m := by
  refine .get_bind ?_
  dsimp only [Match.table_behind]
  cases m.table.refusal? player with
  | some reason => exact .pure _
  | none =>
      refine .ite (fun _ => .pure _) ?_
      intro _
      exact (moveCards_twin player origin destination count).discard.bind fun _ _ _ =>
        .modify_bind rfl rfl (.pure _)

theorem playCard_twin (player : PlayerId) (card : CardId) :
    Twin (playCard rules resolve player card) (playCard rules.muted resolve' player card) line m := by
  refine .get_bind ?_
  dsimp only [Match.table_behind, Rulebook.config_muted]
  cases m.table.refusal? player with
  | some reason => exact .pure _
  | none =>
      refine .ite (fun _ => .pure _) ?_
      intro _
      rw [Rulebook.catalog_muted, Catalog.card?_muted]
      cases rules.catalog.card? card with
      | none => exact .throw _
      | some design =>
          refine .ite (fun _ => .pure _) fun _ => .modify_bind rfl rfl ?_
          refine Twin.bind (.forM fun cost _ _ => changePlayerAttribute_twin player cost.attr _)
            fun _ line m => ?_
          refine Twin.bind ?_ fun _ _ _ => .modify_bind rfl rfl (.pure _)
          refine (enterZone_twin player design.id rules.config.boardZone).bind ?_
          intro id line m
          exact .modify_bind rfl rfl (raiseOnAll_twin _)

end CardArena
