import Mathlib
import CardArena.Proofs.Course

/-!
# No question without a letter

Of what a step of the engine does, two things are told from outside: what has been sent, and which
question is open with which firings behind it.  `Match.Converses` says what may become of these two.
Letters are sent (`Match.Mails`); a firing joins the line, but only behind an open question; a question
is opened, but only if the active player can be reached and there is an answer that they might give, and
then they are told at once.  Nothing else happens in a cascade.  Outside of one the open question may
also be dropped, and the line may lose what waits in it.

The relation asks nothing of the table but where the question is put, so that there is one short law
for each step of the engine, from any match, by any rules, and whatever fails (`Candid`); what `Change`
says of a cascade would not do, since it lets anybody be asked.

* `resolver_candid` : so it is of every firing.
* `perform_asks` : after an operation that leaves a new question, that question has been put.
-/

namespace CardArena

open Play
open Relation (ReflTransGen)

/-! ## How a question is put -/

/-- The question went to the chooser, whose turn it was and who could be reached, when there was an
answer that they might give. -/
structure Selection.PutAt (s : Selection) (rules : Rulebook) (scene : Table)
    (letter : ConnectionId × Message) : Prop where
  active : scene.activePlayer? = some s.chooser
  told : ∃ seat, scene.player? s.chooser = some seat ∧ seat.isConnected = true ∧
    letter = (seat.connection, s.question)
  answerable : s.isAnswerable rules scene = true

/-- Letters have been sent in between, each at its table, and the open question and the line are as they
were. -/
def Match.Mails (m m' : Match) : Prop :=
  ∃ sent : List ((ConnectionId × Message) × Table),
    m'.outbox.toList = m.outbox.toList ++ sent.map Prod.fst ∧
    m'.scenes.toList = m.scenes.toList ++ sent.map Prod.snd ∧ m'.session = m.session

/-- What a step of the engine may do to what has been sent and to what is open and waits. -/
inductive Match.Converses (rules : Rulebook) (cascade : Bool) : Match → Match → Prop
  | mail {m m' : Match} (h : m.Mails m') : Converses rules cascade m m'
  | queue {m : Match} (firing : Firing) (waiting : m.session.isIdle = false) :
      Converses rules cascade m { m with session := m.session.enqueue firing }
  | ask {m : Match} {s : Selection} (active : m.table.activePlayer? = some s.chooser)
      (reached : (m.table.player? s.chooser).any Player.isConnected = true)
      (answerable : s.isAnswerable rules m.table = true) :
      Converses rules cascade m ({ m with session.pending := some s }.tell s.chooser s.question)
  /-- Between cascades a question is dropped or answered, and the line is worked off. -/
  | drop {m m' : Match} (between : cascade = false) (outbox : m'.outbox = m.outbox)
      (scenes : m'.scenes = m.scenes)
      (pending : ∀ s, m'.session.pending = some s → m.session.pending = some s) :
      Converses rules cascade m m'

/-- Letters have been sent in between, each at its table, and if a question is open that was not, it
has been put by one of them. -/
def Match.Asks (rules : Rulebook) (m m' : Match) : Prop :=
  ∃ sent : List ((ConnectionId × Message) × Table),
    m'.outbox.toList = m.outbox.toList ++ sent.map Prod.fst ∧
    m'.scenes.toList = m.scenes.toList ++ sent.map Prod.snd ∧
    ∀ s, m'.session.pending = some s →
      m.session.pending = some s ∨ ∃ letter ∈ sent, s.PutAt rules letter.2 letter.1

variable {rules : Rulebook} {cascade : Bool} {resolve : Resolver} {m m' m'' : Match}

namespace Match.Mails

theorem of_eq (houtbox : m'.outbox = m.outbox) (hscenes : m'.scenes = m.scenes)
    (hsession : m'.session = m.session) : m.Mails m' := by
  refine ⟨[], ?_, ?_, hsession⟩
  · rw [houtbox, List.map_nil, List.append_nil]
  · rw [hscenes, List.map_nil, List.append_nil]

theorem refl (m : Match) : m.Mails m :=
  of_eq rfl rfl rfl

theorem trans (h : m.Mails m') (h' : m'.Mails m'') : m.Mails m'' := by
  obtain ⟨sent, houtbox, hscenes, hsession⟩ := h
  obtain ⟨sent', houtbox', hscenes', hsession'⟩ := h'
  refine ⟨sent ++ sent', ?_, ?_, hsession'.trans hsession⟩
  · rw [houtbox', houtbox, List.map_append, List.append_assoc]
  · rw [hscenes', hscenes, List.map_append, List.append_assoc]

theorem post (m : Match) (mail : List (ConnectionId × Message)) : m.Mails (m.post mail) := by
  refine ⟨mail.map fun letter => (letter, m.table), ?_, ?_, rfl⟩
  · simp [Match.post, Function.comp_def]
  · simp [Match.post, Function.comp_def]

theorem tell (m : Match) (player : PlayerId) (message : Message) :
    m.Mails (m.tell player message) := by
  rw [tell_eq_post]
  exact post ..

theorem destroy (m : Match) (graveyard : Option String) (card : LiveId) :
    m.Mails (m.destroy graveyard card) := by
  cases hlive : m.table.live? card with
  | none =>
      rw [destroy_of_none hlive]
      exact .of_eq rfl rfl rfl
  | some live =>
      rw [destroy_eq hlive]
      exact (of_eq rfl rfl rfl).trans (post ..)

theorem destroyAll (graveyard : Option String) (cards : List LiveId) :
    ∀ m : Match, m.Mails (m.destroyAll graveyard cards) := by
  induction cards with
  | nil => exact refl
  | cons card rest ih => exact fun m => (destroy m graveyard card).trans (ih _)

theorem discardCard (m : Match) (player : PlayerId) (card : CardId) :
    m.Mails (m.discardCard rules player card) := by
  unfold Match.discardCard
  split <;> exact .of_eq rfl rfl rfl

theorem discardAll (player : PlayerId) (cards : List CardId) :
    ∀ m : Match, m.Mails (m.discardAll rules player cards) := by
  induction cards with
  | nil => exact refl
  | cons card rest ih => exact fun m => (discardCard m player card).trans (ih _)

theorem discardRandom (player : PlayerId) (count : Nat) :
    ∀ m : Match, m.Mails (m.discardRandom rules player count) := by
  induction count with
  | zero => exact refl
  | succ count ih =>
      intro m
      rw [Match.discardRandom]
      split
      · exact .of_eq rfl rfl rfl
      · next card dice _ =>
          have hdice : m.Mails { m with dice } := .of_eq rfl rfl rfl
          exact (hdice.trans (discardCard _ player card)).trans (ih _)

theorem forceDiscard (m : Match) (player : PlayerId) :
    m.Mails (m.forceDiscard rules player) :=
  discardRandom player _ m

theorem destroyDue (m : Match) : m.Mails (m.destroyDue rules) := by
  have htaken : m.Mails { m with destructions := m.destructions.countDown.2 } :=
    .of_eq rfl rfl rfl
  exact htaken.trans (destroyAll ..)

theorem destroyAfterEffect (m : Match) : m.Mails (m.destroyAfterEffect rules) := by
  have htaken : m.Mails { m with destructions := m.destructions.takeAfterEffect.2 } :=
    .of_eq rfl rfl rfl
  exact htaken.trans (destroyAll ..)

theorem shuffleZone (m : Match) (player : PlayerId) (zone : String) :
    m.Mails (m.shuffleZone player zone) := by
  rcases m.shuffleZone_eq player zone with heq | ⟨z, dice, -, heq⟩ <;> rw [heq]
  · exact refl m
  · exact .of_eq rfl rfl rfl

theorem roll (m : Match) (effect : Effect) : m.Mails (m.roll effect).2 := by
  unfold Match.roll
  split <;> exact .of_eq rfl rfl rfl

theorem automaticPlayers (m : Match) (effect : Effect) (target : PlayerTarget) :
    m.Mails (m.automaticPlayers effect target).2 := by
  unfold Match.automaticPlayers
  dsimp only
  split <;> exact .of_eq rfl rfl rfl

theorem automaticCards (m : Match) (effect : Effect) (target : CardTarget) (source : LiveId) :
    m.Mails (m.automaticCards rules effect target source).2 := by
  unfold Match.automaticCards
  dsimp only
  split
  · exact .refl m
  · split <;> exact .of_eq rfl rfl rfl

end Match.Mails

/-! ### From what is done to what is asked -/

namespace Match.Asks

theorem refl (m : Match) : m.Asks rules m := by
  refine ⟨[], ?_, ?_, fun s hs => .inl hs⟩ <;> simp

theorem trans (h : m.Asks rules m') (h' : m'.Asks rules m'') : m.Asks rules m'' := by
  obtain ⟨sent, houtbox, hscenes, hput⟩ := h
  obtain ⟨sent', houtbox', hscenes', hput'⟩ := h'
  refine ⟨sent ++ sent', ?_, ?_, fun s hs => ?_⟩
  · rw [houtbox', houtbox, List.map_append, List.append_assoc]
  · rw [hscenes', hscenes, List.map_append, List.append_assoc]
  · rcases hput' s hs with hold | ⟨letter, hletter, hat⟩
    · refine (hput s hold).imp_right fun ⟨letter, hletter, hat⟩ => ?_
      exact ⟨letter, List.mem_append_left _ hletter, hat⟩
    · exact .inr ⟨letter, List.mem_append_right _ hletter, hat⟩

/-- **A question is put as it comes to be open.** -/
theorem ask {s : Selection} (active : m.table.activePlayer? = some s.chooser)
    (reached : (m.table.player? s.chooser).any Player.isConnected = true)
    (answerable : s.isAnswerable rules m.table = true) :
    m.Asks rules ({ m with session.pending := some s }.tell s.chooser s.question) := by
  obtain ⟨seat, hseat, hconnected⟩ := (Option.any_eq_true _ _).mp reached
  have htell : ({ m with session.pending := some s } : Match).tell s.chooser s.question
      = ({ m with session.pending := some s } : Match).post [(seat.connection, s.question)] := by
    simp only [Match.tell, hseat, hconnected, if_true]
  rw [htell]
  refine ⟨[((seat.connection, s.question), m.table)], ?_, ?_, ?_⟩
  · simp [Match.post]
  · simp [Match.post]
  · rintro _ ⟨⟩
    exact .inr ⟨_, List.mem_singleton_self _, active, ⟨seat, hseat, hconnected, rfl⟩, answerable⟩

/-- What is done opens no question without putting it. -/
theorem of_converses (h : m.Converses rules cascade m') : m.Asks rules m' := by
  cases h with
  | mail h =>
      obtain ⟨sent, houtbox, hscenes, hsession⟩ := h
      exact ⟨sent, houtbox, hscenes, fun s hs => .inl (hsession ▸ hs)⟩
  | queue firing waiting =>
      refine ⟨[], ?_, ?_, fun s hs => .inl hs⟩ <;> simp
  | ask active reached answerable => exact ask active reached answerable
  | drop _ houtbox hscenes hpending =>
      refine ⟨[], ?_, ?_, fun s hs => .inl (hpending s hs)⟩
      · rw [houtbox, List.map_nil, List.append_nil]
      · rw [hscenes, List.map_nil, List.append_nil]

theorem chain (h : ReflTransGen (Match.Converses rules cascade) m m') : m.Asks rules m' := by
  induction h with
  | refl => exact refl m
  | tail _ hstep ih => exact ih.trans (of_converses hstep)

end Match.Asks

open Match (Converses Mails)

/-! ## The steps of the engine -/

/-- From every match, the step sends letters and opens questions as it may. -/
abbrev Candid (rules : Rulebook) (cascade : Bool) (step : Play α) : Prop :=
  Along (fun _ => True) (Converses rules cascade) (fun _ => True) step

theorem kept_always {r : Match → Match → Prop} : Kept (fun _ => True) r :=
  fun _ _ _ _ => trivial

namespace Candid

theorem pure (a : α) : Candid rules cascade (pure a : Play α) :=
  fun _ _ => .pure a

theorem throw (fault : Fault) : Candid rules cascade (throw fault : Play α) :=
  fun _ _ => .throw trivial

theorem bind {x : Play α} {k : α → Play β} (hx : Candid rules cascade x) (hk : ∀ a, Candid rules cascade (k a)) :
    Candid rules cascade (x >>= k) :=
  Along.bind kept_always hx hk

theorem get_bind {k : Match → Play β} (hk : ∀ m, Candid rules cascade (k m)) :
    Candid rules cascade (get >>= k) :=
  fun m hm => .get_bind (hk m m hm)

theorem modify_bind {f : Match → Match} {k : Unit → Play β} (hf : ∀ m : Match, m.Converses rules cascade (f m))
    (hk : Candid rules cascade (k ())) : Candid rules cascade (modify f >>= k) :=
  fun m _ => .modify_bind (hf m) (hk _ trivial)

theorem modifyGet_bind {f : Match → α × Match} {k : α → Play β}
    (hf : ∀ m : Match, m.Converses rules cascade (f m).2) (hk : ∀ a, Candid rules cascade (k a)) :
    Candid rules cascade (modifyGet f >>= k) :=
  fun m _ => .modifyGet_bind (hf m) (hk _ _ trivial)

theorem modify {f : Match → Match} (hf : ∀ m : Match, m.Converses rules cascade (f m)) :
    Candid rules cascade (modify f : Play Unit) :=
  fun m _ => .modify (hf m)

theorem ite {p : Prop} [Decidable p] {x y : Play α} (hx : Candid rules cascade x) (hy : Candid rules cascade y) :
    Candid rules cascade (if p then x else y) := by
  split
  · exact hx
  · exact hy

theorem map {x : Play α} (hx : Candid rules cascade x) (f : α → β) : Candid rules cascade (f <$> x) :=
  fun m hm => (hx m hm).map f

theorem discard {x : Play α} (hx : Candid rules cascade x) : Candid rules cascade (discard x) :=
  hx.map _

theorem attempt {x : Play Unit} (hx : Candid rules cascade x) : Candid rules cascade (attempt x) :=
  fun m hm => (hx m hm).attempt

theorem forM {f : α → Play Unit} {xs : List α} (hf : ∀ a, Candid rules cascade (f a)) :
    Candid rules cascade (xs.forM f) :=
  Along.forM kept_always fun a _ => hf a

theorem repeatStep {step : Play Bool} (h : Candid rules cascade step) (n : Nat) :
    Candid rules cascade (repeatStep step n) := by
  induction n with
  | zero => exact pure 0
  | succ n ih => exact h.bind fun moved => .ite (ih.bind fun count => pure (count + 1)) (pure 0)

theorem deeper {step : Play Unit} (h : Candid rules cascade step) : Candid rules cascade (deeper step) := by
  intro m hm
  have hdown : m.Converses rules cascade { m with cascadeDepth := m.cascadeDepth + 1 } :=
    .mail (.of_eq rfl rfl rfl)
  have hup (n : Match) :
      n.Converses rules cascade { n with cascadeDepth := n.cascadeDepth - 1 } :=
    .mail (.of_eq rfl rfl rfl)
  obtain ⟨hpath, hfault⟩ := h { m with cascadeDepth := m.cascadeDepth + 1 } hm
  refine ⟨?_, ?_⟩ <;> rw [deeper_run]
  · exact .head hdown (hpath.tail (hup _))
  · exact hfault

end Candid

section

variable (hres : ∀ firing, Candid rules cascade (resolve firing))

/-! ### Raising events and writing attributes -/

theorem playerAttribute_candid (player : PlayerId) (attr : String) :
    Candid rules cascade (playerAttribute player attr) := by
  refine .get_bind fun m => ?_
  cases m.table.player? player with
  | none => exact .throw _
  | some seat =>
      dsimp only
      cases seat.attributes.get? attr with
      | none => exact .throw _
      | some value => exact .pure value

theorem cardAttribute_candid (card : LiveId) (attr : String) :
    Candid rules cascade (cardAttribute card attr) := by
  refine .get_bind fun m => ?_
  cases m.table.live? card with
  | none => exact .throw _
  | some live =>
      dsimp only
      cases live.attributes.get? attr with
      | none => exact .throw _
      | some value => exact .pure value

include hres

theorem offer_candid (source : LiveId) (effect : Effect) :
    Candid rules cascade (offer rules resolve source effect) := by
  refine .get_bind fun _ => .ite (fun m hm => .get_bind ?_) (.pure ())
  by_cases hidle : m.session.isIdle
  · rw [if_pos hidle]
    exact hres _ m hm
  · rw [if_neg hidle]
    exact .modify (.queue _ (by simpa using hidle))

theorem raise_candid (event : Event) (source : LiveId) :
    Candid rules cascade (raise rules resolve event source) := by
  refine .get_bind fun m => ?_
  cases m.table.live? source with
  | none => exact .pure ()
  | some card => exact .forM (offer_candid hres source)

theorem raiseOnAll_candid (event : Event) : Candid rules cascade (raiseOnAll rules resolve event) :=
  .get_bind fun _ => .forM fun card =>
    .get_bind fun _ => .ite (raise_candid hres event card) (.pure ())

theorem setPlayerAttribute_candid (player : PlayerId) (attr : String) (value : Amount) :
    Candid rules cascade (setPlayerAttribute rules resolve player attr value) := by
  refine (playerAttribute_candid player attr).bind fun old => ?_
  refine .modify_bind (fun _ => .mail (.of_eq rfl rfl rfl)) ?_
  cases Direction.between? old value with
  | none => exact .pure ()
  | some direction => exact raiseOnAll_candid hres _

theorem changePlayerAttribute_candid (player : PlayerId) (attr : String)
    (change : Amount → Amount) :
    Candid rules cascade (changePlayerAttribute rules resolve player attr change) :=
  (playerAttribute_candid player attr).bind fun _ => setPlayerAttribute_candid hres player attr _

theorem setCardAttribute_candid (card : LiveId) (attr : String) (value : Amount) :
    Candid rules cascade (setCardAttribute rules resolve card attr value) := by
  refine (cardAttribute_candid card attr).bind fun old => ?_
  refine .modify_bind (fun _ => .mail (.of_eq rfl rfl rfl)) ?_
  have hcompare : Candid rules cascade (Comparison.all.forM fun op =>
      raise rules resolve (.cardAttributeCompare op attr value) card) :=
    .forM fun op => raise_candid hres _ card
  cases Direction.between? old value with
  | none => exact hcompare
  | some direction => exact (raise_candid hres _ card).bind fun _ => hcompare

theorem changeCardAttribute_candid (card : LiveId) (attr : String) (change : Amount → Amount) :
    Candid rules cascade (changeCardAttribute rules resolve card attr change) :=
  (cardAttribute_candid card attr).bind fun _ => setCardAttribute_candid hres card attr _

/-! ### Moving and dying -/

theorem enterZone_candid (owner : PlayerId) (design : CardId) (zone : String) :
    Candid rules cascade (enterZone rules resolve owner design zone) := by
  rw [enterZone]
  cases rules.catalog.typed? design with
  | none => exact .throw _
  | some found =>
      intro m _
      refine .get_bind ?_
      dsimp only
      split
      · refine .set_bind (.mail (.of_eq rfl rfl rfl)) (.modify_bind (.mail (.of_eq rfl rfl rfl)) ?_)
        refine .modify_bind (.mail (.post ..)) ?_
        exact (raise_candid hres _ _).bind (fun _ => .pure _) _ trivial
      · exact .set_bind (.mail (.of_eq rfl rfl rfl)) (.throw trivial)

omit hres in
theorem takeTop_candid (player : PlayerId) (zone : String) : Candid rules cascade (takeTop player zone) := by
  refine .get_bind fun m => ?_
  cases m.table.zone? player zone with
  | none => exact .pure none
  | some state =>
      dsimp only
      cases state.pile.popCard? with
      | none => exact .pure none
      | some top => exact .modify_bind (fun _ => .mail (.of_eq rfl rfl rfl)) (.pure _)

omit hres in
theorem topLive?_candid (player : PlayerId) (zone : String) : Candid rules cascade (topLive? player zone) :=
  .get_bind fun _ => .pure _

theorem moveTop_candid (kinds : ZoneKind × ZoneKind) (player : PlayerId)
    (origin destination : String) :
    Candid rules cascade (moveTop rules resolve kinds player origin destination) := by
  obtain ⟨_ | _, _ | _⟩ := kinds
  case static.static =>
      refine (takeTop_candid player origin).bind fun top => ?_
      cases top with
      | none => exact .pure false
      | some card => exact .modify_bind (fun _ => .mail (.of_eq rfl rfl rfl)) (.pure true)
  case static.dynamic =>
      refine (takeTop_candid player origin).bind fun top => ?_
      cases top with
      | none => exact .pure false
      | some card =>
          exact (enterZone_candid hres player card destination).discard.bind fun _ => .pure true
  case dynamic.static =>
      refine (topLive?_candid player origin).bind fun top => ?_
      cases top with
      | none => exact .pure false
      | some card =>
          refine .bind (raise_candid hres _ card) fun _ m _ => .get_bind ?_
          split
          · have hpair : m.despawn card = (m.table.live? card, (m.despawn card).2) := rfl
            rw [hpair]
            cases m.table.live? card with
            | none => exact .set_bind (.mail (.of_eq rfl rfl rfl)) (.pure true)
            | some removed => exact .set_bind (.mail (.of_eq rfl rfl rfl)) (.pure true)
          · exact .pure true
  case dynamic.dynamic =>
      refine (topLive?_candid player origin).bind fun top => ?_
      cases top with
      | none => exact .pure false
      | some card =>
          refine .modify_bind (fun _ => .mail (.of_eq rfl rfl rfl)) ?_
          exact .bind (raise_candid hres _ card) fun _ =>
            .bind (raise_candid hres _ card) fun _ => .pure true

theorem moveCards_candid (player : PlayerId) (origin destination : String) (count : Nat) :
    Candid rules cascade (moveCards rules resolve player origin destination count) := by
  refine .get_bind fun m => ?_
  cases m.table.player? player with
  | none => exact .throw _
  | some seat =>
      dsimp only
      cases seat.zone? origin <;> cases seat.zone? destination
      case some.some => exact (moveTop_candid hres _ player origin destination).repeatStep _
      all_goals exact .throw _

theorem killFor_candid (reason : DestructionReason) (card : LiveId) :
    Candid rules cascade (killFor rules resolve reason card) := by
  refine .get_bind fun m => .ite (.pure ()) ?_
  refine .modify_bind (fun _ => .mail (.of_eq rfl rfl rfl)) (.modify_bind (fun _ => .mail (.post ..)) ?_)
  refine .get_bind fun m => ?_
  cases m.table.locate? card with
  | none => exact .pure ()
  | some place => exact raise_candid hres _ card

theorem transform_candid (card : LiveId) (into : String) :
    Candid rules cascade (transform rules resolve card into) := by
  refine .get_bind fun m => ?_
  cases m.table.locate? card with
  | none => exact .pure none
  | some place =>
      dsimp only
      cases rules.catalog.cardNamed? into with
      | none => exact .throw _
      | some design =>
          dsimp only
          cases rules.catalog.cardType? design.cardType with
          | none => exact .throw _
          | some cardType =>
              refine .modify_bind (fun _ => .mail (.of_eq rfl rfl rfl)) ?_
              refine .bind (raise_candid hres _ card) fun _ m _ => .get_bind ?_
              refine .set_bind (.mail (.of_eq rfl rfl rfl)) (.modify_bind (.mail (.of_eq rfl rfl rfl)) ?_)
              refine .modify_bind (.mail (.of_eq rfl rfl rfl)) (.modify_bind (.mail (.post ..)) ?_)
              exact (raise_candid hres _ _).bind (fun _ => .pure _) _ trivial

theorem createToken_candid (owner : PlayerId) (name : String) :
    Candid rules cascade (createToken rules resolve owner name) := by
  rw [createToken]
  cases rules.catalog.cardNamed? name with
  | none => exact .throw _
  | some design => exact enterZone_candid hres owner design.id _

/-! ### Effects -/

theorem applyPlayerAction_candid (action : PlayerAction) (magnitude : Amount) (player : PlayerId) :
    Candid rules cascade (applyPlayerAction rules resolve action magnitude player) := by
  cases action with
  | increaseAttribute attr => exact changePlayerAttribute_candid hres player attr _
  | decreaseAttribute attr => exact changePlayerAttribute_candid hres player attr _
  | setAttribute attr => exact setPlayerAttribute_candid hres player attr _
  | moveCards origin destination => exact (moveCards_candid hres player origin destination _).discard

theorem applyCardAction_candid (action : CardAction) (magnitude : Amount) (card : LiveId) :
    Candid rules cascade (applyCardAction rules resolve action magnitude card) := by
  refine .get_bind fun _ => .ite ?_ (.pure ())
  cases action with
  | addCounter attr => exact changeCardAttribute_candid hres card attr _
  | removeCounter attr => exact changeCardAttribute_candid hres card attr _
  | setAttribute attr => exact setCardAttribute_candid hres card attr _
  | kill => exact killFor_candid hres .killed card
  | transform into => exact (transform_candid hres card into).discard

theorem finishEffect_candid (source : LiveId) :
    Candid rules cascade (finishEffect rules resolve source) := by
  have hreveal : Candid rules cascade (modify (·.broadcastState)) := .modify fun _ => .mail (.post ..)
  refine .get_bind fun _ => .ite ?_ hreveal
  exact (killFor_candid hres .afterEffect source).bind fun _ => hreveal

omit hres in
/-- **The one step that opens a question puts it.** -/
theorem askForTarget_candid (kind : TargetKind) (firing : Firing) :
    Candid rules cascade (askForTarget rules kind firing) := by
  intro m _
  refine .get_bind ?_
  cases hactive : m.table.activePlayer? with
  | none => exact .pure ()
  | some chooser =>
      dsimp only
      split
      · next hask =>
          obtain ⟨hreached, hanswerable⟩ := (Bool.and_eq_true _ _).mp hask
          have hput : m.Converses rules cascade _ := .ask hactive hreached hanswerable
          exact ⟨.single hput, nofun⟩
      · exact .pure ()

theorem resolveEffect_candid (firing : Firing) :
    Candid rules cascade (resolveEffect rules resolve firing) := by
  have hfinish := finishEffect_candid hres firing.source
  rw [resolveEffect]
  cases rules.catalog.rule? firing.effect.definition with
  | none => exact .throw _
  | some rule =>
      dsimp only
      split
      case h_1 => exact .pure ()
      case h_2 name _ =>
          refine .get_bind fun m => ?_
          cases m.table.live? firing.source with
          | none => exact .pure ()
          | some card => exact (createToken_candid hres card.owner name).discard.bind fun _ => hfinish
      case h_3 action target _ _ =>
          refine .ite (askForTarget_candid .player firing) ?_
          refine .modifyGet_bind (fun m => .mail (.roll m _)) fun magnitude => ?_
          refine .modifyGet_bind (fun m => .mail (.automaticPlayers m _ _)) fun players => ?_
          exact .bind (.forM (applyPlayerAction_candid hres action magnitude)) fun _ => hfinish
      case h_4 action _ target _ _ =>
          refine .ite (askForTarget_candid .card firing) ?_
          refine .modifyGet_bind (fun m => .mail (.roll m _)) fun magnitude => ?_
          refine .modifyGet_bind (fun m => .mail (.automaticCards m _ _ _)) fun cards => ?_
          exact .bind (.forM (applyCardAction_candid hres action magnitude)) fun _ => hfinish
      case h_5 => exact .pure ()

omit hres in
theorem resolveFiring_candid (room : Nat) :
    ∀ firing, Candid rules cascade (resolveFiring rules room firing) := by
  induction room with
  | zero => exact fun firing => .get_bind fun _ => .throw _
  | succ room ih => exact fun firing => (resolveEffect_candid ih firing).deeper

omit hres in
theorem resolver_candid (firing : Firing) : Candid rules cascade (rules.resolver firing) :=
  .get_bind fun _ => resolveFiring_candid _ firing

end

section

variable (hres : ∀ firing, Candid rules false (resolve firing))

include hres

/-! ### Requests -/

theorem drain_candid (n : Nat) : Candid rules false (drain resolve n) := by
  induction n with
  | zero => exact .pure ()
  | succ n ih =>
      intro m _
      refine .get_bind ?_
      cases hnext : m.session.next? with
      | none => exact .pure ()
      | some next =>
          obtain ⟨firing, session⟩ := next
          obtain ⟨_, _, hnone⟩ := Session.next?_eq_some hnext
          have htaken : m.Converses rules false { m with session } :=
            .drop rfl rfl rfl fun s hs => nomatch hnone.symm.trans hs
          refine .modify_bind htaken ?_
          have hrest : Candid rules false (do
              if ((← get).table.live? firing.source).isSome then
                resolve firing
              drain resolve n) :=
            .get_bind fun _ => .ite ((hres firing).bind fun _ => ih) ih
          exact hrest _ trivial

theorem resolveChosen_candid (selection : Selection) (choice : TargetChoice) :
    Candid rules false (resolveChosen rules resolve selection choice) := by
  have hfinish := finishEffect_candid hres selection.source
  rw [resolveChosen]
  cases rules.catalog.rule? selection.effect.definition with
  | none => exact .throw _
  | some rule =>
      dsimp only
      refine .modifyGet_bind (fun m => .mail (.roll m _)) fun magnitude => ?_
      split
      · exact (applyPlayerAction_candid hres _ magnitude _).bind fun _ => hfinish
      · exact (applyCardAction_candid hres _ magnitude _).bind fun _ => hfinish
      · exact hfinish

theorem selectTarget_candid (player : PlayerId) (choice : TargetChoice) :
    Candid rules false (selectTarget rules resolve player choice) := by
  refine .get_bind fun m => ?_
  cases m.session.pending with
  | none => exact .pure _
  | some selection =>
      refine .ite (.pure _) (.ite (.modify_bind (fun m => .mail (.tell m _ _)) (.pure _)) ?_)
      refine .modify_bind (fun m => .drop rfl rfl rfl fun _ hs => nomatch hs) ?_
      refine (resolveChosen_candid hres selection choice).bind fun _ => ?_
      exact .bind (.get_bind fun _ => drain_candid hres _) fun _ => .pure _

theorem requestMove_candid (player : PlayerId) (origin destination : String) (count : Nat) :
    Candid rules false (requestMove rules resolve player origin destination count) := by
  refine .get_bind fun m => ?_
  cases m.table.refusal? player with
  | some reason => exact .pure _
  | none =>
      refine .ite (.pure _) ?_
      refine (moveCards_candid hres player origin destination count).discard.bind fun _ => ?_
      exact .modify_bind (fun _ => .mail (.post ..)) (.pure _)

theorem putIntoPlay_candid (player : PlayerId) (design : CardDesign) :
    Candid rules false (putIntoPlay rules resolve player design) :=
  (enterZone_candid hres player design.id _).bind fun _ =>
    .modify_bind (fun _ => .mail (.of_eq rfl rfl rfl)) (raiseOnAll_candid hres _)

theorem playCard_candid (player : PlayerId) (card : CardId) :
    Candid rules false (playCard rules resolve player card) := by
  refine .get_bind fun m => ?_
  cases m.table.refusal? player with
  | some reason => exact .pure _
  | none =>
      refine .ite (.pure _) ?_
      cases rules.catalog.card? card with
      | none => exact .throw _
      | some design =>
          refine .ite (.pure _) (.modify_bind (fun _ => .mail (.of_eq rfl rfl rfl)) ?_)
          refine .bind (.forM fun cost => changePlayerAttribute_candid hres player cost.attr _) ?_
          intro _
          refine (putIntoPlay_candid hres player design).bind fun _ => ?_
          exact .modify_bind (fun _ => .mail (.post ..)) (.pure _)

/-! ### Turns -/

theorem runGameAction_candid (action : GameAction) (player : PlayerId) :
    Candid rules false (runGameAction rules resolve action player) := by
  cases action with
  | increaseAttribute attr value => exact changePlayerAttribute_candid hres player attr _
  | decreaseAttribute attr value => exact changePlayerAttribute_candid hres player attr _
  | setAttribute attr value => exact setPlayerAttribute_candid hres player attr value
  | moveCards origin destination count =>
      exact (moveCards_candid hres player origin destination _).discard
  | shuffleZone zone => exact .modify fun m => .mail (.shuffleZone m player zone)

theorem runAllScheduled_candid (actions : List ScheduledAction) :
    Candid rules false (runAllScheduled rules resolve actions) :=
  .forM fun scheduled => .get_bind fun _ => .forM fun player =>
    (runGameAction_candid hres scheduled.action player).attempt

theorem countTurn_candid (card : LiveId) : Candid rules false (countTurn rules resolve card) := by
  refine .get_bind fun m => ?_
  cases m.table.live? card with
  | none => exact .pure ()
  | some live =>
      refine .ite ?_ (.pure ())
      exact .modify_bind (fun _ => .mail (.of_eq rfl rfl rfl)) (raise_candid hres _ card).attempt

theorem startTurn_candid (now : Nat) : Candid rules false (startTurn rules resolve now) := by
  refine .modify_bind (fun m => .drop rfl rfl rfl fun _ hs => nomatch hs) (.get_bind fun m => ?_)
  cases m.table.activePlayer? with
  | none => exact .pure ()
  | some active =>
      refine (runAllScheduled_candid hres _).bind fun _ => ?_
      refine (raiseOnAll_candid hres _).attempt.bind fun _ => .get_bind fun m => ?_
      refine .bind (.forM (countTurn_candid hres)) fun _ => ?_
      exact .modify_bind (fun _ => .mail (.of_eq rfl rfl rfl)) (.modify fun _ => .mail (.post ..))

theorem startGame_candid (now : Nat) : Candid rules false (startGame rules resolve now) := by
  refine .get_bind fun m => .ite (.pure ()) (.ite (.throw _) ?_)
  refine .modify_bind (fun _ => .mail (.of_eq rfl rfl rfl)) ?_
  refine (runAllScheduled_candid hres _).bind fun _ => ?_
  exact .modify_bind (fun _ => .mail (.post ..)) (startTurn_candid hres now)

theorem endTurn_candid (now : Nat) : Candid rules false (endTurn rules resolve now) := by
  refine .get_bind fun m => ?_
  dsimp only
  cases m.table.activePlayer? with
  | none => exact .throw _
  | some active =>
      refine .modify_bind (fun m => .drop rfl rfl rfl fun _ hs => nomatch hs) ?_
      refine .modify_bind (fun m => .mail (.destroyDue m)) ?_
      refine .modify_bind (fun m => .mail ((Mails.forceDiscard m active).trans (.of_eq rfl rfl rfl))) ?_
      refine (runAllScheduled_candid hres _).bind fun _ => ?_
      refine (raiseOnAll_candid hres _).attempt.bind fun _ => ?_
      refine .modify_bind (fun m => .mail (.destroyAfterEffect m)) ?_
      refine .modify_bind (fun _ => .mail (.of_eq rfl rfl rfl)) (.modify_bind (fun _ => .mail (.post ..)) ?_)
      refine .modify_bind (fun _ => .mail (.of_eq rfl rfl rfl)) (.get_bind fun _ => ?_)
      exact .ite (startTurn_candid hres now) (.pure ())

theorem tick_candid (now : Nat) : Candid rules false (tick rules resolve now) :=
  .get_bind fun _ => .ite ((endTurn_candid hres now).bind fun _ => .pure true) (.pure false)

theorem stopTurn_candid (player : PlayerId) (now : Nat) :
    Candid rules false (stopTurn rules resolve player now) := by
  refine .get_bind fun m => ?_
  cases m.table.refusal? player with
  | some reason => exact .pure _
  | none =>
      refine .ite (.pure _) (.ite ?_ ((endTurn_candid hres now).bind fun _ => .pure _))
      exact .modify_bind (fun _ => .mail (.of_eq rfl rfl rfl))
        (.modify_bind (fun m => .mail (.tell m _ _)) (.pure _))

theorem discardCards_candid (player : PlayerId) (cards : List CardId) (now : Nat) :
    Candid rules false (discardCards rules resolve player cards now) := by
  refine .get_bind fun m => ?_
  cases m.debt with
  | none => exact .pure _
  | some debt =>
      refine .ite (.pure _) (.ite (.modify_bind (fun m => .mail (.tell m _ _)) (.pure _)) ?_)
      refine .modify_bind (fun m => .mail (.discardAll player cards m)) ?_
      refine .modify_bind (fun _ => .mail (.of_eq rfl rfl rfl)) ?_
      exact (endTurn_candid hres now).bind fun _ => .pure _

omit hres in
theorem registerPlayer_candid (name : String) (connection : ConnectionId) (deck : List CardId) :
    Candid rules false (registerPlayer rules name connection deck) := by
  refine .get_bind fun m => .ite (.throw _) (.ite (.throw _) ?_)
  cases deck.find? fun card => (rules.catalog.card? card).isNone with
  | some unknown => exact .throw _
  | none =>
      refine .ite (.throw _) (.ite (.throw _) ?_)
      exact .modify_bind (fun _ => .mail (.of_eq rfl rfl rfl)) (.modify_bind (fun _ => .mail (.post ..)) (.pure _))

omit hres in
theorem endGame_candid (winner : Option PlayerId) : Candid rules false (endGame winner) := by
  refine .get_bind fun _ => .ite (.modify_bind (fun m => ?_) (.modify fun _ => .mail (.post ..))) (.pure ())
  exact .drop rfl rfl rfl fun _ hs => nomatch hs

/-! ## Operations -/

theorem handleIntent_candid (player : PlayerId) (intent : Intent) (now : Nat) :
    Candid rules false (handleIntent rules resolve player intent now) := by
  cases intent with
  | register name deck => exact .pure _
  | playCard card => exact playCard_candid hres player card
  | stopTurn => exact stopTurn_candid hres player now
  | moveCards origin destination count => exact requestMove_candid hres player origin destination _
  | selectTarget choice => exact selectTarget_candid hres player choice
  | discardCards cards => exact discardCards_candid hres player cards now

theorem attackCard_candid (card : LiveId) : Candid rules false (attackCard rules resolve card) :=
  .get_bind fun _ => .ite (.throw _)
    (.bind (raise_candid hres _ card) fun _ => .modify fun _ => .mail (.post ..))

theorem performWith_candid (op : Operation) : Candid rules false (performWith rules resolve op) := by
  have hdone {step : Play Unit} (h : Candid rules false step) : Candid rules false (thenDone step) :=
    h.bind fun _ => .pure _
  cases op with
  | register name connection deck => exact (registerPlayer_candid name connection deck).map _
  | start now => exact hdone (startGame_candid hres now)
  | endTurn now => exact hdone (endTurn_candid hres now)
  | tick now => exact (tick_candid hres now).map _
  | stopTurn player now => exact (stopTurn_candid hres player now).map _
  | discardCards player cards now => exact (discardCards_candid hres player cards now).map _
  | requestMove player origin destination count =>
      exact (requestMove_candid hres player origin destination count).map _
  | playCard player card => exact (playCard_candid hres player card).map _
  | selectTarget player choice => exact (selectTarget_candid hres player choice).map _
  | intent player intent now => exact (handleIntent_candid hres player intent now).map _
  | endGame winner => exact hdone (endGame_candid winner)
  | disconnect player => exact hdone (.modify fun _ => .mail (.of_eq rfl rfl rfl))
  | moveCards player origin destination count =>
      exact (moveCards_candid hres player origin destination count).map _
  | kill card => exact hdone (killFor_candid hres .killed card)
  | transform card into => exact (transform_candid hres card into).map _
  | attack card => exact hdone (attackCard_candid hres card)
  | setPlayerAttribute player attr value =>
      exact hdone (setPlayerAttribute_candid hres player attr value)
  | setCardAttribute card attr value => exact hdone (setCardAttribute_candid hres card attr value)

end

/-- **An operation that leaves a new question has put it when it had an answer**, whatever the match
was like and whatever fails. -/
theorem perform_asks (m : Match) (op : Operation) : m.Asks rules (m.perform rules op).2 :=
  .chain (performWith_candid resolver_candid op m trivial).path

end CardArena
