import Mathlib
import CardArena.Proofs.Reachable
import CardArena.Proofs.Twin

/-!
# One question at a time

While a question is open nothing fires.  Whatever is asked of the match in the meantime, short of an
answer to the question or of the end of the turn, is done as in the muted game: with the same answer
and to the same match, but that the firings which came up on the way are last in line.

An operation that ends the turn drops the question, and then the next turn begins.  So `Defers` says
of a step that it is done as in the muted game or leaves another turn, and the operations are gone
through one by one (`performWith_defers`).

* `open_question_excludes` : the main statement.
-/

namespace CardArena

open Play

variable {rules : Rulebook} {ids : List PlayerId} {resolve resolve' : Resolver} {m : Match}

@[simp]
theorem Match.behind_nil (m : Match) : m.behind [] = m := by
  rw [behind, List.append_nil]

theorem Match.tell_behind (m : Match) (line : List Firing) (player : PlayerId) (message : Message) :
    (m.behind line).tell player message = (m.tell player message).behind line := by
  rw [tell_eq_post, tell_eq_post]
  rfl

theorem Match.session_tell (m : Match) (player : PlayerId) (message : Message) :
    (m.tell player message).session = m.session := by
  rw [tell_eq_post]
  rfl

/-! ## Steps that leave a question open -/

/-- While a question is open, `x` does what `y` does, but that firings join the line, or it leaves
another turn. -/
def Play.Defers (x y : Play α) (m : Match) : Prop :=
  Twin x y [] m ∨ (x.run m).2.table.turn ≠ m.table.turn

namespace Play.Defers

theorem get_bind {k k' : Match → Play β} (h : Defers (k m) (k' m) m) :
    Defers (get >>= k) (get >>= k') m :=
  h.imp_left fun h => .get_bind (by rwa [Match.behind_nil])

theorem ite {p : Prop} [Decidable p] {x x' y y' : Play α} (hpos : p → Defers x y m)
    (hneg : ¬ p → Defers x' y' m) : Defers (if p then x else x') (if p then y else y') m := by
  by_cases hp : p
  · rw [if_pos hp, if_pos hp]
    exact hpos hp
  · rw [if_neg hp, if_neg hp]
    exact hneg hp

theorem map {x y : Play α} (h : Defers x y m) (f : α → β) : Defers (f <$> x) (f <$> y) m := by
  refine h.imp (·.map f) ?_
  intro hturn
  rwa [run_map]

theorem thenDone {x y : Play Unit} (h : Defers x y m) : Defers (thenDone x) (thenDone y) m := by
  refine h.imp (·.bind fun _ _ _ => .pure _) ?_
  intro hturn
  rwa [CardArena.thenDone, run_bind_pure]

/-- A player is told something, and that is all. -/
theorem tell (player : PlayerId) (message : Message) (a : α) :
    Defers (modify (·.tell player message) >>= fun _ => pure a)
      (modify (·.tell player message) >>= fun _ => pure a) m :=
  .inl (.modify_bind (m.tell_behind [] player message) (m.session_tell player message) (.pure a))

end Play.Defers

/-! ## Ends of turns -/

section

variable {F : Fault → Prop} (hc : rules.catalog.Coherent)
  (hres : Resolves rules .all F ids resolve)

include hc hres

theorem endTurn_defers (hm : m.Fits rules.catalog ids) (now : Nat) :
    Defers (endTurn rules resolve now) (endTurn rules.muted resolve' now) m := by
  cases hactive : m.table.activePlayer? with
  | some active =>
      refine .inr ?_
      obtain ⟨m', hpasses, hrun⟩ := endTurn_run hc hres rfl hm hactive now
      rw [hrun, hpasses.turn]
      exact m.table.nextTurn_ne
  | none =>
      refine .get_bind (.inl ?_)
      dsimp only
      rw [hactive]
      exact .throw _

theorem endTurn_defers_pure (hm : m.Fits rules.catalog ids) (now : Nat) (a : α) :
    Defers (endTurn rules resolve now >>= fun _ => pure a)
      (endTurn rules.muted resolve' now >>= fun _ => pure a) m := by
  refine (endTurn_defers hc hres hm now).imp (·.bind fun _ _ _ => .pure a) ?_
  intro hturn
  rwa [run_bind_pure]

theorem tick_defers (hm : m.Fits rules.catalog ids) (now : Nat) :
    Defers (tick rules resolve now) (tick rules.muted resolve' now) m :=
  .get_bind <| .ite (fun _ => endTurn_defers_pure hc hres hm now true) fun _ => .inl (.pure false)

theorem stopTurn_defers (hm : m.Fits rules.catalog ids) (player : PlayerId) (now : Nat) :
    Defers (stopTurn rules resolve player now) (stopTurn rules.muted resolve' player now) m := by
  refine .get_bind ?_
  cases m.table.refusal? player with
  | some reason => exact .inl (.pure _)
  | none =>
      refine .ite (fun _ => .inl (.pure _)) fun _ => .ite (fun _ => ?_) fun _ => ?_
      · exact .inl (.modify_bind rfl rfl (.modify_bind (Match.tell_behind ..) (Match.session_tell ..)
          (.pure _)))
      · exact endTurn_defers_pure hc hres hm now _

theorem discardCards_defers (hm : m.Fits rules.catalog ids)
    (hdebt : m.debt.isSome → ∃ active, m.table.activePlayer? = some active) (player : PlayerId)
    (cards : List CardId) (now : Nat) :
    Defers (discardCards rules resolve player cards now)
      (discardCards rules.muted resolve' player cards now) m := by
  refine .get_bind ?_
  cases hsome : m.debt with
  | none => exact .inl (.pure _)
  | some debt =>
      refine .ite (fun _ => .inl (.pure _)) fun _ => .ite (fun _ => .tell _ _ _) fun _ => .inr ?_
      have hpath : Relation.ReflTransGen (Calm rules .all) m
          { m.discardAll rules player cards with debt := none } :=
        (Match.discardAll_calm player cards m).tail .settle
      have hm' := (kept_fits_calm hc).chain hpath hm
      have hturn := (steady_of_calm hpath).turn
      obtain ⟨active, hactive⟩ := hdebt (by simp [hsome])
      obtain ⟨m', hpasses, hrun⟩ := endTurn_run hc hres rfl hm'
        ((Table.activePlayer?_congr (hm'.seats.trans hm.seats.symm) hturn).trans hactive) now
      rw [run_modify_bind, run_modify_bind, run_bind_pure, hrun, hpasses.turn, ← hturn]
      exact Table.nextTurn_ne _

end

/-! ## The other operations -/

theorem Table.started_of_isRunning {t : Table} (h : t.isRunning) : t.turn.status ≠ .notStarted := by
  rw [of_decide_eq_true h]
  exact nofun

theorem registerPlayer_defers (hrunning : m.table.isRunning) (name : String)
    (connection : ConnectionId) (deck : List CardId) :
    Defers (registerPlayer rules name connection deck)
      (registerPlayer rules.muted name connection deck) m := by
  refine .get_bind (.inl ?_)
  dsimp only
  rw [if_pos (Table.started_of_isRunning hrunning), if_pos (Table.started_of_isRunning hrunning)]
  exact .throw _

theorem startGame_defers (hrunning : m.table.isRunning) (now : Nat) :
    Defers (startGame rules resolve now) (startGame rules.muted resolve' now) m := by
  refine .get_bind (.inl ?_)
  dsimp only
  rw [if_pos (Table.started_of_isRunning hrunning), if_pos (Table.started_of_isRunning hrunning)]
  exact .pure ()

theorem endGame_defers (hrunning : m.table.isRunning) (winner : Option PlayerId) :
    Defers (endGame winner) (endGame winner) m := by
  have hstatus : m.table.turn.status = .running := of_decide_eq_true hrunning
  have hended : m.table.isEnded = false := by rw [Table.isEnded, hstatus]
  refine .get_bind (.inr ?_)
  rw [hended]
  intro h
  have hover : Status.ended winner = m.table.turn.status := congrArg Turn.status h
  rw [hstatus] at hover
  cases hover

theorem attackCard_twin (card : LiveId) :
    Twin (attackCard rules resolve card) (attackCard rules.muted resolve' card) [] m :=
  .get_bind <| .ite (fun _ => .throw _) fun _ =>
    (raise_twin .cardAttacked card).bind fun _ _ _ => .modify rfl rfl

/-- An answer that will not do is rejected or gets the same question again. -/
theorem selectTarget_defers {selection : Selection} (hpending : m.session.pending = some selection)
    {player : PlayerId} {choice : TargetChoice}
    (hanswer : ¬ (player = selection.chooser ∧ selection.admits rules m.table choice = true)) :
    Defers (selectTarget rules resolve player choice)
      (selectTarget rules.muted resolve' player choice) m := by
  refine .get_bind ?_
  rw [hpending]
  refine .ite (fun _ => .inl (.pure _)) ?_
  intro hchooser
  have hadmits : selection.admits rules m.table choice = false :=
    Bool.eq_false_iff.mpr fun h => hanswer ⟨(not_not.mp hchooser).symm, h⟩
  rw [selection.admits_muted, hadmits]
  exact .tell _ _ _

/-! ## What is asked of a match -/

/-- The operation answers the open question: it comes from the chooser, and it names a target that
will do. -/
def Operation.Answers (rules : Rulebook) (m : Match) (selection : Selection) : Operation → Prop
  | .selectTarget player choice
  | .intent player (.selectTarget choice) _ =>
      player = selection.chooser ∧ selection.admits rules m.table choice = true
  | _ => False

/-- What is turned down, for good or for another try, is just what is no answer. -/
theorem selectTarget_turned_down {selection : Selection}
    (hpending : m.session.pending = some selection) {player : PlayerId} {choice : TargetChoice} :
    ((∃ reason, ((selectTarget rules resolve player choice).run m).1 = .ok (.rejected reason)) ∨
        ((selectTarget rules resolve player choice).run m).1 = .ok .reprompted) ↔
      ¬ (Operation.selectTarget player choice).Answers rules m selection := by
  rw [selectTarget, run_get_bind, hpending, Operation.Answers]
  dsimp only
  by_cases hchooser : selection.chooser = player
  case neg => simp [hchooser, Ne.symm hchooser]
  rw [if_neg (not_not.mpr hchooser)]
  by_cases hadmits : selection.admits rules m.table choice = true
  case neg => exact iff_of_true (.inr (by rw [if_pos (by simpa using hadmits)]; rfl)) (hadmits ·.2)
  rw [if_neg (by simpa using hadmits), run_modify_bind]
  refine iff_of_false (fun h => ?_) (not_not_intro ⟨hchooser.symm, hadmits⟩)
  -- An answer that is taken fails or is applied.
  have happlied : ∀ outcome m', (resolveChosen rules resolve selection choice >>= fun _ =>
      drainQueue resolve >>= fun _ => pure Outcome.applied).run
        { m with session.pending := none } = (.ok outcome, m') → outcome = .applied := by
    intro outcome m' hrun
    obtain ⟨_, m₁, -, hrun⟩ := run_bind_eq_ok hrun
    obtain ⟨_, m₂, -, hrun⟩ := run_bind_eq_ok hrun
    cases hrun
    rfl
  rcases h with ⟨reason, h⟩ | h
  · exact nomatch happlied _ _ (Prod.ext h rfl)
  · exact nomatch happlied _ _ (Prod.ext h rfl)

/-- Whatever is asked of a match with an open question, but to answer it. -/
theorem performWith_defers {F : Fault → Prop} (hc : rules.catalog.Coherent)
    (hres : Resolves rules .all F ids resolve) (hm : m.Fits rules.catalog ids) (htimely : m.Timely)
    {selection : Selection} (hpending : m.session.pending = some selection) {op : Operation}
    (hanswer : ¬ op.Answers rules m selection) :
    Defers (performWith rules resolve op) (performWith rules.muted resolve' op) m := by
  have hrunning := htimely.question (by simp [hpending])
  have hactive := htimely.exists_active hrunning
  cases op with
  | register name connection deck => exact (registerPlayer_defers hrunning ..).map _
  | start now => exact (startGame_defers hrunning now).thenDone
  | endTurn now => exact (endTurn_defers hc hres hm now).thenDone
  | tick now => exact (tick_defers hc hres hm now).map _
  | stopTurn player now => exact (stopTurn_defers hc hres hm player now).map _
  | discardCards player cards now =>
      exact (discardCards_defers hc hres hm (fun _ => hactive) player cards now).map _
  | requestMove player origin destination count =>
      exact .inl ((requestMove_twin player origin destination count).map _)
  | playCard player card => exact .inl ((playCard_twin player card).map _)
  | selectTarget player choice => exact (selectTarget_defers hpending hanswer).map _
  | intent player intent now =>
      refine Defers.map ?_ _
      cases intent with
      | register name deck => exact .inl (.pure _)
      | playCard card => exact .inl (playCard_twin player card)
      | stopTurn => exact stopTurn_defers hc hres hm player now
      | moveCards origin destination count =>
          exact .inl (requestMove_twin player origin destination _)
      | selectTarget choice => exact selectTarget_defers hpending hanswer
      | discardCards cards =>
          exact discardCards_defers hc hres hm (fun _ => hactive) player cards now
  | endGame winner => exact (endGame_defers hrunning winner).thenDone
  | disconnect player => exact .inl (.bind (.modify rfl rfl) fun _ _ _ => .pure _)
  | moveCards player origin destination count =>
      exact .inl ((moveCards_twin player origin destination count).map _)
  | kill card => exact Defers.thenDone (.inl (kill_twin card))
  | transform card into => exact .inl ((transform_twin card into).map _)
  | attack card => exact Defers.thenDone (.inl (attackCard_twin card))
  | setPlayerAttribute player attr value =>
      exact Defers.thenDone (.inl (setPlayerAttribute_twin player attr value))
  | setCardAttribute card attr value =>
      exact Defers.thenDone (.inl (setCardAttribute_twin card attr value))

/-- **While a question is open, nothing but its answer or the end of the turn sets anything off.**
The question stays as it is, and the firings that come up wait last in line.  For the rest the
operation answers and does what it would do if nothing could fire at all. -/
theorem open_question_excludes (hc : rules.catalog.Accepted) (h : Reachable rules m)
    {selection : Selection} (hpending : m.session.pending = some selection) (op : Operation)
    (hturn : (m.perform rules op).2.table.turn = m.table.turn)
    (hanswer : ¬ op.Answers rules m selection) :
    (m.perform rules op).2.session.pending = some selection ∧
      m.session.queue <+: (m.perform rules op).2.session.queue ∧
      (m.perform rules op).1 = (m.perform rules.muted op).1 ∧
      { (m.perform rules op).2 with session := m.session } = (m.perform rules.muted op).2 := by
  have hcoherent := hc.coherent
  have hres : Resolves rules .all (fun _ => True) m.table.playerIds rules.resolver :=
    resolver_resolves hcoherent (Scope.all_covers _) (tolerates_all rules)
  have hdefers : Defers (performWith rules rules.resolver op)
      (performWith rules.muted rules.muted.resolver op) m :=
    performWith_defers hcoherent hres ⟨h.conforms hcoherent, rfl⟩ (h.timely hcoherent) hpending
      hanswer
  obtain ⟨line, hrun, hsession⟩ := hdefers.resolve_right (not_not_intro hturn) (by simp [hpending])
  rw [Match.behind_nil] at hrun
  rw [Match.perform, Match.perform, hrun, ← hsession]
  refine ⟨?_, ?_, rfl, rfl⟩
  · rw [Match.pending_behind, hsession, hpending]
  · exact List.prefix_append ..

namespace Duel

/-- Ann's first archer has come to the board and asks whom to hit. -/
def asking : Match :=
  opening.run book (deal ++ [.playCard ⟨0⟩ ⟨2⟩])

/-- Ann does not answer but plays the second archer, who has to wait. -/
theorem excluded_asking :
    asking.session.pending = some ⟨.player, shot, ⟨0⟩, ⟨0⟩⟩ ∧
    (asking.perform book (.playCard ⟨0⟩ ⟨2⟩)).2.session.pending = some ⟨.player, shot, ⟨0⟩, ⟨0⟩⟩ ∧
    (asking.perform book (.playCard ⟨0⟩ ⟨2⟩)).2.session.queue = [⟨shot, ⟨1⟩⟩] ∧
    (asking.perform book (.playCard ⟨0⟩ ⟨2⟩)).1
      = (asking.perform book.muted (.playCard ⟨0⟩ ⟨2⟩)).1 := by
  have hpending : asking.session.pending = some ⟨.player, shot, ⟨0⟩, ⟨0⟩⟩ := by decide +kernel
  obtain ⟨hsame, -, hanswer, -⟩ :=
    open_question_excludes accepted (reachable _) hpending (.playCard ⟨0⟩ ⟨2⟩) (by decide +kernel) id
  exact ⟨hpending, hsame, by decide +kernel, hanswer⟩

end Duel

end CardArena
