import Mathlib
import CardArena.Proofs.Speech

/-!
# What everybody sees in the end

When a request is granted, the last that everybody was shown of the table is how the table is then.
So no client has to ask again, and none goes on with a table that is no more.

A match is `Shown` if that is so of it.  To show the table makes it so, whatever was before
(`Match.shown_broadcastViews`); any other step may spoil it.  But of the steps that are granted each
shows the table when it has done what it does, or does nothing to it.  An effect ends with its
bookkeeping, which shows the table last, or it asks a question, or it is dropped; so it leaves a
match that is shown as it found it (`resolveEffect_yields`), and so does a line of effects that have
waited (`drain_yields`).  What an effect sets off in between does not matter, nor how it is done:
the laws hold of any resolver.

* `granted_is_shown` : the main statement.
-/

namespace CardArena

open Play

/-- The views of the table that went to a connection, in order. -/
def Match.views (m : Match) (connection : ConnectionId) : List Snapshot :=
  (m.outbox.sentTo connection).filterMap Message.snapshot?

/-- The last views that went to a connection are of the table as it is, one for each who is reached
there. -/
def Match.Shown (m : Match) : Prop :=
  ∀ connection, ∃ before, m.views connection = before ++
    (m.table.connected.filter (·.connection = connection)).map
      fun seat => m.table.snapshot (some seat.id)

/-! ## The table is shown -/

namespace Match

variable {m m' : Match}

/-- **Everybody who can be reached sees the table as it is when it is shown.** -/
theorem shown_broadcastViews (m : Match) {words : Snapshot → Message}
    (showing : Message.Showing words) : (m.broadcastViews words).Shown := by
  have hread : ∀ seat : Player, (words (m.table.snapshot (some seat.id))).snapshot?
      = some (m.table.snapshot (some seat.id)) := by
    intro seat
    cases showing <;> rfl
  intro connection
  refine ⟨m.views connection, ?_⟩
  rw [views, broadcastViews, filterMap_post, filterMap_letters hread]
  rfl

/-- What touches neither the table nor the outbox leaves the table shown. -/
theorem Shown.congr (h : m.Shown) (htable : m'.table = m.table) (houtbox : m'.outbox = m.outbox) :
    m'.Shown := by
  intro connection
  rw [views, houtbox, htable]
  exact h connection

/-- A question leaves the table shown. -/
theorem Shown.tell (h : m.Shown) (player : PlayerId) {message : Message}
    (asking : message.isQuestion = true) : (m.tell player message).Shown := by
  intro connection
  have hquiet : (m.tell player message).views connection = m.views connection := by
    rw [tell_eq_post]
    refine filterMap_post_of_quiet m (fun letter hletter => ?_) connection
    obtain ⟨seat, -, rfl⟩ := List.mem_map.mp hletter
    exact Message.snapshot?_of_isQuestion asking
  rw [hquiet, tell_eq_post]
  exact h connection

/-- Whoever has a connection of their own was last shown the table as they may see it. -/
theorem Shown.getLast?_views (h : m.Shown) (hids : m.table.playerIds.Nodup) {viewer : PlayerId}
    {connection : ConnectionId} (halone : m.table.HasAlone viewer connection) :
    (m.views connection).getLast? = some (m.table.snapshot (some viewer)) := by
  obtain ⟨seat, rfl, hseat⟩ := halone.connected hids
  obtain ⟨before, hviews⟩ := h connection
  rw [hviews, hseat, List.map_singleton, List.getLast?_concat]

end Match

/-! ## Effects -/

section

variable {rules : Rulebook} {resolve : Resolver} {P : Match → Prop}

theorem broadcastState_yields : Yields P (modify (·.broadcastState)) fun _ => Match.Shown :=
  .modify fun m _ => m.shown_broadcastViews .stateUpdated

/-- **The bookkeeping of an effect ends with everybody seeing the table.** -/
theorem finishEffect_yields (source : LiveId) :
    Yields P (finishEffect rules resolve source) fun _ => Match.Shown := by
  refine .get_bind fun m => ?_
  dsimp only
  split
  · exact .after fun _ => broadcastState_yields
  · exact broadcastState_yields

theorem askForTarget_yields (kind : TargetKind) (firing : Firing) :
    Yields Match.Shown (askForTarget rules kind firing) fun _ => Match.Shown := by
  intro m a m' hm hrun
  rw [askForTarget, run_get_bind] at hrun
  split at hrun
  · cases hrun
    exact hm
  · next chooser _ =>
      dsimp only at hrun
      split at hrun
      · cases hrun
        refine Match.Shown.tell ?_ chooser ?_
        · exact hm.congr rfl rfl
        · rfl
      · cases hrun
        exact hm

/-- **An effect leaves the table shown.**  If it does anything it ends with the bookkeeping. -/
theorem resolveEffect_yields (firing : Firing) :
    Yields Match.Shown (resolveEffect rules resolve firing) fun _ => Match.Shown := by
  unfold resolveEffect
  split
  · exact .throw
  · split
    · exact .pure fun _ => id
    · refine .get_bind fun m => ?_
      split
      · exact .pure fun _ => id
      · exact .after fun _ => finishEffect_yields _
    · split
      · exact askForTarget_yields _ _
      · exact .after fun _ => .after fun _ => .after fun _ => finishEffect_yields _
    · split
      · exact askForTarget_yields _ _
      · exact .after fun _ => .after fun _ => .after fun _ => finishEffect_yields _
    · exact .pure fun _ => id

theorem deeper_yields {step : Play Unit} (h : Yields Match.Shown step fun _ => Match.Shown) :
    Yields Match.Shown (deeper step) fun _ => Match.Shown := by
  intro m a m' hm hrun
  rw [deeper_run] at hrun
  obtain ⟨hok, rfl⟩ := Prod.mk.inj hrun
  have hbelow : Match.Shown { m with cascadeDepth := m.cascadeDepth + 1 } := hm.congr rfl rfl
  exact (h _ a _ hbelow (Prod.ext hok rfl)).congr rfl rfl

theorem resolveFiring_yields (room : Nat) (firing : Firing) :
    Yields Match.Shown (resolveFiring rules room firing) fun _ => Match.Shown := by
  cases room with
  | zero => exact .get_bind fun _ => .throw
  | succ room => exact deeper_yields (resolveEffect_yields firing)

theorem resolver_yields (firing : Firing) :
    Yields Match.Shown (rules.resolver firing) fun _ => Match.Shown :=
  .get_bind fun _ => resolveFiring_yields _ firing

/-! ## Answers -/

/-- **The firings that have waited leave the table shown**, as many of them as are done. -/
theorem drain_yields
    (hresolve : ∀ firing, Yields Match.Shown (resolve firing) fun _ => Match.Shown) (count : Nat) :
    Yields Match.Shown (drain resolve count) fun _ => Match.Shown := by
  induction count with
  | zero => exact .pure fun _ => id
  | succ count ih =>
      refine .get_bind fun m => ?_
      split
      · exact .pure fun _ => id
      · refine .modify_bind (fun m hm => hm.congr rfl rfl) (.get_bind fun m => ?_)
        split
        · exact .bind (hresolve _) fun _ => ih
        · exact ih

theorem resolveChosen_yields (selection : Selection) (choice : TargetChoice) :
    Yields P (resolveChosen rules resolve selection choice) fun _ => Match.Shown := by
  unfold resolveChosen
  split
  · exact .throw
  · refine .after fun magnitude => ?_
    split
    · exact .after fun _ => finishEffect_yields _
    · exact .after fun _ => finishEffect_yields _
    · exact finishEffect_yields _

/-- That the table is shown if the request is granted. -/
def Outcome.Shows (outcome : Outcome) (m : Match) : Prop :=
  outcome = .applied → m.Shown

theorem selectTarget_yields
    (hresolve : ∀ firing, Yields Match.Shown (resolve firing) fun _ => Match.Shown)
    (player : PlayerId) (choice : TargetChoice) :
    Yields P (selectTarget rules resolve player choice) Outcome.Shows := by
  refine .get_bind fun m => ?_
  split
  · exact .pure fun _ _ => nofun
  · split
    · exact .pure fun _ _ => nofun
    · split
      · exact .after fun _ => .pure fun _ _ => nofun
      · refine .after fun _ => .bind (resolveChosen_yields _ _) fun _ => ?_
        refine .bind (.get_bind fun _ => drain_yields hresolve _) fun _ => ?_
        exact .pure fun _ hm _ => hm

/-! ## Moves and cards -/

theorem requestMove_yields (player : PlayerId) (origin destination : String) (count : Nat) :
    Yields P (requestMove rules resolve player origin destination count) Outcome.Shows := by
  refine .get_bind fun m => ?_
  split
  · exact .pure fun _ _ => nofun
  · split
    · exact .pure fun _ _ => nofun
    · refine .after fun _ => .bind broadcastState_yields fun _ => ?_
      exact .pure fun _ hm _ => hm

theorem playCard_yields (player : PlayerId) (card : CardId) :
    Yields P (playCard rules resolve player card) Outcome.Shows := by
  refine .get_bind fun m => ?_
  split
  · exact .pure fun _ _ => nofun
  · split
    · exact .pure fun _ _ => nofun
    · split
      · exact .throw
      · split
        · exact .pure fun _ _ => nofun
        · refine .after fun _ => .after fun _ => .after fun _ => ?_
          refine .bind broadcastState_yields fun _ => ?_
          exact .pure fun _ hm _ => hm

end

/-! ## Turns -/

section

variable {rules : Rulebook} {scope : Scope} {resolve : Resolver} {m m' : Match} {now : Nat}

/-- Whoever is told that their turn starts sees the table as it is then. -/
theorem Opens.shown (h : Opens rules scope now m m') : m'.Shown := by
  cases h with
  | intro => exact Match.shown_broadcastViews _ (.turnStarted ..)

/-- **When a turn has passed everybody sees the table on which the next one starts.** -/
theorem Passes.shown (h : Passes rules scope now m m') : m'.Shown := by
  cases h with
  | intro _ _ opens => exact opens.shown

variable {F : Fault → Prop} {ids : List PlayerId} (hc : rules.catalog.Coherent)
  (hres : Resolves rules .all F ids resolve)

include hc hres

theorem stopTurn_yields (player : PlayerId) :
    Yields (Match.Fits rules.catalog ids) (stopTurn rules resolve player now) Outcome.Shows := by
  intro m outcome m' hm hrun
  rcases stopTurn_cases hc hres rfl hm player now with
    ⟨p, hpasses, hpassed⟩ | ⟨other, p, hother, -, hstays⟩
  · cases hpassed.symm.trans hrun
    exact fun _ => hpasses.shown
  · cases hstays.symm.trans hrun
    exact fun happlied => absurd happlied hother

theorem discardCards_yields (player : PlayerId) (cards : List CardId) :
    Yields (Match.Fits rules.catalog ids) (discardCards rules resolve player cards now)
      Outcome.Shows := by
  intro m outcome m' hm hrun
  rcases discardCards_cases hc hres rfl hm player cards now with
    ⟨_, p, -, -, hpasses, hpassed⟩ | ⟨other, p, hother, -, hstays⟩ | ⟨p, -, -, -, hfails⟩
  · cases hpassed.symm.trans hrun
    exact fun _ => hpasses.shown
  · cases hstays.symm.trans hrun
    exact fun happlied => absurd happlied hother
  · cases hfails.symm.trans hrun

/-! ## Requests -/

/-- **A request that is granted leaves the table shown.** -/
theorem handleIntent_yields
    (hresolve : ∀ firing, Yields Match.Shown (resolve firing) fun _ => Match.Shown)
    (player : PlayerId) (intent : Intent) :
    Yields (Match.Fits rules.catalog ids) (handleIntent rules resolve player intent now)
      Outcome.Shows := by
  cases intent with
  | register name deck => exact .pure fun _ _ => nofun
  | playCard card => exact playCard_yields player card
  | stopTurn => exact stopTurn_yields hc hres player
  | moveCards origin destination count => exact requestMove_yields player origin destination _
  | selectTarget choice => exact selectTarget_yields hresolve player choice
  | discardCards cards => exact discardCards_yields hc hres player cards

end

/-- **When a request has been granted, everybody has been shown the table as it is.**

Whoever can be reached, at a connection that no other player uses, got a view of the table, and
the last that they got is what they may see of it now.  The match has come about by any
operations; the request may have set off any effects, answered a question and raised another, or
ended a turn. -/
theorem granted_is_shown {rules : Rulebook} {m m' : Match} (hc : rules.catalog.Accepted)
    (h : Reachable rules m) (player : PlayerId) (intent : Intent) (now : Nat)
    (happlied : m.perform rules (.intent player intent now) = (.ok (.outcome .applied), m')) :
    ∀ viewer connection, m'.table.HasAlone viewer connection →
      (m'.views connection).getLast? = some (m'.table.snapshot (some viewer)) := by
  have hm : m.Fits rules.catalog m.table.playerIds := ⟨h.conforms hc.coherent, rfl⟩
  have hreach : Reachable rules m' := by
    have hstep := h.perform (.intent player intent now)
    rwa [happlied] at hstep
  have hids := (hreach.conforms hc.coherent).table.distinct hc.coherent
  have hshown : m'.Shown := by
    rw [Match.perform, performWith, run_map] at happlied
    rcases hrun : (handleIntent rules rules.resolver player intent now).run m with
      ⟨fault | outcome, p⟩ <;> rw [hrun] at happlied <;> cases happlied
    exact handleIntent_yields hc.coherent (resolver_resolves_all hc.coherent) resolver_yields
      player intent m _ p hm hrun rfl
  exact fun viewer connection halone => hshown.getLast?_views hids.seats halone

namespace Duel

/-- Ann's first archer asks whom to hit, and the second one waits. -/
def aiming : Match :=
  after book (deal ++ [.playCard ⟨0⟩ ⟨2⟩, .playCard ⟨0⟩ ⟨2⟩])

/-- Ann names Bob. -/
def struck : Match :=
  (aiming.perform book (.intent ⟨0⟩ (.selectTarget (.player ⟨1⟩)) 0)).2

/-- The first archer has hit and the second one asks; Bob saw last that he was hit. -/
theorem shown_struck :
    struck.session.pending = some ⟨.player, shot, ⟨1⟩, ⟨0⟩⟩ ∧
    (struck.table.player? ⟨1⟩).map (·.attributes.get? "Life") = some (some 17) ∧
    (struck.views ⟨2⟩).getLast? = some (struck.table.snapshot (some ⟨1⟩)) := by
  have happlied : (aiming.perform book (.intent ⟨0⟩ (.selectTarget (.player ⟨1⟩)) 0)).1
      = .ok (.outcome .applied) := by decide +kernel
  refine ⟨by decide +kernel, by decide +kernel, ?_⟩
  exact granted_is_shown accepted (reachable_after ..) _ _ _ (Prod.ext happlied rfl) ⟨1⟩ ⟨2⟩
    (by decide +kernel)

end Duel

end CardArena
