import Mathlib
import CardArena.Server
import CardArena.Proofs.Speech

/-!
# What a server does with a message

A server hears one message at a time and waits in between.  Whatever it hears, it does one of a few
things, and `Handles` lists them with the answers: it turns the message away, seats a player, begins
the match with the last seat, has the match do what a player asks for, or lets a player go.  What
comes last is that somebody may be judged to have been defeated; only after a stranger's request and
after a request that fails nobody looks (`Server.judged` is missing there).

`Serves` says how a server is used: it handles messages and waits, at any times, and runs over
inboxes.  The messages are listed with their answers, those of a run among them.  A run handles
messages and waits, so that what both keep it keeps too (`Serves.induction`).

Most laws need not know which message it was.  For them a server does its work in single deeds, of
which there are three sorts (`Deed`): the match plays on, a seat is taken, or a player goes.

* `handle_cases` : what comes of a message.
* `Serves.of_deeds` : what a new server has and every deed keeps, a server has however it is used.
-/

namespace CardArena

open Relation (ReflTransGen)

/-- A match that is under way is not over. -/
theorem Table.isEnded_of_isRunning {t : Table} (h : t.isRunning) : t.isEnded = false := by
  have hstatus : t.turn.status = .running := of_decide_eq_true h
  rw [isEnded, hstatus]

/-! ## Running a step of a server -/

namespace Serve

theorem run_bind (x : Serve α) (k : α → Serve β) (s : Server) :
    (x >>= k).run s = match x.run s with
      | (.ok a, s') => (k a).run s'
      | (.error f, s') => (.error f, s') := by
  show ExceptT.bindCont k (x.run s).1 (x.run s).2 = _
  obtain ⟨_ | _, _⟩ := x.run s <;> rfl

theorem run_bind_ok {x : Serve α} {s s' : Server} {a : α} (h : x.run s = (.ok a, s'))
    (k : α → Serve β) : (x >>= k).run s = (k a).run s' := by
  rw [run_bind, h]

theorem run_bind_error {x : Serve α} {s s' : Server} {f : Fault} (h : x.run s = (.error f, s'))
    (k : α → Serve β) : (x >>= k).run s = (.error f, s') := by
  rw [run_bind, h]

theorem run_get_bind (k : Server → Serve β) (s : Server) : (get >>= k).run s = (k s).run s := rfl

theorem run_modify_bind (f : Server → Server) (k : Unit → Serve β) (s : Server) :
    (modify f >>= k).run s = (k ()).run (f s) := rfl

/-- A step of the match is a step of the server that does nothing else. -/
theorem run_playing (step : Play α) (s : Server) :
    (Server.playing step).run s
      = ((step.run s.game).1, { s with game := (step.run s.game).2 }) := rfl

/-- A step that is tried never fails, and what it fails with is not asked. -/
theorem run_try (x : Serve α) (s : Server) :
    (tryCatch (some <$> x) fun _ => pure none : Serve (Option α)).run s
      = match x.run s with
        | (.ok a, s') => (.ok (some a), s')
        | (.error _, s') => (.ok none, s') := by
  have hmap : (some <$> x).run s = (x >>= fun a => pure (some a)).run s := rfl
  have hbind {β γ : Type} (y : StateM Server β) (k : β → StateM Server γ) :
      (y >>= k) s = k (y s).1 (y s).2 := rfl
  rw [ExceptT.run_tryCatch, hbind, hmap, run_bind]
  obtain ⟨_ | _, _⟩ := x.run s <;> rfl

end Serve

namespace Server

variable {rules : Rulebook} {s s' : Server}

/-! ## What a server does -/

/-- The server after an operation on its match, whatever it answers. -/
def doing (s : Server) (rules : Rulebook) (op : Operation) : Server :=
  { s with game := (s.game.perform rules op).2 }

/-- A connection takes the next seat. -/
def seating (s : Server) (rules : Rulebook) (name : String) (connection : ConnectionId)
    (deck : List CardId) : Server where
  game := s.game.seat rules name connection deck
  seats := s.seats ++ [(connection, ⟨UInt8.ofNat s.game.table.players.length⟩)]

/-- The server once somebody who is defeated has ended the match. -/
def judged (s : Server) (rules : Rulebook) : Server :=
  s.after (checkDefeat rules)

/-- The server once a match that nobody is left in has ended. -/
def abandoned (s : Server) : Server :=
  s.after endIfAbandoned

theorem endGame_run (rules : Rulebook) (winner : Option PlayerId) (s : Server) :
    (playing (endGame winner)).run s = (.ok (), s.doing rules (.endGame winner)) := by
  have hdone : (s.game.perform rules (.endGame winner)).2 = ((endGame winner).run s.game).2 :=
    Play.run_bind_pure _ _ _
  have hok : ((endGame winner).run s.game).1 = .ok () := by
    rw [endGame, Play.run_get_bind]
    split <;> rfl
  rw [Serve.run_playing, hok, doing, hdone]

/-- A match that is not over yet ends, and everybody is told who has won. -/
theorem doing_endGame (rules : Rulebook) (hon : s.game.table.isEnded = false)
    (winner : Option PlayerId) : (s.doing rules (.endGame winner)).game
      = (s.game.finish winner).broadcast (.gameEnded winner) := by
  rw [doing, Match.perform, performWith, thenDone, Play.run_bind_pure, endGame, Play.run_get_bind,
    if_pos (by rw [hon]; rfl)]
  rfl

theorem checkDefeat_run (s : Server) : (checkDefeat rules).run s = (.ok (), s.judged rules) := by
  suffices ((checkDefeat rules).run s).1 = .ok () from Prod.ext this rfl
  rw [checkDefeat, Serve.run_get_bind]
  dsimp only
  split
  · rfl
  · split
    · rw [endGame_run rules]
    · rfl

/-- Nobody is defeated, or the match ends with those who are not as candidates. -/
theorem judged_cases (rules : Rulebook) (s : Server) :
    (s.judged rules = s ∧ ∀ attr, rules.config.defeatAttribute = some attr →
      s.game.table.isRunning → defeated s.game.table attr = []) ∨
    ∃ attr, rules.config.defeatAttribute = some attr ∧ s.game.table.isRunning ∧
      defeated s.game.table attr ≠ [] ∧
      s.judged rules = s.doing rules (.endGame (winner? s.game.table attr)) := by
  rw [judged, after, checkDefeat, Serve.run_get_bind]
  dsimp only
  cases hattr : rules.config.defeatAttribute with
  | none => exact .inl ⟨rfl, nofun⟩
  | some attr =>
      dsimp only
      split
      · next hover =>
          simp only [Bool.and_eq_true, Bool.not_eq_true', List.isEmpty_eq_false_iff] at hover
          refine .inr ⟨attr, rfl, hover.1, hover.2, ?_⟩
          rw [endGame_run rules]
      · next hon =>
          refine .inl ⟨rfl, fun _ h hrunning => ?_⟩
          cases h
          simpa [hrunning] using hon

theorem endIfAbandoned_run (s : Server) : (endIfAbandoned).run s = (.ok (), s.abandoned) := by
  suffices (endIfAbandoned.run s).1 = .ok () from Prod.ext this rfl
  rw [endIfAbandoned, Serve.run_get_bind]
  dsimp only
  split
  · rw [endGame_run default]
  · rfl

theorem abandoned_cases (rules : Rulebook) (s : Server) :
    (s.abandoned = s ∧ (s.game.table.isRunning → s.game.table.connected ≠ [])) ∨
    (s.game.table.isRunning ∧ s.game.table.connected = [] ∧
      s.abandoned = s.doing rules (.endGame none)) := by
  rw [abandoned, after, endIfAbandoned, Serve.run_get_bind]
  dsimp only
  split
  · next hover =>
      simp only [Bool.and_eq_true, List.isEmpty_iff] at hover
      refine .inr ⟨hover.1, hover.2, ?_⟩
      rw [endGame_run rules]
  · next hon =>
      refine .inl ⟨rfl, fun hrunning => ?_⟩
      simpa [hrunning] using hon

/-! ## What a message comes to -/

/-- A seat is taken only while there is room. -/
theorem room_of_registerPlayer {m m' : Match} {name : String} {connection : ConnectionId}
    {deck : List CardId} {id : PlayerId}
    (h : (registerPlayer rules name connection deck).run m = (.ok id, m')) :
    m.table.players.length < rules.config.playersPerMatch.toNat := by
  by_contra hfull
  rw [registerPlayer, Play.run_get_bind] at h
  dsimp only at h
  split at h
  · cases h
  · rw [if_pos (Nat.le_of_not_lt hfull)] at h
    cases h

/-- A connection may take the next seat. -/
structure Welcomes (s : Server) (rules : Rulebook) (connection : ConnectionId) (name : String)
    (deck : List CardId) : Prop where
  unknown : s.playerFor? connection = none
  opened : s.game.Open rules deck
  room : s.game.table.players.length < rules.config.playersPerMatch.toNat
  registered : (s.game.perform rules (.register name connection deck)).2
    = s.game.seat rules name connection deck

/-- What a message comes to: the answer, and the server afterwards. -/
inductive Handles (rules : Rulebook) (now : Nat) (s : Server) :
    Inbound → Except Fault Outcome → Server → Prop
  /-- A stranger asks for something. -/
  | stranger {connection : ConnectionId} {intent : Intent}
      (unknown : s.playerFor? connection = none) :
      Handles rules now s (.intent connection intent) (.ok (.rejected .unknownConnection)) s
  | refused {connection : ConnectionId} {name : String} {deck : List CardId} {reason : Refusal} :
      Handles rules now s (.intent connection (.register name deck)) (.ok (.rejected reason))
        (s.judged rules)
  | seated {connection : ConnectionId} {name : String} {deck : List CardId}
      (welcome : s.Welcomes rules connection name deck)
      (more : s.seats.length + 1 ≠ rules.config.playersPerMatch.toNat) :
      Handles rules now s (.intent connection (.register name deck)) (.ok .applied)
        ((s.seating rules name connection deck).judged rules)
  /-- The last seat is taken, and the match begins. -/
  | begun {connection : ConnectionId} {name : String} {deck : List CardId}
      (welcome : s.Welcomes rules connection name deck)
      (last : s.seats.length + 1 = rules.config.playersPerMatch.toNat)
      (begins : Begins rules .all now (s.game.seat rules name connection deck)
        ((s.seating rules name connection deck).doing rules (.start now)).game) :
      Handles rules now s (.intent connection (.register name deck)) (.ok .applied)
        (((s.seating rules name connection deck).doing rules (.start now)).judged rules)
  | done {connection : ConnectionId} {player : PlayerId} {intent : Intent} {outcome : Outcome}
      (known : s.playerFor? connection = some player)
      (other : ∀ name deck, intent ≠ .register name deck) :
      Handles rules now s (.intent connection intent) (.ok outcome)
        ((s.doing rules (.intent player intent now)).judged rules)
  /-- Nobody is judged after an intent that fails. -/
  | failed {connection : ConnectionId} {player : PlayerId} {intent : Intent} {fault : Fault}
      (known : s.playerFor? connection = some player) :
      Handles rules now s (.intent connection intent) (.error fault)
        (s.doing rules (.intent player intent now))
  | passed {connection : ConnectionId} (unknown : s.playerFor? connection = none) :
      Handles rules now s (.disconnected connection) (.ok .applied) (s.judged rules)
  | gone {connection : ConnectionId} {player : PlayerId}
      (known : s.playerFor? connection = some player) :
      Handles rules now s (.disconnected connection) (.ok .applied)
        ((s.doing rules (.disconnect player)).abandoned.judged rules)

/-- A match that has its players and has not begun begins. -/
theorem start_run (hc : rules.catalog.Coherent) (hm : s.game.Conforms rules.catalog)
    (hseated : s.game.table.players ≠ []) (hnew : s.game.table.turn.status = .notStarted)
    (now : Nat) :
    Begins rules .all now s.game (s.doing rules (.start now)).game ∧
      (playing (startGame rules rules.resolver now)).run s = (.ok (), s.doing rules (.start now)) := by
  obtain ⟨m', hbegins, hstart⟩ :=
    startGame_run hc (resolver_resolves_all hc) rfl ⟨hm, rfl⟩ hseated hnew now
  have hgame : (s.game.perform rules (.start now)).2 = m' :=
    (Play.run_bind_pure _ _ _).trans (congrArg Prod.snd hstart)
  rw [Serve.run_playing, hstart, doing, hgame]
  exact ⟨hbegins, rfl⟩

theorem register_cases (hc : rules.catalog.Coherent) (hm : s.game.Conforms rules.catalog)
    (connection : ConnectionId) (name : String) (deck : List CardId) (now : Nat) :
    (∃ reason, (register rules connection name deck now).run s = (.ok (.rejected reason), s)) ∨
    ∃ s', (register rules connection name deck now).run s = (.ok .applied, s') ∧
      Handles rules now s (.intent connection (.register name deck)) (.ok .applied)
        (s'.judged rules) := by
  rw [register, Serve.run_get_bind]
  cases hknown : s.playerFor? connection with
  | some player => exact .inl ⟨.alreadyRegistered, rfl⟩
  | none =>
      rw [Option.isSome_none, if_neg Bool.false_ne_true, Serve.run_bind, Serve.run_try,
        Serve.run_playing]
      rcases registerPlayer_cases rules s.game name connection deck with
        ⟨f, hrun⟩ | ⟨hopen, hrun⟩ <;> rw [hrun]
      · exact .inl ⟨.registrationRefused, rfl⟩
      · refine .inr ?_
        have hwelcome : s.Welcomes rules connection name deck := by
          refine ⟨hknown, hopen, room_of_registerPlayer hrun, ?_⟩
          rw [Match.perform, performWith, Play.run_map, hrun]
        dsimp only
        rw [Serve.run_modify_bind, Serve.run_get_bind]
        split
        · next hlast =>
            have hlast : s.seats.length + 1 = rules.config.playersPerMatch.toNat :=
              List.length_append.symm.trans hlast
            obtain ⟨hbegins, hstart⟩ := start_run (s := s.seating rules name connection deck) hc
              (hopen.conforms_seat hm name connection)
              (List.append_ne_nil_of_right_ne_nil _ (List.cons_ne_nil _ _))
              hopen.notStarted now
            exact ⟨_, Serve.run_bind_ok hstart _, .begun hwelcome hlast hbegins⟩
        · next hmore =>
            have hmore : s.seats.length + 1 ≠ rules.config.playersPerMatch.toNat :=
              fun h => hmore (List.length_append.trans h)
            exact ⟨_, rfl, .seated hwelcome hmore⟩

/-- What is done for a connection that asks for something other than a seat. -/
def request (rules : Rulebook) (connection : ConnectionId) (intent : Intent) (now : Nat) :
    Serve Outcome := do
  match (← get).playerFor? connection with
  | none => return .rejected .unknownConnection
  | some player =>
    let outcome ← playing (handleIntent rules rules.resolver player intent now)
    checkDefeat rules
    return outcome

/-- Whatever else a connection asks for, its player asks the match for. -/
theorem handle_intent_cases {connection : ConnectionId} {intent : Intent}
    (hother : ∀ name deck, intent ≠ .register name deck) (now : Nat) :
    Handles rules now s (.intent connection intent)
      ((handle rules (.intent connection intent) now).run s).1
      (s.after (handle rules (.intent connection intent) now)) := by
  have hhandle : handle rules (.intent connection intent) now
      = request rules connection intent now := by
    cases intent with
    | register name deck => exact absurd rfl (hother name deck)
    | _ => rfl
  rw [after, hhandle, request, Serve.run_get_bind]
  cases hknown : s.playerFor? connection with
  | none => exact .stranger hknown
  | some player =>
      dsimp only
      have hgame : (s.game.perform rules (.intent player intent now)).2
          = ((handleIntent rules rules.resolver player intent now).run s.game).2 := by
        rw [Match.perform, performWith, Play.run_map]
      have hplay := Serve.run_playing (handleIntent rules rules.resolver player intent now) s
      rw [← hgame] at hplay
      cases hanswer : ((handleIntent rules rules.resolver player intent now).run s.game).1 with
      | error fault =>
          rw [hanswer] at hplay
          rw [Serve.run_bind_error hplay]
          exact .failed hknown
      | ok outcome =>
          rw [hanswer] at hplay
          rw [Serve.run_bind_ok hplay, Serve.run_bind_ok (checkDefeat_run _)]
          exact .done hknown hother

theorem drop_run (rules : Rulebook) (connection : ConnectionId) (s : Server) :
    (drop connection).run s = (.ok (), match s.playerFor? connection with
      | none => s
      | some player => (s.doing rules (.disconnect player)).abandoned) := by
  rw [drop, Serve.run_get_bind]
  cases s.playerFor? connection with
  | none => rfl
  | some player =>
      have hgone : (playing (disconnect player)).run s = (.ok (), s.doing rules (.disconnect player)) :=
        rfl
      rw [Serve.run_bind_ok hgone, endIfAbandoned_run]

/-- **What a server does with a message.** -/
theorem handle_cases (hc : rules.catalog.Coherent) (hm : s.game.Conforms rules.catalog)
    (message : Inbound) (now : Nat) :
    Handles rules now s message ((handle rules message now).run s).1
      (s.after (handle rules message now)) := by
  have hjudge {outcome : Outcome} (s₁ : Server) :
      (checkDefeat rules >>= fun _ => pure outcome : Serve Outcome).run s₁
        = (.ok outcome, s₁.judged rules) :=
    Serve.run_bind_ok (checkDefeat_run s₁) _
  cases message with
  | disconnected connection =>
      rw [after, handle, Serve.run_bind_ok (drop_run rules connection s), hjudge]
      cases hknown : s.playerFor? connection with
      | none => exact .passed hknown
      | some player => exact .gone hknown
  | intent connection intent =>
      by_cases hregister : ∃ name deck, intent = .register name deck
      · obtain ⟨name, deck, rfl⟩ := hregister
        rw [after, handle]
        rcases register_cases hc hm connection name deck now with ⟨reason, hrun⟩ | ⟨s', hrun, h⟩ <;>
          rw [Serve.run_bind_ok hrun, hjudge]
        · exact .refused
        · exact h
      · exact handle_intent_cases (fun name deck h => hregister ⟨name, deck, h⟩) now

/-! ## Service -/

/-- What follows a wait is what the clock does, and the check of who is defeated. -/
theorem settle_eq (s : Server) (now : Nat) :
    s.settle rules now = (s.doing rules (.tick now)).judged rules := by
  have hgame : (s.game.perform rules (.tick now)).2 = ((tick rules rules.resolver now).run s.game).2 := by
    rw [Match.perform, performWith, Play.run_map]
  rw [doing, hgame]
  rfl

end Server

/-- A message and the answer to it. -/
structure Exchange where
  message : Inbound
  answer : Except Fault Outcome

namespace Server

/-- A message with the answer that the server gives to it. -/
def exchange (s : Server) (rules : Rulebook) (message : Inbound) (now : Nat) : Exchange :=
  ⟨message, ((handle rules message now).run s).1⟩

/-- The messages that are served in a run, each with the answer to it. -/
def exchanges (s : Server) (rules : Rulebook) (inbox : Inbox) (now : Nat) : Nat → List Exchange
  | 0 => []
  | rounds + 1 =>
    if s.game.table.isEnded then
      []
    else
      match inbox.receive s.game.deadline with
      | (.closed, _) => []
      | (.message message, inbox) =>
        s.exchange rules message now ::
          (s.serve rules (some message) now).exchanges rules inbox now rounds
      | (.timedOut deadline, inbox) =>
        (s.serve rules none (max now deadline)).exchanges rules inbox (max now deadline) rounds

/-- One server comes from another by service: it handles messages, waits, and runs over inboxes, each
at any time.  The messages that it handles meanwhile are listed with their answers. -/
inductive Serves (rules : Rulebook) (s : Server) : List Exchange → Server → Prop
  | rest : Serves rules s [] s
  | handle {log : List Exchange} {s' : Server} (message : Inbound) (now : Nat)
      (h : Serves rules s log s') :
      Serves rules s (log ++ [s'.exchange rules message now]) (s'.after (handle rules message now))
  | settle {log : List Exchange} {s' : Server} (now : Nat) (h : Serves rules s log s') :
      Serves rules s log (s'.settle rules now)
  | run {log : List Exchange} {s' : Server} (inbox : Inbox) (now rounds : Nat)
      (h : Serves rules s log s') :
      Serves rules s (log ++ s'.exchanges rules inbox now rounds) (s'.run rules inbox now rounds).1

/-- A server before its first message. -/
def fresh (rules : Rulebook) (handle : Nat → LiveId) (dice : Dice) : Server where
  game := .opening rules.config handle dice

/-! ### In single deeds -/

/-- One thing that a server does: it plays on, somebody takes a seat, or somebody leaves. -/
inductive Deed (rules : Rulebook) (s : Server) : Server → Prop
  | plays {op : Operation} (seated : op.keepsSeats = true) : Deed rules s (s.doing rules op)
  | seats {connection : ConnectionId} {name : String} {deck : List CardId}
      (welcome : s.Welcomes rules connection name deck) :
      Deed rules s (s.seating rules name connection deck)
  | leaves {connection : ConnectionId} {player : PlayerId}
      (known : s.playerFor? connection = some player) :
      Deed rules s (s.doing rules (.disconnect player))

theorem deeds_judged (s : Server) : ReflTransGen (Deed rules) s (s.judged rules) := by
  rcases s.judged_cases rules with ⟨heq, -⟩ | ⟨attr, -, -, -, heq⟩ <;> rw [heq]
  exact .single (.plays rfl)

theorem deeds_abandoned (s : Server) : ReflTransGen (Deed rules) s s.abandoned := by
  rcases s.abandoned_cases rules with ⟨heq, -⟩ | ⟨-, -, heq⟩ <;> rw [heq]
  exact .single (.plays rfl)

/-- **To handle a message is a chain of deeds.** -/
theorem Handles.deeds {now : Nat} {message : Inbound} {answer : Except Fault Outcome}
    (h : Handles rules now s message answer s') : ReflTransGen (Deed rules) s s' := by
  cases h with
  | stranger => exact .refl
  | refused | passed => exact s.deeds_judged
  | seated welcome => exact .head (.seats welcome) (deeds_judged _)
  | begun welcome => exact .head (.seats welcome) (.head (.plays rfl) (deeds_judged _))
  | done => exact .head (.plays rfl) (deeds_judged _)
  | failed => exact .single (.plays rfl)
  | gone known =>
      exact .head (.leaves known) ((deeds_abandoned _).trans (deeds_judged _))

theorem settle_deeds (rules : Rulebook) (s : Server) (now : Nat) :
    ReflTransGen (Deed rules) s (s.settle rules now) := by
  rw [settle_eq]
  exact .head (.plays rfl) (deeds_judged _)

theorem Deed.reachable (h : Deed rules s s') (hs : Reachable rules s.game) :
    Reachable rules s'.game := by
  cases h with
  | plays => exact hs.perform _
  | seats welcome =>
      show Reachable rules (s.game.seat rules _ _ _)
      rw [← welcome.registered]
      exact hs.perform _
  | leaves => exact hs.perform _

/-! ### Over and over -/

/-- What handling a message and waiting keep, a run keeps. -/
theorem run_induction {P : List Exchange → Server → Prop}
    (handle : ∀ log s message now, P log s →
      P (log ++ [s.exchange rules message now]) (s.after (handle rules message now)))
    (settle : ∀ log s now, P log s → P log (s.settle rules now)) (rounds : Nat) :
    ∀ {log : List Exchange} {s : Server} (inbox : Inbox) (now : Nat), P log s →
      P (log ++ s.exchanges rules inbox now rounds) (s.run rules inbox now rounds).1 := by
  induction rounds with
  | zero =>
      intro log s inbox now h
      rwa [exchanges, List.append_nil]
  | succ rounds ih =>
      intro log s inbox now h
      rw [exchanges, run]
      by_cases hended : s.game.table.isEnded = true
      · rwa [if_pos hended, if_pos hended, List.append_nil]
      · rw [if_neg hended, if_neg hended]
        cases inbox.receive s.game.deadline with
        | mk received rest =>
            cases received with
            | closed => rwa [List.append_nil]
            | message message =>
                dsimp only
                rw [List.append_cons]
                exact ih rest now (settle _ _ now (handle _ _ message now h))
            | timedOut deadline => exact ih rest _ (settle _ _ _ h)

/-- **What handling a message and waiting keep, all service keeps.** -/
theorem Serves.induction {P : List Exchange → Server → Prop}
    (handle : ∀ log s message now, P log s →
      P (log ++ [s.exchange rules message now]) (s.after (Server.handle rules message now)))
    (settle : ∀ log s now, P log s → P log (s.settle rules now)) {log : List Exchange}
    (h : Serves rules s log s') (hs : P [] s) : P log s' := by
  induction h with
  | rest => exact hs
  | handle message now _ ih => exact handle _ _ message now ih
  | settle now _ ih => exact settle _ _ now ih
  | run inbox now rounds _ ih => exact run_induction handle settle rounds inbox now ih

theorem reachable_of_deeds (h : ReflTransGen (Deed rules) s s') (hs : Reachable rules s.game) :
    Reachable rules s'.game := by
  induction h with
  | refl => exact hs
  | tail _ hdeed ih => exact hdeed.reachable ih

theorem keep_of_deeds {P : Server → Prop}
    (deed : ∀ s s', Reachable rules s.game → Deed rules s s' → P s → P s')
    (h : ReflTransGen (Deed rules) s s') (hgame : Reachable rules s.game) (hs : P s) : P s' := by
  induction h with
  | refl => exact hs
  | tail hpath hdeed ih => exact deed _ _ (reachable_of_deeds hpath hgame) hdeed ih

/-- **What every deed keeps, a server keeps however it is used.** -/
theorem Serves.of_deeds (hc : rules.catalog.Coherent) {P : Server → Prop}
    (deed : ∀ s s', Reachable rules s.game → Deed rules s s' → P s → P s') {log : List Exchange}
    (h : Serves rules s log s') (hgame : Reachable rules s.game) (hs : P s) :
    Reachable rules s'.game ∧ P s' := by
  refine h.induction (P := fun _ s => Reachable rules s.game ∧ P s) ?_ ?_ ⟨hgame, hs⟩
  · rintro _ s message now ⟨hgame, hs⟩
    have hdeeds := (handle_cases hc (hgame.conforms hc) message now).deeds
    exact ⟨reachable_of_deeds hdeeds hgame, keep_of_deeds deed hdeeds hgame hs⟩
  · rintro _ s now ⟨hgame, hs⟩
    have hdeeds := s.settle_deeds rules now
    exact ⟨reachable_of_deeds hdeeds hgame, keep_of_deeds deed hdeeds hgame hs⟩

/-- Service goes on where it has come to. -/
theorem Serves.trans {s'' : Server} {log log' : List Exchange} (h : Serves rules s log s')
    (h' : Serves rules s' log' s'') : Serves rules s (log ++ log') s'' := by
  induction h' with
  | rest => rwa [List.append_nil]
  | handle message now _ ih =>
      rw [← List.append_assoc]
      exact .handle message now ih
  | settle now _ ih => exact .settle now ih
  | run inbox now rounds _ ih =>
      rw [← List.append_assoc]
      exact .run inbox now rounds ih

/-- Of each message of the log there is the moment when it was handled. -/
def Traces (rules : Rulebook) (s : Server) (log : List Exchange) (s' : Server) : Prop :=
  ∀ before e after, log = before ++ e :: after →
    ∃ s₁ now, Serves rules s before s₁ ∧ s₁.exchange rules e.message now = e ∧
      Serves rules (s₁.after (handle rules e.message now)) after s'

theorem Traces.handle {log : List Exchange} (h : Traces rules s log s')
    (hlog : Serves rules s log s') (message : Inbound) (now : Nat) :
    Traces rules s (log ++ [s'.exchange rules message now])
      (s'.after (Server.handle rules message now)) := by
  intro before e after heq
  rcases List.eq_nil_or_concat after with rfl | ⟨after, last, rfl⟩
  · obtain ⟨rfl, hlast⟩ := List.append_inj' heq rfl
    cases hlast
    exact ⟨s', now, hlog, rfl, .rest⟩
  · rw [List.concat_eq_append, ← List.cons_append, ← List.append_assoc] at heq
    obtain ⟨hbefore, hlast⟩ := List.append_inj' heq rfl
    cases hlast
    obtain ⟨s₁, earlier, h₁, he, h₂⟩ := h _ _ _ hbefore
    rw [List.concat_eq_append]
    exact ⟨s₁, earlier, h₁, he, .handle message now h₂⟩

/-- **Whatever message a server has handled, within a run or not, there was the moment when it did.** -/
theorem Serves.traces {log : List Exchange} (h : Serves rules s log s') :
    Traces rules s log s' := by
  refine (h.induction (P := fun log s' => Serves rules s log s' ∧ Traces rules s log s')
    ?_ ?_ ⟨.rest, fun _ _ _ heq => ?_⟩).2
  · rintro log s' message now ⟨hlog, htraces⟩
    exact ⟨.handle message now hlog, htraces.handle hlog message now⟩
  · rintro log s' now ⟨hlog, htraces⟩
    refine ⟨.settle now hlog, fun before e after heq => ?_⟩
    obtain ⟨s₁, earlier, h₁, he, h₂⟩ := htraces before e after heq
    exact ⟨s₁, earlier, h₁, he, .settle now h₂⟩
  · simp at heq

end Server

end CardArena
