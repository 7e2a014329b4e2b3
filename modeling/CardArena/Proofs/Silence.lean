import Mathlib
import CardArena.Proofs.Seating

/-!
# Silence after a connection has gone

Whatever a match says, it says to players who can be reached, each at their connection
(`Table.Says.reached`).  A connection that had a seat and has gone reaches nobody: its one seat is
disconnected and stays so, nobody else is seated at it, and it does not get another seat, because the
server still knows it.  This is `Server.Lost`; every single deed of a server keeps it and says nothing
to the connection (`Server.Deed.hushed`), whatever the deed is and whether or not it fails.

* `silence_after_disconnect` : nothing is sent to a connection once it has gone.
-/

namespace CardArena

open Relation (ReflTransGen)

variable {rules : Rulebook} {m m' : Match} {connection : ConnectionId}

/-! ## Who hears anything -/

/-- Whoever is told something can be reached. -/
theorem Table.Says.reached {t : Table} {mail : List (ConnectionId × Message)} (h : t.Says mail)
    {letter : ConnectionId × Message} (hletter : letter ∈ mail) : 0 < t.reached letter.1 := by
  have hthere {seat : Player} (hseat : seat ∈ t.connected) : 0 < t.reached seat.connection :=
    List.countP_pos_iff.mpr ⟨seat, hseat, decide_eq_true rfl⟩
  cases h with
  | nothing => cases hletter
  | news | views =>
      obtain ⟨seat, hseat, rfl⟩ := List.mem_map.mp hletter
      exact hthere hseat
  | question =>
      obtain ⟨seat, hseat, rfl⟩ := List.mem_map.mp hletter
      obtain ⟨hfound, hreached⟩ := Option.filter_eq_some_iff.mp (Option.mem_toList.mp hseat)
      exact hthere (List.mem_filter.mpr ⟨(Table.mem_of_player? hfound).1, hreached⟩)

theorem Table.reached_eq_zero_iff {t : Table} : t.reached connection = 0 ↔
    ∀ seat ∈ t.players, seat.connection = connection → seat.isConnected = false := by
  simp only [Table.reached, List.countP_eq_zero, Table.connected, List.mem_filter, and_imp,
    decide_eq_true_eq]
  refine forall_congr' fun seat => forall_congr' fun _ => ?_
  cases seat.isConnected <;> simp

theorem Match.Utters.sentTo (h : m.Utters m') (hgone : m'.table.reached connection = 0) :
    m'.outbox.sentTo connection = m.outbox.sentTo connection := by
  obtain ⟨mail, hmail, houtbox, -⟩ := h
  have hnothing : mail.filter (·.1 = connection) = [] := by
    refine List.filter_eq_nil_iff.mpr fun letter hletter hhere => ?_
    have hheard := hmail.reached hletter
    rw [of_decide_eq_true hhere, hgone] at hheard
    cases hheard
  rw [Outbox.sentTo, Outbox.sentTo, houtbox, List.filter_append, hnothing, List.append_nil]

/-- **Where nobody is reached in the end, nothing was said on the way.** -/
theorem Match.Talks.sentTo (h : m.Talks m') (hgone : m'.table.reached connection = 0) :
    m'.outbox.sentTo connection = m.outbox.sentTo connection := by
  have hkept : Play.Kept (fun a => a.outbox.sentTo connection = m.outbox.sentTo connection)
      fun a b => a.Utters b ∧ b.table.lines = m'.table.lines := by
    rintro a b ⟨hutters, hlines⟩ ha
    have hreached : b.table.reached connection = 0 := by
      rw [Table.reached_eq_lines, hlines, ← Table.reached_eq_lines, hgone]
    exact (hutters.sentTo hreached).trans ha
  exact hkept.chain h rfl

/-! ## Connections that have gone -/

namespace Server

variable {s s' : Server}

/-- The connection had a seat and nobody is reached there any more. -/
structure Lost (connection : ConnectionId) (s : Server) : Prop where
  known : (s.playerFor? connection).isSome
  gone : s.game.table.reached connection = 0

/-- A connection that has gone stays away, and nothing is said to it. -/
structure Hushed (connection : ConnectionId) (s s' : Server) : Prop where
  lost : s'.Lost connection
  silent : s'.game.outbox.sentTo connection = s.game.outbox.sentTo connection

/-- Whoever goes cannot be reached any more, and nobody comes back by that. -/
theorem reached_disconnect {player : PlayerId}
    (h : ∀ seat ∈ s.game.table.players, seat.connection = connection → seat.id ≠ player →
      seat.isConnected = false) :
    (s.doing rules (.disconnect player)).game.table.reached connection = 0 := by
  refine Table.reached_eq_zero_iff.mpr fun seat hseat hhere => ?_
  obtain ⟨old, hold, rfl⟩ := List.mem_map.mp hseat
  by_cases hplayer : old.id = player
  · rw [if_pos hplayer]
  · rw [if_neg hplayer] at hhere ⊢
    exact h old hold hhere hplayer

/-- **A connection that has gone hears nothing of what a server does, and does not come back.** -/
theorem Deed.hushed (hc : rules.catalog.Coherent) (hgame : Reachable rules s.game)
    (h : Deed rules s s') (hlost : s.Lost connection) : s.Hushed connection s' := by
  obtain ⟨hknown, hgone⟩ := hlost
  cases h with
  | @plays op hkeeps =>
      have hreached : (s.doing rules op).game.table.reached connection = 0 := by
        rw [Table.reached_eq_lines, s.lines_doing hc hgame op hkeeps, ← Table.reached_eq_lines, hgone]
      exact ⟨⟨hknown, hreached⟩, (hgame.talks hc op).sentTo hreached⟩
  | @seats other name deck welcome =>
      have hother : other ≠ connection := by
        rintro rfl
        rw [welcome.unknown] at hknown
        cases hknown
      have hreached : (s.seating rules name other deck).game.table.reached connection = 0 := by
        refine Table.reached_eq_zero_iff.mpr fun seat hseat hhere => ?_
        rcases List.mem_append.mp hseat with hold | hnew
        · exact Table.reached_eq_zero_iff.mp hgone seat hold hhere
        · rw [List.mem_singleton.mp hnew] at hhere
          exact absurd hhere hother
      have htalks := hgame.talks hc (.register name other deck)
      rw [welcome.registered] at htalks
      refine ⟨⟨?_, hreached⟩, htalks.sentTo hreached⟩
      rw [playerFor?, seating, List.lookup_append, Option.isSome_or]
      exact Bool.or_eq_true_iff.mpr (.inl hknown)
  | @leaves _ player =>
      have hreached : (s.doing rules (.disconnect player)).game.table.reached connection = 0 :=
        reached_disconnect fun seat hseat hhere _ => Table.reached_eq_zero_iff.mp hgone seat hseat hhere
      exact ⟨⟨hknown, hreached⟩, (hgame.talks hc (.disconnect player)).sentTo hreached⟩

theorem Hushed.deed (hc : rules.catalog.Coherent) {s₁ : Server} (h : s.Hushed connection s₁)
    (hgame : Reachable rules s₁.game) (hdeed : Deed rules s₁ s') : s.Hushed connection s' := by
  obtain ⟨hlost, hsilent⟩ := hdeed.hushed hc hgame h.lost
  exact ⟨hlost, hsilent.trans h.silent⟩

/-- A connection that has a seat is lost as soon as it goes. -/
theorem Listed.hushed_handle (hc : rules.catalog.Coherent) (hgame : Reachable rules s.game)
    {taken : List ConnectionId} (h : s.Listed rules taken) (hseat : connection ∈ taken) (now : Nat) :
    s.Hushed connection (s.after (handle rules (.disconnected connection) now)) := by
  have hhandles := handle_cases hc (hgame.conforms hc) (.disconnected connection) now
  generalize s.after (handle rules (.disconnected connection) now) = s' at hhandles
  generalize ((handle rules (.disconnected connection) now).run s).1 = answer at hhandles
  cases hhandles with
  | passed hunknown => exact absurd hseat (h.unknown_iff.mp hunknown)
  | @gone _ player hplayer =>
      have hreached : (s.doing rules (.disconnect player)).game.table.reached connection = 0 := by
        refine reached_disconnect fun seat hseat hhere hother => ?_
        have hfound := h.playerFor?_iff.mpr ⟨seat, hseat, rfl, hhere⟩
        exact absurd (Option.some.inj (hfound.symm.trans hplayer)) hother
      have hleft : s.Hushed connection (s.doing rules (.disconnect player)) :=
        ⟨⟨Option.isSome_of_eq_some hplayer, hreached⟩,
          (hgame.talks hc (.disconnect player)).sentTo hreached⟩
      exact keep_of_deeds (fun _ _ hgame hdeed h => h.deed hc hgame hdeed)
        ((deeds_abandoned _).trans (deeds_judged _)) (hgame.perform _) hleft

/-- Nor does a connection that has gone hear anything of what a server does later. -/
theorem Hushed.serves (hc : rules.catalog.Coherent) {s₁ : Server} (h : s.Hushed connection s₁)
    (hgame : Reachable rules s₁.game) {log : List Exchange} (hserves : Serves rules s₁ log s') :
    s.Hushed connection s' :=
  (hserves.of_deeds hc (fun _ _ hgame hdeed h => h.deed hc hgame hdeed) hgame h).2

/-- **Once a connection that has a seat is gone, nothing is sent to it.** -/
theorem Serves.hushed (hc : rules.catalog.Coherent) {handle : Nat → LiveId} {dice : Dice}
    {before after : List Exchange} (h : Serves rules (fresh rules handle dice) before s)
    (hseat : connection ∈ newcomers before) (now : Nat)
    (hlater : Serves rules (s.after (Server.handle rules (.disconnected connection) now)) after s') :
    s.Hushed connection s' := by
  have hgame := (h.of_deeds hc (P := fun _ => True) (fun _ _ _ _ _ => trivial)
    (.opening handle dice) trivial).1
  have hdeeds := (handle_cases hc (hgame.conforms hc) (.disconnected connection) now).deeds
  have hleft := (h.seated hc).toListed.hushed_handle hc hgame hseat now
  exact hleft.serves hc (reachable_of_deeds hdeeds hgame) hlater

end Server

/-- **Once a connection that has a seat is gone, nothing is sent to it, whatever follows.**

The server is new at first and has been used in any way when the connection goes; it may be used in
any way afterwards.  Moreover, if the connection is found to have gone in the log of a server, after
it was found to have got a seat, then there was the moment when it went, be it within a run, and
nothing has been sent to it since. -/
theorem silence_after_disconnect (hc : rules.catalog.Accepted) {handle : Nat → LiveId}
    {dice : Dice} (connection : ConnectionId) :
    (∀ before s now after s', Server.Serves rules (.fresh rules handle dice) before s →
      connection ∈ newcomers before →
      Server.Serves rules (s.after (Server.handle rules (.disconnected connection) now)) after s' →
        s'.game.outbox.sentTo connection = s.game.outbox.sentTo connection) ∧
    ∀ before answer after s', Server.Serves rules (.fresh rules handle dice)
        (before ++ ⟨.disconnected connection, answer⟩ :: after) s' →
      connection ∈ newcomers before →
      ∃ s now, Server.Serves rules (.fresh rules handle dice) before s ∧
        Server.Serves rules (s.after (Server.handle rules (.disconnected connection) now)) after s' ∧
        s'.game.outbox.sentTo connection = s.game.outbox.sentTo connection := by
  have hsilent (before : List Exchange) (s : Server) (now : Nat) (after : List Exchange)
      (s' : Server) (h : Server.Serves rules (.fresh rules handle dice) before s)
      (hseat : connection ∈ newcomers before)
      (hlater : Server.Serves rules (s.after (Server.handle rules (.disconnected connection) now))
        after s') : s'.game.outbox.sentTo connection = s.game.outbox.sentTo connection :=
    (h.hushed hc.coherent hseat now hlater).silent
  refine ⟨hsilent, fun before answer after s' h hseat => ?_⟩
  obtain ⟨s, now, hbefore, -, hafter⟩ := h.traces before _ after rfl
  exact ⟨s, now, hbefore, hafter, hsilent before s now after s' hbefore hseat hafter⟩

namespace Duel

/-- Ann takes a seat and Bob the last one. -/
def meeting : Inbox where
  messages := [.intent ⟨7⟩ (.register "Ann" [⟨2⟩]), .intent ⟨9⟩ (.register "Bob" [])]

/-- Ann is gone, but it is her turn: she draws an archer and plays it, so that she has to name a
target.  She would sit down again, Bob has to wait for her turn to end, and then goes too. -/
def absence : Inbox where
  messages := [.intent ⟨7⟩ (.moveCards "Deck" "Hand" 1), .intent ⟨7⟩ (.playCard ⟨2⟩),
    .intent ⟨7⟩ (.register "Ann" []), .intent ⟨9⟩ .stopTurn, .intent ⟨7⟩ .stopTurn, .disconnected ⟨9⟩]

/-- The server once Ann and Bob have met. -/
def met : Server := (lobby.run book meeting 0 2).1

/-- The server once both have gone. -/
def deserted : Server :=
  ((met.after (Server.handle book (.disconnected ⟨7⟩) 1)).run book absence 1 6).1

/-- Bob is told how the game goes on, and Ann nothing more. -/
theorem silent_absence :
    newcomers (lobby.exchanges book meeting 0 2) = [⟨7⟩, ⟨9⟩] ∧
    deserted.game.table.turn.status = .ended none ∧
    (deserted.game.outbox.sentTo ⟨9⟩).map Message.name = ["PlayerRegistered", "GameStarted",
      "TurnStarted", "StateUpdated", "CardSpawned", "StateUpdated", "TurnEnded", "TurnStarted"] ∧
    (met.game.outbox.sentTo ⟨7⟩).length = 4 ∧
    deserted.game.outbox.sentTo ⟨7⟩ = met.game.outbox.sentTo ⟨7⟩ := by
  have hgot : newcomers (lobby.exchanges book meeting 0 2) = [⟨7⟩, ⟨9⟩] := by decide +kernel
  have hc : book.catalog.Accepted := accepted
  have hmet : Server.Serves book lobby (lobby.exchanges book meeting 0 2) met := .run meeting 0 2 .rest
  have hseat : (⟨7⟩ : ConnectionId) ∈ newcomers (lobby.exchanges book meeting 0 2) := by
    rw [hgot]
    exact List.mem_cons_self
  refine ⟨hgot, by decide +kernel, by decide +kernel, by decide +kernel, ?_⟩
  exact (silence_after_disconnect hc ⟨7⟩).1 _ met 1 _ deserted hmet hseat (.run absence 1 6 .rest)

end Duel

end CardArena
