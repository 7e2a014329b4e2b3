import Mathlib
import CardArena.Proofs.Service

/-!
# Who sits where

Two lists say who plays: the server's, of the connections that got a seat, and the match's, of its
players.  Connections come in any order, come again, come too late and go; so it has to be said of
every message that the two lists stay in step (`Server.Listed`).  That is a matter of seats alone, so
that the match may do what it likes while everybody keeps theirs.

When the match begins and ends depends on the seats too (`Server.Seated`).  It does not hold at every
moment within a message: between taking the last seat and beginning the match it fails, and so it does
between the last player's going and the end.  Hence the messages are gone through one by one
(`Server.Seated.handles`) instead of deed by deed.

* `seats_in_step` : however a server is used, connections and players are paired off one to one, and
  the match begins with the last seat.
-/

namespace CardArena

open Relation (ReflTransGen)

variable {rules : Rulebook} {m m' : Match}

/-! ## What keeps a match under way -/

/-- Nothing that a player asks for begins the match or ends it. -/
theorem status_intent (hc : rules.catalog.Coherent) (hm : m.Conforms rules.catalog)
    (player : PlayerId) (intent : Intent) (now : Nat) :
    (m.perform rules (.intent player intent now)).2.table.turn.status = m.table.turn.status := by
  have hfits : m.Fits rules.catalog m.table.playerIds := ⟨hm, rfl⟩
  have hres : Resolves rules .all (fun _ => True) m.table.playerIds rules.resolver :=
    resolver_resolves_all hc
  have hstays {step : Play Outcome}
      (h : Stays rules .all (fun _ => True) m.table.playerIds step) :
      (step.run m).2.table.turn.status = m.table.turn.status :=
    status_of_calm (h m hfits).path
  rw [Match.perform, performWith, Play.run_map]
  cases intent with
  | register name deck => rfl
  | playCard card => exact hstays (playCard_stays hc hres rfl player card (.inr trivial))
  | stopTurn =>
      show ((stopTurn rules rules.resolver player now).run m).2.table.turn.status = _
      rcases stopTurn_cases hc hres rfl hfits player now with
        ⟨m', hpasses, hrun⟩ | ⟨outcome, m', -, hpath, hrun⟩ <;> rw [hrun]
      · exact hpasses.status
      · exact status_of_calm hpath
  | moveCards origin destination count =>
      exact hstays (requestMove_stays hc hres player origin destination _)
  | selectTarget choice =>
      exact hstays (selectTarget_stays hc hres (Scope.all_covers _) (tolerates_all rules) rfl
        player choice)
  | discardCards cards =>
      show ((discardCards rules rules.resolver player cards now).run m).2.table.turn.status = _
      rcases discardCards_cases hc hres rfl hfits player cards now with
        ⟨m₁, m', hpath, -, hpasses, hrun⟩ | ⟨outcome, m', -, hpath, hrun⟩ |
        ⟨m', -, -, hpath, hrun⟩ <;> rw [hrun]
      · exact hpasses.status.trans (status_of_calm hpath)
      · exact status_of_calm hpath
      · exact status_of_calm hpath

/-- Nor does the clock. -/
theorem status_tick (hc : rules.catalog.Coherent) (hm : m.Conforms rules.catalog) (now : Nat) :
    (m.perform rules (.tick now)).2.table.turn.status = m.table.turn.status := by
  rw [Match.perform, performWith, Play.run_map]
  rcases tick_cases hc (resolver_resolves_all hc) rfl ⟨hm, rfl⟩ now with
    ⟨m', hpasses, hrun⟩ | hrun | hrun <;> rw [hrun]
  exact hpasses.status

namespace Exchange

/-- The connection that got a seat, if one did. -/
def newcomer? : Exchange → Option ConnectionId
  | ⟨.intent connection (.register _ _), .ok .applied⟩ => some connection
  | _ => none

end Exchange

/-- The connections that got a seat, in order. -/
def newcomers (log : List Exchange) : List ConnectionId :=
  log.filterMap Exchange.newcomer?

theorem newcomers_append (log log' : List Exchange) :
    newcomers (log ++ log') = newcomers log ++ newcomers log' :=
  List.filterMap_append

theorem newcomers_concat (log : List Exchange) (e : Exchange) :
    newcomers (log ++ [e]) = newcomers log ++ e.newcomer?.toList := by
  rw [newcomers_append]
  cases h : e.newcomer? <;> simp [newcomers, h]

namespace Server

variable {s s' : Server}

/-- The connections that got a seat have the seats of the match, in the order in which they got
them. -/
structure Listed (rules : Rulebook) (taken : List ConnectionId) (s : Server) : Prop where
  connections : s.seats.map Prod.fst = taken
  distinct : taken.Nodup
  mirrored : s.game.table.players.map (fun seat => (seat.connection, seat.id)) = s.seats
  numbered : s.seats.map (·.2.index.toNat) = List.range s.seats.length
  room : s.seats.length ≤ rules.config.playersPerMatch.toNat

/-- Moreover the match begins with the last seat, and is under way only while somebody is there. -/
structure Seated (rules : Rulebook) (taken : List ConnectionId) (s : Server) : Prop
    extends Listed rules taken s where
  waiting : s.game.table.turn.status = .notStarted ↔
    s.seats.length < rules.config.playersPerMatch.toNat ∨
      rules.config.playersPerMatch.toNat = 0
  peopled : s.game.table.isRunning → ∃ seat ∈ s.game.table.players, seat.isConnected = true

variable {taken : List ConnectionId}

/-- What is read of everybody's seat is the same while everybody keeps theirs. -/
theorem map_of_lines {t t' : Table} (h : t'.lines = t.lines)
    (f : PlayerId × ConnectionId × Bool → α) :
    t'.players.map (fun seat => f (seat.id, seat.connection, seat.isConnected))
      = t.players.map fun seat => f (seat.id, seat.connection, seat.isConnected) := by
  simpa [Table.lines, Function.comp_def] using congrArg (List.map f) h

/-- With distinct keys, what is looked up is in the one entry that has the key. -/
theorem lookup_eq_some_iff_of_nodup {κ α : Type} [BEq κ] [LawfulBEq κ] {k : κ} {a : α}
    {l : List (κ × α)} (h : (l.map Prod.fst).Nodup) : l.lookup k = some a ↔ (k, a) ∈ l := by
  rw [List.lookup_eq_some_iff]
  constructor
  · rintro ⟨before, after, rfl, -⟩
    exact List.mem_append_right _ List.mem_cons_self
  · intro hmem
    obtain ⟨before, after, rfl⟩ := List.append_of_mem hmem
    rw [List.map_append, List.map_cons, List.nodup_append] at h
    refine ⟨before, after, rfl, fun p hp => ?_⟩
    rw [bne_iff_ne]
    exact (h.2.2 p.1 (List.mem_map_of_mem hp) k List.mem_cons_self).symm

/-- While the match plays on everybody keeps their seat. -/
theorem lines_doing (s : Server) (hc : rules.catalog.Coherent) (hgame : Reachable rules s.game)
    (op : Operation) (hkeeps : op.keepsSeats = true) :
    (s.doing rules op).game.table.lines = s.game.table.lines :=
  Match.lines_of_speaks
    (perform_speaks hc (hgame.conforms hc) (hgame.attentive hc).expectant hkeeps)

namespace Listed

theorem length_seats (h : s.Listed rules taken) : s.seats.length = taken.length := by
  rw [← h.connections, List.length_map]

theorem length_players (h : s.Listed rules taken) :
    s.game.table.players.length = s.seats.length := by
  rw [← h.mirrored, List.length_map]

/-- There are no more seats than numbers for them. -/
theorem length_le (h : s.Listed rules taken) : taken.length ≤ UInt8.size := by
  by_contra hmany
  have hnumber : UInt8.size ∈ s.seats.map (·.2.index.toNat) := by
    rw [h.numbered, List.mem_range, h.length_seats]
    exact Nat.lt_of_not_le hmany
  obtain ⟨entry, -, hentry⟩ := List.mem_map.mp hnumber
  exact absurd entry.2.index.toNat_lt hentry.ge.not_gt

theorem of_lines (h : s.Listed rules taken) (hseats : s'.seats = s.seats)
    (hlines : s'.game.table.lines = s.game.table.lines) : s'.Listed rules taken := by
  refine ⟨hseats ▸ h.connections, h.distinct, ?_, hseats ▸ h.numbered, hseats ▸ h.room⟩
  rw [hseats, ← h.mirrored]
  exact map_of_lines hlines fun line => (line.2.1, line.1)

/-- Whoever has a seat is known. -/
theorem unknown_iff (h : s.Listed rules taken) {connection : ConnectionId} :
    s.playerFor? connection = none ↔ connection ∉ taken := by
  simp only [playerFor?, List.lookup_eq_none_iff, ← h.connections, List.mem_map, bne_iff_ne]
  exact ⟨fun h ⟨p, hp, he⟩ => h p hp he.symm, fun h p hp he => h ⟨p, hp, he.symm⟩⟩

/-- A connection stands for the player who sits there. -/
theorem playerFor?_iff (h : s.Listed rules taken) {connection : ConnectionId} {player : PlayerId} :
    s.playerFor? connection = some player ↔
      ∃ seat ∈ s.game.table.players, seat.id = player ∧ seat.connection = connection := by
  rw [playerFor?, lookup_eq_some_iff_of_nodup (h.connections ▸ h.distinct), ← h.mirrored, List.mem_map]
  simp only [Prod.mk.injEq, and_comm]

/-- The next seat goes to a connection that has none. -/
theorem seating (h : s.Listed rules taken) {connection : ConnectionId} {name : String}
    {deck : List CardId} (welcome : s.Welcomes rules connection name deck) :
    (s.seating rules name connection deck).Listed rules (taken ++ [connection]) := by
  have hlength := h.length_players
  have hindex : (UInt8.ofNat s.game.table.players.length).toNat = s.seats.length :=
    (UInt8.toNat_ofNat_of_lt welcome.opened.seats).trans hlength
  refine ⟨?_, ?_, ?_, ?_, ?_⟩
  · rw [← h.connections]
    exact List.map_append
  · have hnew := h.unknown_iff.mp welcome.unknown
    rw [List.nodup_append]
    refine ⟨h.distinct, List.nodup_singleton _, fun a ha b hb => ?_⟩
    rintro rfl
    exact hnew (List.mem_singleton.mp hb ▸ ha)
  · show List.map _ (s.game.table.players ++ [_]) = s.seats ++ [_]
    rw [List.map_append, h.mirrored]
    rfl
  · show List.map _ (s.seats ++ [_]) = List.range (s.seats ++ [_]).length
    rw [List.map_append, h.numbered, List.length_append, List.length_singleton, List.range_succ]
    exact congrArg (List.range s.seats.length ++ [·]) hindex
  · have hroom := welcome.room
    rw [hlength] at hroom
    exact List.length_append.trans_le hroom

/-- Whoever goes leaves their seat as it is. -/
theorem disconnect (h : s.Listed rules taken) (player : PlayerId) :
    (s.doing rules (.disconnect player)).Listed rules taken := by
  refine ⟨h.connections, h.distinct, ?_, h.numbered, h.room⟩
  show _ = s.seats
  rw [← h.mirrored]
  show List.map _ (List.map _ s.game.table.players) = _
  rw [List.map_map]
  refine List.map_congr_left fun seat _ => ?_
  by_cases hgone : seat.id = player <;> simp [hgone]

/-- A match that is under way with all seats taken may end. -/
theorem finish (h : s.Listed rules taken) (hrunning : s.game.table.isRunning)
    (hfull : ¬(s.seats.length < rules.config.playersPerMatch.toNat ∨
      rules.config.playersPerMatch.toNat = 0)) (winner : Option PlayerId) :
    (s.doing rules (.endGame winner)).Seated rules taken := by
  have hgame := doing_endGame rules (Table.isEnded_of_isRunning hrunning) winner
  refine ⟨h.of_lines rfl ?_, ?_, ?_⟩ <;> rw [hgame]
  · rfl
  · exact iff_of_false nofun hfull
  · nofun

end Listed

namespace Seated

theorem fresh (rules : Rulebook) (handle : Nat → LiveId) (dice : Dice) :
    (fresh rules handle dice).Seated rules [] := by
  refine ⟨⟨rfl, .nil, rfl, rfl, Nat.zero_le _⟩, iff_of_true rfl ?_, nofun⟩
  exact (Nat.eq_zero_or_pos _).symm

/-- What goes on while everybody keeps their seat. -/
theorem of_lines (h : s.Seated rules taken) (hseats : s'.seats = s.seats)
    (hlines : s'.game.table.lines = s.game.table.lines)
    (hstatus : s'.game.table.turn.status = s.game.table.turn.status) : s'.Seated rules taken := by
  refine ⟨h.toListed.of_lines hseats hlines, ?_, fun hrunning => ?_⟩
  · rw [hstatus, hseats]
    exact h.waiting
  · obtain ⟨seat, hseat, hreached⟩ := h.peopled (by rwa [Table.isRunning, ← hstatus])
    have hconnected : s'.game.table.players.map Player.isConnected
        = s.game.table.players.map Player.isConnected :=
      map_of_lines hlines fun line => line.2.2
    have hthere := List.mem_map_of_mem (f := Player.isConnected) hseat
    rw [← hconnected, hreached] at hthere
    exact List.mem_map.mp hthere

/-- Once a match is under way, all seats are taken. -/
theorem full (h : s.Seated rules taken) (hrunning : s.game.table.isRunning) :
    ¬(s.seats.length < rules.config.playersPerMatch.toNat ∨
      rules.config.playersPerMatch.toNat = 0) := by
  have hstatus : s.game.table.turn.status = .running := of_decide_eq_true hrunning
  intro hroom
  cases hstatus.symm.trans (h.waiting.mpr hroom)

/-- The match has begun if the last seat is taken, and there is one. -/
theorem begun_iff (h : s.Seated rules taken) : s.game.table.turn.status ≠ .notStarted ↔
    taken.length = rules.config.playersPerMatch.toNat ∧ taken ≠ [] := by
  have hroom := h.room
  rw [Ne, h.waiting, ← List.length_pos_iff]
  rw [h.length_seats] at hroom ⊢
  omega

theorem judged (h : s.Seated rules taken) : (s.judged rules).Seated rules taken := by
  rcases judged_cases rules s with ⟨heq, -⟩ | ⟨attr, -, hrunning, -, heq⟩ <;> rw [heq]
  · exact h
  · exact h.toListed.finish hrunning (h.full hrunning) _

/-- A seat that is not the last is taken, and the match goes on waiting. -/
theorem seating (h : s.Seated rules taken) {connection : ConnectionId} {name : String}
    {deck : List CardId} (welcome : s.Welcomes rules connection name deck)
    (more : s.seats.length + 1 ≠ rules.config.playersPerMatch.toNat) :
    (s.seating rules name connection deck).Seated rules (taken ++ [connection]) := by
  have hlisted := h.toListed.seating welcome
  have hnew : (s.seating rules name connection deck).game.table.turn.status = .notStarted :=
    welcome.opened.notStarted
  have hlength : (s.seating rules name connection deck).seats.length = s.seats.length + 1 :=
    List.length_append
  have hroom := hlisted.room
  rw [hlength] at hroom
  refine ⟨hlisted, iff_of_true hnew (.inl ?_), fun hrunning => ?_⟩
  · rw [hlength]
    exact lt_of_le_of_ne hroom more
  · rw [Table.isRunning, hnew] at hrunning
    cases hrunning

/-- The last seat is taken, and the match begins. -/
theorem beginning (hc : rules.catalog.Coherent) (hgame : Reachable rules s.game)
    (h : s.Seated rules taken) {connection : ConnectionId} {name : String} {deck : List CardId}
    (welcome : s.Welcomes rules connection name deck)
    (last : s.seats.length + 1 = rules.config.playersPerMatch.toNat) {now : Nat}
    (begins : Begins rules .all now (s.game.seat rules name connection deck)
      ((s.seating rules name connection deck).doing rules (.start now)).game) :
    ((s.seating rules name connection deck).doing rules (.start now)).Seated rules
      (taken ++ [connection]) := by
  have hlisted := h.toListed.seating welcome
  have hseat : Reachable rules (s.seating rules name connection deck).game :=
    (Deed.seats welcome).reachable hgame
  have hlines := (s.seating rules name connection deck).lines_doing hc hseat (.start now) rfl
  have hlength : (s.seating rules name connection deck).seats.length = s.seats.length + 1 :=
    List.length_append
  refine ⟨hlisted.of_lines rfl hlines, iff_of_false ?_ ?_, fun _ => ?_⟩
  · rw [begins.turn]
    nofun
  · show ¬((s.seating rules name connection deck).seats.length < _ ∨ _)
    omega
  · have hreached : true ∈ ((s.seating rules name connection deck).doing rules
        (.start now)).game.table.players.map Player.isConnected := by
      have hconnected := map_of_lines hlines fun line => line.2.2
      rw [hconnected]
      exact List.mem_map.mpr ⟨_, List.mem_append_right _ List.mem_cons_self, rfl⟩
    exact List.mem_map.mp hreached

/-- Whoever is the last to go ends the match. -/
theorem leaving (h : s.Seated rules taken) (player : PlayerId) :
    (s.doing rules (.disconnect player)).abandoned.Seated rules taken := by
  have hlisted := h.toListed.disconnect player
  rcases abandoned_cases rules (s.doing rules (.disconnect player)) with
    ⟨heq, hpeopled⟩ | ⟨hrunning, -, heq⟩ <;> rw [heq]
  · refine ⟨hlisted, h.waiting, fun hrunning => ?_⟩
    obtain ⟨seat, hseat⟩ := List.exists_mem_of_ne_nil _ (hpeopled hrunning)
    exact ⟨seat, List.mem_filter.mp hseat⟩
  · exact hlisted.finish hrunning (h.full hrunning) _

/-- **Whatever message comes, the seats and what hangs on them stay in step.** -/
theorem handles (hc : rules.catalog.Coherent) (hgame : Reachable rules s.game)
    (h : s.Seated rules taken) {now : Nat} {message : Inbound} {answer : Except Fault Outcome}
    (hhandles : Handles rules now s message answer s') :
    s'.Seated rules (taken ++ (Exchange.newcomer? ⟨message, answer⟩).toList) := by
  have hsame (player : PlayerId) (intent : Intent) :
      (s.doing rules (.intent player intent now)).Seated rules taken :=
    h.of_lines rfl (s.lines_doing hc hgame (.intent player intent now) rfl)
      (status_intent hc (hgame.conforms hc) player intent now)
  -- Whoever is turned away or has a seat already adds nothing to the seats.
  have hnobody {s' : Server} {e : Exchange} (hnone : e.newcomer? = none)
      (h : s'.Seated rules taken) : s'.Seated rules (taken ++ e.newcomer?.toList) := by
    rw [hnone, Option.toList_none, List.append_nil]
    exact h
  cases hhandles with
  | seated welcome more => exact (h.seating welcome more).judged
  | begun welcome last begins => exact (h.beginning hc hgame welcome last begins).judged
  | @stranger connection intent _ => exact hnobody (by cases intent <;> rfl) h
  | refused | passed => exact hnobody rfl h.judged
  | @done connection player intent outcome _ other =>
      refine hnobody ?_ (hsame player intent).judged
      cases intent with
      | register name deck => exact absurd rfl (other name deck)
      | _ => rfl
  | @failed connection player intent fault _ =>
      exact hnobody (by cases intent <;> rfl) (hsame player intent)
  | @gone connection player _ => exact hnobody rfl (h.leaving player).judged

/-- So it does while the server waits. -/
theorem settle (hc : rules.catalog.Coherent) (hgame : Reachable rules s.game)
    (h : s.Seated rules taken) (now : Nat) : (s.settle rules now).Seated rules taken := by
  have hticked : (s.doing rules (.tick now)).Seated rules taken :=
    h.of_lines rfl (s.lines_doing hc hgame (.tick now) rfl) (status_tick hc (hgame.conforms hc) now)
  rw [settle_eq]
  exact hticked.judged

end Seated

theorem Serves.seated (hc : rules.catalog.Coherent) {handle : Nat → LiveId} {dice : Dice}
    {log : List Exchange} (h : Serves rules (fresh rules handle dice) log s) :
    s.Seated rules (newcomers log) := by
  refine (h.induction (P := fun log s => Reachable rules s.game ∧ s.Seated rules (newcomers log))
    ?_ ?_ ⟨.opening handle dice, .fresh rules handle dice⟩).2
  · rintro log s message now ⟨hgame, hs⟩
    have hhandles := handle_cases hc (hgame.conforms hc) message now
    refine ⟨reachable_of_deeds hhandles.deeds hgame, ?_⟩
    rw [newcomers_concat]
    exact hs.handles hc hgame hhandles
  · rintro log s now ⟨hgame, hs⟩
    exact ⟨reachable_of_deeds (s.settle_deeds rules now) hgame, hs.settle hc hgame now⟩

end Server

/-- **Connections and players are paired off one to one, however a server is used, and the match begins
with the last seat.**

The connections that got a seat are distinct, and are listed with the players of the match in the
order in which they got it, which is the order of their numbers from 0 on.  There are never more than
the match has seats, nor than there are numbers.  The match has not begun exactly while a seat is free,
it begins with exactly the message that gets a connection the last seat, and it stays begun; while it
is under way somebody is there.  The server may handle any messages with any answers and may wait and
run over inboxes in between, at any times. -/
theorem seats_in_step (hc : rules.catalog.Accepted) {handle : Nat → LiveId} {dice : Dice}
    {log : List Exchange} {s : Server}
    (h : Server.Serves rules (.fresh rules handle dice) log s) :
    s.Seated rules (newcomers log) ∧ (newcomers log).length ≤ UInt8.size ∧
    (∀ connection player, s.playerFor? connection = some player ↔
      ∃ seat ∈ s.game.table.players, seat.id = player ∧ seat.connection = connection) ∧
    (∀ message now, s.game.table.turn.status = .notStarted →
      ((s.after (Server.handle rules message now)).game.table.turn.status ≠ .notStarted ↔
        ∃ connection, (s.exchange rules message now).newcomer? = some connection ∧
          (newcomers log).length + 1 = rules.config.playersPerMatch.toNat)) ∧
    ∀ log' s', Server.Serves rules s log' s' → s.game.table.turn.status ≠ .notStarted →
      s'.game.table.turn.status ≠ .notStarted ∧ newcomers log' = [] := by
  have hs := h.seated hc.coherent
  refine ⟨hs, hs.length_le, fun _ _ => hs.playerFor?_iff, fun message now hnew => ?_,
    fun log' s' h' hbegun => ?_⟩
  · have hs' := (h.handle message now).seated hc.coherent
    rw [newcomers_concat] at hs'
    rw [hs'.begun_iff]
    have hfree := mt hs.begun_iff.mpr (not_not.mpr hnew)
    cases hgot : (s.exchange rules message now).newcomer? with
    | none => simpa using hfree
    | some connection => simp
  · have hs' := (h.trans h').seated hc.coherent
    obtain ⟨hlast, hsome⟩ := hs.begun_iff.mp hbegun
    have hroom := hs'.room
    rw [hs'.length_seats, newcomers_append, List.length_append, hlast] at hroom
    have hnobody : newcomers log' = [] := List.length_eq_zero_iff.mp (by omega)
    rw [newcomers_append, hnobody, List.append_nil] at hs'
    exact ⟨hs'.begun_iff.mpr ⟨hlast, hsome⟩, hnobody⟩

namespace Duel

/-- A server of a duel before its first message. -/
def lobby : Server :=
  .fresh book (fun n => ⟨UInt64.ofNat n⟩) ⟨fun _ => 0, 0⟩

/-- Ann sits down twice, Bob with a card that there is not and then without, and Cid comes too late;
then Ann leaves. -/
def arrivals : Inbox where
  messages := [.intent ⟨7⟩ (.register "Ann" [⟨1⟩]), .intent ⟨7⟩ (.register "Ann" []),
    .intent ⟨9⟩ .stopTurn, .intent ⟨9⟩ (.register "Bob" [⟨5⟩]), .disconnected ⟨9⟩,
    .intent ⟨9⟩ (.register "Bob" []), .intent ⟨8⟩ (.register "Cid" []), .disconnected ⟨7⟩]

theorem seats_of_arrivals :
    newcomers (lobby.exchanges book arrivals 0 8) = [⟨7⟩, ⟨9⟩] ∧
    (lobby.run book arrivals 0 8).1.Seated book [⟨7⟩, ⟨9⟩] ∧
    (lobby.run book arrivals 0 8).1.playerFor? ⟨9⟩ = some ⟨1⟩ ∧
    (lobby.run book arrivals 0 8).1.game.table.turn.status = .running := by
  have hgot : newcomers (lobby.exchanges book arrivals 0 8) = [⟨7⟩, ⟨9⟩] := by decide +kernel
  have hserved : Server.Serves book lobby (lobby.exchanges book arrivals 0 8)
      (lobby.run book arrivals 0 8).1 := .run arrivals 0 8 .rest
  have hc : book.catalog.Accepted := accepted
  obtain ⟨hseated, -, hplayers, -⟩ := seats_in_step hc hserved
  rw [hgot] at hseated
  refine ⟨hgot, hseated, (hplayers ⟨9⟩ ⟨1⟩).mpr ?_, by decide +kernel⟩
  decide +kernel

end Duel

end CardArena
