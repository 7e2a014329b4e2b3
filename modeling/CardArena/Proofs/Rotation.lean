import Mathlib
import CardArena.Proofs.Reachable

/-!
# Turns go round

Of a match with `n` players in which `k` turns have ended since its start, all is known that is about
turns: whose turn it is, its number, and what everybody has been told (`Match.InTurn`).  Whatever
fails on the way makes no difference, since nothing but a turn that ends touches any of it
(`Match.Steady`), and a turn that is asked to end does (`endTurn_run`).

What is said of turns goes to each seat that can be reached, so that a connection that several seats
share hears it several times in a row: `Echoes` says so.

* `turns_go_round` : the main statement.
-/

namespace CardArena

open Play
open Relation (ReflTransGen)

/-! ## What is said of turns -/

/-- The notice that the turn after `i` turn ends starts or ends, in a match of `n` players. -/
def turnNotice (phase : TurnPhase) (n i : Nat) : Notice :=
  ⟨phase, ⟨UInt8.ofNat (i % n)⟩, UInt32.ofNat (1 + i / n)⟩

/-- What is said of turns until the turn after `k` turn ends has started. -/
def turnCourse (n : Nat) : Nat → List Notice
  | 0 => [turnNotice .turnStart n 0]
  | k + 1 => turnCourse n k ++ [turnNotice .turnEnd n k, turnNotice .turnStart n (k + 1)]

example : turnCourse 2 2 = [⟨.turnStart, ⟨0⟩, 1⟩, ⟨.turnEnd, ⟨0⟩, 1⟩, ⟨.turnStart, ⟨1⟩, 1⟩,
    ⟨.turnEnd, ⟨1⟩, 1⟩, ⟨.turnStart, ⟨0⟩, 2⟩] := by
  decide

/-- What is heard is what is said, in order, each thing at least once and at most so many times in a
row. -/
inductive Echoes (most : Nat) : List α → List α → Prop
  | nil : Echoes most [] []
  | snoc {heard said : List α} {a : α} {times : Nat} (h : Echoes most heard said)
      (once : 0 < times) (atMost : times ≤ most) :
      Echoes most (heard ++ List.replicate times a) (said ++ [a])

/-- Without an echo just what is said is heard. -/
theorem Echoes.eq_of_one {heard said : List α} (h : Echoes 1 heard said) : heard = said := by
  induction h with
  | nil => rfl
  | @snoc heard said a times _ once atMost ih =>
      have hone : times = 1 := by omega
      rw [ih, hone, List.replicate_one]

/-- Whoever can be reached has heard what has been said of turns. -/
def Match.Heard (m : Match) (said : List Notice) : Prop :=
  ∀ connection, 0 < m.table.reached connection →
    Echoes (m.table.seatsAt connection) (m.notices connection) said

section

variable {m m' : Match} {said : List Notice}

theorem Match.Heard.steady (h : m.Heard said) (hs : m.Steady m') : m'.Heard said := by
  intro connection hreached
  rw [hs.reached] at hreached
  rw [hs.seatsAt, hs.notices]
  exact h connection hreached

/-- What everybody is told is heard after all that was said before. -/
theorem Match.Heard.announce (h : m.Heard said) {words : Player → Message} {notice : Notice}
    (announced : ∀ seat, (words seat).notice? = some notice) :
    (m.post (m.table.connected.map fun seat => (seat.connection, words seat))).Heard
      (said ++ [notice]) := by
  intro connection hreached
  rw [m.notices_announce announced connection]
  exact (h connection hreached).snoc hreached (m.table.reached_le_seatsAt connection)

/-- Whoever is reached afterwards was reached before. -/
theorem Match.Heard.disconnect (h : m.Heard said) (player : PlayerId) :
    (m.onTable (·.modifyPlayer player ({ · with isConnected := false }))).Heard said := by
  intro connection hreached
  have hseats : (m.table.modifyPlayer player ({ · with isConnected := false })).seatsAt connection
      = m.table.seatsAt connection := by
    rw [Table.seatsAt, Table.modifyPlayer, List.countP_map]
    refine List.countP_congr fun seat _ => ?_
    by_cases hseat : seat.id = player <;> simp [hseat]
  have hless : (m.table.modifyPlayer player ({ · with isConnected := false })).reached connection
      ≤ m.table.reached connection := by
    rw [Table.reached, Table.connected, Table.modifyPlayer, List.countP_filter, List.countP_map,
      Table.reached, Table.connected, List.countP_filter]
    refine List.countP_mono_left fun seat _ => ?_
    by_cases hseat : seat.id = player <;> simp [hseat]
  show Echoes (Table.seatsAt _ connection) (m.notices connection) said
  rw [show (m.onTable _).table = m.table.modifyPlayer player _ from rfl, hseats]
  exact h connection (Nat.lt_of_lt_of_le hreached hless)

end

/-! ## Whose turn it is -/

/-- The seats are numbered in order, so that the active player is the one of that number. -/
theorem Table.Conforms.eq_of_activePlayer? {t : Table} {c : Catalog} (h : t.Conforms c)
    {player : PlayerId} (hactive : t.activePlayer? = some player) :
    player = ⟨UInt8.ofNat t.turn.activeIndex⟩ := by
  rw [Table.activePlayer?, if_pos (isRunning_of_activePlayer? hactive)] at hactive
  obtain ⟨seat, hseat, rfl⟩ := Option.map_eq_some_iff.mp hactive
  have hnumber : seat.id.index.toNat = t.turn.activeIndex := by
    have hget : (t.players.map (·.id.index.toNat))[t.turn.activeIndex]?
        = some seat.id.index.toNat := by
      rw [List.getElem?_map, hseat]
      rfl
    rw [h.seats] at hget
    obtain ⟨hlt, heq⟩ := List.getElem?_eq_some_iff.mp hget
    simpa using heq.symm
  rw [← hnumber, UInt8.ofNat_toNat]

/-- The turn passes as one more turn end says. -/
theorem Table.nextTurn_place {t : Table} {n k : Nat} (hn : 0 < n) (hseats : t.players.length = n)
    (hindex : t.turn.activeIndex = k % n) (hnumber : t.turn.number = UInt32.ofNat (1 + k / n)) :
    t.nextTurn.activeIndex = (k + 1) % n ∧ t.nextTurn.number = UInt32.ofNat (1 + (k + 1) / n) := by
  have hk := Nat.div_add_mod k n
  have hlt := Nat.mod_lt k hn
  unfold nextTurn
  rw [hseats, hindex]
  split
  · -- The last seat: the next turn is one round further.
    next hlast =>
      have hround : k + 1 = n * (k / n + 1) := by rw [Nat.mul_add, Nat.mul_one]; omega
      have hdiv : (k + 1) / n = k / n + 1 := by rw [hround, Nat.mul_div_cancel_left _ hn]
      refine ⟨?_, ?_⟩
      · rw [hround, Nat.mul_mod_right]
      · rw [hdiv, hnumber, ← Nat.add_assoc, UInt32.ofNat_add (1 + k / n) 1]
        rfl
  · next hwithin =>
      have hsame : k + 1 = n * (k / n) + (k % n + 1) := by omega
      have hsmall : k % n + 1 < n := by omega
      refine ⟨?_, ?_⟩
      · rw [hsame, Nat.mul_add_mod, Nat.mod_eq_of_lt hsmall]
      · rw [hsame, Nat.mul_add_div hn, Nat.div_eq_of_lt hsmall, Nat.add_zero]
        exact hnumber

/-! ## Turns in order -/

/-- Where a match of `n` players stands after `k` turn ends. -/
structure Match.InTurn (m : Match) (n k : Nat) : Prop where
  begun : m.table.turn.status ≠ .notStarted
  seats : m.table.players.length = n
  index : m.table.turn.activeIndex = k % n
  number : m.table.turn.number = UInt32.ofNat (1 + k / n)
  heard : m.Heard (turnCourse n k)

variable {rules : Rulebook} {scope : Scope} {m m' : Match} {n k now : Nat}

theorem Match.InTurn.steady (h : m.InTurn n k) (hs : m.Steady m') : m'.InTurn n k where
  begun := by rw [hs.turn]; exact h.begun
  seats := hs.length_players.trans h.seats
  index := by rw [hs.turn]; exact h.index
  number := by rw [hs.turn]; exact h.number
  heard := h.heard.steady hs

theorem Match.steady_abandonSelection (m : Match) : m.Steady m.abandonSelection :=
  .of_outbox rfl rfl rfl

/-- What has been said of turns before one starts, and that it starts, is heard when it has. -/
theorem Opens.heard (hc : m.table.Conforms rules.catalog) {said : List Notice} (h : m.Heard said)
    (hopens : Opens rules scope now m m') :
    m'.Heard (said ++ [⟨.turnStart, ⟨UInt8.ofNat m.table.turn.activeIndex⟩, m.table.turn.number⟩]) ∧
      m'.table.turn = m.table.turn ∧ m'.table.players.length = m.table.players.length := by
  cases hopens with
  | @intro m₁ active hactive path =>
      have hsettled : m.Steady { m.abandonSelection with debt := none } := .of_outbox rfl rfl rfl
      have hsteady : m.Steady m₁ := hsettled.trans (steady_of_calm path)
      have hclock : m₁.Steady { m₁ with deadline := some (now + rules.config.turnMillis) } :=
        .of_outbox rfl rfl rfl
      refine ⟨?_, hsteady.turn, hsteady.length_players⟩
      rw [← hc.eq_of_activePlayer? hactive, ← hsteady.turn]
      exact (h.steady (hsteady.trans hclock)).announce fun _ => rfl

/-- **A turn that ends is followed by the next, and everybody is told of both.** -/
theorem Match.InTurn.pass (hc : rules.catalog.Coherent) (hm : m.Conforms rules.catalog)
    (hn : 0 < n) (h : m.InTurn n k) (hpasses : Passes rules scope now m m') :
    m'.InTurn n (k + 1) := by
  cases hpasses with
  | @intro m₁ _ active hactive path opens =>
      -- Until everybody is told that it ends, it is the same turn.
      have hsteady : m.Steady m₁ :=
        (m.steady_abandonSelection.trans (steady_destroyDue _)).trans (steady_of_calm path)
      obtain ⟨hbegun, hseats, hindex, hnumber, hheard⟩ :=
        h.steady (hsteady.trans (m₁.steady_clearTable rules))
      have hended : (m₁.closeTurn rules active).Heard
          (turnCourse n k ++ [turnNotice .turnEnd n k]) := by
        have hnotice : turnNotice .turnEnd n k = ⟨.turnEnd, active, m₁.table.turn.number⟩ := by
          rw [hm.table.eq_of_activePlayer? hactive, hsteady.turn, h.index, h.number]
          rfl
        rw [hnotice]
        exact hheard.announce fun _ => rfl
      -- Then it passes, and the next one starts.
      obtain ⟨hnext, hround⟩ := Table.nextTurn_place hn hseats hindex hnumber
      have hclosed : (m₁.closeTurn rules active).Conforms rules.catalog := by
        have hpath : ReflTransGen (Step rules scope) m m₁ :=
          ((ReflTransGen.single .abandon).tail .destroyDue).trans (steps_of_calm path)
        exact hm.of_steps hc (hpath.trans (m₁.closeTurn_steps active))
      obtain ⟨hstarted, hturn, hlength⟩ := opens.heard hclosed.table hended
      refine ⟨?_, hlength.trans hseats, hturn ▸ hnext, hturn ▸ hround, ?_⟩
      · rw [hturn]
        show (Table.nextTurn _).status ≠ _
        rw [Table.status_nextTurn]
        exact hbegun
      · have hnotice : turnNotice .turnStart n (k + 1) = ⟨.turnStart,
            ⟨UInt8.ofNat (m₁.closeTurn rules active).table.turn.activeIndex⟩,
            (m₁.closeTurn rules active).table.turn.number⟩ := by
          rw [turnNotice, ← hnext, ← hround]
          rfl
        rw [turnCourse, List.append_cons, hnotice]
        exact hstarted

/-- **The first turn is the first player's, and everybody is told of it.** -/
theorem Begins.inTurn (hc : rules.catalog.Coherent) (hm : m.Conforms rules.catalog)
    (hsilent : ∀ connection, m.notices connection = []) (h : Begins rules scope now m m') :
    m'.InTurn m.table.players.length 0 := by
  cases h with
  | @intro m₁ _ seated notStarted path opens =>
      have hsteady : m.begin.Steady (m₁.broadcastViews .gameStarted) :=
        (steady_of_calm path).broadcastViews fun _ => rfl
      have hheard : m.begin.Heard [] := by
        intro connection _
        rw [show m.begin.notices connection = [] from hsilent connection]
        exact .nil
      have htold : (m₁.broadcastViews .gameStarted).Conforms rules.catalog := by
        have hpath : ReflTransGen (Step rules scope) m m₁ :=
          (steps_of_calm path).head (.begin seated notStarted)
        exact hm.of_steps hc (hpath.tail (.views fun _ => rfl))
      obtain ⟨hstarted, hturn, hlength⟩ := opens.heard htold.table (hheard.steady hsteady)
      rw [hsteady.turn] at hturn hstarted
      refine ⟨by rw [hturn]; exact nofun, hlength.trans hsteady.length_players, ?_, ?_, ?_⟩
      · rw [hturn, Nat.zero_mod]
        rfl
      · rw [hturn, Nat.zero_div]
        rfl
      · rw [turnCourse, turnNotice, Nat.zero_mod, Nat.zero_div]
        exact hstarted

/-! ## Runs -/

/-- Whatever is asked of a match that has not started afterwards, nothing is said of turns. -/
theorem Course.silent {ends : Nat} (h : Course rules scope m ends m')
    (hsilent : m.table.turn.status = .notStarted → ∀ connection, m.notices connection = [])
    (notStarted : m'.table.turn.status = .notStarted) (connection : ConnectionId) :
    m'.notices connection = [] := by
  cases h with
  | stay path =>
      have hsteady := steady_of_calm path
      rw [hsteady.notices]
      exact hsilent (hsteady.turn ▸ notStarted) connection
  | disconnect player => exact hsilent notStarted connection
  | begin begins => exact nomatch begins.turn ▸ notStarted
  | pass path _ passes =>
      rw [passes.turn, Table.status_nextTurn, of_decide_eq_true passes.isRunning] at notStarted
      cases notStarted
  | finish winner => cases notStarted

theorem Reachable.silent (hc : rules.catalog.Coherent) (h : Reachable rules m)
    (notStarted : m.table.turn.status = .notStarted) (connection : ConnectionId) :
    m.notices connection = [] := by
  induction h generalizing connection with
  | opening handle dice => rfl
  | perform op h ih =>
      cases hop : op.isRegister with
      | true =>
          rcases register_cases rules _ hop with heq | ⟨name, address, deck, -, heq⟩ <;>
            rw [heq] at notStarted ⊢
          · exact ih notStarted connection
          · exact (Match.notices_broadcast _ rfl connection).trans (ih notStarted connection)
      | false =>
          have hcourse := perform_course hc (Scope.all_covers _) (h.conforms hc) op.within_all hop
          exact hcourse.silent ih notStarted connection

/-- A match of `n` players that has started, and in which `k` turns have ended since. -/
inductive Started (rules : Rulebook) (n : Nat) : Nat → Match → Prop
  | start {m : Match} (h : Reachable rules m) (notStarted : m.table.turn.status = .notStarted)
      (seated : m.table.players ≠ []) (hn : m.table.players.length = n) (now : Nat) :
      Started rules n 0 (m.perform rules (.start now)).2
  | perform {k : Nat} {m : Match} (op : Operation) (h : Started rules n k m) :
      Started rules n (k + op.turnEnds (m.perform rules op).1) (m.perform rules op).2

theorem Started.reachable (h : Started rules n k m) : Reachable rules m := by
  induction h with
  | start h => exact h.perform _
  | perform op _ ih => exact ih.perform op

/-- How many turns operations in turn end, going by their answers. -/
def Match.turnEnds (rules : Rulebook) : Match → List Operation → Nat
  | _, [] => 0
  | m, op :: rest =>
    op.turnEnds (m.perform rules op).1 + (m.perform rules op).2.turnEnds rules rest

theorem Started.run (h : Started rules n k m) (ops : List Operation) :
    Started rules n (k + m.turnEnds rules ops) (m.run rules ops) := by
  induction ops generalizing m k with
  | nil => exact h
  | cons op rest ih =>
      rw [Match.turnEnds, ← Nat.add_assoc]
      exact ih (h.perform op)

/-- Once a match has started, operations count its turns by their answers. -/
theorem Course.inTurn (hc : rules.catalog.Coherent) (hm : m.Conforms rules.catalog) (hn : 0 < n)
    (hin : m.InTurn n k) {ends : Nat} (h : Course rules scope m ends m') :
    m'.InTurn n (k + ends) := by
  cases h with
  | stay path => exact hin.steady (steady_of_calm path)
  | disconnect player =>
      refine ⟨hin.begun, ?_, hin.index, hin.number, hin.heard.disconnect player⟩
      exact (List.length_map _).trans hin.seats
  | begin begins =>
      obtain ⟨-, notStarted, -, -⟩ := begins
      exact absurd notStarted hin.begun
  | pass path _ passes =>
      have hpath := steady_of_calm path
      exact (hin.steady hpath).pass hc (hm.of_steps hc (steps_of_calm path)) hn passes
  | finish winner =>
      have hheard : (m.finish winner).Heard (turnCourse n k) := hin.heard
      exact ⟨nofun, hin.seats, hin.index, hin.number,
        hheard.steady ((Match.Steady.refl _).broadcast rfl)⟩

/-- **A match stands where the count of its turn ends says.** -/
theorem Started.inTurn (hc : rules.catalog.Coherent) (h : Started rules n k m) :
    0 < n ∧ m.InTurn n k := by
  induction h with
  | @start m h notStarted seated hn now =>
      have hm := h.conforms hc
      obtain ⟨m', hbegins, hrun⟩ :=
        startGame_run hc (resolver_resolves_all hc) rfl ⟨hm, rfl⟩ seated notStarted now
      refine ⟨hn ▸ List.length_pos_iff.mpr seated, ?_⟩
      rw [Match.perform, performWith, thenDone, run_bind_pure, hrun, ← hn]
      exact hbegins.inTurn hc hm (h.silent hc notStarted)
  | @perform k m op h ih =>
      obtain ⟨hn, hin⟩ := ih
      refine ⟨hn, ?_⟩
      cases hop : op.isRegister with
      | false =>
          have hm := h.reachable.conforms hc
          exact (perform_course hc (Scope.all_covers _) hm op.within_all hop).inTurn hc hm hn hin
      | true =>
          rw [Operation.turnEnds_of_isRegister hop]
          rcases register_cases rules m hop with heq | ⟨name, address, deck, hopen, heq⟩
          · rw [heq]
            exact hin
          · exact absurd hopen.notStarted hin.begun

/-- **Turns go round.**

The match has been started with `n` players, and any operations with any answers have been done
since, of which `k` ended a turn.  Players are named by their seats, which are numbered from 0. -/
theorem turns_go_round (hc : rules.catalog.Accepted) (h : Started rules n k m) :
    -- While the match is under way, a turn that is asked to end ends.
    (m.table.isRunning → ∀ now, (m.perform rules (.endTurn now)).1 = .ok .done) ∧
    -- Whose turn it is and its number go by the turn ends, and by nothing else.
    (m.table.isRunning → 1 + k / n < UInt32.size →
      m.table.turn.activeIndex = k % n ∧ m.table.turn.number.toNat = 1 + k / n) ∧
    (∀ op, op.turnEnds (m.perform rules op).1 = 0 →
      (m.perform rules op).2.table.turn.activeIndex = m.table.turn.activeIndex ∧
        (m.perform rules op).2.table.turn.number = m.table.turn.number) ∧
    -- Whoever has been connected ever since has been told of each turn in order, up to this one; on
    -- a connection that players share, once for each of them that could be reached.
    ∀ seat ∈ m.table.players, seat.isConnected →
      Echoes (m.table.seatsAt seat.connection) (m.notices seat.connection) (turnCourse n k) ∧
        (m.table.seatsAt seat.connection = 1 → m.notices seat.connection = turnCourse n k) := by
  have hcoherent := hc.coherent
  obtain ⟨-, hin⟩ := h.inTurn hcoherent
  refine ⟨fun hrunning now => ?_, fun _ hsmall => ⟨hin.index, ?_⟩, fun op hends => ?_, ?_⟩
  · obtain ⟨active, hactive⟩ := (h.reachable.timely hcoherent).exists_active hrunning
    obtain ⟨m', -, hrun⟩ := endTurn_run hcoherent (resolver_resolves_all hcoherent) rfl
      ⟨h.reachable.conforms hcoherent, rfl⟩ hactive now
    exact congrArg Prod.fst (run_bind_ok hrun _)
  · rw [hin.number]
    exact UInt32.toNat_ofNat_of_lt hsmall
  · obtain ⟨-, hnext⟩ := (h.perform op).inTurn hcoherent
    rw [hends, Nat.add_zero] at hnext
    exact ⟨hnext.index.trans hin.index.symm, hnext.number.trans hin.number.symm⟩
  · intro seat hseat hconnected
    have hreached : 0 < m.table.reached seat.connection := by
      refine List.countP_pos_iff.mpr ⟨seat, List.mem_filter.mpr ⟨hseat, hconnected⟩, ?_⟩
      simp
    have hechoes := hin.heard seat.connection hreached
    refine ⟨hechoes, fun hsole => ?_⟩
    rw [hsole] at hechoes
    exact hechoes.eq_of_one

namespace Duel

/-- Ann and Bob are seated. -/
def seated : Match :=
  opening.run book [.register "Ann" ⟨1⟩ [⟨1⟩, ⟨2⟩, ⟨2⟩], .register "Bob" ⟨2⟩ [⟨1⟩]]

/-- Ann ends her turn, Bob stops his, and then Ann lets the time run out. -/
def threeTurns : Match :=
  (seated.perform book (.start 0)).2.run book [.endTurn 5, .stopTurn ⟨1⟩ 10, .tick 1000000000]

theorem started_threeTurns : Started book 2 3 threeTurns := by
  have hstart : Started book 2 0 (seated.perform book (.start 0)).2 :=
    .start (reachable _) (by decide +kernel) (by decide +kernel) (by decide +kernel) 0
  have hends : (seated.perform book (.start 0)).2.turnEnds book
      [.endTurn 5, .stopTurn ⟨1⟩ 10, .tick 1000000000] = 3 := by decide +kernel
  have hrun := hstart.run [.endTurn 5, .stopTurn ⟨1⟩ 10, .tick 1000000000]
  rwa [hends] at hrun

theorem round_threeTurns :
    Started book 2 3 threeTurns ∧ threeTurns.table.isRunning ∧
    threeTurns.table.turn.activeIndex = 1 ∧ threeTurns.table.turn.number.toNat = 2 ∧
    (threeTurns.perform book (.endTurn 0)).1 = .ok .done ∧
    threeTurns.notices ⟨2⟩ = turnCourse 2 3 := by
  have hrunning : threeTurns.table.isRunning := by decide +kernel
  have hbob : ∃ seat ∈ threeTurns.table.players, seat.isConnected ∧ seat.connection = ⟨2⟩ := by
    decide +kernel
  obtain ⟨hend, hplace, -, htold⟩ := turns_go_round accepted started_threeTurns
  obtain ⟨hindex, hnumber⟩ := hplace hrunning (by decide)
  obtain ⟨bob, hseat, hconnected, hline⟩ := hbob
  obtain ⟨-, hheard⟩ := htold bob hseat hconnected
  rw [hline] at hheard
  exact ⟨started_threeTurns, hrunning, hindex, hnumber, hend hrunning 0,
    hheard (by decide +kernel)⟩

end Duel

end CardArena
