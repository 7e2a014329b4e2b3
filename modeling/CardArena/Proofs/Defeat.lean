import Mathlib
import CardArena.Proofs.Seating

/-!
# Defeat

A player is defeated once the attribute that must not run out has run out.  That may happen anywhere in
a cascade, so the match itself does not look; the server looks at the end, after nearly everything that
it does (`Server.unscathed_judged`).

There are two messages after which it does not look.  A stranger's request is turned away before
anything is done, so that nothing can have happened either.  A player's request that fails may have done
a good deal before it failed, and the match goes on with a player who is defeated (`Duel.undefeated`),
until the server looks again.  So the law is about logs whose last request did not fail (`Heeded`).

* `defeat_ends_the_match` : then nobody is defeated while the match is under way, and whoever has won is
  the only one who is not defeated.
-/

namespace CardArena

open Relation (ReflTransGen)

variable {rules : Rulebook} {attr : String}

/-! ## Who is defeated -/

/-- The player's attribute has run out. -/
def Player.Spent (attr : String) (seat : Player) : Prop :=
  ∃ amount, seat.attributes.get? attr = some amount ∧ amount ≤ 0

/-- Somebody is defeated, and the winner is the only player who is not, if there is just one. -/
structure Table.Decides (attr : String) (winner : Option PlayerId) (t : Table) : Prop where
  defeated : ∃ seat ∈ t.players, seat.Spent attr
  winner : ∀ player, winner = some player ↔
    (∃ seat ∈ t.players, seat.id = player ∧ ¬seat.Spent attr) ∧
      ∀ seat ∈ t.players, ¬seat.Spent attr → seat.id = player

namespace Server

variable {t : Table}

theorem spent_iff {seat : Player} :
    ((seat.attributes.get? attr).any fun amount => decide (amount ≤ 0)) = true ↔ seat.Spent attr := by
  simp [Player.Spent, Option.any_eq_true]

theorem mem_defeated {seat : Player} :
    seat ∈ defeated t attr ↔ seat ∈ t.players ∧ seat.Spent attr := by
  rw [defeated, List.mem_filter, spent_iff]

theorem mem_standing {seat : Player} :
    seat ∈ standing t attr ↔ seat ∈ t.players ∧ ¬seat.Spent attr := by
  rw [standing, List.mem_filter, Bool.not_eq_true', ← Bool.not_eq_true, spent_iff]

/-- The winner is the only one standing. -/
theorem winner?_eq_some_iff (hids : t.playerIds.Nodup) {player : PlayerId} :
    winner? t attr = some player ↔
      (∃ seat ∈ standing t attr, seat.id = player) ∧
        ∀ seat ∈ standing t attr, seat.id = player := by
  have hnodup : ((standing t attr).map Player.id).Nodup :=
    hids.sublist (List.filter_sublist.map _)
  rw [winner?]
  match hstanding : standing t attr with
  | [] => simp
  | [only] => simp
  | first :: second :: rest =>
      refine iff_of_false nofun fun ⟨_, hall⟩ => ?_
      have hfirst := hall first List.mem_cons_self
      have hsecond := hall second (List.mem_cons_of_mem _ List.mem_cons_self)
      rw [hstanding, List.map_cons, List.map_cons, List.nodup_cons, hfirst, hsecond] at hnodup
      exact hnodup.1 List.mem_cons_self

theorem decides_winner? (hids : t.playerIds.Nodup) (h : defeated t attr ≠ []) :
    t.Decides attr (winner? t attr) := by
  obtain ⟨seat, hseat⟩ := List.exists_mem_of_ne_nil _ h
  refine ⟨⟨seat, mem_defeated.mp hseat⟩, fun player => ?_⟩
  rw [winner?_eq_some_iff hids]
  simp only [mem_standing, and_imp]
  refine and_congr_left fun _ => exists_congr fun seat => ?_
  tauto

/-! ## Looking -/

variable {s s' : Server}

/-- Nobody is defeated while the match is under way. -/
def Unscathed (attr : String) (s : Server) : Prop :=
  s.game.table.isRunning → ∀ seat ∈ s.game.table.players, ¬seat.Spent attr

/-- **After the server has looked, nobody is defeated while the match is under way.** -/
theorem unscathed_judged (hattr : rules.config.defeatAttribute = some attr) (s : Server) :
    (s.judged rules).Unscathed attr := by
  rcases judged_cases rules s with ⟨heq, hnone⟩ | ⟨_, -, hrunning, -, heq⟩ <;> rw [heq]
  · intro hrunning seat hseat hspent
    have hdefeated := mem_defeated.mpr ⟨hseat, hspent⟩
    rw [hnone attr hattr hrunning] at hdefeated
    cases hdefeated
  · intro hon
    rw [doing_endGame rules (Table.isEnded_of_isRunning hrunning)] at hon
    cases hon

/-- If the match ends as the server looks, it is because somebody is defeated. -/
theorem judged_ended (hc : rules.catalog.Coherent) (hgame : Reachable rules s.game)
    (hattr : rules.config.defeatAttribute = some attr) (hon : s.game.table.isEnded = false)
    {winner : Option PlayerId}
    (hover : (s.judged rules).game.table.turn.status = .ended winner) :
    (s.judged rules).game.table.Decides attr winner := by
  rcases judged_cases rules s with ⟨heq, -⟩ | ⟨_, hother, hrunning, hdefeated, heq⟩
  · rw [heq] at hover
    rw [Table.isEnded, hover] at hon
    cases hon
  · obtain rfl := Option.some.inj (hattr.symm.trans hother)
    have hids := ((hgame.conforms hc).table.distinct hc).1
    have hdecides := decides_winner? hids hdefeated
    rw [heq, doing_endGame rules hon] at hover ⊢
    cases hover
    exact ⟨hdecides.defeated, hdecides.winner⟩

end Server

/-! ## Logs -/

/-- A stranger was turned away. -/
def Exchange.isTurnedAway (e : Exchange) : Bool :=
  match e.answer with
  | .ok (.rejected .unknownConnection) => true
  | _ => false

/-- The last message that was not a stranger's did not fail. -/
def Heeded (log : List Exchange) : Prop :=
  (log.filter (!·.isTurnedAway)).getLast?.all (·.answer.isOk) = true

instance (log : List Exchange) : Decidable (Heeded log) :=
  inferInstanceAs (Decidable (_ = true))

theorem heeded_turnedAway {log : List Exchange} {e : Exchange} (h : e.isTurnedAway = true) :
    Heeded (log ++ [e]) ↔ Heeded log := by
  rw [Heeded, Heeded, List.filter_append, List.filter_cons_of_neg (by simp [h]), List.filter_nil,
    List.append_nil]

theorem heeded_failed {log : List Exchange} {message : Inbound} {fault : Fault} :
    ¬Heeded (log ++ [⟨message, .error fault⟩]) := by
  rw [Heeded, List.filter_append, List.filter_cons_of_pos rfl, List.filter_nil,
    List.getLast?_concat]
  exact Bool.false_ne_true

namespace Server

variable {s s' : Server}

/-- What a message leaves is looked at, unless a stranger was turned away or it failed. -/
theorem Handles.unscathed (hattr : rules.config.defeatAttribute = some attr) {log : List Exchange}
    {now : Nat} {message : Inbound} {answer : Except Fault Outcome}
    (h : Handles rules now s message answer s') (hs : Heeded log → s.Unscathed attr)
    (hheeded : Heeded (log ++ [⟨message, answer⟩])) : s'.Unscathed attr := by
  cases h with
  | stranger => exact hs ((heeded_turnedAway rfl).mp hheeded)
  | failed => exact absurd hheeded heeded_failed
  | _ => exact unscathed_judged hattr _

theorem Serves.unscathed (hc : rules.catalog.Coherent)
    (hattr : rules.config.defeatAttribute = some attr) {handle : Nat → LiveId} {dice : Dice}
    {log : List Exchange} (h : Serves rules (fresh rules handle dice) log s) :
    Reachable rules s.game ∧ (Heeded log → s.Unscathed attr) := by
  refine h.induction (P := fun log s => Reachable rules s.game ∧ (Heeded log → s.Unscathed attr))
    ?_ ?_ ⟨.opening handle dice, fun _ hrunning => nomatch hrunning⟩
  · rintro log s message now ⟨hgame, hs⟩
    have hhandles := handle_cases hc (hgame.conforms hc) message now
    exact ⟨reachable_of_deeds hhandles.deeds hgame, hhandles.unscathed hattr hs⟩
  · rintro log s now ⟨hgame, -⟩
    refine ⟨reachable_of_deeds (s.settle_deeds rules now) hgame, fun _ => ?_⟩
    rw [settle_eq]
    exact unscathed_judged hattr _

/-- A match that ends with a message has been abandoned, or somebody is defeated. -/
theorem Handles.ended (hc : rules.catalog.Coherent) (hgame : Reachable rules s.game)
    (hattr : rules.config.defeatAttribute = some attr) {now : Nat} {message : Inbound}
    {answer : Except Fault Outcome} (h : Handles rules now s message answer s')
    (hon : s.game.table.isEnded = false) {winner : Option PlayerId}
    (hover : s'.game.table.turn.status = .ended winner) :
    (∃ connection, message = .disconnected connection ∧ s'.game.table.connected = [] ∧
      winner = none) ∨ s'.game.table.Decides attr winner := by
  have hlooked {s₁ : Server} (hgame : Reachable rules s₁.game)
      (hon : s₁.game.table.isEnded = false)
      (hover : (s₁.judged rules).game.table.turn.status = .ended winner) :
      (s₁.judged rules).game.table.Decides attr winner :=
    judged_ended hc hgame hattr hon hover
  have hintent (player : PlayerId) (intent : Intent) :
      (s.doing rules (.intent player intent now)).game.table.isEnded = false := by
    rw [Table.isEnded, doing, status_intent hc (hgame.conforms hc)]
    exact hon
  cases h with
  | stranger =>
      rw [Table.isEnded, hover] at hon
      cases hon
  | refused | passed => exact .inr (hlooked hgame hon hover)
  | @seated connection name deck welcome =>
      refine .inr (hlooked ((Deed.seats welcome).reachable hgame) ?_ hover)
      have hturn : (s.seating rules name connection deck).game.table.turn.status = .notStarted :=
        welcome.opened.notStarted
      rw [Table.isEnded, hturn]
  | begun welcome _ begins =>
      refine .inr (hlooked (((Deed.seats welcome).reachable hgame).perform _) ?_ hover)
      rw [Table.isEnded, begins.turn]
  | done => exact .inr (hlooked (hgame.perform _) (hintent _ _) hover)
  | @failed _ player intent =>
      have hstill := hintent player intent
      rw [Table.isEnded, hover] at hstill
      cases hstill
  | @gone connection player known =>
      rcases abandoned_cases rules (s.doing rules (.disconnect player)) with
        ⟨heq, -⟩ | ⟨hrunning, hempty, heq⟩
      · rw [heq] at hover ⊢
        exact .inr (hlooked (hgame.perform _) hon hover)
      · have hfinished := doing_endGame rules (Table.isEnded_of_isRunning hrunning) none
        rw [heq] at hover ⊢
        rcases judged_cases rules ((s.doing rules (.disconnect player)).doing rules (.endGame none))
          with ⟨hsame, -⟩ | ⟨_, -, hagain, -, -⟩
        · rw [hsame, hfinished] at hover ⊢
          cases hover
          exact .inl ⟨connection, rfl, hempty, rfl⟩
        · rw [hfinished] at hagain
          cases hagain

/-- The answers to messages that are handled one after the other, and the server afterwards. -/
def hear (rules : Rulebook) (now : Nat) : Server → List Inbound → List Exchange × Server
  | s, [] => ([], s)
  | s, message :: rest =>
    let (log, s') := hear rules now (s.after (handle rules message now)) rest
    (s.exchange rules message now :: log, s')

theorem hear_serves (now : Nat) (messages : List Inbound) :
    ∀ s : Server, Serves rules s (hear rules now s messages).1 (hear rules now s messages).2 := by
  induction messages with
  | nil => exact fun s => .rest
  | cons message rest ih =>
      intro s
      have hfirst : Serves rules s [s.exchange rules message now] (s.after (handle rules message now)) :=
        .handle message now .rest
      exact hfirst.trans (ih _)

end Server

/-- **Defeat ends the match at once, unless a player's request has just failed.**

Whatever a server has handled, nobody is defeated while the match is under way, if the last message
that was not a stranger's did not fail; nor is anybody after a wait, whatever came before.  If the match
ends with a message, it was the last player who went, and nobody has won; or somebody is defeated,
and whoever has won is the only player who is not. -/
theorem defeat_ends_the_match (hc : rules.catalog.Accepted)
    (hattr : rules.config.defeatAttribute = some attr) {handle : Nat → LiveId} {dice : Dice}
    {log : List Exchange} {s : Server}
    (h : Server.Serves rules (.fresh rules handle dice) log s) :
    (Heeded log → s.game.table.isRunning → ∀ seat ∈ s.game.table.players, ¬seat.Spent attr) ∧
    (∀ now, (s.settle rules now).game.table.isRunning →
      ∀ seat ∈ (s.settle rules now).game.table.players, ¬seat.Spent attr) ∧
    ∀ message now winner, s.game.table.isEnded = false →
      (s.after (Server.handle rules message now)).game.table.turn.status = .ended winner →
      (∃ connection, message = .disconnected connection ∧
        (s.after (Server.handle rules message now)).game.table.connected = [] ∧ winner = none) ∨
      (s.after (Server.handle rules message now)).game.table.Decides attr winner := by
  obtain ⟨hgame, hunscathed⟩ := h.unscathed hc.coherent hattr
  refine ⟨hunscathed, fun now => ?_, fun message now winner hon hover => ?_⟩
  · rw [Server.settle_eq]
    exact Server.unscathed_judged hattr _
  · have hhandles := Server.handle_cases hc.coherent (hgame.conforms hc.coherent) message now
    exact hhandles.ended hc.coherent hgame hattr hon hover

namespace Duel

/-- The duel to the death, with three lives. -/
def mortal : Rulebook where
  catalog := { book.catalog with playerAttributes := [⟨"Life", 3⟩] }
  config := { defeatAttribute := some "Life" }

theorem accepted_mortal : mortal.catalog.Accepted :=
  accepted_of_checks (d := { draft with playerAttributes := [⟨"Life", 3⟩] }) rfl (by decide +kernel)
    (by decide +kernel)

/-- Ann plays an archer, who asks whom to hit. -/
def approach : List Inbound :=
  [.intent ⟨7⟩ (.register "Ann" [⟨2⟩]), .intent ⟨9⟩ (.register "Bob" []),
    .intent ⟨7⟩ (.moveCards "Deck" "Hand" 1), .intent ⟨7⟩ (.playCard ⟨2⟩)]

/-- Ann has Bob hit. -/
def blow : Inbound :=
  .intent ⟨7⟩ (.selectTarget (.player ⟨1⟩))

/-- The server once Ann's archer has been asked for. -/
def poised (rules : Rulebook) : List Exchange × Server :=
  Server.hear rules 0 (.fresh rules (fun n => ⟨UInt64.ofNat n⟩) ⟨fun _ => 0, 0⟩) approach

theorem ended_by_blow :
    Heeded (poised mortal).1 ∧ (poised mortal).2.game.table.isRunning ∧
    (∀ seat ∈ (poised mortal).2.game.table.players, ¬seat.Spent "Life") ∧
    ((poised mortal).2.after (Server.handle mortal blow 0)).game.table.turn.status
      = .ended (some ⟨0⟩) ∧
    ((poised mortal).2.after (Server.handle mortal blow 0)).game.table.Decides "Life" (some ⟨0⟩) := by
  have hheeded : Heeded (poised mortal).1 := by decide +kernel
  have hrunning : (poised mortal).2.game.table.isRunning := by decide +kernel
  have hover : ((poised mortal).2.after (Server.handle mortal blow 0)).game.table.turn.status
      = .ended (some ⟨0⟩) := by decide +kernel
  have hon : (poised mortal).2.game.table.isEnded = false := by decide +kernel
  obtain ⟨hnobody, -, hdecides⟩ :=
    defeat_ends_the_match accepted_mortal rfl (Server.hear_serves 0 approach _)
  refine ⟨hheeded, hrunning, hnobody hheeded hrunning, hover, ?_⟩
  rcases hdecides blow 0 (some ⟨0⟩) hon hover with ⟨_, hmessage, -⟩ | hdecides
  · cases hmessage
  · exact hdecides

/-- Creatures of either player fail to curse the opponent whom somebody has hurt. -/
def curse : Effect :=
  { definition := "Curse", trigger := .playerAttributeDelta .decrease "Life" .anyPlayer,
    target := .player .currentOpponent, magnitude := some (.fixed 1) }

/-- The duel to the death with creatures that bear a grudge. -/
def grudging : Rulebook where
  catalog := { mortal.catalog with
    rules := draft.rules ++ [.onPlayer "Curse" (.decreaseAttribute "Luck")]
    cardTypes := [{ name := "Creature", effects := [curse] }] }
  config := mortal.config

theorem accepted_grudging : grudging.catalog.Accepted :=
  accepted_of_checks (d := { draft with
    rules := grudging.catalog.rules, cardTypes := grudging.catalog.cardTypes,
    playerAttributes := [⟨"Life", 3⟩] }) rfl (by decide +kernel) (by decide +kernel)

/-- Bob has no life left, but the blow fails after it has hit him, and the match goes on. -/
theorem undefeated :
    grudging.catalog.Accepted ∧ grudging.config.defeatAttribute = some "Life" ∧
    ((poised grudging).2.exchange grudging blow 0).answer
      = .error (.attributeNotFound "player#1" "Luck") ∧
    ((poised grudging).2.after (Server.handle grudging blow 0)).game.table.isRunning ∧
    ((poised grudging).2.after (Server.handle grudging blow 0)).game.table.players.map
      (·.attributes.get? "Life") = [some 3, some 0] := by
  refine ⟨accepted_grudging, rfl, ?_, ?_, ?_⟩ <;> decide +kernel

end Duel

end CardArena
