import Mathlib
import CardArena.Proofs.Speech

/-!
# Everybody hears the same

Two players at connections of their own hear the same of a match while both can be reached: the same
messages in the same order, but for the questions that only one of them is asked and for the views,
of which each gets their own.  What is heard alike is `Match.history`.

The reason is that the match speaks in three ways only (`Table.Says`).  Of two of them everybody has
a part, and the same part (`Table.Says.chorus`); of the third nobody has one.  An operation says
what it says in front of the seats that it leaves (`Match.Talks`), so that it is enough to know of
each operation who can be reached after it.

* `same_history` : the main statement, with whom the questions go to.
-/

namespace CardArena

open Play

/-- A view that shows nothing. -/
def Snapshot.blank : Snapshot := ⟨0, none, []⟩

/-- What everybody may hear of a message: nothing of a question, and the view left blank. -/
def Message.shared? : Message → Option Message
  | .selectTarget .. => none
  | .selectDiscard _ => none
  | .gameStarted _ => some (.gameStarted .blank)
  | .turnStarted player number _ => some (.turnStarted player number .blank)
  | .stateUpdated _ => some (.stateUpdated .blank)
  | message => some message

/-- What has been sent to a connection, without questions and with views left blank. -/
def Match.history (m : Match) (connection : ConnectionId) : List Message :=
  (m.outbox.sentTo connection).filterMap Message.shared?

/-- The tables that operations leave one after the other are all of a kind. -/
def Match.Throughout (rules : Rulebook) (P : Table → Prop) : Match → List Operation → Prop
  | _, [] => True
  | m, op :: rest => P (m.perform rules op).2.table ∧ (m.perform rules op).2.Throughout rules P rest

/-! ## One operation -/

theorem Message.shared?_of_news {message : Message} (plain : message.snapshot? = none)
    (telling : message.isQuestion = false) : message.shared? = some message := by
  cases message with
  | gameStarted | turnStarted | stateUpdated => cases plain
  | selectTarget | selectDiscard => cases telling
  | _ => rfl

theorem Message.shared?_of_isQuestion {message : Message} (asking : message.isQuestion = true) :
    message.shared? = none := by
  cases message with
  | selectTarget | selectDiscard => rfl
  | _ => cases asking

/-- Whoever is reached once at a connection has the part of everybody. -/
theorem Table.Says.chorus {t : Table} {mail : List (ConnectionId × Message)} (h : t.Says mail) :
    ∃ part : List Message, ∀ connection, t.reached connection = 1 →
      ((mail.filter (·.1 = connection)).map Prod.snd).filterMap Message.shared? = part := by
  cases h with
  | nothing => exact ⟨[], fun _ _ => rfl⟩
  | @news message plain telling =>
      refine ⟨[message], fun connection hreached => ?_⟩
      rw [filterMap_same_letters (a := message) fun _ => Message.shared?_of_news plain telling]
      exact congrArg (List.replicate · message) hreached
  | @views message showing =>
      refine ⟨[message .blank], fun connection hreached => ?_⟩
      rw [filterMap_same_letters (a := message .blank) fun _ => by cases showing <;> rfl]
      exact congrArg (List.replicate · (message .blank)) hreached
  | @question player message active asking =>
      refine ⟨[], fun connection _ => List.filterMap_eq_nil_iff.mpr fun heard hheard => ?_⟩
      obtain ⟨letter, hletter, rfl⟩ := List.mem_map.mp hheard
      obtain ⟨seat, -, rfl⟩ := List.mem_map.mp (List.mem_filter.mp hletter).1
      exact Message.shared?_of_isQuestion asking

section

variable {rules : Rulebook} {m m' : Match} {c d : ConnectionId}

/-- Two connections have heard the same since a match. -/
def Match.Alike (m : Match) (c d : ConnectionId) (m' : Match) : Prop :=
  ∃ said, m'.history c = m.history c ++ said ∧ m'.history d = m.history d ++ said

theorem Match.Alike.refl (m : Match) (c d : ConnectionId) : m.Alike c d m :=
  ⟨[], (List.append_nil _).symm, (List.append_nil _).symm⟩

theorem Match.Alike.trans {m'' : Match} (h : m.Alike c d m') (h' : m'.Alike c d m'') :
    m.Alike c d m'' := by
  obtain ⟨said, hc, hd⟩ := h
  obtain ⟨more, hc', hd'⟩ := h'
  exact ⟨said ++ more, by rw [hc', hc, List.append_assoc], by rw [hd', hd, List.append_assoc]⟩

theorem Match.Utters.alike (h : m.Utters m') (hc : m'.table.reached c = 1)
    (hd : m'.table.reached d = 1) : m.Alike c d m' := by
  obtain ⟨mail, hmail, houtbox, -⟩ := h
  obtain ⟨part, hpart⟩ := hmail.chorus
  have hgrows (connection : ConnectionId) (h : m'.table.reached connection = 1) :
      m'.history connection = m.history connection ++ part := by
    rw [history, history, Outbox.sentTo, Outbox.sentTo, houtbox, List.filter_append,
      List.map_append, List.filterMap_append, hpart connection h]
  exact ⟨part, hgrows c hc, hgrows d hd⟩

/-- **An operation tells two players the same if it leaves both where they can be reached.** -/
theorem Match.Talks.alike (h : m.Talks m') (hc : m'.table.reached c = 1)
    (hd : m'.table.reached d = 1) : m.Alike c d m' := by
  have hkept : Kept (m.Alike c d) fun a b => a.Utters b ∧ b.table.lines = m'.table.lines := by
    rintro a b ⟨hutters, hlines⟩ ha
    refine ha.trans (hutters.alike ?_ ?_)
    · rwa [Table.reached_eq_lines, hlines, ← Table.reached_eq_lines]
    · rwa [Table.reached_eq_lines, hlines, ← Table.reached_eq_lines]
  exact hkept.chain h (.refl m c d)

end

/-! ## Runs -/

section

variable {rules : Rulebook} {m : Match} {ann bob : PlayerId} {c d : ConnectionId}

theorem Reachable.alike (hc : rules.catalog.Coherent) (h : Reachable rules m)
    (ops : List Operation)
    (hboth : m.Throughout rules (fun t => t.HasAlone ann c ∧ t.HasAlone bob d) ops) :
    m.Alike c d (m.run rules ops) := by
  induction ops generalizing m with
  | nil => exact .refl m c d
  | cons op rest ih =>
      obtain ⟨⟨hann, hbob⟩, hrest⟩ := hboth
      have hids := ((h.perform op).conforms hc).table.distinct hc
      exact ((h.talks hc op).alike (hann.reached hids.seats) (hbob.reached hids.seats)).trans
        (ih (h.perform op) hrest)

/-- **Everybody hears the same, and only the active player is asked.**

Take two players and any operations that leave both where they can be reached, each at a
connection that no other player uses.  Then what is sent meanwhile to the one and to the other is
the same, without questions and with views left blank; the operations may start with the one that
seats the later of the two.  And whoever was ever asked a question was active at that moment and
reached where it went. -/
theorem same_history (hc : rules.catalog.Accepted) (h : Reachable rules m) :
    (∀ (ann bob : PlayerId) (c d : ConnectionId) (ops : List Operation),
      m.Throughout rules (fun t => t.HasAlone ann c ∧ t.HasAlone bob d) ops →
        ∃ said, (m.run rules ops).history c = m.history c ++ said ∧
          (m.run rules ops).history d = m.history d ++ said) ∧
    ∀ (i : Nat) (letter : ConnectionId × Message),
      m.outbox[i]? = some letter → letter.2.isQuestion = true →
        ∃ scene, m.scenes[i]? = some scene ∧ ∃ seat, scene.activePlayer? = some seat.id ∧
          scene.player? seat.id = some seat ∧ seat.isConnected = true ∧
          seat.connection = letter.1 := by
  refine ⟨fun ann bob c d ops hboth => h.alike hc.coherent ops hboth, fun i letter hi hasks => ?_⟩
  obtain ⟨scene, mail, hscene, hmail, hletter⟩ := h.said hc.coherent hi
  exact ⟨scene, hscene, hmail.asked hletter hasks⟩

end

namespace Duel

/-- Ann is alone; then Bob comes, and she begins and plays an archer, which asks her whom to hit. -/
def company : List Operation :=
  [.register "Bob" ⟨2⟩ [⟨1⟩], .start 0, .moveCards ⟨0⟩ "Deck" "Hand" 3, .playCard ⟨0⟩ ⟨2⟩]

def alone : Match :=
  after book [.register "Ann" ⟨1⟩ [⟨1⟩, ⟨2⟩, ⟨2⟩]]

/-- Ann and Bob hear of Bob, of the start and of the archer; the question goes to Ann. -/
theorem history_company :
    alone.Throughout book (fun t => t.HasAlone ⟨0⟩ ⟨1⟩ ∧ t.HasAlone ⟨1⟩ ⟨2⟩) company ∧
    (∃ said, (alone.run book company).history ⟨1⟩ = alone.history ⟨1⟩ ++ said ∧
      (alone.run book company).history ⟨2⟩ = alone.history ⟨2⟩ ++ said ∧ said.length = 5) ∧
    ∃ scene, (alone.run book company).scenes[9]? = some scene ∧
      ∃ seat : Player, scene.activePlayer? = some seat.id ∧ seat.connection = ⟨1⟩ := by
  have hthere : alone.Throughout book (fun t => t.HasAlone ⟨0⟩ ⟨1⟩ ∧ t.HasAlone ⟨1⟩ ⟨2⟩)
      company := by
    refine ⟨?_, ?_, ?_, ?_, trivial⟩ <;> decide +kernel
  have hreach : Reachable book alone := reachable_after ..
  obtain ⟨hsame, -⟩ := same_history accepted hreach
  obtain ⟨-, hasked⟩ := same_history accepted (hreach.run company)
  obtain ⟨said, hann, hbob⟩ := hsame _ _ _ _ _ hthere
  refine ⟨hthere, ⟨said, hann, hbob, ?_⟩, ?_⟩
  · have hlength : ((alone.run book company).history ⟨2⟩).length = 5 := by decide +kernel
    have hnothing : alone.history ⟨2⟩ = [] := by decide +kernel
    rw [hbob, hnothing] at hlength
    exact hlength
  · have hletter : (alone.run book company).outbox[9]?
        = some (⟨1⟩, .selectTarget .player "Hit" ⟨0⟩) := by decide +kernel
    obtain ⟨scene, hscene, seat, hactive, -, -, hconnection⟩ := hasked 9 _ hletter rfl
    exact ⟨scene, hscene, seat, hactive, hconnection⟩

end Duel

end CardArena
