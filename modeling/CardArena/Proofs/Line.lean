import Mathlib
import CardArena.Proofs.Reachable

/-!
# The line behind a question

Firings wait in line while a question is open, and are done when it has been answered.  No firing
joins the line while none is open; so whatever happens without an answer, once no question is open
the line is as it was (`idle_of_changes`), and an answer takes one firing after the other until
another question comes up or the line is empty (`drain_unstranded`).

That is, unless doing one of them fails.  The question is taken before its effect is done, and a
fault ends the call: the rest of the line then waits behind no question at all, until the turn ends
(`Duel.stranded`), and whatever fires next is done before it.

* `idle_line_empty` : no firing is left waiting by anything but an answer that fails.
-/

namespace CardArena

open Play
open Relation (ReflTransGen)

variable {rules : Rulebook} {scope : Scope} {F : Fault → Prop} {ids : List PlayerId}
  {resolve : Resolver} {m m' : Match}

/-! ## No question, no newcomers -/

/-- No firing waits behind no question. -/
def Match.Unstranded (m : Match) : Prop :=
  m.session.pending = none → m.session.queue = []

/-- While no question is open afterwards, the line is as it was. -/
theorem Change.session_of_idle (h : Change rules scope m m') (hidle : m'.session.pending = none) :
    m'.session = m.session := by
  cases h with
  | enqueue waiting =>
      change m.session.pending = none at hidle
      rw [hidle] at waiting
      cases waiting
  | ask =>
      rw [Match.tell_eq_post] at hidle
      cases hidle
  | _ => rfl

theorem Calm.session_of_idle (hanswers : scope.answers = false) (h : Calm rules scope m m')
    (hidle : m'.session.pending = none) : m'.session = m.session := by
  cases h with
  | change h => exact h.session_of_idle hidle
  | repeatQuestion => rw [Match.tell_eq_post]; rfl
  | answer allowed => cases hanswers.symm.trans allowed
  | next allowed => cases hanswers.symm.trans allowed
  | discard hzone held => rw [Match.discardCard_eq hzone held]; rfl
  | shuffle player zone =>
      rcases m.shuffleZone_eq player zone with heq | ⟨z, dice, -, heq⟩ <;> rw [heq]
      rfl
  | owe | demand => rw [Match.tell_eq_post]; rfl
  | _ => rfl

/-- A question that has come up stays open: if none is open in the end, none ever was. -/
theorem idle_of_chain {r : Match → Match → Prop}
    (hr : ∀ a b, r a b → b.session.pending = none → b.session = a.session)
    (h : ReflTransGen r m m') (hidle : m'.session.pending = none) : m'.session = m.session := by
  induction h with
  | refl => rfl
  | tail _ hstep ih =>
      have hlast := hr _ _ hstep hidle
      rw [hlast] at hidle ⊢
      exact ih hidle

theorem idle_of_changes (h : ReflTransGen (Change rules scope) m m')
    (hidle : m'.session.pending = none) : m'.session = m.session :=
  idle_of_chain (fun _ _ => Change.session_of_idle) h hidle

theorem Match.Unstranded.calm (hm : m.Unstranded) (hanswers : scope.answers = false)
    (h : ReflTransGen (Calm rules scope) m m') : m'.Unstranded := by
  intro hidle
  have hsame := idle_of_chain (fun _ _ => Calm.session_of_idle hanswers) h hidle
  rw [hsame] at hidle ⊢
  exact hm hidle

/-! ## Answers -/

/-- The line in which nobody stands has no first. -/
theorem Session.queue_eq_nil {s : Session} (h : s.next? = none) (hidle : s.pending = none) :
    s.queue = [] := by
  obtain ⟨pending, queue⟩ := s
  obtain rfl : pending = none := hidle
  cases queue with
  | nil => rfl
  | cons firing rest => cases h

/-- Once the first in line is done, there is one less to do. -/
theorem Session.length_le_of_next? {s session : Session} {firing : Firing} {count : Nat}
    (h : s.next? = some (firing, session))
    (henough : s.pending = none → s.queue.length ≤ count + 1) : session.queue.length ≤ count := by
  obtain ⟨hidle, hqueue, -⟩ := Session.next?_eq_some h
  have hlength := henough hidle
  rw [hqueue, List.length_cons] at hlength
  omega

section

variable (hc : rules.catalog.Coherent) (hres : Resolves rules scope F ids resolve)

include hc hres

/-- What doing the first firing in line leaves of the line, if it leaves no question. -/
theorem drain_next (hm : m.Fits rules.catalog ids) {firing : Firing} {session : Session}
    (hnext : m.session.next? = some (firing, session)) :
    Match.Fits rules.catalog ids { m with session } ∧
      ∀ result m₁, (resolve firing).run { m with session } = (result, m₁) →
        m₁.Fits rules.catalog ids ∧ (m₁.session.pending = none → m₁.session = session) := by
  obtain ⟨-, hqueue, hnone⟩ := Session.next?_eq_some hnext
  have hmove : Calm rules .all m { m with session } := .next rfl hnext
  have hm' := hmove.fits hc hm
  have hcarried : rules.catalog.Carries firing.effect :=
    hm.conforms.session.queue firing (hqueue ▸ List.mem_cons_self)
  have hdo := hres firing hcarried _ ⟨hm', by simp [Session.isIdle, hnone]⟩
  refine ⟨hm', fun result m₁ hrun => ⟨hdo.after (kept_fits hc) hm' hrun, fun hidle => ?_⟩⟩
  have hpath := hdo.path
  rw [hrun] at hpath
  exact idle_of_changes hpath hidle

/-- **Firings are done until a question comes up or nobody is left in line.** -/
theorem drain_unstranded (count : Nat) (hm : m.Fits rules.catalog ids)
    (henough : m.session.pending = none → m.session.queue.length ≤ count)
    (hrun : (drain resolve count).run m = (.ok (), m')) : m'.Unstranded := by
  induction count generalizing m with
  | zero =>
      cases hrun
      intro hidle
      exact List.eq_nil_of_length_eq_zero (Nat.le_zero.mp (henough hidle))
  | succ count ih =>
      rw [drain, run_get_bind] at hrun
      cases hnext : m.session.next? with
      | none =>
          rw [hnext] at hrun
          cases hrun
          exact Session.queue_eq_nil hnext
      | some taken =>
          obtain ⟨firing, session⟩ := taken
          rw [hnext] at hrun
          dsimp only at hrun
          rw [run_modify_bind, run_get_bind] at hrun
          obtain ⟨hm', hdo⟩ := drain_next hc hres hm hnext
          have hrest := Session.length_le_of_next? hnext henough
          split at hrun
          · obtain ⟨_, m₁, hfirst, hrun⟩ := run_bind_eq_ok hrun
            obtain ⟨hm₁, hsame⟩ := hdo _ m₁ hfirst
            exact ih hm₁ (fun h => hsame h ▸ hrest) hrun
          · exact ih hm' (fun _ => hrest) hrun

/-- However many more firings might be done, no more are than stand in line. -/
theorem drain_add (count extra : Nat) (hm : m.Fits rules.catalog ids)
    (henough : m.session.pending = none → m.session.queue.length ≤ count) :
    (drain resolve (count + extra)).run m = (drain resolve count).run m := by
  induction count generalizing m with
  | zero =>
      rw [Nat.zero_add]
      cases extra with
      | zero => rfl
      | succ extra =>
          have hnext : m.session.next? = none := by
            cases hpending : m.session.pending with
            | some selection => simp [Session.next?, hpending]
            | none => simp [Session.next?, hpending, List.eq_nil_of_length_eq_zero
                (Nat.le_zero.mp (henough hpending))]
          show (drain resolve (extra + 1)).run m = (.ok (), m)
          rw [drain, run_get_bind, hnext]
          rfl
  | succ count ih =>
      rw [Nat.add_right_comm, drain, drain, run_get_bind, run_get_bind]
      cases hnext : m.session.next? with
      | none => rfl
      | some taken =>
          obtain ⟨firing, session⟩ := taken
          obtain ⟨hm', hdo⟩ := drain_next hc hres hm hnext
          have hrest := Session.length_le_of_next? hnext henough
          dsimp only
          rw [run_modify_bind, run_modify_bind, run_get_bind, run_get_bind]
          split
          · rw [run_bind, run_bind]
            split
            · next _ m₁ hfirst =>
                obtain ⟨hm₁, hsame⟩ := hdo _ m₁ hfirst
                exact ih hm₁ fun h => hsame h ▸ hrest
            · rfl
          · exact ih hm' fun _ => hrest

variable (hcovers : scope.Covers rules.catalog) (htol : Tolerates rules F)

include hcovers htol

/-- **An answer that does not fail leaves nobody waiting behind no question.** -/
theorem selectTarget_unstranded (hm : m.Fits rules.catalog ids) (hline : m.Unstranded)
    {player : PlayerId} {choice : TargetChoice} {outcome : Outcome}
    (hrun : (selectTarget rules resolve player choice).run m = (.ok outcome, m')) :
    m'.Unstranded := by
  rw [selectTarget, run_get_bind] at hrun
  split at hrun
  · cases hrun
    exact hline
  · next selection hpending =>
      split at hrun
      · cases hrun
        exact hline
      · split at hrun
        · cases hrun
          intro hidle
          change (m.tell player selection.question).session.pending = none at hidle
          rw [Match.tell_eq_post] at hidle
          exact absurd (hpending.symm.trans hidle) nofun
        · next hadmits =>
            rw [run_modify_bind] at hrun
            obtain ⟨_, m₁, hchosen, hrun⟩ := run_bind_eq_ok hrun
            obtain ⟨_, m₂, hdrain, hrun⟩ := run_bind_eq_ok hrun
            cases hrun
            have hmove : Calm rules .all m _ := .answer rfl
            have hwalk := resolveChosen_walks hc hres htol
              (hm.conforms.session.pending selection hpending)
              (hm.mem_of_admits (by simpa using hadmits)) (hcovers.grants _ _)
            have hm₁ := hwalk.after (kept_fits hc) (hmove.fits hc hm) hchosen
            exact drain_unstranded hc hres _ hm₁ (fun _ => le_rfl) hdrain

end

/-! ## Operations -/

/-- Whatever may happen without an answer. -/
def Scope.unanswered : Scope := ⟨true, fun _ => true, false, true, true⟩

theorem Scope.unanswered_covers (c : Catalog) : Scope.unanswered.Covers c :=
  fun _ _ => ⟨fun _ _ => rfl, fun _ _ _ _ _ _ => ⟨rfl, .inl rfl⟩⟩

/-- The operation answers a question. -/
def Operation.selects : Operation → Bool
  | .selectTarget _ _ => true
  | .intent _ (.selectTarget _) _ => true
  | _ => false

theorem Operation.within_unanswered {op : Operation} (h : op.selects = false) :
    op.Within .unanswered := by
  unfold Within
  split <;> first | rfl | trivial

/-- Whoever answers by an intent answers. -/
theorem perform_of_selects (rules : Rulebook) {op : Operation} (h : op.selects = true)
    (m : Match) :
    ∃ player choice, m.perform rules op =
      (Answer.outcome <$> selectTarget rules rules.resolver player choice).run m := by
  unfold Operation.selects at h
  split at h
  · exact ⟨_, _, rfl⟩
  · exact ⟨_, _, rfl⟩
  · cases h

/-- Whatever waited when a turn starts is dropped, and nothing is left behind no question. -/
theorem Opens.unstranded {now : Nat} (h : Opens rules .unanswered now m m') : m'.Unstranded := by
  cases h with
  | @intro m₁ active _ path =>
      have hempty : Match.Unstranded { m.abandonSelection with debt := none } := fun _ => rfl
      have hopened : m₁.Unstranded := hempty.calm rfl path
      exact hopened

/-- Without an answer nobody is left behind no question, and nobody is when a turn starts or the match
ends. -/
theorem Course.unstranded {ends : Nat} (h : Course rules .unanswered m ends m')
    (hline : m'.table.turn = m.table.turn → m.Unstranded) : m'.Unstranded := by
  cases h with
  | stay path => exact (hline (steady_of_calm path).turn).calm rfl path
  | disconnect player => exact hline rfl
  | begin begins =>
      obtain ⟨-, -, -, opens⟩ := begins
      exact opens.unstranded
  | pass path _ passes =>
      obtain ⟨-, -, opens⟩ := passes
      exact opens.unstranded
  | finish winner => exact fun _ => rfl

/-- **An operation that is no failed answer leaves nobody behind no question, unless it was so
before and it is still the same turn.** -/
theorem perform_unstranded (hc : rules.catalog.Coherent) (hm : m.Conforms rules.catalog)
    {op : Operation}
    (hanswer : op.selects = true → (m.perform rules op).2.table.turn = m.table.turn →
      ∃ answer, (m.perform rules op).1 = .ok answer)
    (hline : (m.perform rules op).2.table.turn = m.table.turn → m.Unstranded) :
    (m.perform rules op).2.Unstranded := by
  cases hselects : op.selects with
  | true =>
      obtain ⟨player, choice, hrun⟩ := perform_of_selects rules hselects m
      have hstays := (selectTarget_stays hc (resolver_resolves_all hc) (Scope.all_covers _)
        (tolerates_all rules) rfl player choice m ⟨hm, rfl⟩).path
      rw [hrun, run_map] at hanswer hline ⊢
      have hturn := (steady_of_calm hstays).turn
      obtain ⟨answer, hok⟩ := hanswer hselects hturn
      rcases hselect : (selectTarget rules rules.resolver player choice).run m with ⟨f | outcome, m'⟩
      · rw [hselect] at hok
        cases hok
      · exact selectTarget_unstranded hc (resolver_resolves_all hc) (Scope.all_covers _)
          (tolerates_all rules) ⟨hm, rfl⟩ (hline hturn) hselect
  | false =>
      cases hop : op.isRegister with
      | true =>
          rcases register_cases rules m hop with heq | ⟨name, address, deck, -, heq⟩ <;>
            rw [heq] at hline ⊢
          · exact hline rfl
          · exact hline rfl
      | false =>
          exact (perform_course hc (Scope.unanswered_covers _) hm
            (Operation.within_unanswered hselects) hop).unstranded hline

/-- A match that comes about by any operations with any answers, except that since its turn last
changed no answer to a question has failed. -/
inductive Answered (rules : Rulebook) : Match → Prop
  | opening (handle : Nat → LiveId) (dice : Dice) :
      Answered rules (Match.opening rules.config handle dice)
  | perform {m : Match} (op : Operation) (h : Answered rules m)
      (hanswer : op.selects → ∃ answer, (m.perform rules op).1 = .ok answer) :
      Answered rules (m.perform rules op).2
  | turn {m : Match} (op : Operation) (h : Reachable rules m)
      (hturn : (m.perform rules op).2.table.turn ≠ m.table.turn) :
      Answered rules (m.perform rules op).2

theorem Answered.reachable (h : Answered rules m) : Reachable rules m := by
  induction h with
  | opening handle dice => exact .opening handle dice
  | perform op _ _ ih => exact ih.perform op
  | turn op h _ => exact h.perform op

theorem Answered.unstranded (hc : rules.catalog.Coherent) (h : Answered rules m) :
    m.Unstranded := by
  induction h with
  | opening handle dice => exact fun _ => rfl
  | perform op h hanswer ih =>
      exact perform_unstranded hc (h.reachable.conforms hc) (fun hselects _ => hanswer hselects)
        fun _ => ih
  | turn op h hturn =>
      exact perform_unstranded hc (h.conforms hc) (fun _ hsame => absurd hsame hturn)
        fun hsame => absurd hsame hturn

/-- Whether operations lead to a match without failed answers can be checked. -/
theorem Answered.run {ops : List Operation} (h : Answered rules m)
    (hops : m.noneFails rules Operation.selects ops = true) : Answered rules (m.run rules ops) := by
  induction ops generalizing m with
  | nil => exact h
  | cons op rest ih =>
      obtain ⟨hanswer, hrest⟩ := Match.noneFails_cons.mp hops
      exact ih (h.perform op hanswer) hrest

/-- **No firing is left waiting, as long as answers do not fail.**

The match has come about by any operations with any answers, except that since its turn last changed
no answer to a question has failed.  If no question is open then, nobody stands in line; so whatever
fires while somebody does comes last. -/
theorem idle_line_empty (hc : rules.catalog.Accepted) (h : Answered rules m) :
    (m.session.isIdle → m.session.queue = []) ∧
      ∀ resolve firing, m.session.queue ≠ [] → (dispatch resolve firing).run m
        = (.ok (), { m with session.queue := m.session.queue ++ [firing] }) := by
  have hline := h.unstranded hc.coherent
  refine ⟨fun hidle => hline (Option.isNone_iff_eq_none.mp hidle), fun resolve firing hwaits => ?_⟩
  have hbusy : m.session.isIdle = false := by
    cases hidle : m.session.isIdle with
    | false => rfl
    | true => exact absurd (hline (Option.isNone_iff_eq_none.mp hidle)) hwaits
  rw [dispatch, run_get_bind, hbusy]
  rfl

namespace Duel

/-- Both archers ask whom to hit, the second one after the first, and Ann answers both. -/
def answering : List Operation :=
  deal ++ [.playCard ⟨0⟩ ⟨2⟩, .playCard ⟨0⟩ ⟨2⟩, .selectTarget ⟨0⟩ (.player ⟨1⟩),
    .selectTarget ⟨0⟩ (.player ⟨1⟩)]

theorem answered_line :
    Answered book (opening.run book answering) ∧
    (opening.run book answering).session.isIdle ∧
    (opening.run book answering).session.queue = [] := by
  have hanswered : Answered book (opening.run book answering) :=
    (Answered.opening _ _).run (by decide +kernel)
  have hidle : (opening.run book answering).session.isIdle := by decide +kernel
  exact ⟨hanswered, hidle, (idle_line_empty accepted hanswered).1 hidle⟩

/-- The duel of players who have no life to lose. -/
def lifeless : Rulebook :=
  { book with catalog := { book.catalog with playerAttributes := [] } }

theorem accepted_lifeless : lifeless.catalog.Accepted :=
  accepted_of_checks (d := { draft with playerAttributes := [] }) rfl (by decide +kernel)
    (by decide +kernel)

/-- Both archers ask whom to hit, the second one after the first. -/
def waiting : Match :=
  after lifeless (deal ++ [.playCard ⟨0⟩ ⟨2⟩, .playCard ⟨0⟩ ⟨2⟩])

/-- Ann's answer fails, and the second archer waits behind no question. -/
theorem stranded :
    lifeless.catalog.Accepted ∧ Reachable lifeless waiting ∧
    (waiting.perform lifeless (.selectTarget ⟨0⟩ (.player ⟨1⟩))).1
      = .error (.attributeNotFound "player#1" "Life") ∧
    (waiting.perform lifeless (.selectTarget ⟨0⟩ (.player ⟨1⟩))).2.session.isIdle ∧
    (waiting.perform lifeless (.selectTarget ⟨0⟩ (.player ⟨1⟩))).2.session.queue
      = [⟨shot, ⟨1⟩⟩] := by
  refine ⟨accepted_lifeless, reachable_after .., ?_, ?_, ?_⟩ <;> decide +kernel

end Duel

end CardArena
