import Mathlib
import CardArena.Proofs.Candor
import CardArena.Proofs.Line

/-!
# Working off the line

The firings in line are done one after the other as long as no question is open, and what is done on
the way may let others join the line that is being worked off.  `Drains` is that loop as it is meant,
with no bound on how often it goes round; the engine goes round at most as often as there were firings
in line at first.  The two agree (`drains_drain`), because of two things that hold of a firing from any
match whatever: it lets none join the line while no question is open, and it takes no open question
back (`Session.Move`).  So as long as the loop goes on the line only gets shorter, and once a question
is open the loop has come to its end.
-/

namespace CardArena

open Play
open Relation (ReflTransGen)

/-! ## What a firing does to the line -/

namespace Session

/-- A firing opens a question, or lets another one join the line behind an open question. -/
inductive Move : Session → Session → Prop
  | ask {s : Session} (selection : Selection) : Move s { s with pending := some selection }
  | arrive {s : Session} (firing : Firing) (waiting : s.isIdle = false) : Move s (s.enqueue firing)

variable {s s' : Session}

/-- While no question is open afterwards, nothing has happened. -/
theorem eq_of_moves (h : ReflTransGen Move s s') (hidle : s'.pending = none) : s' = s := by
  induction h with
  | refl => rfl
  | tail _ hmove ih =>
      cases hmove with
      | ask selection => cases hidle
      | arrive firing waiting =>
          have hopen : (_ : Session).isIdle = true := Option.isNone_iff_eq_none.mpr hidle
          exact nomatch waiting.symm.trans hopen

/-- An open question does not go away. -/
theorem waiting_of_moves (h : ReflTransGen Move s s') (hwaiting : s.isIdle = false) :
    s'.isIdle = false := by
  by_contra hidle
  have hpending : s'.pending = none := by simpa [isIdle] using hidle
  rw [← eq_of_moves h hpending] at hwaiting
  exact hidle hwaiting

/-- Whoever joins the line joins its end. -/
theorem queue_of_moves (h : ReflTransGen Move s s') : s.queue <+: s'.queue := by
  induction h with
  | refl => exact List.prefix_rfl
  | tail _ hmove ih =>
      cases hmove with
      | ask selection => exact ih
      | arrive firing _ => exact ih.trans (List.prefix_append _ _)

/-- **Where no question is open, the first thing to happen is that one comes up.** -/
theorem asked_of_moves (h : ReflTransGen Move s s') (hidle : s.pending = none) :
    s' = s ∨ ∃ selection, ReflTransGen Move { s with pending := some selection } s' := by
  rcases h.cases_head with heq | ⟨next, hmove, hrest⟩
  · exact .inl heq.symm
  · cases hmove with
    | ask selection => exact .inr ⟨selection, hrest⟩
    | arrive firing waiting =>
        have hopen : s.isIdle = true := Option.isNone_iff_eq_none.mpr hidle
        exact nomatch waiting.symm.trans hopen

end Session

variable {rules : Rulebook} {resolve : Resolver} {m m' : Match}

theorem Match.Converses.session (h : m.Converses rules true m') :
    ReflTransGen Session.Move m.session m'.session := by
  cases h with
  | mail h =>
      obtain ⟨_, _, _, hsession⟩ := h
      rw [hsession]
  | queue firing waiting => exact .single (.arrive firing waiting)
  | ask =>
      rw [Match.tell_eq_post]
      exact .single (.ask _)
  | drop between => cases between

theorem session_of_converses (h : ReflTransGen (Match.Converses rules true) m m') :
    ReflTransGen Session.Move m.session m'.session := by
  induction h with
  | refl => exact .refl
  | tail _ hstep ih => exact ih.trans hstep.session

/-- **What a firing does to the line, from any match and whether or not it fails.** -/
theorem resolver_session (rules : Rulebook) (firing : Firing) (m : Match) :
    ReflTransGen Session.Move m.session ((rules.resolver firing).run m).2.session :=
  session_of_converses (resolver_candid firing m trivial).path

/-! ## The loop -/

/-- The line is worked off, round after round for as long as it takes, and this is what comes of it.
The firings that are taken are noted in the order of taking, each with whether it was done: one whose
card has left play is left out. -/
inductive Drains (resolve : Resolver) :
    Match → List (Firing × Bool) → Except Fault Unit × Match → Prop
  | stop {m : Match} (ended : m.session.next? = none) : Drains resolve m [] (.ok (), m)
  | skip {m : Match} {firing : Firing} {session : Session} {log : List (Firing × Bool)}
      {out : Except Fault Unit × Match} (taken : m.session.next? = some (firing, session))
      (gone : m.table.live? firing.source = none) (rest : Drains resolve { m with session } log out) :
      Drains resolve m ((firing, false) :: log) out
  | done {m m₁ : Match} {firing : Firing} {session : Session} {log : List (Firing × Bool)}
      {out : Except Fault Unit × Match} (taken : m.session.next? = some (firing, session))
      (there : (m.table.live? firing.source).isSome)
      (run : (resolve firing).run { m with session } = (.ok (), m₁))
      (rest : Drains resolve m₁ log out) : Drains resolve m ((firing, true) :: log) out
  | fail {m m₁ : Match} {firing : Firing} {session : Session} {fault : Fault}
      (taken : m.session.next? = some (firing, session))
      (there : (m.table.live? firing.source).isSome)
      (run : (resolve firing).run { m with session } = (.error fault, m₁)) :
      Drains resolve m [(firing, true)] (.error fault, m₁)

/-- There is one way to work off a line. -/
theorem Drains.unique {log log' : List (Firing × Bool)} {out out' : Except Fault Unit × Match}
    (h : Drains resolve m log out) (h' : Drains resolve m log' out') : log' = log ∧ out' = out := by
  induction h generalizing log' out' with
  | stop ended =>
      cases h' with
      | stop => exact ⟨rfl, rfl⟩
      | skip taken => cases ended.symm.trans taken
      | done taken => cases ended.symm.trans taken
      | fail taken => cases ended.symm.trans taken
  | skip taken gone _ ih =>
      cases h' with
      | stop ended => cases ended.symm.trans taken
      | skip taken' _ rest' =>
          cases taken.symm.trans taken'
          obtain ⟨rfl, rfl⟩ := ih rest'
          exact ⟨rfl, rfl⟩
      | done taken' there =>
          cases taken.symm.trans taken'
          simp [gone] at there
      | fail taken' there =>
          cases taken.symm.trans taken'
          simp [gone] at there
  | done taken there run _ ih =>
      cases h' with
      | stop ended => cases ended.symm.trans taken
      | skip taken' gone =>
          cases taken.symm.trans taken'
          simp [gone] at there
      | done taken' _ run' rest' =>
          cases taken.symm.trans taken'
          cases run.symm.trans run'
          obtain ⟨rfl, rfl⟩ := ih rest'
          exact ⟨rfl, rfl⟩
      | fail taken' _ run' =>
          cases taken.symm.trans taken'
          cases run.symm.trans run'
  | fail taken there run =>
      cases h' with
      | stop ended => cases ended.symm.trans taken
      | skip taken' gone =>
          cases taken.symm.trans taken'
          simp [gone] at there
      | done taken' _ run' =>
          cases taken.symm.trans taken'
          cases run.symm.trans run'
      | fail taken' _ run' =>
          cases taken.symm.trans taken'
          cases run.symm.trans run'
          exact ⟨rfl, rfl⟩

/-- Where a question is open there is nothing to take. -/
theorem Session.next?_of_waiting {s : Session} (h : s.isIdle = false) : s.next? = none := by
  obtain ⟨pending, queue⟩ := s
  cases pending with
  | none => cases h
  | some selection => rfl

section

variable (hres : ∀ firing m, ReflTransGen Session.Move m.session
  ((resolve firing).run m).2.session)

include hres

/-- **To go round as often as there are firings in line is to go round for as long as it takes.** -/
theorem drains_drain (count : Nat)
    (henough : m.session.next? ≠ none → m.session.queue.length ≤ count) :
    ∃ log, Drains resolve m log ((drain resolve count).run m) := by
  induction count generalizing m with
  | zero =>
      have hover : m.session.next? = none := by
        by_contra hnext
        obtain ⟨⟨firing, session⟩, hsome⟩ := Option.ne_none_iff_exists'.mp hnext
        obtain ⟨-, hqueue, -⟩ := Session.next?_eq_some hsome
        have hlength := henough hnext
        rw [hqueue] at hlength
        cases hlength
      exact ⟨[], .stop hover⟩
  | succ count ih =>
      rw [drain, run_get_bind]
      cases hnext : m.session.next? with
      | none => exact ⟨[], .stop hnext⟩
      | some next =>
          obtain ⟨firing, session⟩ := next
          have hleft : session.queue.length ≤ count :=
            Session.length_le_of_next? hnext fun _ => henough (by simp [hnext])
          dsimp only
          rw [run_modify_bind, run_get_bind]
          cases hlive : m.table.live? firing.source with
          | none =>
              rw [if_neg (by simp)]
              obtain ⟨log, hrest⟩ := @ih { m with session } fun _ => hleft
              exact ⟨_, .skip hnext hlive hrest⟩
          | some live =>
              have hthere : (m.table.live? firing.source).isSome := by simp [hlive]
              rw [if_pos (by simp)]
              rcases hrun : (resolve firing).run { m with session } with ⟨fault | _, m₁⟩
              · rw [run_bind_error hrun]
                exact ⟨_, .fail hnext hthere hrun⟩
              · rw [run_bind_ok hrun]
                have hmoves := hres firing { m with session }
                rw [hrun] at hmoves
                -- unless a question has come up the line is the one that was left
                have hfew : m₁.session.next? ≠ none → m₁.session.queue.length ≤ count := by
                  intro hmore
                  obtain ⟨next, hsome⟩ := Option.ne_none_iff_exists'.mp hmore
                  obtain ⟨hidle, -⟩ := Session.next?_eq_some hsome
                  have hsame : m₁.session = session := Session.eq_of_moves hmoves hidle
                  rw [hsame]
                  exact hleft
                obtain ⟨log, hrest⟩ := ih hfew
                exact ⟨_, .done hnext hthere hrun hrest⟩

/-- **The loop takes a first part of the line.**  If it ends well, then in front of a question with the
rest of the line behind it, and whoever has come since; or the line is empty and no question is open. -/
theorem Drains.consumed {log : List (Firing × Bool)} {out : Except Fault Unit × Match}
    (h : Drains resolve m log out) :
    ∃ rest, m.session.queue = log.map Prod.fst ++ rest ∧
      (out.1 = .ok () →
        (∃ selection, ReflTransGen Session.Move ⟨some selection, rest⟩ out.2.session) ∨
          rest = [] ∧ out.2.session = {}) := by
  induction h with
  | @stop m ended =>
      refine ⟨m.session.queue, rfl, fun _ => ?_⟩
      rcases hsession : m.session with ⟨_ | selection, queue⟩
      · have hempty : queue = [] := Session.queue_eq_nil (hsession ▸ ended) rfl
        exact .inr ⟨hempty, by rw [hempty]⟩
      · exact .inl ⟨selection, .refl⟩
  | skip taken _ _ ih =>
      obtain ⟨-, hqueue, -⟩ := Session.next?_eq_some taken
      obtain ⟨rest, hlog, hend⟩ := ih
      exact ⟨rest, hqueue.trans (congrArg _ hlog), hend⟩
  | @done m m₁ firing session log out taken _ run hrest ih =>
      obtain ⟨-, hqueue, hnone⟩ := Session.next?_eq_some taken
      have hmoves := hres firing { m with session }
      rw [run] at hmoves
      rcases Session.asked_of_moves hmoves hnone with hsame | ⟨selection, hasked⟩
      · obtain ⟨rest, hlog, hend⟩ := ih
        have hsession : m₁.session.queue = session.queue := congrArg Session.queue hsame
        exact ⟨rest, hqueue.trans (congrArg _ (hsession.symm.trans hlog)), hend⟩
      · have hwaiting : m₁.session.isIdle = false := Session.waiting_of_moves hasked rfl
        obtain ⟨rfl, rfl⟩ := hrest.unique (.stop (Session.next?_of_waiting hwaiting))
        exact ⟨session.queue, hqueue, fun _ => .inl ⟨selection, hasked⟩⟩
  | @fail m m₁ firing session fault taken _ _ =>
      obtain ⟨-, hqueue, -⟩ := Session.next?_eq_some taken
      exact ⟨session.queue, hqueue, nofun⟩

end

/-- **Working off the line comes to an end and takes a first part of it.**

From any match whatever: a firing that leaves no question open leaves the line as it was, and none takes
an open question back.  So the loop goes round at most once for each firing that was in line at first;
what it takes is a first part of that line, in order, and what it leaves out is exactly what has no card
in play when its turn comes (`Drains`).  If nothing fails, then either a question is open, and behind it
the rest of the line and those who came once the question was open, or the line is empty and no question
is open. -/
theorem draining_ends (rules : Rulebook) (m : Match) :
    (∀ firing, ((rules.resolver firing).run m).2.session.isIdle = true →
      ((rules.resolver firing).run m).2.session = m.session) ∧
    ∃ log rest,
      (∀ log' out, Drains rules.resolver m log' out ↔
        log' = log ∧ out = (drainQueue rules.resolver).run m) ∧
      m.session.queue = log.map Prod.fst ++ rest ∧ log.length ≤ m.session.queue.length ∧
      (((drainQueue rules.resolver).run m).1 = .ok () →
        (∃ asked selection arrivals,
          ((drainQueue rules.resolver).run m).2.session = ⟨some selection, rest ++ arrivals⟩ ∧
          ReflTransGen Session.Move ⟨some asked, rest⟩ ⟨some selection, rest ++ arrivals⟩) ∨
        rest = [] ∧ ((drainQueue rules.resolver).run m).2.session = {}) := by
  have hres := resolver_session rules
  constructor
  · intro firing hidle
    exact Session.eq_of_moves (hres firing m) (Option.isNone_iff_eq_none.mp hidle)
  · obtain ⟨log, hdrains⟩ := drains_drain hres m.session.queue.length fun _ => le_rfl
    obtain ⟨rest, hqueue, hend⟩ := hdrains.consumed hres
    refine ⟨log, rest, fun log' out => ⟨fun h => hdrains.unique h, ?_⟩, hqueue, ?_, ?_⟩
    · rintro ⟨rfl, rfl⟩
      exact hdrains
    · rw [hqueue, List.length_append, List.length_map]
      exact Nat.le_add_right _ _
    · intro hok
      refine (hend hok).imp_left ?_
      rintro ⟨asked, hmoves⟩
      obtain ⟨arrivals, harrivals⟩ := Session.queue_of_moves hmoves
      have hwaiting := Session.waiting_of_moves hmoves rfl
      rcases hsession : ((drain rules.resolver m.session.queue.length).run m).2.session with
        ⟨_ | selection, queue⟩ <;> rw [hsession] at hmoves hwaiting harrivals
      · cases hwaiting
      · obtain rfl : rest ++ arrivals = queue := harrivals
        exact ⟨asked, selection, arrivals, hsession, hmoves⟩

end CardArena
