import Mathlib
import CardArena.Proofs.Course

/-!
# Reachable matches

Whatever is asked of a match with its players seated stays within the turn, or it is one of the few
things that do not: the match starts, a turn ends and the next one starts, the match ends, or somebody
can no longer be reached.  `Course` says which, and how many turns have ended.

A match is reachable if it is new or comes from a reachable match by an operation, whatever the
operation answers.  The dice and the row of handles of a new match are any.

`Match.run` does operations in turn, and whatever it leads to is reachable (`Reachable.run`).
`Reachable.induction` is how most laws of reachable matches are proved: what holds of a new match, is
kept when a player takes a seat and is kept by every `Step`, holds of every reachable match.
-/

namespace CardArena

open Play
open Relation (ReflTransGen)

variable {rules : Rulebook} {scope : Scope} {ids : List PlayerId} {resolve : Resolver}

/-! ## Operations on a seated table -/

/-- The operation is about a new player. -/
def Operation.isRegister : Operation → Bool
  | .register _ _ _ => true
  | _ => false

/-- The operation puts a card in the place of another. -/
def Operation.transforms : Operation → Bool
  | .transform _ _ => true
  | _ => false

/-- Who answers what, if the operation answers a question. -/
def Operation.choice? : Operation → Option (PlayerId × TargetChoice)
  | .selectTarget player choice => some (player, choice)
  | .intent player (.selectTarget choice) _ => some (player, choice)
  | _ => none

/-- The operation answers the open question, and the answer will do. -/
structure Match.Answers (m : Match) (rules : Rulebook) (op : Operation) (selection : Selection)
    (choice : TargetChoice) : Prop where
  pending : m.session.pending = some selection
  given : op.choice? = some (selection.chooser, choice)
  admitted : selection.admits rules m.table choice = true

/-- One for a request that was granted, none for any other. -/
def Answer.granted : Except Fault Answer → Nat
  | .ok (.outcome .applied) => 1
  | _ => 0

/-- How many turns an operation has ended, going by its answer. -/
def Operation.turnEnds : Operation → Except Fault Answer → Nat
  | .endTurn _, .ok _ => 1
  | .tick _, .ok (.flag true) => 1
  | .stopTurn _ _, answer => Answer.granted answer
  | .discardCards _ _ _, answer => Answer.granted answer
  | .intent _ .stopTurn _, answer => Answer.granted answer
  | .intent _ (.discardCards _) _, answer => Answer.granted answer
  | _, _ => 0

theorem Operation.turnEnds_of_isRegister {op : Operation} (h : op.isRegister = true)
    (answer : Except Fault Answer) : op.turnEnds answer = 0 := by
  cases op with
  | register => rfl
  | _ => cases h

theorem Operation.not_isRegister_of_turnEnds {op : Operation} {answer : Except Fault Answer}
    (h : op.turnEnds answer = 1) : op.isRegister = false := by
  by_contra hop
  rw [turnEnds_of_isRegister (by simpa using hop)] at h
  cases h

/-- What an operation on a seated table comes to, and how many turns it ends. -/
inductive Course (rules : Rulebook) (scope : Scope) : Match → Nat → Match → Prop
  | stay {m m' : Match} (path : ReflTransGen (Calm rules scope) m m') : Course rules scope m 0 m'
  | disconnect {m : Match} (player : PlayerId) :
      Course rules scope m 0 (m.onTable (·.modifyPlayer player ({ · with isConnected := false })))
  | begin {m m' : Match} {now : Nat} (begins : Begins rules scope now m m') :
      Course rules scope m 0 m'
  /-- A turn ends, before which the active player may discard. -/
  | pass {m m₁ m' : Match} {now : Nat} (path : ReflTransGen (Calm rules scope) m m₁)
      (undisturbed : m₁.table.roster = m.table.roster ∧ m₁.destructions = m.destructions)
      (passes : Passes rules scope now m₁ m') : Course rules scope m 1 m'
  | finish {m : Match} (winner : Option PlayerId) :
      Course rules scope m 0 ((m.finish winner).broadcast (.gameEnded winner))

theorem Course.steps {m m' : Match} {ends : Nat} (h : Course rules scope m ends m') :
    ReflTransGen (Step rules scope) m m' := by
  cases h with
  | stay path => exact steps_of_calm path
  | disconnect player => exact .single (.disconnect player)
  | begin begins => exact begins.steps
  | pass path _ passes => exact (steps_of_calm path).trans passes.steps
  | finish winner => exact (ReflTransGen.single (.finish winner)).tail (.broadcast rfl)

section

variable (hc : rules.catalog.Coherent)
  (hres : Resolves rules scope (fun _ => True) ids resolve) {m : Match}
  (hm : m.Fits rules.catalog ids)

include hc hres hm

theorem stopTurn_course (hturns : scope.turns = true) (player : PlayerId) (now : Nat) :
    Course rules scope m
      (Answer.granted (((stopTurn rules resolve player now).run m).1.map .outcome))
      ((stopTurn rules resolve player now).run m).2 := by
  rcases stopTurn_cases hc hres hturns hm player now with
    ⟨m', hpasses, hrun⟩ | ⟨outcome, m', hne, hpath, hrun⟩ <;> rw [hrun]
  · exact .pass .refl ⟨rfl, rfl⟩ hpasses
  · cases outcome with
    | applied => exact absurd rfl hne
    | _ => exact .stay hpath

theorem discardCards_course (hturns : scope.turns = true) (player : PlayerId)
    (cards : List CardId) (now : Nat) :
    Course rules scope m
      (Answer.granted (((discardCards rules resolve player cards now).run m).1.map .outcome))
      ((discardCards rules resolve player cards now).run m).2 := by
  rcases discardCards_cases hc hres hturns hm player cards now with
    ⟨m₁, m', hpath, hsame, hpasses, hrun⟩ | ⟨outcome, m', hne, hpath, hrun⟩ |
    ⟨m', -, -, hpath, hrun⟩ <;> rw [hrun]
  · exact .pass hpath hsame hpasses
  · cases outcome with
    | applied => exact absurd rfl hne
    | _ => exact .stay hpath
  · exact .stay hpath

/-- Whatever is asked of a match, registration aside, stays within the turn or is one of the few
things that do not. -/
theorem performWith_course {op : Operation} (hwithin : op.Within scope)
    (hgrants : ∀ selection choice, m.Answers rules op selection choice →
      scope.Grants rules.catalog selection choice)
    (hseated : op.isRegister = false) :
    Course rules scope m (op.turnEnds ((performWith rules resolve op).run m).1)
      ((performWith rules resolve op).run m).2 := by
  have htol := tolerates_all rules
  have hmap {α : Type} {step : Play α} (h : Stays rules scope (fun _ => True) ids step)
      (answer : α → Answer) : ReflTransGen (Calm rules scope) m ((answer <$> step).run m).2 :=
    ((h m hm).map answer).path
  have hdone {step : Play Unit} (h : Leads (Calm rules scope) (fun _ => True) step m) :
      ReflTransGen (Calm rules scope) m ((thenDone step).run m).2 :=
    h.thenDone.path
  cases op with
  | register => cases hseated
  | start now =>
      rw [performWith, thenDone, run_bind_pure]
      rcases startGame_cases hc hres hwithin hm now with ⟨m', hbegins, hrun⟩ | hrun | hrun <;> rw [hrun]
      · exact .begin hbegins
      · exact .stay .refl
      · exact .stay .refl
  | endTurn now =>
      rw [performWith, thenDone, run_bind]
      cases hactive : m.table.activePlayer? with
      | some active =>
          obtain ⟨m', hpasses, hrun⟩ := endTurn_run hc hres hwithin hm hactive now
          rw [hrun]
          exact .pass .refl ⟨rfl, rfl⟩ hpasses
      | none =>
          rw [endTurn_refused hactive]
          exact .stay .refl
  | tick now =>
      rw [performWith, run_map]
      rcases tick_cases hc hres hwithin hm now with ⟨m', hpasses, hrun⟩ | hrun | hrun <;> rw [hrun]
      · exact .pass .refl ⟨rfl, rfl⟩ hpasses
      · exact .stay .refl
      · exact .stay .refl
  | stopTurn player now =>
      rw [performWith, run_map]
      exact stopTurn_course hc hres hm hwithin player now
  | discardCards player cards now =>
      rw [performWith, run_map]
      exact discardCards_course hc hres hm hwithin player cards now
  | requestMove player origin destination count =>
      exact .stay (hmap (requestMove_stays hc hres player origin destination count) _)
  | playCard player card =>
      exact .stay (hmap (playCard_stays hc hres hwithin player card (.inr trivial)) _)
  | selectTarget player choice =>
      exact .stay ((selectTarget_leads hc hres htol hwithin hm fun selection hpending hchooser hadmits =>
        hgrants selection choice ⟨hpending, by rw [hchooser]; rfl, hadmits⟩).map _).path
  | intent player intent now =>
      cases intent with
      | register name deck => exact .stay .refl
      | playCard card =>
          exact .stay (hmap (playCard_stays hc hres hwithin player card (.inr trivial)) _)
      | stopTurn =>
          rw [performWith, run_map]
          exact stopTurn_course hc hres hm hwithin player now
      | moveCards origin destination count =>
          exact .stay (hmap (requestMove_stays hc hres player origin destination _) _)
      | selectTarget choice =>
          exact .stay ((selectTarget_leads hc hres htol hwithin hm
            fun selection hpending hchooser hadmits =>
              hgrants selection choice ⟨hpending, by rw [hchooser]; rfl, hadmits⟩).map _).path
      | discardCards cards =>
          rw [performWith, run_map]
          exact discardCards_course hc hres hm hwithin player cards now
  | endGame winner =>
      rw [performWith, thenDone, run_bind_pure, endGame, run_get_bind]
      split
      · exact .finish winner
      · exact .stay .refl
  | disconnect player => exact .disconnect player
  | moveCards player origin destination count =>
      exact .stay (hmap (moveCards_walks hc hres (.inr trivial) (.inr trivial) (.inr trivial)
        count).stays _)
  | kill card => exact .stay (hdone ((kill_walks hc hres card).stays m hm))
  | transform card into =>
      obtain ⟨hallowed, hfades⟩ := hwithin
      exact .stay (hmap (transform_walks hc hres hallowed (.inl hfades) (.inr trivial)).stays _)
  | attack card => exact .stay (hdone (calm_of_changes (attackCard_leads hc hres hm (.inr trivial))))
  | setPlayerAttribute player attr value =>
      exact .stay (hdone
        ((setPlayerAttribute_walks hc hres (.inr trivial) (.inr trivial) value).stays m hm))
  | setCardAttribute card attr value =>
      exact .stay (hdone
        (calm_of_changes (setCardAttribute_leads hc hres hm (.inr trivial) (.inr trivial) value)))

end

/-- **Whatever is asked of a match, registration aside, stays within the turn or is one of the few
things that do not.** -/
theorem perform_course (hc : rules.catalog.Coherent) (hcovers : scope.Covers rules.catalog)
    {m : Match} (hm : m.Conforms rules.catalog) {op : Operation} (hwithin : op.Within scope)
    (hseated : op.isRegister = false) :
    Course rules scope m (op.turnEnds (m.perform rules op).1) (m.perform rules op).2 :=
  performWith_course hc (resolver_resolves hc hcovers (tolerates_all rules)) ⟨hm, rfl⟩ hwithin
    (fun selection choice _ => hcovers.grants selection choice) hseated

/-- An operation that ends a turn goes the way of one that does. -/
theorem perform_course_of_turnEnds (hc : rules.catalog.Coherent) {m : Match}
    (hm : m.Conforms rules.catalog) {op : Operation} (h : op.turnEnds (m.perform rules op).1 = 1) :
    Course rules .all m 1 (m.perform rules op).2 :=
  h ▸ perform_course hc (Scope.all_covers _) hm op.within_all (Operation.not_isRegister_of_turnEnds h)

/-- Whatever is asked of a match, registration aside, is done in steps. -/
theorem perform_steps (hc : rules.catalog.Coherent) (hcovers : scope.Covers rules.catalog)
    {m : Match} (hm : m.Conforms rules.catalog) {op : Operation} (hwithin : op.Within scope)
    (hseated : op.isRegister = false) :
    ReflTransGen (Step rules scope) m (m.perform rules op).2 :=
  (perform_course hc hcovers hm hwithin hseated).steps

/-! ## Taking a seat -/

namespace Match

/-- The player who would take the next seat with a deck. -/
def nextPlayer (m : Match) (rules : Rulebook) (name : String) (connection : ConnectionId)
    (deck : List CardId) : Player :=
  (Player.seated ⟨UInt8.ofNat m.table.players.length⟩ name connection rules.catalog).withDeck
    rules.config.deckZone deck

/-- A player takes the next seat. -/
def seat (m : Match) (rules : Rulebook) (name : String) (connection : ConnectionId)
    (deck : List CardId) : Match :=
  (m.onTable fun table =>
    { table with players := table.players ++ [m.nextPlayer rules name connection deck] }).broadcast
    (.playerRegistered ⟨UInt8.ofNat m.table.players.length⟩ name
      (m.nextPlayer rules name connection deck).handle)

/-- A player may take the next seat with this deck. -/
structure Open (m : Match) (rules : Rulebook) (deck : List CardId) : Prop where
  notStarted : m.table.turn.status = .notStarted
  seats : m.table.players.length < UInt8.size
  known : ∀ card ∈ deck, (rules.catalog.card? card).isSome
  zone : (rules.catalog.zone? rules.config.deckZone).isSome ∨ deck = []

end Match

theorem Player.zone?_seated (id : PlayerId) (name : String) (connection : ConnectionId)
    (c : Catalog) (zone : String) :
    ((Player.seated id name connection c).zone? zone).map Zone.layout = c.zone? zone :=
  (Player.conforms_seated id name connection).zone?_layout zone

/-- A registration is refused and changes nothing, or seats a player. -/
theorem registerPlayer_cases (rules : Rulebook) (m : Match) (name : String)
    (connection : ConnectionId) (deck : List CardId) :
    (∃ f, (registerPlayer rules name connection deck).run m = (.error f, m)) ∨
      m.Open rules deck ∧ (registerPlayer rules name connection deck).run m =
        (.ok ⟨UInt8.ofNat m.table.players.length⟩, m.seat rules name connection deck) := by
  simp only [registerPlayer, run_get_bind]
  by_cases hstatus : m.table.turn.status ≠ .notStarted
  · rw [if_pos hstatus]
    exact .inl ⟨_, rfl⟩
  by_cases hfull : rules.config.playersPerMatch.toNat ≤ m.table.players.length
  · rw [if_neg hstatus, if_pos hfull]
    exact .inl ⟨_, rfl⟩
  rw [if_neg hstatus, if_neg hfull]
  cases hfind : deck.find? fun card => (rules.catalog.card? card).isNone with
  | some unknown => exact .inl ⟨_, rfl⟩
  | none =>
      dsimp only
      by_cases hsize : UInt8.size ≤ m.table.players.length
      · rw [if_pos hsize]
        exact .inl ⟨_, rfl⟩
      rw [if_neg hsize]
      split
      · exact .inl ⟨_, rfl⟩
      · next hzone =>
          refine .inr ⟨⟨by simpa using hstatus, Nat.lt_of_not_le hsize, ?_, ?_⟩, rfl⟩
          · simpa [Option.isSome_iff_ne_none] using hfind
          · rw [← Player.zone?_seated ⟨UInt8.ofNat m.table.players.length⟩ name connection,
              Option.isSome_map]
            simpa [imp_iff_not_or, Option.isSome_iff_ne_none] using hzone

theorem Zone.layout_foldl_pushCard (deck : List CardId) :
    ∀ z : Zone, (deck.foldl pushCard z).layout = z.layout := by
  induction deck with
  | nil => exact fun z => rfl
  | cons card rest ih => exact fun z => (ih _).trans (layout_pushCard z card)

theorem Zone.mem_cards_foldl_pushCard {deck : List CardId} {card : CardId} :
    ∀ {z : Zone}, card ∈ (deck.foldl pushCard z).cards → card ∈ z.cards ∨ card ∈ deck := by
  induction deck with
  | nil => exact fun h => .inl h
  | cons first rest ih =>
      intro z h
      rcases ih h with hz | hrest
      · rcases mem_cards_pushCard hz with hold | rfl
        · exact .inl hold
        · exact .inr List.mem_cons_self
      · exact .inr (List.mem_cons_of_mem _ hrest)

theorem Match.Open.conforms_nextPlayer {m : Match} {deck : List CardId} (h : m.Open rules deck)
    (name : String) (connection : ConnectionId) :
    (m.nextPlayer rules name connection deck).Conforms rules.catalog := by
  have hseated := Player.conforms_seated (c := rules.catalog)
    ⟨UInt8.ofNat m.table.players.length⟩ name connection
  refine hseated.modifyZone (fun z _ _ => Zone.layout_foldl_pushCard deck z) ?_
  intro z hz _ card hcard
  rcases Zone.mem_cards_foldl_pushCard hcard with hold | hdeck
  · exact hseated.known z hz card hold
  · exact h.known card hdeck

theorem Match.Open.conforms_seat {m : Match} {deck : List CardId} (h : m.Open rules deck)
    (hm : m.Conforms rules.catalog) (name : String) (connection : ConnectionId) :
    (m.seat rules name connection deck).Conforms rules.catalog :=
  ⟨hm.table.seat (h.conforms_nextPlayer name connection) (UInt8.toNat_ofNat_of_lt h.seats),
    hm.session⟩

/-! ## Reachable matches -/

/-- A match before its first player, for any row of handles and any dice. -/
def Match.opening (config : Config) (handle : Nat → LiveId) (dice : Dice) : Match :=
  { new config ⟨handle, 0, #[]⟩ with dice }

/-- A match that comes about by operations, whatever each of them answers. -/
inductive Reachable (rules : Rulebook) : Match → Prop
  | opening (handle : Nat → LiveId) (dice : Dice) :
      Reachable rules (Match.opening rules.config handle dice)
  | perform {m : Match} (op : Operation) (h : Reachable rules m) :
      Reachable rules (m.perform rules op).2

/-- A new match is a match of any game. -/
theorem Match.conforms_opening (c : Catalog) (config : Config) (handle : Nat → LiveId)
    (dice : Dice) : (Match.opening config handle dice).Conforms c :=
  ⟨⟨rfl, fun _ h => absurd h List.not_mem_nil, fun _ h => absurd h List.not_mem_nil,
    fun _ h => absurd h List.not_mem_nil⟩, Session.conforms_empty⟩

/-- A registration takes a seat, or is refused and changes nothing. -/
theorem register_cases (rules : Rulebook) (m : Match) {op : Operation}
    (hop : op.isRegister = true) :
    (m.perform rules op).2 = m ∨
      ∃ name connection deck, m.Open rules deck ∧
        (m.perform rules op).2 = m.seat rules name connection deck := by
  cases op with
  | register name connection deck =>
      have hrun : (m.perform rules (.register name connection deck)).2
          = ((registerPlayer rules name connection deck).run m).2 := by
        rw [Match.perform, performWith, run_map]
      rw [hrun]
      rcases registerPlayer_cases rules m name connection deck with
        ⟨f, h⟩ | ⟨hopen, h⟩ <;> rw [h]
      · exact .inl rfl
      · exact .inr ⟨name, connection, deck, hopen, rfl⟩
  | _ => cases hop

/-- An operation takes a seat, does steps, or is refused and changes nothing. -/
theorem perform_cases (hc : rules.catalog.Coherent) {m : Match} (hm : m.Conforms rules.catalog)
    (op : Operation) :
    ReflTransGen (Step rules .all) m (m.perform rules op).2 ∨
      ∃ name connection deck, m.Open rules deck ∧
        (m.perform rules op).2 = m.seat rules name connection deck := by
  cases hop : op.isRegister with
  | false => exact .inl (perform_steps hc (Scope.all_covers _) hm op.within_all hop)
  | true =>
      refine (register_cases rules m hop).imp_left fun h => ?_
      rw [h]

/-- **What a new match has, and seats and steps keep, every reachable match has.** -/
theorem Reachable.induction (hc : rules.catalog.Coherent) {P : Match → Prop}
    (opening : ∀ handle dice, P (Match.opening rules.config handle dice))
    (seat : ∀ m name connection deck, m.Conforms rules.catalog → m.Open rules deck → P m →
      P (m.seat rules name connection deck))
    (step : ∀ m m', m.Conforms rules.catalog → Step rules .all m m' → P m → P m') {m : Match}
    (h : Reachable rules m) : m.Conforms rules.catalog ∧ P m := by
  induction h with
  | opening handle dice => exact ⟨Match.conforms_opening _ _ handle dice, opening handle dice⟩
  | perform op _ ih =>
      obtain ⟨hm, hP⟩ := ih
      rcases perform_cases hc hm op with hpath | ⟨name, connection, deck, hopen, heq⟩
      · have hkept : Kept (fun m => m.Conforms rules.catalog ∧ P m) (Step rules .all) :=
          fun m m' h hm => ⟨h.conforms hc hm.1, step m m' hm.1 h hm.2⟩
        exact hkept.chain hpath ⟨hm, hP⟩
      · rw [heq]
        exact ⟨hopen.conforms_seat hm name connection, seat _ name connection deck hm hopen hP⟩

theorem Reachable.conforms (hc : rules.catalog.Coherent) {m : Match} (h : Reachable rules m) :
    m.Conforms rules.catalog :=
  (h.induction hc (P := fun _ => True) (fun _ _ => trivial) (fun _ _ _ _ _ _ _ => trivial)
    fun _ _ _ _ _ => trivial).1

theorem Reachable.timely (hc : rules.catalog.Coherent) {m : Match} (h : Reachable rules m) :
    m.Timely := by
  refine (h.induction hc (P := Match.Timely) (fun _ _ => ⟨nofun, nofun, nofun⟩) ?_
    fun m m' _ h hm => h.timely hm).2
  intro m name connection deck _ hopen hm
  have hstopped : (m.seat rules name connection deck).table.isRunning = false := by
    show decide (m.table.turn.status = .running) = false
    rw [hopen.notStarted]
    rfl
  exact ⟨fun h => (nomatch hstopped.symm.trans h), hm.question, hm.debt⟩

/-! ## Runs -/

/-- The match after operations in turn, whatever each of them answers. -/
def Match.run (rules : Rulebook) (m : Match) (ops : List Operation) : Match :=
  ops.foldl (fun m op => (m.perform rules op).2) m

theorem Match.run_concat (m : Match) (rules : Rulebook) (ops : List Operation) (op : Operation) :
    m.run rules (ops ++ [op]) = ((m.run rules ops).perform rules op).2 := by
  simp [run]

theorem Reachable.run {m : Match} (h : Reachable rules m) (ops : List Operation) :
    Reachable rules (m.run rules ops) := by
  induction ops generalizing m with
  | nil => exact h
  | cons op rest ih => exact ih (h.perform op)

/-- None of the operations of a kind fails. -/
def Match.noneFails (rules : Rulebook) (kind : Operation → Bool) : Match → List Operation → Bool
  | _, [] => true
  | m, op :: rest =>
    (!kind op || (m.perform rules op).1.isOk) && (m.perform rules op).2.noneFails rules kind rest

theorem Match.noneFails_cons {m : Match} {kind : Operation → Bool} {op : Operation}
    {rest : List Operation} :
    m.noneFails rules kind (op :: rest) = true ↔
      (kind op = true → ∃ answer, (m.perform rules op).1 = .ok answer) ∧
        (m.perform rules op).2.noneFails rules kind rest = true := by
  have hok : (m.perform rules op).1.isOk = true ↔ ∃ answer, (m.perform rules op).1 = .ok answer := by
    cases (m.perform rules op).1 <;> simp [Except.isOk, Except.toBool]
  rw [noneFails, Bool.and_eq_true, Bool.or_eq_true, Bool.not_eq_true', hok]
  cases kind op <;> simp

/-! ## A small game

A duel with two designs, on which the laws of matches are tried out.  A wolf does nothing; an archer
asks for a player to hit as it comes to the board. -/

namespace Duel

/-- Hits a player whom the active player names. -/
def shot : Effect :=
  { definition := "Hit", trigger := .cardZoneTransition .enter "Board",
    target := .player .targetPlayer, magnitude := some (.fixed 3) }

def wolf : CardDesign :=
  { id := ⟨1⟩, name := "Wolf", cardType := "Creature" }

def archer : CardDesign :=
  { id := ⟨2⟩, name := "Archer", cardType := "Creature", effects := [shot] }

def draft : Draft where
  rules := [.onPlayer "Hit" (.decreaseAttribute "Life")]
  cardTypes := [{ name := "Creature" }]
  cards := [wolf, archer]
  playerAttributes := [⟨"Life", 20⟩]
  zones := [.static "Deck" true, .static "Hand" true, .dynamic "Board", .static "Graveyard" false]

def book : Rulebook where
  catalog := { draft.assemble with cards := [wolf, archer] }
  config := {}

/-- Designs that stand in the order of their numbers already stay so. -/
theorem assemble_of_sorted {d : Draft}
    (hsorted : d.cards.Pairwise fun a b => decide (a.id.number ≤ b.id.number) = true) :
    d.assemble = { d.assemble with cards := d.cards } := by
  rw [Draft.assemble, List.mergeSort_of_pairwise hsorted]

/-- Entries whose designs are in order are a game if they fit together. -/
theorem accepted_of_sorted {d : Draft}
    (hsorted : d.cards.Pairwise fun a b => decide (a.id.number ≤ b.id.number) = true)
    (hnames : Catalog.checkNames d = .ok ())
    (hreferences : Catalog.checkReferences { d.assemble with cards := d.cards } = .ok ()) :
    Catalog.Accepted { d.assemble with cards := d.cards } := by
  refine ⟨d, ?_⟩
  rw [Catalog.ofDraft, assemble_of_sorted hsorted, hnames, hreferences]
  rfl

/-- The two designs stand in the order of their numbers already. -/
theorem assemble_eq {d : Draft} (hcards : d.cards = [wolf, archer]) :
    d.assemble = { d.assemble with cards := [wolf, archer] } := by
  rw [← hcards]
  refine assemble_of_sorted ?_
  rw [hcards]
  decide

/-- A duel by other rules is a game if its entries fit together. -/
theorem accepted_of_checks {d : Draft} (hcards : d.cards = [wolf, archer])
    (hnames : Catalog.checkNames d = .ok ())
    (hreferences : Catalog.checkReferences { d.assemble with cards := [wolf, archer] } = .ok ()) :
    Catalog.Accepted { d.assemble with cards := [wolf, archer] } := by
  rw [← hcards] at hreferences ⊢
  refine accepted_of_sorted ?_ hnames hreferences
  rw [hcards]
  decide

theorem accepted : book.catalog.Accepted :=
  accepted_of_checks (d := draft) rfl (by decide +kernel) (by decide +kernel)

/-- A match before its first player, with the handles 0, 1, 2 and so on. -/
def opening : Match :=
  .opening book.config (fun n => ⟨UInt64.ofNat n⟩) ⟨fun _ => 0, 0⟩

/-- The match has begun, and Ann has her three cards in hand. -/
def deal : List Operation :=
  [.register "Ann" ⟨1⟩ [⟨1⟩, ⟨2⟩, ⟨2⟩], .register "Bob" ⟨2⟩ [⟨1⟩], .start 0,
    .moveCards ⟨0⟩ "Deck" "Hand" 3]

theorem reachable (ops : List Operation) : Reachable book (opening.run book ops) :=
  (Reachable.opening _ _).run ops

/-- What operations make of a duel by other rules. -/
def after (rules : Rulebook) (ops : List Operation) : Match :=
  (Match.opening rules.config (fun n => ⟨UInt64.ofNat n⟩) ⟨fun _ => 0, 0⟩).run rules ops

theorem reachable_after (rules : Rulebook) (ops : List Operation) :
    Reachable rules (after rules ops) :=
  (Reachable.opening _ _).run ops

end Duel

end CardArena
