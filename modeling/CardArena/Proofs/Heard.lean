import Mathlib
import CardArena.Proofs.Fate
import CardArena.Proofs.Found

/-!
# Who hears of a write

To write an attribute is to announce it.  A write to a card announces the way that the value moved, if
it moved, and then one event for each comparison, whether it moved or not; all of them on that card.
A write to a player announces the way that the value moved, on every card in play.

`cardWriteEvents` and `playerWriteEvents` are what a write announces, and the two writes are a look at
the old value, the write itself and a loop through these events (`setCardAttribute_run`,
`setPlayerAttribute_run`).  So what a trigger hears of a write is a count over a list, and
`countP_cardWriteEvents` says what it comes to: the five comparisons overlap in the values that they
hold for, but each event names its comparison, and so a trigger for one of them hears of that one only.
-/

namespace CardArena

open Play
open Relation (ReflTransGen)

/-! ## What triggers wait for -/

/-- An attribute went strictly that way. -/
def Direction.Moves (old new : Amount) : Direction → Prop
  | .increase => old.toInt < new.toInt
  | .decrease => new.toInt < old.toInt

instance (old new : Amount) : DecidablePred (Direction.Moves old new)
  | .increase => inferInstanceAs (Decidable (old.toInt < new.toInt))
  | .decrease => inferInstanceAs (Decidable (new.toInt < old.toInt))

/-- The comparison as one of integers. -/
def Comparison.Relates (value threshold : Int) : Comparison → Prop
  | .lessThan => value < threshold
  | .lessThanOrEqual => value ≤ threshold
  | .equal => value = threshold
  | .greaterThanOrEqual => threshold ≤ value
  | .greaterThan => threshold < value

instance (value threshold : Int) : DecidablePred (Comparison.Relates value threshold)
  | .lessThan => inferInstanceAs (Decidable (value < threshold))
  | .lessThanOrEqual => inferInstanceAs (Decidable (value ≤ threshold))
  | .equal => inferInstanceAs (Decidable (value = threshold))
  | .greaterThanOrEqual => inferInstanceAs (Decidable (threshold ≤ value))
  | .greaterThan => inferInstanceAs (Decidable (threshold < value))

theorem Direction.between?_eq_some_iff {old new : Amount} {direction : Direction} :
    between? old new = some direction ↔ direction.Moves old new := by
  have hlt := @Int32.lt_iff_toInt_lt old new
  have hgt := @Int32.lt_iff_toInt_lt new old
  rw [between?]
  cases direction with
  | increase =>
      show _ ↔ old.toInt < new.toInt
      split
      · next h => simp [hlt.mp h]
      · next h => split <;> simp [← hlt, h]
  | decrease =>
      show _ ↔ new.toInt < old.toInt
      split
      · next h =>
          have := hlt.mp h
          simp only [Option.some.injEq, reduceCtorEq, false_iff]
          omega
      · split
        · next h => simp [hgt.mp h]
        · next h => simp [← hgt, h]

theorem Direction.between?_eq_none_iff {old new : Amount} :
    between? old new = none ↔ new = old := by
  rw [Option.eq_none_iff_forall_ne_some, ← Int32.toInt_inj]
  constructor
  · intro h
    have hup : ¬ old.toInt < new.toInt := fun hm =>
      h .increase (between?_eq_some_iff.mpr (show Moves old new .increase from hm))
    have hdown : ¬ new.toInt < old.toInt := fun hm =>
      h .decrease (between?_eq_some_iff.mpr (show Moves old new .decrease from hm))
    omega
  · intro h direction hsome
    have hmoves := between?_eq_some_iff.mp hsome
    cases direction <;> simp only [Moves] at hmoves <;> omega

theorem Comparison.holds_iff {value threshold : Amount} {op : Comparison} :
    op.holds value threshold = true ↔ op.Relates value.toInt threshold.toInt := by
  cases op with
  | lessThan => exact decide_eq_true_iff.trans Int32.lt_iff_toInt_lt
  | lessThanOrEqual => exact decide_eq_true_iff.trans Int32.le_iff_toInt_le
  | equal => exact decide_eq_true_iff.trans Int32.toInt_inj.symm
  | greaterThanOrEqual => exact decide_eq_true_iff.trans Int32.le_iff_toInt_le
  | greaterThan => exact decide_eq_true_iff.trans Int32.lt_iff_toInt_lt

/-- Every comparison is announced once. -/
theorem Comparison.count_all (op : Comparison) : all.count op = 1 := by
  cases op <;> rfl

/-! ## What a write announces -/

/-- What a write to a card announces on it, in turn. -/
def cardWriteEvents (attr : String) (old value : Amount) : List Event :=
  ((Direction.between? old value).toList.map fun direction => .cardAttributeDelta direction attr) ++
    Comparison.all.map fun op => .cardAttributeCompare op attr value

/-- What a write to a player announces on every card. -/
def playerWriteEvents (player : PlayerId) (attr : String) (old value : Amount) : List Event :=
  (Direction.between? old value).toList.map fun direction =>
    .playerAttributeDelta direction attr player

/-- How often a trigger of a card is to hear of a write to the card. -/
def Trigger.hearings (attr : String) (old value : Amount) : Trigger → Nat
  | .cardAttributeCompare op attr' threshold =>
    if attr' = attr ∧ op.Relates value.toInt threshold.toInt then 1 else 0
  | .cardAttributeDelta direction attr' =>
    if attr' = attr ∧ direction.Moves old value then 1 else 0
  | _ => 0

/-- An event of each comparison has one that a trigger for a comparison listens to, if the comparison
holds. -/
theorem countP_compareEvents (owner : PlayerId) (op : Comparison) (attr attr' : String)
    (value threshold : Amount) :
    (Comparison.all.map fun op => Event.cardAttributeCompare op attr value).countP
        ((Trigger.cardAttributeCompare op attr' threshold).listensFor owner) =
      if attr' = attr ∧ op.Relates value.toInt threshold.toInt then 1 else 0 := by
  rw [List.countP_map]
  by_cases h : attr' = attr ∧ op.Relates value.toInt threshold.toInt
  · rw [if_pos h, ← op.count_all, List.count]
    refine List.countP_congr ?_
    intro op' _
    have hholds := Comparison.holds_iff.mpr h.2
    simp only [Function.comp_apply, Trigger.listensFor, Bool.and_eq_true, decide_eq_true_eq,
      beq_iff_eq]
    constructor
    · rintro ⟨⟨rfl, -⟩, -⟩
      rfl
    · rintro rfl
      exact ⟨⟨rfl, h.1⟩, hholds⟩
  · rw [if_neg h, List.countP_eq_zero]
    intro op' _ hlistens
    simp only [Function.comp_apply, Trigger.listensFor, Bool.and_eq_true, decide_eq_true_eq]
      at hlistens
    obtain ⟨⟨rfl, hattr⟩, hholds⟩ := hlistens
    exact h ⟨hattr, Comparison.holds_iff.mp hholds⟩

/-- The event of the way that a value moved is one that a trigger for that way listens to. -/
theorem countP_deltaEvents (owner : PlayerId) (direction : Direction) (attr attr' : String)
    (old value : Amount) :
    ((Direction.between? old value).toList.map fun direction =>
        Event.cardAttributeDelta direction attr).countP
        ((Trigger.cardAttributeDelta direction attr').listensFor owner) =
      if attr' = attr ∧ direction.Moves old value then 1 else 0 := by
  cases hmoved : Direction.between? old value with
  | none =>
      have hstill : ¬ direction.Moves old value := fun hmoves =>
        nomatch hmoved.symm.trans (Direction.between?_eq_some_iff.mpr hmoves)
      rw [if_neg fun h => hstill h.2]
      rfl
  | some actual =>
      have hmoves : direction.Moves old value ↔ direction = actual := by
        rw [← Direction.between?_eq_some_iff, hmoved, Option.some.injEq, eq_comm]
      rw [Option.toList_some, List.map_singleton, List.countP_singleton]
      simp only [Trigger.listensFor, hmoves, Bool.and_eq_true, decide_eq_true_eq, and_comm]

/-- **A trigger hears of a write to its card as often as it is to: once if it waits for just that, and
not at all otherwise.** -/
theorem countP_cardWriteEvents (owner : PlayerId) (attr : String) (old value : Amount)
    (trigger : Trigger) :
    (cardWriteEvents attr old value).countP (trigger.listensFor owner)
      = trigger.hearings attr old value := by
  have hdeaf {α : Type} {announce : α → Event} {xs : List α}
      (h : ∀ x, trigger.listensFor owner (announce x) = false) :
      (xs.map announce).countP (trigger.listensFor owner) = 0 := by
    rw [List.countP_map, List.countP_eq_zero]
    intro x _
    simp [h x]
  rw [cardWriteEvents, List.countP_append]
  cases trigger with
  | cardAttributeCompare op attr' threshold =>
      rw [countP_compareEvents, hdeaf fun _ => rfl, Nat.zero_add]
      rfl
  | cardAttributeDelta direction attr' =>
      rw [countP_deltaEvents, hdeaf fun _ => rfl, Nat.add_zero]
      rfl
  | _ =>
      rw [hdeaf fun _ => rfl, hdeaf fun _ => rfl]
      rfl

theorem playerWriteEvents_eq_nil_iff {player : PlayerId} {attr : String} {old value : Amount} :
    playerWriteEvents player attr old value = [] ↔ value = old := by
  rw [playerWriteEvents, List.map_eq_nil_iff, Option.toList_eq_nil_iff,
    Direction.between?_eq_none_iff]

theorem playerWriteEvents_of_moves {player : PlayerId} {attr : String} {old value : Amount}
    {direction : Direction} (h : direction.Moves old value) :
    playerWriteEvents player attr old value = [.playerAttributeDelta direction attr player] := by
  rw [playerWriteEvents, Direction.between?_eq_some_iff.mpr h]
  rfl

/-! ## Writing as a loop through announcements -/

namespace Match

/-- The match with an attribute of a card written, and nobody told. -/
def writeCard (m : Match) (card : LiveId) (attr : String) (value : Amount) : Match :=
  m.onTable (·.modifyLive card fun live => { live with attributes := live.attributes.set attr value })

/-- The match with an attribute of a player written, and nobody told. -/
def writePlayer (m : Match) (player : PlayerId) (attr : String) (value : Amount) : Match :=
  m.onTable (·.modifyPlayer player fun seat =>
    { seat with attributes := seat.attributes.set attr value })

end Match

/-- To write an attribute moves no card. -/
theorem liveInOrder_writePlayer (m : Match) (player : PlayerId) (attr : String) (value : Amount) :
    (m.writePlayer player attr value).table.liveInOrder = m.table.liveInOrder := by
  rw [Table.liveInOrder_eq, Table.liveInOrder_eq]
  exact congrArg _ (Table.gather_modifyPlayer Zone.live player (fun _ => rfl) fun _ => rfl)

variable {rules : Rulebook} {resolve : Resolver} {m : Match}

theorem setCardAttribute_run {card : LiveId} {live : LiveCard} {attr : String} {old : Amount}
    (hlive : m.table.live? card = some live) (hold : live.attributes.get? attr = some old)
    (value : Amount) : (setCardAttribute rules resolve card attr value).run m =
      ((cardWriteEvents attr old value).forM (raise rules resolve · card)).run
        (m.writeCard card attr value) := by
  have hread : (cardAttribute card attr).run m = (.ok old, m) := by
    rw [cardAttribute, run_get_bind, hlive]
    dsimp only
    rw [hold]
    rfl
  rw [setCardAttribute, run_bind_ok hread, run_modify_bind, cardWriteEvents]
  cases Direction.between? old value with
  | none => rfl
  | some direction => rfl

theorem setPlayerAttribute_run {player : PlayerId} {seat : Player} {attr : String} {old : Amount}
    (hseat : m.table.player? player = some seat) (hold : seat.attributes.get? attr = some old)
    (value : Amount) : (setPlayerAttribute rules resolve player attr value).run m =
      ((playerWriteEvents player attr old value).forM (raiseOnAll rules resolve)).run
        (m.writePlayer player attr value) := by
  have hread : (playerAttribute player attr).run m = (.ok old, m) := by
    rw [playerAttribute, run_get_bind, hseat]
    dsimp only
    rw [hold]
    rfl
  rw [setPlayerAttribute, run_bind_ok hread, run_modify_bind, playerWriteEvents]
  cases Direction.between? old value with
  | none => rfl
  | some direction =>
      rw [Option.toList_some, List.map_singleton, forM_singleton]
      rfl

theorem raiseIfAlive_run (event : Event) (card : LiveId) (m : Match) :
    (raiseIfAlive rules resolve event card).run m =
      if m.table.isAlive card then (raise rules resolve event card).run m else (.ok (), m) := by
  rw [raiseIfAlive, run_get_bind]
  split <;> rfl

/-! ## Every listener once -/

/-- **A write to a card raises its events on that card one after the other, and a trigger listens for
one of them if it waits for what the write did, and for none otherwise.  A write to a player raises one
event if the value changed and none otherwise, and the event goes to each card that was in a zone once,
if the card is alive when its turn comes.** -/
theorem writes_heard_once (hc : rules.catalog.Accepted) {m₀ : Match} (h : Reachable rules m₀)
    (hsteps : ReflTransGen (Step rules .all) m₀ m) (hfresh : m.Fresh) (resolve : Resolver)
    (attr : String) (value : Amount) :
    (∀ card live old, m.table.live? card = some live → live.attributes.get? attr = some old →
      let events := cardWriteEvents attr old value
      let written := m.writeCard card attr value
      let done := (setCardAttribute rules resolve card attr value).run m
      done = (events.forM (raise rules resolve · card)).run written ∧
      (done.1 = .ok () →
        (stops (raise rules resolve · card) written events).map Prod.fst = events) ∧
      ∀ owner trigger,
        events.countP (Trigger.listensFor owner trigger) = trigger.hearings attr old value) ∧
    (∀ player seat old, m.table.player? player = some seat → seat.attributes.get? attr = some old →
      let written := m.writePlayer player attr value
      let done := (setPlayerAttribute rules resolve player attr value).run m
      (value = old → done = (.ok (), written)) ∧
      ∀ direction, Direction.Moves old value direction →
        let event := Event.playerAttributeDelta direction attr player
        let order := written.table.liveInOrder
        let reached := stops (raiseIfAlive rules resolve event) written order
        done = (order.forM (raiseIfAlive rules resolve event)).run written ∧
        order = m.table.liveInOrder ∧
        (∀ card, (reached.map Prod.fst).count card ≤ 1) ∧
        (done.1 = .ok () → ∀ card ∈ order, (reached.map Prod.fst).count card = 1) ∧
        ∀ stop ∈ reached, (raiseIfAlive rules resolve event stop.1).run stop.2 =
          if stop.2.table.isAlive stop.1 then (raise rules resolve event stop.1).run stop.2
          else (.ok (), stop.2)) := by
  have hm : m.Orderly rules := (h.orderly hc.coherent).of_steps hc.coherent hsteps
  constructor
  · intro card live old hlive hold events written done
    have hrun : done = (events.forM (raise rules resolve · card)).run written :=
      setCardAttribute_run hlive hold value
    refine ⟨hrun, fun hok => ?_, fun owner => countP_cardWriteEvents owner attr old value⟩
    exact stops_of_ok (hrun.symm.trans (Prod.ext hok rfl))
  · intro player seat old hseat hold written done
    have hrun : done = ((playerWriteEvents player attr old value).forM
        (raiseOnAll rules resolve)).run written :=
      setPlayerAttribute_run hseat hold value
    constructor
    · intro hsame
      rw [hrun, playerWriteEvents_eq_nil_iff.mpr hsame]
      rfl
    · intro direction hmoves event order reached
      have hloop : done = (order.forM (raiseIfAlive rules resolve event)).run written := by
        rw [hrun, playerWriteEvents_of_moves hmoves, forM_singleton]
        rfl
      have horder : order = m.table.liveInOrder :=
        liveInOrder_writePlayer m player attr value
      have hnodup : order.Nodup := horder ▸ (hm.integrity hfresh).table.nodup
      have hprefix := stops_isPrefix (raiseIfAlive rules resolve event) order written
      refine ⟨hloop, horder, fun card => ?_, fun hok card hcard => ?_,
        fun stop _ => raiseIfAlive_run event stop.1 stop.2⟩
      · exact List.nodup_iff_count_le_one.mp (hnodup.sublist hprefix.sublist) card
      · rw [stops_of_ok (hloop.symm.trans (Prod.ext hok rfl))]
        exact List.count_eq_one_of_mem hnodup hcard

/-- A write that leaves a wolf as strong as it is is heard once by whoever waits for that strength, and
a blow to Ann reaches the wolf and both dragons once. -/
theorem Duel.lair_hears :
    vain.catalog.Accepted ∧ Reachable vain lair ∧ lair.Fresh ∧
    (cardWriteEvents "Strength" 2 2).countP
      (Trigger.listensFor ⟨0⟩ (.cardAttributeCompare .equal "Strength" 2)) = 1 ∧
    ∀ card ∈ [⟨0⟩, ⟨1⟩, ⟨2⟩],
      ((stops (raiseIfAlive vain vain.resolver (.playerAttributeDelta .decrease "Life" ⟨0⟩))
        (lair.writePlayer ⟨0⟩ "Life" 17)
        (lair.writePlayer ⟨0⟩ "Life" 17).table.liveInOrder).map Prod.fst).count card = 1 := by
  have hreach : Reachable vain lair := reachable_after ..
  have hfresh : lair.Fresh := by
    unfold Match.Fresh
    decide +kernel
  refine ⟨accepted_vain, hreach, hfresh, ?_, ?_⟩
  · have hstrong : (lair.table.live? ⟨0⟩).bind (·.attributes.get? "Strength") = some 2 := by
      decide +kernel
    obtain ⟨wolf, hwolf, hold⟩ := Option.bind_eq_some_iff.mp hstrong
    obtain ⟨hcards, -⟩ := writes_heard_once accepted_vain hreach .refl hfresh vain.resolver
      "Strength" 2
    exact (hcards ⟨0⟩ wolf 2 hwolf hold).2.2 ⟨0⟩ (.cardAttributeCompare .equal "Strength" 2)
  · have halive : (lair.table.player? ⟨0⟩).bind (·.attributes.get? "Life") = some 20 := by
      decide +kernel
    obtain ⟨ann, hann, hold⟩ := Option.bind_eq_some_iff.mp halive
    obtain ⟨-, hplayers⟩ := writes_heard_once accepted_vain hreach .refl hfresh vain.resolver
      "Life" 17
    obtain ⟨-, -, -, honce, -⟩ :=
      (hplayers ⟨0⟩ ann 20 hann hold).2 .decrease (by decide +kernel)
    have hlisted : lair.table.liveInOrder = [⟨0⟩, ⟨1⟩, ⟨2⟩] := by decide +kernel
    have hok : ((setPlayerAttribute vain vain.resolver ⟨0⟩ "Life" 17).run lair).1 = .ok () := by
      decide +kernel
    intro card hcard
    refine honce hok card ?_
    rw [liveInOrder_writePlayer, hlisted]
    exact hcard

end CardArena
