import Mathlib
import CardArena.Proofs.Dawn
import CardArena.Proofs.Depth
import CardArena.Proofs.Fate

/-!
# How cards count their turns

When a turn starts, the cards that are in play after the ceremony count it one after the other.  What
the one sets off may spawn, kill, move or transform the next, and it may fail half way; each card is
looked up anew when the count comes to it, and it is counted if it is still there and alive.

What a card hears of its turns is kept as a list beside the run (`Match.annals`), read off the same
functions that do the counting.  Between two of its entries nothing touches the number that a card has
in play (`Match.Ageless`), and a card that comes into play has a handle that has not been handed out
before, for which nothing has been written down yet.  So what is written down for a handle is one, two,
three and so on, and the card has in play what was written down last (`Match.Tallies`).

* `Step.ageless` : whatever happens, short of counting, no card gets older.
* `Match.Tallies.countedAll` : cards that count a turn one after the other keep the books.
* `cards_count_their_turns` : the law for every run.
-/

namespace CardArena

open Play
open Relation (ReflTransGen)

variable {rules : Rulebook} {scope : Scope} {op : Operation} {m m' m'' : Match}

/-! ## What counts no turn -/

/-- Whoever is in play afterwards was in play before with the same number of turns, or has come into
play since, under a handle that was not handed out before, and has none. -/
def Match.Ageless (m m' : Match) : Prop :=
  ∀ id live', m'.table.live? id = some live' →
    (∃ live, m.table.live? id = some live ∧ live.turnsInPlay = live'.turnsInPlay) ∨
      id ∉ m.spawner.handed ∧ live'.turnsInPlay = 0

namespace Match.Ageless

theorem refl (m : Match) : m.Ageless m :=
  fun _ live' hlive => .inl ⟨live', hlive, rfl⟩

theorem trans (h : m.Ageless m') (hhanded : m.spawner.handed <+: m'.spawner.handed)
    (h' : m'.Ageless m'') : m.Ageless m'' := by
  intro id live'' hlive''
  rcases h' id live'' hlive'' with ⟨live', hlive', hcount⟩ | ⟨hnew, hzero⟩
  · rcases h id live' hlive' with ⟨live, hlive, hsame⟩ | ⟨hnew, hzero⟩
    · exact .inl ⟨live, hlive, hsame.trans hcount⟩
    · exact .inr ⟨hnew, hcount.symm.trans hzero⟩
  · exact .inr ⟨fun hold => hnew (hhanded.subset hold), hzero⟩

theorem of_roster (h : m'.table.roster = m.table.roster) : m.Ageless m' := by
  intro id live' hlive
  rw [Table.live?, h] at hlive
  exact .inl ⟨live', hlive, rfl⟩

/-- A card may change, but for its turns. -/
theorem mark (card : LiveId) {change : LiveCard → LiveCard}
    (h : m'.table.roster = m.table.roster.modify card change)
    (hcount : ∀ live : LiveCard, (change live).turnsInPlay = live.turnsInPlay) : m.Ageless m' := by
  intro id live' hlive
  rw [Table.live?, h, Roster.get?_modify] at hlive
  split_ifs at hlive with he
  · obtain ⟨live, hold, rfl⟩ := Option.map_eq_some_iff.mp hlive
    exact .inl ⟨live, he ▸ hold, (hcount live).symm⟩
  · exact .inl ⟨live', hlive, rfl⟩

/-- A new card has no turns. -/
theorem insert {card : LiveCard} (h : m'.table.roster = m.table.roster.insert card)
    (hnew : card.id ∉ m.spawner.handed) (hzero : card.turnsInPlay = 0) : m.Ageless m' := by
  intro id live' hlive
  rw [Table.live?, h, Roster.get?_insert] at hlive
  split_ifs at hlive with he
  · cases hlive
    exact .inr ⟨he ▸ hnew, hzero⟩
  · exact .inl ⟨live', hlive, rfl⟩

theorem erase (card : LiveId) (h : m'.table.roster = m.table.roster.erase card) :
    m.Ageless m' := by
  intro id live' hlive
  rw [Table.live?, h, Roster.get?_erase] at hlive
  split_ifs at hlive
  exact .inl ⟨live', hlive, rfl⟩

theorem destroyAll (m : Match) (graveyard : Option String) (cards : List LiveId) :
    m.Ageless (m.destroyAll graveyard cards) := by
  intro id live' hlive
  rw [live?_destroyAll] at hlive
  split_ifs at hlive
  exact .inl ⟨live', hlive, rfl⟩

end Match.Ageless

open Match (Ageless)

/-- A cascade counts no turns. -/
theorem Change.ageless (h : Change rules scope m m') (hfresh : m'.Fresh) : m.Ageless m' := by
  cases h with
  | ask => rw [Match.tell_eq_post]; exact .of_roster rfl
  | @writeCard _ card => exact .mark card rfl fun _ => rfl
  | bring | deploy =>
      rw [Match.Fresh, Match.handed_bring] at hfresh
      exact .insert rfl (Match.Fresh.next hfresh).2 rfl
  | @withdraw _ _ _ _ card => exact .erase card rfl
  | @strike card => exact .erase card rfl
  | @condemn card => exact .mark card rfl fun _ => rfl
  | @fade card => exact .mark card rfl fun _ => rfl
  | @replace card owner zone design cardType =>
      rw [Match.Fresh, Match.handed_replace] at hfresh
      have hinserted : m.Ageless (m.bring owner design cardType zone) :=
        .insert rfl (Match.Fresh.next hfresh).2 rfl
      have hhanded : m.spawner.handed <+: (m.bring owner design cardType zone).spawner.handed := by
        rw [Match.handed_bring]
        exact List.prefix_append _ _
      exact hinserted.trans hhanded (.erase card rfl)
  | _ => exact .of_roster rfl

/-- Nor does anything else within a turn, where counting is not allowed. -/
theorem Calm.ageless (hscope : scope.turns = false) (h : Calm rules scope m m')
    (hfresh : m'.Fresh) : m.Ageless m' := by
  cases h with
  | change h => exact h.ageless hfresh
  | repeatQuestion | demand => rw [Match.tell_eq_post]; exact .of_roster rfl
  | discard hzone held =>
      rw [Match.discardCard_eq hzone held]
      exact .of_roster (Table.roster_bury ..)
  | shuffle player zone =>
      rcases m.shuffleZone_eq player zone with heq | ⟨z, dice, -, heq⟩ <;> rw [heq]
      · exact .refl m
      · exact .of_roster rfl
  | age _ _ allowed => cases hscope.symm.trans allowed
  | owe _ _ _ allowed => cases hscope.symm.trans allowed
  | _ => exact .of_roster rfl

/-- **Whatever happens, short of counting, no card gets older.** -/
theorem Step.ageless (hscope : scope.turns = false) (h : Step rules scope m m')
    (hfresh : m'.Fresh) : m.Ageless m' := by
  cases h with
  | calm h => exact h.ageless hscope hfresh
  | destroyDue | destroyAfterEffect => exact Ageless.destroyAll { m with destructions := _ } _ _
  | _ => exact .of_roster rfl

theorem ageless_of_steps (h : ReflTransGen (Step rules .untimed) m m') (hfresh : m'.Fresh) :
    m.Ageless m' := by
  induction h with
  | refl => exact .refl m
  | tail hpath hstep ih =>
      exact (ih (hstep.fresh hfresh)).trans (handed_of_steps hpath) (hstep.ageless rfl hfresh)

/-- An operation that starts no turn leaves all cards as old as they are. -/
theorem Match.Idles.ageless (h : m.Idles rules op m') (hfresh : m'.Fresh) :
    m.spawner.handed <+: m'.spawner.handed ∧ m.Ageless m' := by
  cases h with
  | seat => exact ⟨List.prefix_rfl, .of_roster rfl⟩
  | steps path => exact ⟨handed_of_steps path, ageless_of_steps path hfresh⟩
  | deferred =>
      rw [Match.tell_eq_post]
      exact ⟨List.prefix_rfl, .of_roster rfl⟩

/-! ## What cards hear -/

theorem toNat_nextCount {n : UInt32} (h : n.toNat + 1 < UInt32.size) :
    (nextCount n).toNat = n.toNat + 1 := by
  rw [nextCount, if_pos h, UInt32.toNat_add]
  exact Nat.mod_eq_of_lt h

namespace Match

theorem told?_eq_some_iff {card : LiveId} {turns : UInt32} : m.told? card = some turns ↔
    ∃ live, m.table.live? card = some live ∧ live.alive = true ∧
      nextCount live.turnsInPlay = turns := by
  rw [told?, Option.bind_eq_some_iff]
  refine exists_congr fun live => and_congr_right fun _ => ?_
  cases live.alive <;> simp

theorem countedAll_concat (m : Match) (cards : List LiveId) (card : LiveId) :
    m.countedAll rules (cards ++ [card]) = (m.countedAll rules cards).counted rules card := by
  simp [countedAll]

/-- Who hears of how many turns, in order, as cards count a turn one after the other. -/
def tally (rules : Rulebook) (m : Match) : List LiveId → List (LiveId × UInt32)
  | [] => []
  | card :: rest => ((m.told? card).map (card, ·)).toList ++ (m.counted rules card).tally rules rest

theorem tally_append (cards cards' : List LiveId) :
    ∀ m : Match, m.tally rules (cards ++ cards')
      = m.tally rules cards ++ (m.countedAll rules cards).tally rules cards' := by
  induction cards with
  | nil => exact fun m => rfl
  | cons card rest ih =>
      intro m
      rw [List.cons_append, tally, tally, ih, List.append_assoc]
      rfl

/-- A card hears at most one number for each time that it is listed. -/
theorem tally_sublist (rules : Rulebook) (cards : List LiveId) :
    ∀ m : Match, ((m.tally rules cards).map Prod.fst).Sublist cards := by
  induction cards with
  | nil => exact fun m => .slnil
  | cons card rest ih =>
      intro m
      rw [tally, List.map_append]
      cases m.told? card with
      | none => exact (ih _).cons card
      | some turns => exact (ih _).cons_cons card

/-- A card that is listed once hears what there is to hear when the count comes to it. -/
theorem mem_tally_iff {earlier later : List LiveId} {card : LiveId}
    (hnodup : (earlier ++ card :: later).Nodup) {turns : UInt32} :
    (card, turns) ∈ m.tally rules (earlier ++ card :: later)
      ↔ (m.countedAll rules earlier).told? card = some turns := by
  have hother {cards : List LiveId} (hout : card ∉ cards) (m : Match) :
      (card, turns) ∉ m.tally rules cards := by
    intro hmem
    exact hout ((tally_sublist rules cards m).subset (List.mem_map_of_mem hmem))
  obtain ⟨-, hlater, hapart⟩ := List.nodup_append.mp hnodup
  have hbefore : card ∉ earlier := fun hmem => hapart card hmem card List.mem_cons_self rfl
  have hafter : card ∉ later := (List.nodup_cons.mp hlater).1
  rw [tally_append, tally, List.mem_append, List.mem_append]
  simp only [hother hbefore, hother hafter, false_or, or_false]
  cases (m.countedAll rules earlier).told? card <;> simp [eq_comm]

/-- Who hears of how many turns by an operation, if it starts a turn. -/
def heard? (m : Match) (rules : Rulebook) (op : Operation) : Option (List (LiveId × UInt32)) :=
  (m.dawn? rules op).map fun m₁ =>
    (m₁.heralded rules).tally rules (m₁.heralded rules).table.liveInOrder

/-- What cards hear of their turns in a run, for each turn that starts. -/
def annals (rules : Rulebook) (m : Match) : List Operation → List (List (LiveId × UInt32))
  | [] => []
  | op :: rest => (m.heard? rules op).toList ++ (m.perform rules op).2.annals rules rest

theorem annals_append (ops ops' : List Operation) :
    ∀ m : Match, m.annals rules (ops ++ ops')
      = m.annals rules ops ++ (m.run rules ops).annals rules ops' := by
  induction ops with
  | nil => exact fun m => rfl
  | cons op rest ih =>
      intro m
      rw [List.cons_append, annals, annals, ih, List.append_assoc]
      rfl

end Match

/-! ## Books -/

/-- The numbers that a card has heard, in order. -/
def numbersOf (card : LiveId) (log : List (LiveId × UInt32)) : List UInt32 :=
  (log.filter (·.1 = card)).map Prod.snd

section

variable {card : LiveId} {log log' : List (LiveId × UInt32)}

theorem numbersOf_append :
    numbersOf card (log ++ log') = numbersOf card log ++ numbersOf card log' := by
  simp [numbersOf]

theorem numbersOf_eq_nil (h : card ∉ log.map Prod.fst) : numbersOf card log = [] := by
  refine List.map_eq_nil_iff.mpr (List.filter_eq_nil_iff.mpr fun entry hentry hcard => h ?_)
  exact of_decide_eq_true hcard ▸ List.mem_map_of_mem hentry

theorem length_numbersOf_le_one (h : (log.map Prod.fst).Nodup) :
    (numbersOf card log).length ≤ 1 := by
  have hcount : (numbersOf card log).length = (log.map Prod.fst).count card := by
    rw [numbersOf, List.length_map, ← List.countP_eq_length_filter, List.count_eq_countP,
      List.countP_map]
    exact List.countP_congr fun entry _ => by simp
  rw [hcount]
  exact List.nodup_iff_count_le_one.mp h card

end

/-- What is written down for a handle is one, two, three and so on, and whoever is in play under it has
as many turns as there are numbers. -/
structure Match.Tallies (log : List (LiveId × UInt32)) (m : Match) : Prop where
  rises : ∀ card, (numbersOf card log).map UInt32.toNat
    = List.range' 1 (numbersOf card log).length
  counts : ∀ card live, m.table.live? card = some live →
    live.turnsInPlay.toNat = (numbersOf card log).length
  handed : ∀ entry ∈ log, entry.1 ∈ m.spawner.handed

namespace Match.Tallies

variable {log : List (LiveId × UInt32)}

/-- Where no card gets older, nothing has to be written down. -/
theorem ageless (ht : m.Tallies log) (hhanded : m.spawner.handed <+: m'.spawner.handed)
    (h : m.Ageless m') : m'.Tallies log := by
  refine ⟨ht.rises, fun card live' hlive' => ?_, fun entry hentry => ?_⟩
  · rcases h card live' hlive' with ⟨live, hlive, hsame⟩ | ⟨hnew, hzero⟩
    · rw [← hsame]
      exact ht.counts card live hlive
    · have hnothing : numbersOf card log = [] := by
        refine numbersOf_eq_nil fun hmem => ?_
        obtain ⟨entry, hentry, rfl⟩ := List.mem_map.mp hmem
        exact hnew (ht.handed entry hentry)
      rw [hzero, hnothing]
      rfl
  · exact hhanded.subset (ht.handed entry hentry)

/-- A card that hears of a turn has heard of the turns before. -/
theorem aged (ht : m.Tallies log) (ho : m.Orderly rules) (hfresh : m.Fresh) {card : LiveId}
    {turns : UInt32} (htold : m.told? card = some turns)
    (hroom : (numbersOf card log).length + 1 < UInt32.size) :
    (m.aged card turns).Tallies (log ++ [(card, turns)]) := by
  obtain ⟨live, hlive, -, rfl⟩ := told?_eq_some_iff.mp htold
  have hbefore := ht.counts card live hlive
  have hnext : (nextCount live.turnsInPlay).toNat = (numbersOf card log).length + 1 := by
    rw [← hbefore] at hroom ⊢
    exact toNat_nextCount hroom
  have hself (turns : UInt32) : numbersOf card (log ++ [(card, turns)])
      = numbersOf card log ++ [turns] := by
    simp [numbersOf]
  have hother {other : LiveId} (hne : other ≠ card) (turns : UInt32) :
      numbersOf other (log ++ [(card, turns)]) = numbersOf other log := by
    simp [numbersOf, hne.symm]
  refine ⟨fun other => ?_, fun other live' hlive' => ?_, fun entry hentry => ?_⟩
  · by_cases he : other = card
    · rw [he, hself, List.map_append, ht.rises, List.length_append, List.length_singleton,
        List.range'_1_concat, List.map_singleton, hnext, Nat.add_comm 1]
    · rw [hother he]
      exact ht.rises other
  · rw [Match.aged, onTable, Table.modifyLive, Table.live?, Roster.get?_modify] at hlive'
    split_ifs at hlive' with he
    · obtain ⟨old, -, rfl⟩ := Option.map_eq_some_iff.mp hlive'
      rw [he, hself, List.length_append]
      exact hnext
    · rw [hother he]
      exact ht.counts other live' hlive'
  · rcases List.mem_append.mp hentry with hold | hnew
    · exact ht.handed entry hold
    · rw [List.mem_singleton.mp hnew]
      exact ho.mem_handed hfresh hlive

section

variable (hc : rules.catalog.Coherent)

include hc

theorem counted (ht : m.Tallies log) (ho : m.Orderly rules) {card : LiveId}
    (hfresh : (m.counted rules card).Fresh)
    (hroom : (numbersOf card log).length + 1 < UInt32.size) :
    (m.counted rules card).Tallies (log ++ ((m.told? card).map (card, ·)).toList) := by
  cases htold : m.told? card with
  | none =>
      rw [Match.counted, htold, Option.map_none, Option.toList_none, List.append_nil]
      exact ht
  | some turns =>
      have hpath := steps_of_changes (m.counted_changes hc ⟨ho.conforms, rfl⟩ htold)
      have hbefore : (m.aged card turns).Fresh := fresh_of_steps hpath hfresh
      exact (ht.aged ho hbefore htold hroom).ageless (handed_of_steps hpath)
        (ageless_of_steps hpath hfresh)

/-- **Cards that count a turn one after the other keep the books.** -/
theorem countedAll {cards : List LiveId} (ht : m.Tallies log) (ho : m.Orderly rules)
    (hnodup : cards.Nodup) (hfresh : (m.countedAll rules cards).Fresh)
    (hroom : ∀ card ∈ cards, (numbersOf card log).length + 1 < UInt32.size) :
    (m.countedAll rules cards).Tallies (log ++ m.tally rules cards) := by
  induction cards generalizing m log with
  | nil =>
      rw [tally, List.append_nil]
      exact ht
  | cons card rest ih =>
      obtain ⟨hout, hrest⟩ := List.nodup_cons.mp hnodup
      have hone := steps_of_calm (m.counted_calm hc ⟨ho.conforms, rfl⟩ card)
      have ho' := ho.of_steps hc hone
      have hpath := steps_of_calm
        ((m.counted rules card).countedAll_calm hc rest ⟨ho'.conforms, rfl⟩)
      have hcounted := ht.counted hc ho (fresh_of_steps hpath hfresh)
        (hroom card List.mem_cons_self)
      rw [tally, ← List.append_assoc]
      refine ih hcounted ho' hrest hfresh fun other hother => ?_
      have hne : other ≠ card := fun he => hout (he ▸ hother)
      have hsilent : numbersOf other ((m.told? card).map (card, ·)).toList = [] := by
        refine numbersOf_eq_nil ?_
        cases m.told? card <;> simp [hne]
      rw [numbersOf_append, hsilent, List.append_nil]
      exact hroom other (List.mem_cons_of_mem _ hother)

end

end Match.Tallies

/-! ## Turns that start -/

/-- The cards in play count a turn: each hears of it at most once, and hears one number more than it has,
if it is still there and alive when the count has gone through those before it. -/
structure Match.CountsTurn (rules : Rulebook) (told : List (LiveId × UInt32)) (m : Match) :
    Prop where
  once : (told.map Prod.fst).Nodup
  listed : ∀ entry ∈ told, entry.1 ∈ m.table.liveInOrder
  heard : ∀ earlier card later, m.table.liveInOrder = earlier ++ card :: later →
    ∀ turns : UInt32, (card, turns) ∈ told ↔
      ∃ live, (m.countedAll rules earlier).table.live? card = some live ∧ live.alive = true ∧
        turns.toNat = live.turnsInPlay.toNat + 1
  /-- The card has that many turns then, and hears of it, whatever comes of that. -/
  raised : ∀ earlier card later, m.table.liveInOrder = earlier ++ card :: later →
    ∀ turns, (card, turns) ∈ told → m.countedAll rules (earlier ++ [card])
      = ((raise rules rules.resolver (.turnCount turns) card).run
          ((m.countedAll rules earlier).aged card turns)).2
  passed : ∀ earlier card later, m.table.liveInOrder = earlier ++ card :: later →
    (∀ turns, (card, turns) ∉ told) →
      m.countedAll rules (earlier ++ [card]) = m.countedAll rules earlier

/-- What an operation makes of the turns that cards have in play: it starts no turn and leaves them, or
the cards that are in play after what happens at the start of a turn count it, and then the turn is
announced. -/
inductive Match.Ages (rules : Rulebook) (m : Match) (op : Operation) : Prop
  | rests (quiet : m.heard? rules op = none) (ageless : m.Ageless (m.perform rules op).2)
  | counts {m₁ : Match} {told : List (LiveId × UInt32)} {active : PlayerId} {now : Nat}
      (dawn : m.dawn? rules op = some m₁) (ageless : m.Ageless (m₁.heralded rules))
      (heard : m.heard? rules op = some told) (counting : (m₁.heralded rules).CountsTurn rules told)
      (after : (m.perform rules op).2
        = ((m₁.heralded rules).countedAll rules (m₁.heralded rules).table.liveInOrder).openTurn rules
            active now)

section

variable (hc : rules.catalog.Coherent) {log : List (LiveId × UInt32)}

include hc

/-- What a card hears when the count has come to it is one more than it has. -/
theorem Match.Tallies.told?_iff (ht : m.Tallies log) (ho : m.Orderly rules)
    {earlier later : List LiveId} {card : LiveId} (hnodup : (earlier ++ card :: later).Nodup)
    (hfresh : (m.countedAll rules (earlier ++ card :: later)).Fresh)
    (hroom : ∀ card, (numbersOf card log).length + 1 < UInt32.size) {turns : UInt32} :
    (m.countedAll rules earlier).told? card = some turns ↔
      ∃ live, (m.countedAll rules earlier).table.live? card = some live ∧ live.alive = true ∧
        turns.toNat = live.turnsInPlay.toNat + 1 := by
  have hpath := steps_of_calm (m.countedAll_calm hc earlier ⟨ho.conforms, rfl⟩)
  have ho' := ho.of_steps hc hpath
  have hrest := steps_of_calm
    ((m.countedAll rules earlier).countedAll_calm hc (card :: later) ⟨ho'.conforms, rfl⟩)
  have hfresh' : (m.countedAll rules earlier).Fresh := by
    refine fresh_of_steps hrest ?_
    rwa [Match.countedAll, List.foldl_append] at hfresh
  obtain ⟨hearlier, -, hapart⟩ := List.nodup_append.mp hnodup
  have hbooks := ht.countedAll hc ho hearlier hfresh' fun other _ => hroom other
  have hsilent : numbersOf card (m.tally rules earlier) = [] := by
    refine numbersOf_eq_nil fun hmem => ?_
    exact hapart card ((Match.tally_sublist rules earlier m).subset hmem) card List.mem_cons_self rfl
  rw [Match.told?_eq_some_iff]
  refine exists_congr fun live => and_congr_right fun hlive => and_congr_right fun _ => ?_
  have hcount := hbooks.counts card live hlive
  rw [numbersOf_append, hsilent, List.append_nil] at hcount
  have hnext : (nextCount live.turnsInPlay).toNat = live.turnsInPlay.toNat + 1 :=
    toNat_nextCount (hcount ▸ hroom card)
  rw [← hnext, ← UInt32.toNat_inj, eq_comm]

theorem Match.Tallies.countsTurn (ht : m.Tallies log) (ho : m.Orderly rules)
    (hnodup : m.table.liveInOrder.Nodup)
    (hfresh : (m.countedAll rules m.table.liveInOrder).Fresh)
    (hroom : ∀ card, (numbersOf card log).length + 1 < UInt32.size) :
    m.CountsTurn rules (m.tally rules m.table.liveInOrder) := by
  have hsub := Match.tally_sublist rules m.table.liveInOrder m
  refine ⟨hnodup.sublist hsub, fun entry hentry => ?_, ?_, ?_, ?_⟩
  · exact hsub.subset (List.mem_map_of_mem hentry)
  · intro earlier card later hsplit turns
    rw [hsplit] at hnodup hfresh ⊢
    rw [Match.mem_tally_iff hnodup]
    exact ht.told?_iff hc ho hnodup hfresh hroom
  · intro earlier card later hsplit turns hmem
    rw [hsplit] at hnodup hmem
    rw [Match.countedAll_concat, Match.counted, (Match.mem_tally_iff hnodup).mp hmem]
  · intro earlier card later hsplit hsilent
    rw [hsplit] at hnodup hsilent
    have hnone : (m.countedAll rules earlier).told? card = none := by
      refine Option.eq_none_iff_forall_ne_some.mpr fun turns htold => ?_
      exact hsilent turns ((Match.mem_tally_iff hnodup).mpr htold)
    rw [Match.countedAll_concat, Match.counted, hnone]

/-- An operation on a match whose books are kept keeps them, and ages cards by counting only. -/
theorem Reachable.ages (h : Reachable rules m) (ht : m.Tallies log)
    (hfresh : (m.perform rules op).2.Fresh)
    (hroom : (m.heard? rules op).isSome → ∀ card, (numbersOf card log).length + 1 < UInt32.size) :
    m.Ages rules op ∧
      (m.perform rules op).2.Tallies (log ++ (m.heard? rules op).toList.flatten) := by
  rcases dozes_or_dawns hc h op with ⟨hnone, hidles⟩ | ⟨m₁, active, now, hdawn, hpath, -, hafter⟩
  · have hquiet : m.heard? rules op = none := by rw [Match.heard?, hnone]; rfl
    obtain ⟨hhanded, hageless⟩ := hidles.ageless hfresh
    refine ⟨.rests hquiet hageless, ?_⟩
    rw [hquiet, Option.toList_none, List.flatten_nil, List.append_nil]
    exact ht.ageless hhanded hageless
  · have hheard : m.heard? rules op = some
        ((m₁.heralded rules).tally rules (m₁.heralded rules).table.liveInOrder) := by
      rw [Match.heard?, hdawn]
      rfl
    have ho := h.orderly hc
    have ho₁ := ho.of_steps hc hpath
    have hheralded := hpath.trans (m₁.heralded_steps hc ⟨ho₁.conforms, rfl⟩)
    have ho' := ho.of_steps hc hheralded
    have hcounted := steps_of_calm ((m₁.heralded rules).countedAll_calm hc
      (m₁.heralded rules).table.liveInOrder ⟨ho'.conforms, rfl⟩)
    have hfresh₂ : ((m₁.heralded rules).countedAll rules
        (m₁.heralded rules).table.liveInOrder).Fresh := by
      rw [hafter] at hfresh
      exact hfresh
    have hfresh₁ : (m₁.heralded rules).Fresh := fresh_of_steps hcounted hfresh₂
    have hnodup := (ho'.integrity hfresh₁).table.nodup
    have hageless := ageless_of_steps hheralded hfresh₁
    have ht' := ht.ageless (handed_of_steps hheralded) hageless
    have hroom' := hroom (by rw [hheard]; rfl)
    refine ⟨.counts hdawn hageless hheard (ht'.countsTurn hc ho' hnodup hfresh₂ hroom') hafter, ?_⟩
    rw [hheard, hafter, Option.toList_some, List.flatten_singleton]
    exact (ht'.countedAll hc ho' hnodup hfresh₂ fun card _ => hroom' card).ageless List.prefix_rfl
      (.of_roster rfl)

end

/-! ## Runs -/

theorem Match.annals_concat (m : Match) (ops : List Operation) (op : Operation) :
    m.annals rules (ops ++ [op])
      = m.annals rules ops ++ ((m.run rules ops).heard? rules op).toList := by
  rw [annals_append, annals, annals, List.append_nil]

/-- The match is one before its first player. -/
def Match.Blank (rules : Rulebook) (m : Match) : Prop :=
  ∃ handle dice, m = .opening rules.config handle dice

theorem Match.Blank.reachable (h : m.Blank rules) : Reachable rules m := by
  obtain ⟨handle, dice, rfl⟩ := h
  exact .opening handle dice

theorem Match.Blank.tallies (h : m.Blank rules) : m.Tallies [] := by
  obtain ⟨handle, dice, rfl⟩ := h
  exact ⟨fun _ => rfl, nofun, nofun⟩

/-- The books of a match are kept from its opening on, and there is one entry for a card and a turn at
most. -/
theorem Match.Blank.books (hc : rules.catalog.Coherent) (hm : m.Blank rules) (ops : List Operation)
    (hfresh : (m.run rules ops).Fresh) (hfew : (m.annals rules ops).length < UInt32.size) :
    (m.run rules ops).Tallies (m.annals rules ops).flatten ∧
      ∀ card, (numbersOf card (m.annals rules ops).flatten).length
        ≤ (m.annals rules ops).length := by
  induction ops using List.reverseRecOn with
  | nil => exact ⟨hm.tallies, fun _ => le_rfl⟩
  | append_singleton ops op ih =>
      have h := hm.reachable.run ops
      rw [run_concat] at hfresh ⊢
      rw [annals_concat, List.length_append] at hfew ⊢
      obtain ⟨hbooks, hshort⟩ :=
        ih ((h.conforms hc).fresh_of_perform hc op hfresh) (by omega)
      have hroom : ((m.run rules ops).heard? rules op).isSome → ∀ card,
          (numbersOf card (m.annals rules ops).flatten).length + 1 < UInt32.size := by
        intro hstarts card
        obtain ⟨told, htold⟩ := Option.isSome_iff_exists.mp hstarts
        rw [htold, Option.toList_some, List.length_singleton] at hfew
        have := hshort card
        omega
      obtain ⟨hages, hbooks'⟩ := h.ages hc hbooks hfresh hroom
      rw [List.flatten_append]
      refine ⟨hbooks', fun card => ?_⟩
      rw [numbersOf_append, List.length_append]
      refine Nat.add_le_add (hshort card) ?_
      cases hages with
      | rests quiet => simp [quiet, numbersOf]
      | counts _ _ heard counting =>
          rw [heard, Option.toList_some, List.flatten_singleton, List.length_singleton]
          exact length_numbersOf_le_one counting.once

/-- Of each operation of a run it can be told what it makes of the turns that cards have in play. -/
theorem Match.Blank.ages (hc : rules.catalog.Coherent) (hm : m.Blank rules)
    {before after : List Operation} (hfresh : (m.run rules (before ++ op :: after)).Fresh)
    (hfew : (m.annals rules (before ++ op :: after)).length < UInt32.size) :
    (m.run rules before).Ages rules op := by
  have h := hm.reachable.run before
  have hnext : ((m.run rules before).perform rules op).2.Fresh := by
    rw [run, List.foldl_append] at hfresh
    exact (h.perform op).fresh_of_run hc after hfresh
  rw [annals_append, annals, List.length_append, List.length_append] at hfew
  obtain ⟨hbooks, hshort⟩ :=
    hm.books hc before ((h.conforms hc).fresh_of_perform hc op hnext) (by omega)
  refine (h.ages hc hbooks hnext fun hstarts card => ?_).1
  obtain ⟨told, htold⟩ := Option.isSome_iff_exists.mp hstarts
  rw [htold, Option.toList_some, List.length_singleton] at hfew
  have := hshort card
  omega

/-! ## Triggers -/

theorem Trigger.listensFor_after_iff {owner : PlayerId} {n : UInt32} {event : Event} :
    (Trigger.turnCount .after n).listensFor owner event = true ↔
      ∃ turns : UInt32, event = .turnCount turns ∧ turns.toNat = n.toNat + 1 := by
  cases event <;> simp [listensFor, TurnCountMode.hits, eq_comm]

theorem Trigger.listensFor_every_iff {owner : PlayerId} {n : UInt32} (hn : 0 < n) {event : Event} :
    (Trigger.turnCount .every n).listensFor owner event = true ↔
      ∃ turns : UInt32, event = .turnCount turns ∧ n.toNat ∣ turns.toNat := by
  have hdvd (turns : UInt32) : turns % n = 0 ↔ n.toNat ∣ turns.toNat := by
    rw [← UInt32.toNat_inj, UInt32.toNat_mod, Nat.dvd_iff_mod_eq_zero]
    rfl
  cases event <;> simp [listensFor, TurnCountMode.hits, hn, hdvd]

/-- Of different numbers one is the number after `n` at most. -/
theorem length_filter_after_le_one {numbers : List UInt32} (hnodup : numbers.Nodup)
    (owner : PlayerId) (n : UInt32) : (numbers.filter fun turns =>
      (Trigger.turnCount .after n).listensFor owner (.turnCount turns)).length ≤ 1 := by
  have hfiltered := hnodup.filter fun turns =>
    (Trigger.turnCount .after n).listensFor owner (.turnCount turns)
  have hnext : ∀ turns ∈ numbers.filter fun turns =>
      (Trigger.turnCount .after n).listensFor owner (.turnCount turns),
      turns.toNat = n.toNat + 1 := by
    intro turns hturns
    obtain ⟨_, heq, hnext⟩ := Trigger.listensFor_after_iff.mp (List.mem_filter.mp hturns).2
    cases heq
    exact hnext
  generalize numbers.filter _ = hits at hfiltered hnext
  match hits with
  | [] => simp
  | [_] => simp
  | first :: second :: rest =>
      have hsame : first = second := by
        rw [← UInt32.toNat_inj, hnext first (by simp), hnext second (by simp)]
      simp [hsame] at hfiltered

/-- **Cards count their turns one by one.**

Of a run from before the first player in which no handle is handed out twice and fewer turns start
than a number holds:  an operation that starts no turn leaves all cards as many turns as they have, and
whoever comes into play has none.  When a turn starts, the cards that are in play after what happens at
its start are gone through in order, whatever fails on the way; each hears of the turn at most once, and
does hear if it is there and alive when the count has come to it, and what it hears is one more than it
has.  So over the whole run a card hears one, two, three and so on, and has in play what it heard last.
Hence a trigger that waits for the turn after the `n`th is met at most once by a card, and one that
waits for every `n`th turn by the multiples of `n`. -/
theorem cards_count_their_turns (hc : rules.catalog.Accepted) (hm : m.Blank rules)
    (ops : List Operation) (hfresh : (m.run rules ops).Fresh)
    (hfew : (m.annals rules ops).length < 2 ^ 32 - 1) :
    (∀ before op after, ops = before ++ op :: after → (m.run rules before).Ages rules op) ∧
    (∀ card, ∃ count ≤ (m.annals rules ops).length,
      (numbersOf card (m.annals rules ops).flatten).map UInt32.toNat = List.range' 1 count ∧
      ∀ live, (m.run rules ops).table.live? card = some live → live.turnsInPlay.toNat = count) ∧
    (∀ card owner n, ((numbersOf card (m.annals rules ops).flatten).filter fun turns =>
      (Trigger.turnCount .after n).listensFor owner (.turnCount turns)).length ≤ 1) ∧
    (∀ owner n event, (Trigger.turnCount .after n).listensFor owner event = true ↔
      ∃ turns : UInt32, event = .turnCount turns ∧ turns.toNat = n.toNat + 1) ∧
    (∀ owner n event, 0 < n → ((Trigger.turnCount .every n).listensFor owner event = true ↔
      ∃ turns : UInt32, event = .turnCount turns ∧ n.toNat ∣ turns.toNat)) := by
  have hlimit : (m.annals rules ops).length < UInt32.size :=
    Nat.lt_of_lt_of_le hfew (by decide)
  obtain ⟨hbooks, hshort⟩ := hm.books hc.coherent ops hfresh hlimit
  refine ⟨?_, fun card => ⟨_, hshort card, hbooks.rises card, hbooks.counts card⟩,
    fun card owner n => length_filter_after_le_one ?_ owner n,
    fun owner n event => Trigger.listensFor_after_iff,
    fun owner n event hn => Trigger.listensFor_every_iff hn⟩
  · rintro before op after rfl
    exact hm.ages hc.coherent hfresh hlimit
  · refine List.Nodup.of_map UInt32.toNat ?_
    rw [hbooks.rises card]
    exact List.nodup_range'

namespace Duel

/-- Every card hits the active player as it counts a turn. -/
def yearly : Effect :=
  { definition := "Hit", trigger := .turnCount .every 1, target := .player .currentPlayer,
    magnitude := some (.fixed 1) }

/-- The duel of cards that hit once a turn and echo each other, where no echo may be set off. -/
def aging : Rulebook where
  catalog := { book.catalog with cardTypes := [{ name := "Creature", effects := [yearly, echo] }] }
  config := { maxCascadeDepth := 1 }

theorem accepted_aging : aging.catalog.Accepted :=
  accepted_of_checks (d := { draft with cardTypes := aging.catalog.cardTypes }) rfl
    (by decide +kernel) (by decide +kernel)

/-- A match before its first player, with the handles 0, 1, 2 and so on. -/
def cradle : Match :=
  .opening aging.config (fun n => ⟨UInt64.ofNat n⟩) ⟨fun _ => 0, 0⟩

/-- Two cards come into play in Ann's first turn. -/
def births : List Operation :=
  deal ++ [.moveCards ⟨0⟩ "Hand" "Board" 2]

/-- Three more turns start. -/
def years : List Operation :=
  births ++ [.endTurn 1, .endTurn 2, .endTurn 3]

/-- Both cards count these turns, though each time the count of the first card fails on the way. -/
theorem years_counted :
    (cradle.run aging years).Fresh ∧
    ((cradle.run aging births).dawn? aging (.endTurn 1)).map (fun m₁ =>
      ((raise aging aging.resolver (.turnCount 1) ⟨0⟩).run ((m₁.heralded aging).aged ⟨0⟩ 1)).1)
        = some (.error (.cascadeLimitExceeded 1)) ∧
    (cradle.run aging births).Ages aging (.endTurn 1) ∧
    numbersOf ⟨1⟩ (cradle.annals aging years).flatten = [1, 2, 3] ∧
    ∃ live, (cradle.run aging years).table.live? ⟨1⟩ = some live ∧ live.turnsInPlay.toNat = 3 := by
  have hfresh : (cradle.run aging years).Fresh := by
    unfold Match.Fresh
    decide +kernel
  have hheard : numbersOf ⟨1⟩ (cradle.annals aging years).flatten = [1, 2, 3] := by
    decide +kernel
  have hthere : ((cradle.run aging years).table.live? ⟨1⟩).isSome := by decide +kernel
  obtain ⟨hages, hnumbers, -⟩ :=
    cards_count_their_turns accepted_aging (m := cradle) ⟨_, _, rfl⟩ years hfresh (by decide +kernel)
  obtain ⟨count, -, hrises, hcounts⟩ := hnumbers ⟨1⟩
  obtain ⟨live, hlive⟩ := Option.isSome_iff_exists.mp hthere
  rw [hheard] at hrises
  have hcount : count = 3 := by simpa using (congrArg List.length hrises).symm
  exact ⟨hfresh, by decide +kernel, hages births _ _ rfl, hheard, live, hlive,
    (hcounts live hlive).trans hcount⟩

end Duel

end CardArena
