import Mathlib
import CardArena.Proofs.Reachable

/-!
# Whom an effect finds by itself

Where nobody has to name a target, an effect finds its targets by itself, and its target conditions
are there to say which of the players and cards in question it is done to.  For an effect on many
cards or on one by chance this is so: whatever the dice, it finds living cards within its reach of
which every condition holds at that moment, and it finds all of them, or one of them if there is
any.  For an effect on players it is so as well.

An effect on the very card that carries it is the exception.  It finds that card if the card is in
play, and looks neither at its conditions nor at whether the card is alive or out of reach.  That
the last two do not matter is as it should be, for else nothing could be done to a card by what it
sets off as it leaves; but the conditions are there for nothing (`Duel.unmoved_by_conditions`).

* `found_targets_pass` : the main statement, of any match.
-/

namespace CardArena

namespace Effect

variable (effect : Effect)

/-- Every target condition of the effect holds of the card in play. -/
def HoldsOfCard (c : Catalog) (t : Table) (card : LiveId) : Prop :=
  ∃ subject, t.subject? c card = some subject ∧
    ∀ condition ∈ effect.targetConditions, condition.holdsForCard c subject = true

/-- Every target condition of the effect holds of the player. -/
def HoldsOfPlayer (t : Table) (player : PlayerId) : Prop :=
  ∃ seat, t.player? player = some seat ∧
    ∀ condition ∈ effect.targetConditions, condition.holdsForPlayer seat.attributes = true

/-- The effect can get at the card: it is alive, and it carries nothing that keeps the effect off.
-/
def GetsAt (rules : Rulebook) (t : Table) (card : LiveId) : Prop :=
  ∃ live subject, t.live? card = some live ∧ t.subject? rules.catalog card = some subject ∧
    live.alive = true ∧ ∀ name, rules.config.untargetableEffect = some name →
      effect.unavoidable = true ∨ subject.hasPermanentEffect rules.catalog name = false

variable {effect} {rules : Rulebook} {t : Table}

theorem acceptsPlayer_iff {seat : Player} : effect.acceptsPlayer seat = true ↔
    ∀ condition ∈ effect.targetConditions, condition.holdsForPlayer seat.attributes = true :=
  List.all_eq_true

theorem acceptsCard_iff {c : Catalog} {subject : Subject} : effect.acceptsCard c subject = true ↔
    ∀ condition ∈ effect.targetConditions, condition.holdsForCard c subject = true :=
  List.all_eq_true

theorem reaches_iff {c : Catalog} {untargetable : Option String} {alive : Bool}
    {subject : Subject} : effect.reaches c untargetable alive subject = true ↔
      alive = true ∧ ∀ name, untargetable = some name →
        effect.unavoidable = true ∨ subject.hasPermanentEffect c name = false := by
  cases untargetable <;> simp [reaches]

/-- **A card is affected if it can be got at and every target condition holds of it.** -/
theorem affects_iff {card : LiveId} : effect.affects rules t card = true ↔
    effect.GetsAt rules t card ∧ effect.HoldsOfCard rules.catalog t card := by
  constructor
  · intro h
    rw [affects] at h
    split at h
    · next live subject hlive hsubject =>
        obtain ⟨hreaches, haccepts⟩ := Bool.and_eq_true_iff.mp h
        obtain ⟨halive, hopen⟩ := reaches_iff.mp hreaches
        exact ⟨⟨live, subject, hlive, hsubject, halive, hopen⟩,
          subject, hsubject, acceptsCard_iff.mp haccepts⟩
    · cases h
  · rintro ⟨⟨live, subject, hlive, hsubject, halive, hopen⟩, other, hother, hholds⟩
    rw [hsubject] at hother
    cases hother
    rw [affects, hlive, hsubject]
    exact Bool.and_eq_true_iff.mpr ⟨reaches_iff.mpr ⟨halive, hopen⟩, acceptsCard_iff.mpr hholds⟩

end Effect

namespace Match

variable {rules : Rulebook} {m : Match} {effect : Effect}

/-- One of a list by chance: one of its members if it has any, and never two. -/
theorem pickOne_cases {α : Type} (m : Match) (xs : List α) :
    xs = [] ∧ (m.pickOne xs).1 = [] ∨ ∃ x ∈ xs, (m.pickOne xs).1 = [x] := by
  have hpick : (m.pickOne xs).1 = (m.dice.choose xs).1.toList := rfl
  cases h : (m.dice.choose xs).1 with
  | none =>
      refine .inl ⟨?_, by rw [hpick, h, Option.toList_none]⟩
      by_contra hne
      rw [← Option.not_isSome_iff_eq_none] at h
      exact h (m.dice.isSome_choose hne)
  | some x => exact .inr ⟨x, Dice.mem_of_choose h, by rw [hpick, h, Option.toList_some]⟩

/-- The card is one that the effect should be done to: every target condition holds of it, and it is
on the table, in question for the target, alive and within reach. -/
structure Eligible (m : Match) (rules : Rulebook) (effect : Effect) (target : CardTarget)
    (card : LiveId) : Prop where
  onTable : card ∈ m.table.liveInOrder
  inQuestion : target.inScope m.table card = true
  withinReach : effect.GetsAt rules m.table card
  conditions : effect.HoldsOfCard rules.catalog m.table card

theorem mem_filter_iff {target : CardTarget} {card : LiveId} :
    (card ∈ m.table.liveInOrder.filter fun id =>
        target.inScope m.table id && effect.affects rules m.table id) ↔
      m.Eligible rules effect target card := by
  rw [List.mem_filter, Bool.and_eq_true, Effect.affects_iff]
  constructor
  · rintro ⟨htable, hscope, hreach, hholds⟩
    exact ⟨htable, hscope, hreach, hholds⟩
  · rintro ⟨htable, hscope, hreach, hholds⟩
    exact ⟨htable, hscope, hreach, hholds⟩

/-- **An effect on every card of some kind finds those that are eligible, and no others.** -/
theorem mem_automaticCards_iff {target : CardTarget} (hself : target ≠ .thisCard)
    (hmany : target ≠ .randomCard) {source card : LiveId} :
    card ∈ (m.automaticCards rules effect target source).1 ↔
      m.Eligible rules effect target card := by
  rw [automaticCards, if_neg hself]
  dsimp only
  rw [if_neg hmany]
  exact mem_filter_iff

/-- **An effect on a card by chance finds one that is eligible, if there is any.** -/
theorem automaticCards_random (m : Match) (rules : Rulebook) (effect : Effect) (source : LiveId) :
    (∃ card, m.Eligible rules effect .randomCard card ∧
        (m.automaticCards rules effect .randomCard source).1 = [card]) ∨
      (∀ card, ¬ m.Eligible rules effect .randomCard card) ∧
        (m.automaticCards rules effect .randomCard source).1 = [] := by
  have hpick : (m.automaticCards rules effect .randomCard source).1
      = (m.pickOne (m.table.liveInOrder.filter fun id =>
          CardTarget.inScope m.table id .randomCard && effect.affects rules m.table id)).1 := by
    rw [automaticCards, if_neg (by decide)]
    rfl
  rw [hpick]
  rcases m.pickOne_cases (m.table.liveInOrder.filter fun id =>
      CardTarget.inScope m.table id .randomCard && effect.affects rules m.table id) with
    ⟨hnone, hempty⟩ | ⟨card, hcard, hone⟩
  · refine .inr ⟨fun card heligible => ?_, hempty⟩
    have hmem := mem_filter_iff.mpr heligible
    rw [hnone] at hmem
    exact List.not_mem_nil hmem
  · exact .inl ⟨card, mem_filter_iff.mp hcard, hone⟩

/-- An effect on its own card finds it in play, whatever its conditions. -/
theorem mem_automaticCards_self {source card : LiveId} :
    card ∈ (m.automaticCards rules effect .thisCard source).1 ↔
      card = source ∧ (m.table.live? source).isSome = true := by
  rw [automaticCards, if_pos rfl]
  dsimp only
  split
  · next hlive => simp [hlive]
  · next hgone => simp [hgone]

/-- Whatever an effect finds among the cards is eligible, or it is its own card. -/
theorem eligible_of_mem_automaticCards {target : CardTarget} (hself : target ≠ .thisCard)
    {source card : LiveId} (h : card ∈ (m.automaticCards rules effect target source).1) :
    m.Eligible rules effect target card := by
  by_cases hrandom : target = .randomCard
  · subst hrandom
    rcases m.automaticCards_random rules effect source with ⟨found, heligible, hone⟩ | ⟨-, hnone⟩
    · rw [hone, List.mem_singleton] at h
      exact h ▸ heligible
    · rw [hnone] at h
      exact absurd h List.not_mem_nil
  · exact (mem_automaticCards_iff hself hrandom).mp h

/-- The player is one that the effect should be done to: in question for the target, and every
target condition holds of them. -/
structure EligiblePlayer (m : Match) (effect : Effect) (target : PlayerTarget)
    (player : PlayerId) : Prop where
  inQuestion : player ∈ target.scope m.table
  conditions : effect.HoldsOfPlayer m.table player

theorem mem_filter_players_iff {target : PlayerTarget} {player : PlayerId} :
    (player ∈ (target.scope m.table).filter fun id =>
        (m.table.player? id).any effect.acceptsPlayer) ↔ m.EligiblePlayer effect target player := by
  rw [List.mem_filter, Option.any_eq_true]
  simp only [Effect.acceptsPlayer_iff]
  exact ⟨fun h => ⟨h.1, h.2⟩, fun h => ⟨h.inQuestion, h.conditions⟩⟩

/-- **An effect on players finds eligible players only.** -/
theorem eligible_of_mem_automaticPlayers {target : PlayerTarget} {player : PlayerId}
    (h : player ∈ (m.automaticPlayers effect target).1) : m.EligiblePlayer effect target player := by
  rw [automaticPlayers] at h
  split at h
  · rcases m.pickOne_cases ((target.scope m.table).filter fun id =>
        (m.table.player? id).any effect.acceptsPlayer) with ⟨-, hnone⟩ | ⟨found, hfound, hone⟩
    · rw [hnone] at h
      exact absurd h List.not_mem_nil
    · rw [hone, List.mem_singleton] at h
      exact h ▸ mem_filter_players_iff.mp hfound
  · exact mem_filter_players_iff.mp h

end Match

/-- **Whatever an effect finds by itself, its target conditions hold of, unless it is its own
card.**

For an effect on cards other than its own, found by their owners or by chance, every card found is
on the table, in question, alive and within reach, and every target condition holds of it in that
match; so too of every player found.  An effect on its own card finds it whenever it is in play. -/
theorem found_targets_pass (rules : Rulebook) (m : Match) (effect : Effect) :
    (∀ target source, ∀ card ∈ (m.automaticCards rules effect target source).1,
      target ≠ .thisCard → m.Eligible rules effect target card) ∧
    (∀ source card, card ∈ (m.automaticCards rules effect .thisCard source).1 ↔
      card = source ∧ (m.table.live? source).isSome = true) ∧
    ∀ target, ∀ player ∈ (m.automaticPlayers effect target).1,
      m.EligiblePlayer effect target player := by
  refine ⟨?_, ?_, ?_⟩
  · intro target source card hfound hself
    exact Match.eligible_of_mem_automaticCards hself hfound
  · intro source card
    exact Match.mem_automaticCards_self
  · intro target player hfound
    exact Match.eligible_of_mem_automaticPlayers hfound

namespace Duel

/-- A wolf grows as it comes to the board, if it is a dragon. -/
def boast : Effect :=
  { definition := "Grow", trigger := .cardZoneTransition .enter "Board",
    targetConditions := [.cardHasSubtype "Dragon" false], target := .card .thisCard,
    magnitude := some (.fixed 1) }

/-- All dragons grow as another one comes to the board. -/
def roar : Effect :=
  { boast with target := .card .allCards }

def vainWolf : CardDesign :=
  { wolf with effects := [boast] }

def dragon : CardDesign :=
  { archer with subtypes := ["Dragon"], effects := [roar] }

def vainDraft : Draft :=
  { draft with
    rules := [.onCard "Grow" (.addCounter "Strength")]
    cardTypes := [{ name := "Creature", attributes := .set .empty "Strength" 1 }]
    cards := [vainWolf, dragon] }

/-- The duel with dragons, and with a wolf that is none. -/
def vain : Rulebook where
  catalog := { vainDraft.assemble with cards := [vainWolf, dragon] }
  config := {}

theorem accepted_vain : vain.catalog.Accepted :=
  accepted_of_sorted (d := vainDraft) (by decide) (by decide +kernel) (by decide +kernel)

/-- Ann's wolf has come to the board, and two dragons after it. -/
def lair : Match :=
  after vain (deal ++ [.moveCards ⟨0⟩ "Hand" "Board" 3])

/-- What all dragons do is done to the dragons. -/
theorem dragons_grow :
    lair.table.liveInOrder = [⟨0⟩, ⟨1⟩, ⟨2⟩] ∧
    (lair.automaticCards vain roar .allCards ⟨1⟩).1 = [⟨1⟩, ⟨2⟩] ∧
    roar.HoldsOfCard vain.catalog lair.table ⟨2⟩ := by
  have hfound : (lair.automaticCards vain roar .allCards ⟨1⟩).1 = [⟨1⟩, ⟨2⟩] := by decide +kernel
  refine ⟨by decide +kernel, hfound, ?_⟩
  obtain ⟨hcards, -, -⟩ := found_targets_pass vain lair roar
  exact (hcards .allCards ⟨1⟩ ⟨2⟩ (by rw [hfound]; decide) (by decide)).conditions

/-- The wolf is no dragon, and has grown all the same. -/
theorem unmoved_by_conditions :
    vain.catalog.Accepted ∧ Reachable vain lair ∧ vain.catalog.Carries boast ∧
    boast.target = .card .thisCard ∧ ⟨0⟩ ∈ (lair.automaticCards vain boast .thisCard ⟨0⟩).1 ∧
    ¬ boast.HoldsOfCard vain.catalog lair.table ⟨0⟩ ∧
    (lair.table.live? ⟨0⟩).bind (·.attributes.get? "Strength") = some 2 := by
  refine ⟨accepted_vain, reachable_after .., .inl ⟨vainWolf, by decide, by decide⟩, rfl, ?_, ?_, ?_⟩
  · decide +kernel
  · rintro ⟨subject, hsubject, hholds⟩
    have hwolf : (lair.table.subject? vain.catalog ⟨0⟩).map (·.design) = some vainWolf := by
      decide +kernel
    rw [hsubject] at hwolf
    have hdesign : subject.design = vainWolf := Option.some.inj hwolf
    have hdragon := hholds (.cardHasSubtype "Dragon" false) (by decide)
    rw [Condition.holdsForCard, Subject.hasSubtype, hdesign] at hdragon
    revert hdragon
    decide
  · decide +kernel

end Duel

end CardArena
