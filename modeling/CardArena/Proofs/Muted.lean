import Mathlib
import CardArena.Match.Targets
import CardArena.Match.Raising

/-!
# Games in which nothing fires

`Catalog.muted` is the same game with every effect taken off that does something.  What is left are
the permanent effects, which nothing sets off: they are only asked for.  So on a muted card nothing
listens (`listeners_muted`), and yet every question about a card has the same answer: who owns it,
what it costs, whether an effect may be aimed at it (`admits_muted`).

A match of a muted game is what is left of a match when its effects keep still; that is how
`Proofs.Exclusion` says that they do.
-/

namespace CardArena

namespace Catalog

variable (c : Catalog)

/-- The permanent effects among some. -/
def permanentOf (effects : List Effect) : List Effect :=
  effects.filter (c.isPermanent ·.definition)

/-- The design with its permanent effects alone. -/
def muteDesign (design : CardDesign) : CardDesign :=
  { design with effects := c.permanentOf design.effects }

/-- The type with its permanent effects alone. -/
def muteType (cardType : CardType) : CardType :=
  { cardType with effects := c.permanentOf cardType.effects }

/-- The game with its permanent effects alone. -/
def muted : Catalog :=
  { c with cards := c.cards.map c.muteDesign, cardTypes := c.cardTypes.map c.muteType }

/-! ## Looking things up -/

@[simp]
theorem rule?_muted (name : String) : c.muted.rule? name = c.rule? name := rfl

@[simp]
theorem isPermanent_muted (name : String) : c.muted.isPermanent name = c.isPermanent name := rfl

@[simp]
theorem card?_muted (id : CardId) : c.muted.card? id = (c.card? id).map c.muteDesign :=
  List.find?_map ..

@[simp]
theorem cardNamed?_muted (name : String) :
    c.muted.cardNamed? name = (c.cardNamed? name).map c.muteDesign :=
  List.find?_map ..

@[simp]
theorem cardType?_muted (name : String) :
    c.muted.cardType? name = (c.cardType? name).map c.muteType :=
  List.find?_map ..

@[simp]
theorem typed?_muted (id : CardId) :
    c.muted.typed? id = (c.typed? id).map (Prod.map c.muteDesign c.muteType) := by
  cases hcard : c.card? id with
  | none => simp [typed?, hcard]
  | some design =>
      have htype : c.cardType? (c.muteDesign design).cardType = c.cardType? design.cardType := rfl
      cases hfound : c.cardType? design.cardType <;> simp [typed?, hcard, htype, hfound]

/-- Nothing listens on a muted card. -/
theorem listeners_muted (card : LiveCard) (event : Event) : c.muted.listeners card event = [] := by
  rw [listeners, typed?_muted]
  cases c.typed? card.card with
  | none => rfl
  | some found =>
      obtain ⟨design, cardType⟩ := found
      refine List.filter_eq_nil_iff.mpr ?_
      intro effect heffect
      have hpermanent : c.isPermanent effect.definition = true := by
        rcases List.mem_append.mp heffect with hd | hd <;> exact (List.mem_filter.mp hd).2
      simp [hpermanent]

end Catalog

/-! ## Conditions -/

namespace Subject

variable (c : Catalog)

/-- A card with its permanent effects alone, as conditions see it. -/
def mute (s : Subject) : Subject :=
  ⟨c.muteDesign s.design, c.muteType s.cardType, s.attributes⟩

theorem effects_mute (s : Subject) : (s.mute c).effects = c.permanentOf s.effects :=
  (List.filter_append ..).symm

theorem hasPermanentEffect_mute (name : String) (s : Subject) :
    (s.mute c).hasPermanentEffect c.muted name = s.hasPermanentEffect c name := by
  rw [hasPermanentEffect, effects_mute, Catalog.permanentOf, List.any_filter, hasPermanentEffect]
  refine List.any_congr rfl ?_
  intro effect
  rw [Catalog.isPermanent_muted, Bool.and_left_comm, Bool.and_self]

end Subject

section

variable (c : Catalog)

theorem Condition.allHoldForCard_mute (conditions : List Condition) (s : Subject) :
    Condition.allHoldForCard c.muted conditions (s.mute c)
      = Condition.allHoldForCard c conditions s := by
  refine List.all_congr rfl ?_
  intro condition
  cases condition with
  | cardHasPermanentEffect named negate => simp only [holdsForCard, s.hasPermanentEffect_mute]
  | _ => rfl

theorem Table.subject?_muted (t : Table) (id : LiveId) :
    t.subject? c.muted id = (t.subject? c id).map (Subject.mute c) := by
  cases hlive : t.live? id with
  | none => simp [subject?, hlive]
  | some live =>
      cases htyped : c.typed? live.card <;> simp [subject?, hlive, htyped, Subject.mute]

end

/-! ## Targets -/

namespace Rulebook

/-- The same settings, and the game with its permanent effects alone. -/
def muted (rules : Rulebook) : Rulebook :=
  { rules with catalog := rules.catalog.muted }

@[simp]
theorem config_muted (rules : Rulebook) : rules.muted.config = rules.config := rfl

@[simp]
theorem catalog_muted (rules : Rulebook) : rules.muted.catalog = rules.catalog.muted := rfl

end Rulebook

variable (rules : Rulebook)

theorem Effect.affects_muted (effect : Effect) (t : Table) (id : LiveId) :
    effect.affects rules.muted t id = effect.affects rules t id := by
  rw [affects, affects, Rulebook.catalog_muted, Table.subject?_muted]
  cases t.live? id <;> cases t.subject? rules.catalog id <;> try rfl
  next card subject =>
    simp only [Option.map_some, reaches, acceptsCard, Condition.allHoldForCard_mute,
      subject.hasPermanentEffect_mute, Rulebook.config_muted]

namespace Selection

theorem admitsType_muted (s : Selection) (c : Catalog) (card : CardId) :
    s.admitsType c.muted card = s.admitsType c card := by
  rw [admitsType, admitsType, Catalog.rule?_muted, Catalog.card?_muted]
  cases (c.rule? s.effect.definition).bind Rule.targetCardType? <;> cases c.card? card <;> rfl

/-- **A muted game admits the same answers to a question.** -/
theorem admits_muted (s : Selection) (t : Table) (choice : TargetChoice) :
    s.admits rules.muted t choice = s.admits rules t choice := by
  cases choice with
  | player id => rfl
  | card id => simp only [admits, admitsCard, Rulebook.catalog_muted, admitsType_muted,
      Effect.affects_muted]

end Selection

end CardArena
