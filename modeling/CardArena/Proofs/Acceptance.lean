import Mathlib
import CardArena.Proofs.Reachable

/-!
# Which drafts are accepted

`Draft.Sound` says of a draft what it takes to fit together, entry by entry: keys are used once,
what is named is there, and every effect fits the rule that it names.  It speaks of the sections of
the draft and of membership in them only.  The checks, on the other hand, walk through the sections
in a fixed order, stop at the first defect and look things up in the catalog that they are about to
return.

`Draft.ofDraft_eq_ok_iff` says that the two agree: one lemma per check turns it into the fact that
it checks, and `Draft.Sound` is what these facts come to together.  As a sound draft is sound in any
order, the order of the entries decides nothing but which defect is named first.
-/

namespace CardArena

/-! ## What it takes to fit together -/

/-- Rules of the category are done to such targets. -/
inductive RuleCategory.Aims : RuleCategory → EffectTarget → Prop
  | permanent : Aims .permanent .untargeted
  | general : Aims .general .untargeted
  | player (target : PlayerTarget) : Aims .targetsPlayer (.player target)
  | card (target : CardTarget) : Aims .targetsCard (.card target)

/-- What conditions on the target look at, if there is a target. -/
def EffectTarget.subjectKind? : EffectTarget → Option SubjectKind
  | .untargeted => none
  | .player _ => some .player
  | .card _ => some .card

/-- The effect is one that the rule can have. -/
structure Effect.Suits (effect : Effect) (rule : Rule) : Prop where
  aims : rule.category.Aims effect.target
  triggerConditions : ∀ condition ∈ effect.triggerConditions,
    condition.subjectKind = effect.trigger.subjectKind
  targetConditions : ∀ condition ∈ effect.targetConditions,
    effect.target.subjectKind? = some condition.subjectKind
  magnitude : rule.needsMagnitude = true → effect.magnitude.isSome = true
  bounds : ∀ low high, effect.magnitude = some (.random low high) → low ≤ high
  turns : effect.trigger ≠ .turnCount .every 0

namespace Draft

variable (d : Draft)

/-- The effect names a rule of the draft and is one that this rule can have. -/
def Admits (effect : Effect) : Prop :=
  ∃ rule ∈ d.rules, rule.name = effect.definition ∧ effect.Suits rule

/-- The rule names nothing that is not there. -/
structure Knows (rule : Rule) : Prop where
  targetType : ∀ action name, rule.kind = .targetsCard action (some name) →
    name ∈ d.cardTypes.map CardType.name
  transformed : ∀ into targetType, rule.kind = .targetsCard (.transform into) targetType →
    into ∈ d.cards.map CardDesign.name
  created : ∀ card, rule.kind = .general (.createToken card) → card ∈ d.cards.map CardDesign.name
  moved : ∀ origin destination, rule.kind = .targetsPlayer (.moveCards origin destination) →
    origin ∈ d.zones.map ZoneLayout.name ∧ destination ∈ d.zones.map ZoneLayout.name

/-- The entries of the draft fit together. -/
structure Sound : Prop where
  zoneNames : (d.zones.map ZoneLayout.name).Nodup
  attributeNames : (d.playerAttributes.map PlayerAttribute.name).Nodup
  ruleNames : (d.rules.map Rule.name).Nodup
  typeNames : (d.cardTypes.map CardType.name).Nodup
  cardIds : (d.cards.map CardDesign.id).Nodup
  cardNames : (d.cards.map CardDesign.name).Nodup
  types : ∀ card ∈ d.cards, card.cardType ∈ d.cardTypes.map CardType.name
  rules : ∀ rule ∈ d.rules, d.Knows rule
  scheduled : ∀ scheduled ∈ d.scheduled, ∀ zone ∈ scheduled.action.zones,
    zone ∈ d.zones.map ZoneLayout.name
  typeEffects : ∀ cardType ∈ d.cardTypes, ∀ effect ∈ cardType.effects, d.Admits effect
  cardEffects : ∀ card ∈ d.cards, ∀ effect ∈ card.effects, d.Admits effect

/-- The same entries, each section in any order. -/
structure Reordered (d' : Draft) : Prop where
  rules : d.rules.Perm d'.rules
  cardTypes : d.cardTypes.Perm d'.cardTypes
  cards : d.cards.Perm d'.cards
  playerAttributes : d.playerAttributes.Perm d'.playerAttributes
  zones : d.zones.Perm d'.zones
  gameStartActions : d.gameStartActions.Perm d'.gameStartActions
  turnStartActions : d.turnStartActions.Perm d'.turnStartActions
  turnEndActions : d.turnEndActions.Perm d'.turnEndActions

end Draft

/-! ## What each check checks -/

namespace Catalog

variable {c : Catalog} {owner : String}

/-- A check that only asks whether something is there. -/
private theorem present_eq_ok_iff {present : Bool} {defect : Defect} :
    (if present then .ok () else .error defect : Checked Unit) = .ok () ↔ present = true := by
  cases present <;> simp

theorem checkZone_eq_ok_iff {zone : String} :
    c.checkZone owner zone = .ok () ↔ zone ∈ c.zones.map ZoneLayout.name := by
  rw [checkZone, present_eq_ok_iff, zone?, find?_isSome_iff_mem_map]

theorem checkCard_eq_ok_iff {card : String} :
    c.checkCard owner card = .ok () ↔ card ∈ c.cards.map CardDesign.name := by
  rw [checkCard, present_eq_ok_iff, cardNamed?, find?_isSome_iff_mem_map]

theorem checkTargetType_eq_ok_iff {targetType : Option String} :
    c.checkTargetType owner targetType = .ok () ↔
      ∀ name, targetType = some name → name ∈ c.cardTypes.map CardType.name := by
  cases targetType with
  | none => simp [checkTargetType]
  | some name =>
      rw [checkTargetType, present_eq_ok_iff, cardType?, find?_isSome_iff_mem_map]
      simp

theorem checkScheduled_eq_ok_iff {scheduled : ScheduledAction} :
    c.checkScheduled scheduled = .ok () ↔
      ∀ zone ∈ scheduled.action.zones, zone ∈ c.zones.map ZoneLayout.name := by
  simp only [checkScheduled, forM_eq_ok_iff, checkZone_eq_ok_iff]

/-- The check knows what is looked at for the targets that rules of the category are done to. -/
theorem targetKind?_eq_some_iff {category : RuleCategory} {target : EffectTarget}
    {kind : Option SubjectKind} :
    targetKind? category target = some kind ↔
      category.Aims target ∧ target.subjectKind? = kind := by
  constructor
  · intro h
    cases category <;> cases target <;> cases h
    · exact ⟨.permanent, rfl⟩
    · exact ⟨.player _, rfl⟩
    · exact ⟨.card _, rfl⟩
    · exact ⟨.general, rfl⟩
  · rintro ⟨haims, rfl⟩
    cases haims <;> rfl

theorem conditionsFit_eq_true_iff {kind : Option SubjectKind} {conditions : List Condition} :
    conditionsFit kind conditions = true ↔
      ∀ condition ∈ conditions, kind = some condition.subjectKind := by
  simp [conditionsFit]

theorem checkMagnitude_eq_ok_iff {rule : Rule} {magnitude : Option Magnitude} :
    checkMagnitude owner rule magnitude = .ok () ↔
      (rule.needsMagnitude = true → magnitude.isSome = true) ∧
        ∀ low high, magnitude = some (.random low high) → low ≤ high := by
  rcases magnitude with _ | _ | ⟨low, high⟩
  · simp [checkMagnitude]
  · simp [checkMagnitude]
  · simp only [checkMagnitude, Option.isSome_some, Option.some.injEq, Magnitude.random.injEq]
    split_ifs with hempty
    · refine ⟨nofun, fun h => ?_⟩
      have hordered := h.2 low high ⟨rfl, rfl⟩
      grind
    · refine ⟨fun _ => ⟨fun _ => trivial, ?_⟩, fun _ => rfl⟩
      rintro _ _ ⟨rfl, rfl⟩
      grind

/-- The last check of an effect: no effect waits for every zeroth turn. -/
theorem turnCount_eq_ok_iff {trigger : Trigger} :
    (match trigger with
      | .turnCount .every 0 => .error (.zeroTurnCount owner)
      | _ => .ok () : Checked Unit) = .ok () ↔ trigger ≠ .turnCount .every 0 := by
  split
  · simp
  · next h => simpa using h

/-- An effect passes if it suits the rule that is found under the name it gives. -/
theorem checkEffect_eq_ok_iff {effect : Effect} :
    c.checkEffect owner effect = .ok () ↔
      ∃ rule, c.rule? effect.definition = some rule ∧ effect.Suits rule := by
  rw [checkEffect]
  cases hrule : c.rule? effect.definition with
  | none => simp
  | some rule =>
      simp only [Option.some.injEq, exists_eq_left']
      cases hkind : targetKind? rule.category effect.target with
      | none =>
          refine ⟨nofun, fun h => ?_⟩
          rw [targetKind?_eq_some_iff.mpr ⟨h.aims, rfl⟩] at hkind
          cases hkind
      | some kind =>
          obtain ⟨haims, rfl⟩ := targetKind?_eq_some_iff.mp hkind
          dsimp only
          split_ifs with htrigger htarget
          · refine ⟨nofun, fun h => ?_⟩
            rw [conditionsFit_eq_true_iff.mpr fun condition hmem =>
              congrArg some (h.triggerConditions condition hmem).symm] at htrigger
            cases htrigger
          · refine ⟨nofun, fun h => ?_⟩
            rw [conditionsFit_eq_true_iff.mpr h.targetConditions] at htarget
            cases htarget
          · rw [Bool.not_eq_true', Bool.not_eq_false, conditionsFit_eq_true_iff] at htrigger htarget
            refine seq_eq_ok_iff.trans
              ((and_congr checkMagnitude_eq_ok_iff turnCount_eq_ok_iff).trans ?_)
            constructor
            · rintro ⟨⟨hneeded, hbounds⟩, hturns⟩
              exact ⟨haims, fun condition h => (Option.some.inj (htrigger condition h)).symm,
                htarget, hneeded, hbounds, hturns⟩
            · exact fun h => ⟨⟨h.magnitude, h.bounds⟩, h.turns⟩

end Catalog

/-! ## Drafts and their catalogs -/

namespace Draft

open Catalog (seq_eq_ok_iff checkZone_eq_ok_iff checkCard_eq_ok_iff checkTargetType_eq_ok_iff)

variable {d d' : Draft}

theorem assemble_cards_perm (d : Draft) : d.assemble.cards.Perm d.cards :=
  List.mergeSort_perm _ _

theorem mem_assemble_cardNames {name : String} :
    name ∈ d.assemble.cards.map CardDesign.name ↔ name ∈ d.cards.map CardDesign.name :=
  (d.assemble_cards_perm.map _).mem_iff

theorem checkRule_eq_ok_iff {rule : Rule} :
    d.assemble.checkRule rule = .ok () ↔ d.Knows rule := by
  obtain ⟨name, kind⟩ := rule
  cases kind with
  | permanent => exact ⟨fun _ => ⟨nofun, nofun, nofun, nofun⟩, fun _ => rfl⟩
  | targetsPlayer action =>
      cases action with
      | moveCards origin destination =>
          refine (seq_eq_ok_iff.trans (and_congr checkZone_eq_ok_iff checkZone_eq_ok_iff)).trans ?_
          refine ⟨fun h => ⟨nofun, nofun, nofun, ?_⟩, fun h => h.moved _ _ rfl⟩
          rintro _ _ ⟨rfl, rfl⟩
          exact h
      | _ => exact ⟨fun _ => ⟨nofun, nofun, nofun, nofun⟩, fun _ => rfl⟩
  | targetsCard action targetType =>
      have htype : d.assemble.checkTargetType name targetType = .ok () ↔
          ∀ action' type,
            RuleKind.targetsCard action targetType = .targetsCard action' (some type) →
              type ∈ d.cardTypes.map CardType.name := by
        rw [checkTargetType_eq_ok_iff]
        refine ⟨?_, fun h type htype => h action type (by rw [htype])⟩
        rintro h _ type ⟨rfl, rfl⟩
        exact h type rfl
      cases action with
      | transform into =>
          refine (seq_eq_ok_iff.trans (and_congr (checkCard_eq_ok_iff.trans mem_assemble_cardNames)
            htype)).trans ?_
          refine ⟨fun h => ⟨h.2, ?_, nofun, nofun⟩, fun h => ⟨h.transformed _ _ rfl, h.targetType⟩⟩
          rintro _ _ ⟨rfl, rfl⟩
          exact h.1
      | _ => exact htype.trans ⟨fun h => ⟨h, nofun, nofun, nofun⟩, fun h => h.targetType⟩
  | general action =>
      obtain ⟨card⟩ := action
      refine (checkCard_eq_ok_iff.trans mem_assemble_cardNames).trans ?_
      refine ⟨fun h => ⟨nofun, nofun, ?_, nofun⟩, fun h => h.created _ rfl⟩
      rintro _ ⟨rfl⟩
      exact h

theorem checkEffect_eq_ok_iff (hrules : (d.rules.map Rule.name).Nodup) {owner : String}
    {effect : Effect} : d.assemble.checkEffect owner effect = .ok () ↔ d.Admits effect := by
  rw [Catalog.checkEffect_eq_ok_iff]
  refine exists_congr fun rule => ?_
  rw [Catalog.rule?, find?_eq_some_iff_of_nodup (f := Rule.name) (l := d.assemble.rules) hrules,
    and_assoc]
  rfl

/-- The names are in order, and every design has a type. -/
theorem checkNames_eq_ok_iff :
    Catalog.checkNames d = .ok () ↔
      (d.zones.map ZoneLayout.name).Nodup ∧ (d.playerAttributes.map PlayerAttribute.name).Nodup ∧
      (d.rules.map Rule.name).Nodup ∧ (d.cardTypes.map CardType.name).Nodup ∧
      (d.cards.map CardDesign.id).Nodup ∧ (d.cards.map CardDesign.name).Nodup ∧
      ∀ card ∈ d.cards, card.cardType ∈ d.cardTypes.map CardType.name := by
  rw [Catalog.checkNames_eq_ok_iff, Catalog.checkDesigns_eq_ok_iff]
  simp only [List.not_mem_nil, false_implies, implies_true, true_and, List.mem_map]

/-- The references are in order, if names are. -/
theorem checkReferences_eq_ok_iff (hrules : (d.rules.map Rule.name).Nodup) :
    d.assemble.checkReferences = .ok () ↔
      (∀ rule ∈ d.rules, d.Knows rule) ∧
      (∀ cardType ∈ d.cardTypes, ∀ effect ∈ cardType.effects, d.Admits effect) ∧
      (∀ card ∈ d.cards, ∀ effect ∈ card.effects, d.Admits effect) ∧
      ∀ scheduled ∈ d.scheduled, ∀ zone ∈ scheduled.action.zones,
        zone ∈ d.zones.map ZoneLayout.name := by
  rw [Catalog.checkReferences_eq_ok_iff]
  simp only [checkRule_eq_ok_iff, checkEffect_eq_ok_iff hrules, Catalog.checkScheduled_eq_ok_iff,
    d.assemble_cards_perm.mem_iff]
  rfl

/-- **A draft is accepted if it is sound, and then as it stands.** -/
theorem ofDraft_eq_ok_iff {c : Catalog} :
    Catalog.ofDraft d = .ok c ↔ d.Sound ∧ c = d.assemble := by
  rw [Catalog.ofDraft, seq_eq_ok_iff, seq_eq_ok_iff, checkNames_eq_ok_iff]
  constructor
  · rintro ⟨⟨hzones, hattrs, hrules, htypes, hids, hnames, htyped⟩, hrefs, hc⟩
    obtain ⟨hknown, htypeEffects, hcardEffects, hscheduled⟩ :=
      (checkReferences_eq_ok_iff hrules).mp hrefs
    cases hc
    exact ⟨⟨hzones, hattrs, hrules, htypes, hids, hnames, htyped, hknown, hscheduled, htypeEffects,
      hcardEffects⟩, rfl⟩
  · rintro ⟨h, rfl⟩
    exact ⟨⟨h.zoneNames, h.attributeNames, h.ruleNames, h.typeNames, h.cardIds, h.cardNames,
      h.types⟩, (checkReferences_eq_ok_iff h.ruleNames).mpr
        ⟨h.rules, h.typeEffects, h.cardEffects, h.scheduled⟩, rfl⟩

theorem exists_ofDraft_iff : (∃ c, Catalog.ofDraft d = .ok c) ↔ d.Sound := by
  simp only [ofDraft_eq_ok_iff, exists_and_left, exists_eq, and_true]

/-! ## The order of the entries -/

theorem Reordered.symm (h : d.Reordered d') : d'.Reordered d :=
  ⟨h.rules.symm, h.cardTypes.symm, h.cards.symm, h.playerAttributes.symm, h.zones.symm,
    h.gameStartActions.symm, h.turnStartActions.symm, h.turnEndActions.symm⟩

theorem Reordered.knows (h : d.Reordered d') {rule : Rule} (hrule : d.Knows rule) :
    d'.Knows rule where
  targetType action name heq := (h.cardTypes.map _).mem_iff.mp (hrule.targetType action name heq)
  transformed into type heq := (h.cards.map _).mem_iff.mp (hrule.transformed into type heq)
  created card heq := (h.cards.map _).mem_iff.mp (hrule.created card heq)
  moved origin destination heq :=
    (hrule.moved origin destination heq).imp (h.zones.map _).mem_iff.mp (h.zones.map _).mem_iff.mp

theorem Reordered.admits (h : d.Reordered d') {effect : Effect} (heffect : d.Admits effect) :
    d'.Admits effect := by
  obtain ⟨rule, hmem, hsuits⟩ := heffect
  exact ⟨rule, h.rules.mem_iff.mp hmem, hsuits⟩

theorem Reordered.scheduled (h : d.Reordered d') : d.scheduled.Perm d'.scheduled :=
  (h.gameStartActions.append h.turnStartActions).append h.turnEndActions

/-- A sound draft is sound in any order. -/
theorem Reordered.sound (h : d.Reordered d') (hd : d.Sound) : d'.Sound where
  zoneNames := (h.zones.map _).nodup_iff.mp hd.zoneNames
  attributeNames := (h.playerAttributes.map _).nodup_iff.mp hd.attributeNames
  ruleNames := (h.rules.map _).nodup_iff.mp hd.ruleNames
  typeNames := (h.cardTypes.map _).nodup_iff.mp hd.typeNames
  cardIds := (h.cards.map _).nodup_iff.mp hd.cardIds
  cardNames := (h.cards.map _).nodup_iff.mp hd.cardNames
  types card hcard := (h.cardTypes.map _).mem_iff.mp (hd.types card (h.cards.mem_iff.mpr hcard))
  rules rule hrule := h.knows (hd.rules rule (h.rules.mem_iff.mpr hrule))
  scheduled scheduled hmem zone hzone := (h.zones.map _).mem_iff.mp
    (hd.scheduled scheduled (h.scheduled.mem_iff.mpr hmem) zone hzone)
  typeEffects cardType hmem effect heffect :=
    h.admits (hd.typeEffects cardType (h.cardTypes.mem_iff.mpr hmem) effect heffect)
  cardEffects card hmem effect heffect :=
    h.admits (hd.cardEffects card (h.cards.mem_iff.mpr hmem) effect heffect)

end Draft

/-- **A draft is accepted if and only if its entries fit together.**  In the catalog that it then
gives, a rule, a type or a design is found under a name or number if it is the entry of the draft
that has it.  Whether a draft is accepted does not depend on the order of its entries. -/
theorem drafts_accepted_exactly (d : Draft) :
    ((∃ c, Catalog.ofDraft d = .ok c) ↔ d.Sound) ∧
      (∀ c, Catalog.ofDraft d = .ok c →
        (∀ name rule, c.rule? name = some rule ↔ rule ∈ d.rules ∧ rule.name = name) ∧
        (∀ name cardType,
          c.cardType? name = some cardType ↔ cardType ∈ d.cardTypes ∧ cardType.name = name) ∧
        (∀ id card, c.card? id = some card ↔ card ∈ d.cards ∧ card.id = id) ∧
        (∀ name card, c.cardNamed? name = some card ↔ card ∈ d.cards ∧ card.name = name)) ∧
      ∀ d', d.Reordered d' →
        ((∃ c, Catalog.ofDraft d = .ok c) ↔ ∃ c, Catalog.ofDraft d' = .ok c) := by
  refine ⟨Draft.exists_ofDraft_iff, fun c hc => ?_, fun d' h => ?_⟩
  · obtain ⟨hd, rfl⟩ := Draft.ofDraft_eq_ok_iff.mp hc
    have hcards := d.assemble_cards_perm
    refine ⟨fun name rule => find?_eq_some_iff_of_nodup hd.ruleNames,
      fun name cardType => find?_eq_some_iff_of_nodup hd.typeNames, fun id card => ?_,
      fun name card => ?_⟩
    · rw [Catalog.card?, find?_eq_some_iff_of_nodup ((hcards.map _).nodup_iff.mpr hd.cardIds),
        hcards.mem_iff]
    · rw [Catalog.cardNamed?,
        find?_eq_some_iff_of_nodup ((hcards.map _).nodup_iff.mpr hd.cardNames), hcards.mem_iff]
  · rw [Draft.exists_ofDraft_iff, Draft.exists_ofDraft_iff]
    exact ⟨h.sound, h.symm.sound⟩

/-- The duel fits together, however its zones and its designs are listed. -/
theorem Duel.sound_reordered :
    draft.Sound ∧
      (∃ c, Catalog.ofDraft
        { draft with cards := [archer, wolf], zones := draft.zones.reverse } = .ok c) ∧
      ∀ c, Catalog.ofDraft draft = .ok c →
        c.cardNamed? "Archer" = some archer ∧ c.cardNamed? "Bear" = none := by
  have hbook : ∃ c, Catalog.ofDraft draft = .ok c := by
    have hnames : Catalog.checkNames draft = .ok () := by decide +kernel
    have hreferences : Catalog.checkReferences book.catalog = .ok () := by decide +kernel
    refine ⟨book.catalog, ?_⟩
    rw [Catalog.ofDraft, hnames, assemble_eq rfl]
    exact Catalog.seq_eq_ok_iff.mpr ⟨rfl, Catalog.seq_eq_ok_iff.mpr ⟨hreferences, rfl⟩⟩
  obtain ⟨haccepted, hlookups, horder⟩ := drafts_accepted_exactly draft
  refine ⟨haccepted.mp hbook, (horder _ ?_).mp hbook, fun c hc => ?_⟩
  · exact ⟨.refl _, .refl _, .swap _ _ _, .refl _, (List.reverse_perm _).symm, .refl _, .refl _,
      .refl _⟩
  · obtain ⟨-, -, -, hnamed⟩ := hlookups c hc
    have hunknown : ∀ card ∈ draft.cards, card.name ≠ "Bear" := by decide
    refine ⟨(hnamed _ _).mpr ⟨by decide, rfl⟩, ?_⟩
    refine Option.eq_none_iff_forall_ne_some.mpr fun card h => ?_
    obtain ⟨hmem, hname⟩ := (hnamed _ _).mp h
    exact hunknown card hmem hname

end CardArena
