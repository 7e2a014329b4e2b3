import CardArena.Catalog.Basic

/-!
Checking a draft.

`Catalog.ofDraft` refuses a draft whose entries do not fit together and names the first defect it
meets: first names used twice, then references to nothing, then effects that do not fit the rule
they name.
-/

namespace CardArena

/-- What is wrong with a draft. -/
inductive Defect where
  /-- Two entries of one kind share a name or number. -/
  | duplicate (kind name : String)
  | unknownRule (owner rule : String)
  | unknownCardType (owner cardType : String)
  | unknownCard (owner card : String)
  | unknownZone (owner zone : String)
  /-- The effect is done to something else than its rule. -/
  | illegalTarget (owner rule : String)
  /-- A condition looks at something else than there is to look at. -/
  | illegalCondition (owner rule : String)
  | missingMagnitude (owner rule : String)
  /-- No amount lies between the bounds. -/
  | emptyMagnitude (owner : String) (low high : Amount)
  /-- The effect waits for every multiple of 0 turns. -/
  | zeroTurnCount (owner : String)
deriving DecidableEq, Repr, Inhabited

namespace Defect

/-- The defect in words. -/
def message : Defect → String
  | .duplicate kind name => "Duplicate " ++ kind ++ " '" ++ name ++ "'"
  | .unknownRule owner rule => owner ++ ": unknown effect definition '" ++ rule ++ "'"
  | .unknownCardType owner cardType => owner ++ ": unknown card type '" ++ cardType ++ "'"
  | .unknownCard owner card => owner ++ ": unknown card '" ++ card ++ "'"
  | .unknownZone owner zone => owner ++ ": unknown zone '" ++ zone ++ "'"
  | .illegalTarget owner rule => owner ++ ": target shape does not fit '" ++ rule ++ "'"
  | .illegalCondition owner rule => owner ++ ": condition not allowed for '" ++ rule ++ "'"
  | .missingMagnitude owner rule => owner ++ ": '" ++ rule ++ "' needs a magnitude"
  | .emptyMagnitude owner low high =>
    owner ++ ": random magnitude " ++ toString low.toInt ++ "..=" ++ toString high.toInt
      ++ " is empty"
  | .zeroTurnCount owner => owner ++ ": turn count trigger every 0 turns"

end Defect

/-- The outcome of a check. -/
abbrev Checked (α : Type) := Except Defect α

namespace Catalog

/-- The first member that has come before. -/
def firstRepeat? [DecidableEq α] (seen : List α) : List α → Option α
  | [] => none
  | x :: rest => if x ∈ seen then some x else firstRepeat? (x :: seen) rest

/-- No name is used twice. -/
def checkDistinct (kind : String) (names : List String) : Checked Unit :=
  match firstRepeat? [] names with
  | some name => .error (.duplicate kind name)
  | none => .ok ()

/-- Each design has a number and a name of its own and a type that exists; `seen` holds the designs
that came before. -/
def checkDesigns (cardTypes : List CardType) (seen : List CardDesign) :
    List CardDesign → Checked Unit
  | [] => .ok ()
  | card :: rest =>
    if seen.any (·.id = card.id) then
      .error (.duplicate "card id" (toString card.id))
    else if seen.any (·.name = card.name) then
      .error (.duplicate "card name" card.name)
    else if cardTypes.all (·.name ≠ card.cardType) then
      .error (.unknownCardType card.name card.cardType)
    else
      checkDesigns cardTypes (card :: seen) rest

variable (c : Catalog)

/-- The zone exists. -/
def checkZone (owner zone : String) : Checked Unit :=
  if (c.zone? zone).isSome then .ok () else .error (.unknownZone owner zone)

/-- The design exists. -/
def checkCard (owner card : String) : Checked Unit :=
  if (c.cardNamed? card).isSome then .ok () else .error (.unknownCard owner card)

/-- The type that named targets have to have exists. -/
def checkTargetType (owner : String) : Option String → Checked Unit
  | none => .ok ()
  | some cardType =>
    if (c.cardType? cardType).isSome then .ok () else .error (.unknownCardType owner cardType)

/-- What a rule refers to exists. -/
def checkRule (rule : Rule) : Checked Unit :=
  match rule.kind with
  | .permanent => .ok ()
  | .targetsPlayer (.moveCards origin destination) => do
    c.checkZone rule.name origin
    c.checkZone rule.name destination
  | .targetsPlayer _ => .ok ()
  | .targetsCard (.transform into) targetCardType => do
    c.checkCard rule.name into
    c.checkTargetType rule.name targetCardType
  | .targetsCard _ targetCardType => c.checkTargetType rule.name targetCardType
  | .general (.createToken card) => c.checkCard rule.name card

/-- What the target conditions of an effect look at: nothing if the effect has no target; `none`
outside if a rule of the category is not done to such a target. -/
def targetKind? : RuleCategory → EffectTarget → Option (Option SubjectKind)
  | .permanent, .untargeted => some none
  | .general, .untargeted => some none
  | .targetsPlayer, .player _ => some (some .player)
  | .targetsCard, .card _ => some (some .card)
  | _, _ => none

/-- Every condition looks at what there is to look at. -/
def conditionsFit (kind : Option SubjectKind) (conditions : List Condition) : Bool :=
  conditions.all fun condition => kind = some condition.subjectKind

/-- The effect is as strong as its rule asks for. -/
def checkMagnitude (owner : String) (rule : Rule) : Option Magnitude → Checked Unit
  | none => if rule.needsMagnitude then .error (.missingMagnitude owner rule.name) else .ok ()
  | some (.fixed _) => .ok ()
  | some (.random low high) =>
    if high < low then .error (.emptyMagnitude owner low high) else .ok ()

/-- An effect fits the rule that it names. -/
def checkEffect (owner : String) (effect : Effect) : Checked Unit :=
  match c.rule? effect.definition with
  | none => .error (.unknownRule owner effect.definition)
  | some rule =>
    match targetKind? rule.category effect.target with
    | none => .error (.illegalTarget owner rule.name)
    | some kind => do
      if !conditionsFit (some effect.trigger.subjectKind) effect.triggerConditions then
        .error (.illegalCondition owner rule.name)
      else if !conditionsFit kind effect.targetConditions then
        .error (.illegalCondition owner rule.name)
      else
        checkMagnitude owner rule effect.magnitude
        if let .turnCount .every 0 := effect.trigger then
          .error (.zeroTurnCount owner)

/-- The zones that a scheduled action names exist. -/
def checkScheduled (scheduled : ScheduledAction) : Checked Unit :=
  scheduled.action.zones.forM (c.checkZone "scheduled action")

end Catalog

/-- The catalog that a draft would be, unchecked. -/
def Draft.assemble (d : Draft) : Catalog where
  rules := d.rules
  cardTypes := d.cardTypes
  cards := d.cards.mergeSort fun a b => a.id.number ≤ b.id.number
  playerAttributes := d.playerAttributes
  zones := d.zones
  gameStartActions := d.gameStartActions
  turnStartActions := d.turnStartActions
  turnEndActions := d.turnEndActions

namespace Catalog

/-- No name or number is used twice, and every design has a type. -/
def checkNames (d : Draft) : Checked Unit := do
  checkDistinct "zone" (d.zones.map (·.name))
  checkDistinct "player attribute" (d.playerAttributes.map (·.name))
  checkDistinct "definition" (d.rules.map (·.name))
  checkDistinct "card type" (d.cardTypes.map (·.name))
  checkDesigns d.cardTypes [] d.cards

/-- Rules, effects and scheduled actions refer to what exists, and effects fit their rules. -/
def checkReferences (c : Catalog) : Checked Unit := do
  c.rules.forM c.checkRule
  c.cardTypes.forM fun cardType => cardType.effects.forM (c.checkEffect cardType.name)
  c.cards.forM fun card => card.effects.forM (c.checkEffect card.name)
  (c.gameStartActions ++ c.turnStartActions ++ c.turnEndActions).forM c.checkScheduled

/-- The catalog of a draft whose entries fit together. -/
def ofDraft (d : Draft) : Checked Catalog := do
  checkNames d
  checkReferences d.assemble
  return d.assemble

end Catalog

end CardArena
