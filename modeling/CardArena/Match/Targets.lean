import CardArena.Match.Basic

/-!
Whom an effect is done to: the targets it finds by itself, and the targets a player may name.
-/

namespace CardArena

namespace Effect

/-- The effect can get at a card in play, and its target conditions hold of the card. -/
def affects (effect : Effect) (rules : Rulebook) (table : Table) (id : LiveId) : Bool :=
  match table.live? id, table.subject? rules.catalog id with
  | some card, some subject =>
    effect.reaches rules.catalog rules.config.untargetableEffect card.alive subject &&
      effect.acceptsCard rules.catalog subject
  | _, _ => false

end Effect

namespace PlayerTarget

/-- The players that come into question for a target that nobody has to name. -/
def scope (table : Table) : PlayerTarget → List PlayerId
  | .currentPlayer => table.activePlayer?.toList
  | .currentOpponent => table.opponents
  | .allPlayers => table.playerIds
  | .randomPlayer => table.playerIds
  | .targetPlayer => []

end PlayerTarget

namespace CardTarget

/-- A card in play comes into question for a target that nobody has to name. -/
def inScope (table : Table) (id : LiveId) : CardTarget → Bool
  | .allCards => true
  | .randomCard => true
  | .allCurrentPlayerCards =>
    (table.live? id).any fun card => some card.owner = table.activePlayer?
  | .allCurrentOpponentCards =>
    (table.live? id).any fun card => some card.owner ≠ table.activePlayer?
  | _ => false

end CardTarget

namespace Match

/-- One member of a list by chance, as a list. -/
def pickOne (m : Match) (xs : List α) : List α × Match :=
  let (picked, dice) := m.dice.choose xs
  (picked.toList, { m with dice })

/-- The players that an effect finds by itself. -/
def automaticPlayers (m : Match) (effect : Effect) (target : PlayerTarget) :
    List PlayerId × Match :=
  let valid := (target.scope m.table).filter fun id =>
    (m.table.player? id).any effect.acceptsPlayer
  if target = .randomPlayer then m.pickOne valid else (valid, m)

/-- The cards that an effect finds by itself.  An effect on its own card finds it without asking
any condition. -/
def automaticCards (m : Match) (rules : Rulebook) (effect : Effect) (target : CardTarget)
    (source : LiveId) : List LiveId × Match :=
  if target = .thisCard then
    (if (m.table.live? source).isSome then [source] else [], m)
  else
    let valid := m.table.liveInOrder.filter fun id =>
      target.inScope m.table id && effect.affects rules m.table id
    if target = .randomCard then m.pickOne valid else (valid, m)

/-- How strong an effect turns out; 0 if it has no magnitude. -/
def roll (m : Match) (effect : Effect) : Amount × Match :=
  match effect.magnitude with
  | none => (0, m)
  | some magnitude =>
    let (amount, dice) := m.dice.roll magnitude
    (amount, { m with dice })

end Match

namespace Selection

/-- The chooser may name the player. -/
def admitsPlayer (s : Selection) (table : Table) (id : PlayerId) : Bool :=
  (table.player? id).any s.effect.acceptsPlayer

/-- The chooser may name a card of this owner. -/
def admitsOwner (s : Selection) (owner : PlayerId) : Bool :=
  match s.effect.target with
  | .card .currentPlayerCard => owner = s.chooser
  | .card .currentOpponentCard => owner ≠ s.chooser
  | _ => true

/-- The rule of the effect may be done to a card of this design. -/
def admitsType (s : Selection) (catalog : Catalog) (card : CardId) : Bool :=
  match (catalog.rule? s.effect.definition).bind Rule.targetCardType? with
  | none => true
  | some required => (catalog.card? card).any (·.cardType = required)

/-- The chooser may name the card. -/
def admitsCard (s : Selection) (rules : Rulebook) (table : Table) (id : LiveId) : Bool :=
  match table.live? id with
  | none => false
  | some live =>
    s.admitsType rules.catalog live.card && s.admitsOwner live.owner &&
      s.effect.affects rules table id

/-- The chooser may give this answer. -/
def admits (s : Selection) (rules : Rulebook) (table : Table) : TargetChoice → Bool
  | .player id => s.kind = .player && s.admitsPlayer table id
  | .card id => s.kind = .card && s.admitsCard rules table id

/-- There is an answer that the chooser may give. -/
def isAnswerable (s : Selection) (rules : Rulebook) (table : Table) : Bool :=
  match s.kind with
  | .player => table.players.any fun player => s.admitsPlayer table player.id
  | .card => table.liveInOrder.any (s.admitsCard rules table)

end Selection

end CardArena
