import CardArena.Match.Cascade

/-!
Answers to the open question, and the firings that waited behind it.
-/

namespace CardArena

variable (rules : Rulebook) (resolve : Resolver)

/-- Does up to so many of the firings in line, until a question is open again.  A firing whose card
has left play meanwhile is dropped. -/
def drain : Nat → Play Unit
  | 0 => pure ()
  | n + 1 => do
    match (← get).session.next? with
    | none => pure ()
    | some (firing, session) =>
      modify fun m => { m with session }
      if ((← get).table.live? firing.source).isSome then
        resolve firing
      drain n

/-- Does the firings in line until a question is open again.  No firing joins the line while none
is, so there are no more of them than wait now. -/
def drainQueue : Play Unit := do
  drain resolve (← get).session.queue.length

/-- Does the effect that waited for its target to the target named. -/
def resolveChosen (selection : Selection) (choice : TargetChoice) : Play Unit := do
  match rules.catalog.rule? selection.effect.definition with
  | none => throw (.ruleNotFound selection.effect.definition)
  | some rule =>
    let magnitude ← modifyGet (·.roll selection.effect)
    match rule.kind, choice with
    | .targetsPlayer action, .player id => applyPlayerAction rules resolve action magnitude id
    | .targetsCard action _, .card id => applyCardAction rules resolve action magnitude id
    | _, _ => pure ()
    finishEffect rules resolve selection.source

/-- A player names the target of the effect that waits.  An answer that will not do gets the same
question again. -/
def selectTarget (player : PlayerId) (choice : TargetChoice) : Play Outcome := do
  let m ← get
  match m.session.pending with
  | none => pure (.rejected .noPendingSelection)
  | some selection =>
    if selection.chooser ≠ player then
      pure (.rejected .notChooser)
    else if !selection.admits rules m.table choice then
      modify (·.tell player selection.question)
      pure .reprompted
    else
      modify fun m => { m with session.pending := none }
      resolveChosen rules resolve selection choice
      drainQueue resolve
      pure .applied

end CardArena
