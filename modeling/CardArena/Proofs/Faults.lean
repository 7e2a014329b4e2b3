import Mathlib
import CardArena.Proofs.Fallback

/-!
# Accepted games do not go wrong

A step may fail in many ways: a card, a type, a zone or a rule may not be there, a player may not be
seated.  In an accepted game with a board, whatever a client asks for, whatever card is killed and
whatever card in play is attacked can fail in two ways only: a cascade may go too deep, and a rule may
write an attribute that its target has not got.  The checks of a catalog do not look at attributes;
if the game declares those that its rules name (`Catalog.Declares`) the second way is closed as well.

The faults have been followed all along with the changes (`Leads`, `Tolerates`), so that here only
the set of faults is chosen.  That a match is under way whenever a discard is owed comes from
`Reachable.timely`; without it a discard could end a turn that is not there.

* `accepted_games_go_right` : the faults of what is asked of a match from outside, and that the
  fallback of effects is never taken.
-/

namespace CardArena

open Play

namespace Fault

/-- Firings were nested too deep. -/
def IsTooDeep (f : Fault) : Prop :=
  ∃ depth, f = .cascadeLimitExceeded depth

/-- An attribute is not there. -/
def IsMissingAttribute (f : Fault) : Prop :=
  ∃ entity attr, f = .attributeNotFound entity attr

end Fault

/-- Players have every attribute that a rule on players names, and cards of every type have every
attribute that a rule on cards names. -/
structure Catalog.Declares (c : Catalog) : Prop where
  players : ∀ rule ∈ c.rules, ∀ action attr, rule.kind = .targetsPlayer action →
    action.attr? = some attr → attr ∈ c.playerAttributes.map PlayerAttribute.name
  cards : ∀ rule ∈ c.rules, ∀ action required attr, rule.kind = .targetsCard action required →
    action.attr? = some attr → ∀ cardType ∈ c.cardTypes, (cardType.attributes.get? attr).isSome

/-- What is asked of a match from outside while it is played: what clients ask for, the killing of
any card, and attacks on cards in play. -/
inductive Asked (m : Match) : Operation → Prop
  | intent (player : PlayerId) (intent : Intent) (now : Nat) : Asked m (.intent player intent now)
  | kill (card : LiveId) : Asked m (.kill card)
  | attack (card : LiveId) (inPlay : (m.table.live? card).isSome) : Asked m (.attack card)

variable {rules : Rulebook} {F : Fault → Prop} {m : Match}

/-- In a game with a board, effects fail in two ways only. -/
theorem tolerates_undeclared
    (hboard : rules.catalog.kind? rules.config.boardZone = some .dynamic) :
    Tolerates rules fun f => f.IsTooDeep ∨ f.IsMissingAttribute where
  depth depth := .inl ⟨depth, rfl⟩
  board := .inl hboard
  players _ _ _ attr _ _ := .inr fun entity => .inr ⟨entity, attr, rfl⟩
  cards _ _ _ _ attr _ _ := .inr fun entity => .inr ⟨entity, attr, rfl⟩

/-- In a game that declares its attributes too, effects fail in one way only. -/
theorem tolerates_declared
    (hboard : rules.catalog.kind? rules.config.boardZone = some .dynamic)
    (hdeclares : rules.catalog.Declares) : Tolerates rules Fault.IsTooDeep where
  depth depth := ⟨depth, rfl⟩
  board := .inl hboard
  players rule hrule action attr hkind hattr :=
    .inl (hdeclares.players rule hrule action attr hkind hattr)
  cards rule hrule action required attr hkind hattr :=
    .inl (hdeclares.cards rule hrule action required attr hkind hattr)

/-- What is asked of a reachable match fails as its effects fail, and in no other way. -/
theorem fault_of_asked (hc : rules.catalog.Coherent) (htol : Tolerates rules F)
    (h : Reachable rules m) {op : Operation} (hasked : Asked m op) {f : Fault}
    (hfault : (m.perform rules op).1 = .error f) : F f := by
  have hm : m.Fits rules.catalog m.table.playerIds := ⟨h.conforms hc, rfl⟩
  have hres : Resolves rules .all F m.table.playerIds rules.resolver :=
    resolver_resolves hc (Scope.all_covers _) htol
  cases hasked with
  | intent player intent now =>
      have hdebt : m.debt.isSome →
          (∃ player, m.table.activePlayer? = some player) ∨ F .gameNotRunning := fun howed =>
        .inl ((h.timely hc).exists_active ((h.timely hc).debt howed))
      have hleads : Leads (Step rules .all) F
          (handleIntent rules rules.resolver player intent now) m :=
        handleIntent_leads hc hres (Scope.all_covers _) htol hm hdebt player
          (Operation.within_all _)
      exact (hleads.map Answer.outcome).fault f hfault
  | kill card =>
      exact ((kill_walks hc hres card m hm).bind fun _ _ _ => .pure _).fault f hfault
  | attack card inPlay =>
      exact ((attackCard_leads hc hres hm (.inl inPlay)).bind fun _ _ _ => .pure _).fault f hfault

/-- **Accepted games do not go wrong.**

The match has come about by any operations with any answers, in an accepted game whose board is a
dynamic zone.  What is asked of it fails only by a cascade that goes too deep or an attribute that is
not there, and by the first alone if the game declares its attributes; and no operation ever takes
the fallback of effects, since whatever is done there makes no difference. -/
theorem accepted_games_go_right (hc : rules.catalog.Accepted)
    (hboard : rules.catalog.kind? rules.config.boardZone = some .dynamic) (h : Reachable rules m) :
    (∀ op, Asked m op → ∀ f, (m.perform rules op).1 = .error f →
      f.IsTooDeep ∨ f.IsMissingAttribute) ∧
    (rules.catalog.Declares → ∀ op, Asked m op → ∀ f, (m.perform rules op).1 = .error f →
      f.IsTooDeep) ∧
    ∀ misfit op, (performWith rules (rules.resolverOr misfit) op).run m = m.perform rules op := by
  refine ⟨fun op hasked f => ?_, fun hdeclares op hasked f => ?_, fun misfit op => ?_⟩
  · exact fault_of_asked hc.coherent (tolerates_undeclared hboard) h hasked
  · exact fault_of_asked hc.coherent (tolerates_declared hboard hdeclares) h hasked
  · exact perform_or hc.coherent misfit (h.conforms hc.coherent) op

namespace Duel

theorem declares : book.catalog.Declares := by
  refine ⟨?_, ?_⟩
  · intro rule hrule action attr hkind hattr
    obtain rfl := List.mem_singleton.mp hrule
    cases hkind
    cases hattr
    decide
  · intro rule hrule action required attr hkind
    obtain rfl := List.mem_singleton.mp hrule
    cases hkind

/-- The duel with no room for any firing. -/
def cramped : Rulebook :=
  { book with config := { maxCascadeDepth := 0 } }

/-- Ann has her cards in hand, where no archer can ask for anything. -/
def dealt : Match :=
  (Match.opening cramped.config (fun n => ⟨UInt64.ofNat n⟩) ⟨fun _ => 0, 0⟩).run cramped deal

/-- Ann's archer comes to the board, and its question fails: there is no room for it. -/
theorem go_right_cramped :
    (dealt.perform cramped (.intent ⟨0⟩ (.playCard ⟨2⟩) 0)).1 = .error (.cascadeLimitExceeded 0) ∧
    (Fault.cascadeLimitExceeded 0).IsTooDeep := by
  have hfault : (dealt.perform cramped (.intent ⟨0⟩ (.playCard ⟨2⟩) 0)).1
      = .error (.cascadeLimitExceeded 0) := by decide +kernel
  have hreach : Reachable cramped dealt := (Reachable.opening _ _).run deal
  have hc : cramped.catalog.Accepted := accepted
  obtain ⟨-, hgo, -⟩ := accepted_games_go_right hc (by decide +kernel) hreach
  exact ⟨hfault, hgo declares _ (.intent _ _ _) _ hfault⟩

end Duel

end CardArena
