import Mathlib
import CardArena.Proofs.Endings
import CardArena.Proofs.Ghosts

/-!
# To kill a card again

A card that is killed is dead and on its way out before anybody hears of it.  Then it hears that it
leaves, and whatever it sets off by that may do anything to it: take it out of play, transform it,
move it, kill it.  To transform it even takes it off the way out, and whoever hears then that it
leaves finds a card that is dead and will not be taken away, a ghost.  Such a card could be killed
once more.

But a ghost is only there for as long as the transformation has not come to its end.  So a cascade
that ends well makes no ghost (`resolver_makes_no_ghost`): this is the law of `Endings` for the
property that every ghost is one of some cards, and a transformation has one more such card while
others hear that its card leaves.  A card that has been killed is dead for good, as long as its
handle is not handed out again; so when everything has ended well it is on its way out, or not in
play at all, and to kill it does nothing.

* `killed_once_for_all` : the main statement.
-/

namespace CardArena

open Play

variable {rules : Rulebook} {scope : Scope} {ids : List PlayerId} {resolve : Resolver}
  {m m' : Match} {card : LiveId}

/-! ## Cascades that end well make no ghosts -/

/-- A match of the game with these seats, in which every ghost is one of these cards. -/
def Match.FitsBut (c : Catalog) (ids : List PlayerId) (ghosts : List LiveId) (m : Match) : Prop :=
  m.Fits c ids ∧ m.GhostsAmong ghosts

theorem follows_ghosts (hc : rules.catalog.Coherent) (hscope : scope.fades = false)
    (ghosts : List LiveId) :
    Follows rules scope ids (Match.FitsBut rules.catalog ids ghosts) (Change rules scope) where
  coherent := hc
  fits _ hm := hm.1
  kept _ _ hmove hm := ⟨hmove.fits hc hm.1, hmove.ghosts hscope hm.2⟩
  move _ hmove := hmove

/-- **A transformation that ends well makes no ghost.**  Its card is one while others hear that it
leaves, and is gone when they hear of the new one. -/
theorem transform_makes_no_ghost (hc : rules.catalog.Coherent)
    (hres : ∀ ghosts, ResolvesWell rules (Match.FitsBut rules.catalog ids ghosts) resolve)
    (ghosts : List LiveId) :
    TransformsWell rules (Match.FitsBut rules.catalog ids ghosts) resolve := by
  intro card into m new m' ⟨hm, hghosts⟩ hrun
  cases hlocated : m.table.locate? card with
  | none =>
      rw [transform_nowhere hlocated] at hrun
      cases hrun
      exact ⟨hm, hghosts⟩
  | some place =>
      obtain ⟨owner, zone⟩ := place
      obtain ⟨howner, hkind⟩ := hm.locate? hc hlocated
      cases hnamed : rules.catalog.cardNamed? into with
      | none =>
          rw [transform_unknown hlocated hnamed] at hrun
          cases hrun
      | some design =>
          obtain ⟨cardType, typed, htype⟩ := hc.typed?_of_mem (Catalog.cardNamed?_mem hnamed)
          rw [transform_run hlocated hnamed htype] at hrun
          obtain ⟨_, m₁, hleave, hrun⟩ := run_bind_eq_ok hrun
          rw [supplant_run] at hrun
          obtain ⟨_, hwelcome, -⟩ := run_map_eq_ok hrun
          have hfollows (ghosts : List LiveId) : Follows rules (.fadeless false) ids
              (Match.FitsBut rules.catalog ids ghosts) (Change rules (.fadeless false)) :=
            follows_ghosts hc rfl ghosts
          have hfade : Change rules .all m (m.fade card) := .fade rfl rfl
          have hfaded : (m.fade card).FitsBut rules.catalog ids (card :: ghosts) :=
            ⟨hfade.fits hc hm, hghosts.fade card⟩
          obtain ⟨hm₁, hghosts₁⟩ := raiseTransition_keeps (hfollows _) (hres (card :: ghosts))
            .leave zone card _ _ m₁ hfaded hleave
          have hreplace : Change rules .all m₁ (m₁.replace card owner zone design cardType) :=
            .replace rfl typed ((hm₁.kind howner zone).trans hkind)
          have hreplaced : (m₁.replace card owner zone design cardType).FitsBut rules.catalog ids
              ghosts :=
            ⟨hreplace.fits hc hm₁, hghosts₁.replace owner zone design cardType⟩
          exact welcome_keeps (hfollows _) (hres ghosts) zone _ _ _ m' hreplaced hwelcome

/-- **A cascade that ends well makes no ghost**, whatever is transformed in the course of it. -/
theorem resolver_makes_no_ghost (hc : rules.catalog.Coherent) (ghosts : List LiveId) :
    ResolvesWell rules (Match.FitsBut rules.catalog ids ghosts) rules.resolver := by
  have hfollows (ghosts : List LiveId) : Follows rules (.fadeless false) ids
      (Match.FitsBut rules.catalog ids ghosts) (Change rules (.fadeless false)) :=
    follows_ghosts hc rfl ghosts
  exact resolver_ends_well hfollows rfl
    (fun resolve hres => transform_makes_no_ghost hc hres) ghosts

/-! ## Killing -/

/-- The card is on its way out, or not in play. -/
def Match.Spent (m : Match) (card : LiveId) : Prop :=
  m.destructions.contains card = true ∨ m.table.live? card = none

/-- Nothing is done to kill a card that is spent, and nobody is asked to do anything. -/
theorem Match.Spent.kill (h : m.Spent card) (resolve : Resolver) :
    (performWith rules resolve (.kill card)).run m = (.ok .done, m) :=
  run_bind_ok (killFor_spared h .killed) _

/-- The handles of the other cards in play. -/
def Table.others (t : Table) (card : LiveId) : List LiveId :=
  (t.roster.cards.map LiveCard.id).filter (· ≠ card)

/-- Right after it has been condemned, a card is no ghost, whatever others are. -/
theorem Match.ghostsAmong_condemn (m : Match) (delay : UInt32) (reason : DestructionReason)
    (card : LiveId) : (m.condemn delay reason card).GhostsAmong (m.table.others card) := by
  intro id live hlive _ hother
  refine (DestructionQueue.mem_cards_schedule ..).mpr ?_
  by_cases hid : id = card
  · exact .inr hid
  · change (m.table.roster.modify card _).get? id = some live at hlive
    rw [Roster.get?_modify, if_neg hid] at hlive
    obtain ⟨hmem, rfl⟩ := Roster.get?_eq_some_iff.mp hlive
    refine absurd (List.mem_filter.mpr ⟨List.mem_map_of_mem hmem, ?_⟩) hother
    simpa using hid

/-- **A card that has been killed is spent when everything has ended well**, if no handle has been
handed out twice by then. -/
theorem killFor_spends (hc : rules.catalog.Coherent) (hm : m.Fits rules.catalog ids)
    (hhanded : ∀ live, m.table.live? card = some live → card ∈ m.spawner.handed)
    {reason : DestructionReason}
    (hrun : (killFor rules rules.resolver reason card).run m = (.ok (), m')) (hfresh : m'.Fresh) :
    m'.Spent card := by
  cases hfree : m.destructions.contains card with
  | true =>
      rw [killFor_spared (.inl hfree)] at hrun
      cases hrun
      exact .inl hfree
  | false =>
      cases hlive : m.table.live? card with
      | none =>
          rw [killFor_spared (.inr hlive)] at hrun
          cases hrun
          exact .inr hlive
      | some live =>
          rw [killFor_run hlive hfree] at hrun
          let condemned : Match :=
            (m.condemn (reason.delay rules.config) reason card).broadcast (.cardKilled card)
          have hcondemn : Change rules .all m condemned := .condemn reason hlive hfree
          have hfits := hcondemn.fits hc hm
          have hghosts : condemned.GhostsAmong (m.table.others card) :=
            Match.GhostsAmong.congr (m.ghostsAmong_condemn _ reason card) rfl rfl
          have hfollows : Follows rules (.fadeless false) ids
              (Match.FitsBut rules.catalog ids (m.table.others card))
              (Change rules (.fadeless false)) := follows_ghosts hc rfl _
          obtain ⟨-, hghosts'⟩ := mourn_keeps hfollows (resolver_makes_no_ghost hc _) card condemned
            () m' ⟨hfits, hghosts⟩ hrun
          cases hlive' : m'.table.live? card with
          | none => exact .inr hlive'
          | some live' =>
              -- The card that is still there is the one that was condemned, and is as dead as that.
              have hpath := (mourn_walks hc (resolver_resolves_all hc) card condemned hfits).path
              rw [hrun] at hpath
              obtain ⟨dead, hdead, hbecomes⟩ :=
                whose_of_changes hpath (hhanded live hlive) hfresh live' hlive'
              have halive : dead.alive = false := by
                change (m.table.roster.modify card _).get? card = some dead at hdead
                rw [Roster.get?_modify, if_pos rfl] at hdead
                obtain ⟨_, -, rfl⟩ := Option.map_eq_some_iff.mp hdead
                rfl
              have hqueued :=
                hghosts' card live' hlive' (hbecomes.dead halive) (by simp [Table.others])
              exact .inl (by simpa [DestructionQueue.contains] using hqueued)

/-- **To kill a card twice is to kill it once.**

Whatever the card set off as it was killed, and whatever that did to it, if all of that ended well
then it is on its way out or not in play; and to kill it again right away does nothing at all,
however firings would be done.  This takes a host that hands out no handle twice, for under the
handle of a card that has left play another card might come. -/
theorem killed_once_for_all (hc : rules.catalog.Accepted) (h : Reachable rules m)
    (hkilled : m.perform rules (.kill card) = (.ok .done, m'))
    (hunique : m'.spawner.handed.Nodup) :
    m'.Spent card ∧ m'.perform rules (.kill card) = (.ok .done, m') ∧
      ∀ resolve, (performWith rules resolve (.kill card)).run m' = (.ok .done, m') := by
  have hfits : m.Fits rules.catalog m.table.playerIds := ⟨h.conforms hc.coherent, rfl⟩
  obtain ⟨_, m₁, hrun, hdone⟩ := run_bind_eq_ok hkilled
  cases hdone
  have hpath := (kill_walks hc.coherent (resolver_resolves_all hc.coherent) card m hfits).path
  rw [hrun] at hpath
  have hfresh : m.Fresh := hunique.sublist (handed_of_changes hpath).sublist
  have hbooks := (h.integrity hc.coherent hfresh).books
  have hspent : m'.Spent card := by
    refine killFor_spends hc.coherent hfits (fun live hlive => ?_) hrun hunique
    obtain ⟨hmem, rfl⟩ := Roster.get?_eq_some_iff.mp hlive
    exact hbooks.handed live hmem
  exact ⟨hspent, hspent.kill rules.resolver, hspent.kill⟩

namespace Duel

/-- A larva loses one of its skins as it leaves the board. -/
def moult : Effect :=
  { definition := "Moult", trigger := .cardZoneTransition .leave "Board",
    target := .card .thisCard, magnitude := some (.fixed 1) }

/-- It turns into something else instead of leaving, if that was the last skin but one. -/
def hatch : Effect :=
  { moult with
    definition := "Hatch", triggerConditions := [.cardAttributeCompare .equal "Skins" 1],
    magnitude := none }

def larva : CardDesign :=
  { wolf with name := "Larva", effects := [moult, hatch] }

def moth : CardDesign :=
  { archer with name := "Moth", effects := [] }

def mothDraft : Draft :=
  { draft with
    rules := [.onCard "Moult" (.removeCounter "Skins"), .onCard "Hatch" (.transform "Moth")]
    cardTypes := [{ name := "Creature", attributes := .set .empty "Skins" 2 }]
    cards := [larva, moth] }

/-- The duel of larvae and moths. -/
def moths : Rulebook where
  catalog := { mothDraft.assemble with cards := [larva, moth] }
  config := {}

theorem accepted_moths : moths.catalog.Accepted :=
  accepted_of_sorted (d := mothDraft) (by decide) (by decide +kernel) (by decide +kernel)

/-- Ann's larva is on the board. -/
def crawling : Match :=
  after moths (deal ++ [.moveCards ⟨0⟩ "Hand" "Board" 1])

/-- When the larva is killed it turns into a moth, and is on its way out no more; it is gone, and
cannot be killed again. -/
theorem larva_killed_once :
    (crawling.perform moths (.kill ⟨0⟩)).1 = .ok .done ∧
    (crawling.perform moths (.kill ⟨0⟩)).2.spawner.handed.Nodup ∧
    (crawling.perform moths (.kill ⟨0⟩)).2.table.liveInOrder = [⟨1⟩] ∧
    (crawling.perform moths (.kill ⟨0⟩)).2.destructions.cards = [] ∧
    (crawling.perform moths (.kill ⟨0⟩)).2.perform moths (.kill ⟨0⟩)
      = (.ok .done, (crawling.perform moths (.kill ⟨0⟩)).2) := by
  have hdone : (crawling.perform moths (.kill ⟨0⟩)).1 = .ok .done := by decide +kernel
  have hunique : (crawling.perform moths (.kill ⟨0⟩)).2.spawner.handed.Nodup := by decide +kernel
  obtain ⟨-, hagain, -⟩ :=
    killed_once_for_all accepted_moths (reachable_after ..) (Prod.ext hdone rfl) hunique
  exact ⟨hdone, hunique, by decide +kernel, by decide +kernel, hagain⟩

end Duel

end CardArena
