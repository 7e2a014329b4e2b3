import Mathlib
import CardArena.Proofs.Integrity

/-!
# Ghosts

A ghost is a card in play that is dead and not on its way out: nothing would ever take it off the
table.  Whoever dies joins the queue of destructions at once, and leaves it together with the table;
`GhostsAmong` says so of the moments in between too, when a few cards are dead and out of the queue
because they are just about to go.

One such moment is too long.  A card that is transformed is dead and out of the queue while others hear
that it leaves; if something fails there, the call ends, and it stays a ghost (`Duel.ghost_stays`).
Where nobody hears cards leave, nothing can fail there, and the moment is over before it has begun
(`Match.replace_fade`).

* `dead_iff_doomed` : there are no ghosts where no transformation fails like that.
-/

namespace CardArena

open Play
open Relation (ReflTransGen)

/-- Every card in play that is dead and not on its way out is one of these. -/
def Match.GhostsAmong (m : Match) (cards : List LiveId) : Prop :=
  ∀ id live, m.table.live? id = some live → live.alive = false → id ∉ cards →
    id ∈ m.destructions.cards

namespace DestructionQueue

theorem mem_cards_schedule (q : DestructionQueue) (card : LiveId) (remaining : UInt32)
    (reason : DestructionReason) (id : LiveId) :
    id ∈ (q.schedule card remaining reason).cards ↔ id ∈ q.cards ∨ id = card := by
  unfold schedule
  split
  · next hthere =>
      constructor
      · exact .inl
      · rintro (hold | rfl)
        · exact hold
        · simpa [contains] using hthere
  · simp [cards]

/-- Whoever waits is due, or goes on waiting. -/
theorem mem_countDown {q : DestructionQueue} {id : LiveId} (h : id ∈ q.cards) :
    id ∈ q.countDown.1 ∨ id ∈ q.countDown.2.cards := by
  obtain ⟨d, hd, rfl⟩ := List.mem_map.mp h
  have hcounted : d.countedDown ∈ q.entries.map Doomed.countedDown := List.mem_map_of_mem hd
  rw [← card_countedDown d]
  by_cases hdue : d.countedDown.isDue = true
  · exact .inl (List.mem_map_of_mem (List.mem_filter.mpr ⟨hcounted, hdue⟩))
  · exact .inr (List.mem_map_of_mem (List.mem_filter.mpr ⟨hcounted, by simpa using hdue⟩))

theorem mem_takeAfterEffect {q : DestructionQueue} {id : LiveId} (h : id ∈ q.cards) :
    id ∈ q.takeAfterEffect.1 ∨ id ∈ q.takeAfterEffect.2.cards := by
  obtain ⟨d, hd, rfl⟩ := List.mem_map.mp h
  by_cases hreason : d.reason = .afterEffect
  · exact .inl (List.mem_map_of_mem (List.mem_filter.mpr ⟨hd, by simpa using hreason⟩))
  · exact .inr (List.mem_map_of_mem (List.mem_filter.mpr ⟨hd, by simpa using hreason⟩))

end DestructionQueue

variable {rules : Rulebook} {scope : Scope} {F : Fault → Prop} {ids : List PlayerId}
  {resolve : Resolver} {m m' : Match} {cards : List LiveId}

/-! ## Writes -/

namespace Match.GhostsAmong

theorem congr (h : m.GhostsAmong cards) (hroster : m'.table.roster = m.table.roster)
    (hqueue : m'.destructions = m.destructions) : m'.GhostsAmong cards := by
  intro id live hlive
  rw [Table.live?, hroster] at hlive
  rw [hqueue]
  exact h id live hlive

/-- Marks on a card that do not kill make no ghost. -/
theorem markLive (h : m.GhostsAmong cards) (card : LiveId) {g : LiveCard → LiveCard}
    (halive : ∀ live, (g live).alive = live.alive) :
    (m.onTable (·.modifyLive card g)).GhostsAmong cards := by
  intro id live hlive hdead
  change (m.table.roster.modify card g).get? id = some live at hlive
  rw [Roster.get?_modify] at hlive
  split_ifs at hlive with he
  · obtain ⟨old, hold, rfl⟩ := Option.map_eq_some_iff.mp hlive
    exact h id old (he ▸ hold) ((halive old).symm.trans hdead)
  · exact h id live hlive hdead

/-- Whoever comes into play comes alive. -/
theorem insert (h : m.GhostsAmong cards) {new : LiveCard} (halive : new.alive = true)
    (hroster : m'.table.roster = m.table.roster.insert new)
    (hqueue : m'.destructions = m.destructions) : m'.GhostsAmong cards := by
  intro id live hlive hdead
  rw [Table.live?, hroster, Roster.get?_insert] at hlive
  rw [hqueue]
  split_ifs at hlive
  · cases hlive
    cases halive.symm.trans hdead
  · exact h id live hlive hdead

/-- Whoever leaves play is no ghost any more. -/
theorem despawn {card : LiveId} (h : m.GhostsAmong (card :: cards)) :
    (m.despawn card).2.GhostsAmong cards := by
  intro id live hlive hdead hother
  change (m.table.roster.erase card).get? id = some live at hlive
  rw [Roster.get?_erase] at hlive
  show id ∈ (m.destructions.cancel card).cards
  rw [DestructionQueue.cards_cancel, List.mem_filter]
  split_ifs at hlive with he
  have hin := h id live hlive hdead fun hmem => (List.mem_cons.mp hmem).elim he hother
  exact ⟨hin, by simpa using he⟩

theorem cons (h : m.GhostsAmong cards) (card : LiveId) : m.GhostsAmong (card :: cards) :=
  fun id live hlive hdead hother => h id live hlive hdead fun hmem =>
    hother (List.mem_cons_of_mem _ hmem)

/-- Whoever is killed is on their way out. -/
theorem condemn (h : m.GhostsAmong cards) (delay : UInt32) (reason : DestructionReason)
    (card : LiveId) : (m.condemn delay reason card).GhostsAmong cards := by
  intro id live hlive hdead hother
  refine (DestructionQueue.mem_cards_schedule ..).mpr ?_
  change (m.table.roster.modify card _).get? id = some live at hlive
  rw [Roster.get?_modify] at hlive
  split_ifs at hlive with he
  · exact .inr he
  · exact .inl (h id live hlive hdead hother)

theorem fade (h : m.GhostsAmong cards) (card : LiveId) :
    (m.fade card).GhostsAmong (card :: cards) := by
  intro id live hlive hdead hother
  obtain ⟨hne, hout⟩ := not_or.mp (List.mem_cons.not.mp hother)
  change (m.table.roster.modify card _).get? id = some live at hlive
  rw [Roster.get?_modify, if_neg hne] at hlive
  show id ∈ (m.destructions.cancel card).cards
  rw [DestructionQueue.cards_cancel, List.mem_filter]
  exact ⟨h id live hlive hdead hout, by simpa using hne⟩

/-- Whoever is replaced leaves no ghost. -/
theorem replace {card : LiveId} (h : m.GhostsAmong (card :: cards)) (owner : PlayerId)
    (zone : String) (design : CardDesign) (cardType : CardType) :
    (m.replace card owner zone design cardType).GhostsAmong cards := by
  have hinsert : ({ m with spawner := (m.spawner.spawn design.id owner).2 }.onTable fun table =>
      (table.insertLive (.spawn (m.spawner.spawn design.id owner).1 design cardType
        owner)).modifyZone owner zone (·.swapLive card
          (m.spawner.spawn design.id owner).1)).GhostsAmong (card :: cards) :=
    h.insert rfl rfl rfl
  exact hinsert.despawn.congr rfl rfl

theorem destroy {card : LiveId} (h : m.GhostsAmong (card :: cards)) (graveyard : Option String) :
    (m.destroy graveyard card).GhostsAmong cards := by
  cases hlive : m.table.live? card with
  | none =>
      rw [destroy_of_none hlive]
      exact h.despawn
  | some live =>
      rw [destroy_eq hlive]
      exact h.despawn.congr (Table.roster_bury ..) rfl

theorem destroyAll (due : List LiveId) (graveyard : Option String)
    (h : m.GhostsAmong (due ++ cards)) : (m.destroyAll graveyard due).GhostsAmong cards := by
  induction due generalizing m with
  | nil => exact h
  | cons card rest ih => exact ih (h.destroy graveyard)

/-- Whoever is due leaves the queue and play alike. -/
theorem destroyDue (h : m.GhostsAmong cards) : (m.destroyDue rules).GhostsAmong cards := by
  refine destroyAll m.destructions.countDown.1 _ ?_
  intro id live hlive hdead hother
  obtain ⟨hwaits, hout⟩ := not_or.mp (List.mem_append.not.mp hother)
  exact (DestructionQueue.mem_countDown (h id live hlive hdead hout)).resolve_left hwaits

theorem destroyAfterEffect (h : m.GhostsAmong cards) :
    (m.destroyAfterEffect rules).GhostsAmong cards := by
  refine destroyAll m.destructions.takeAfterEffect.1 _ ?_
  intro id live hlive hdead hother
  obtain ⟨hwaits, hout⟩ := not_or.mp (List.mem_append.not.mp hother)
  exact (DestructionQueue.mem_takeAfterEffect (h id live hlive hdead hout)).resolve_left hwaits

end Match.GhostsAmong

/-! ## Changes and calm steps -/

/-- **Where cards do not fade, a cascade makes no ghost.** -/
theorem Change.ghosts (hscope : scope.fades = false) (h : Change rules scope m m')
    (hm : m.GhostsAmong cards) : m'.GhostsAmong cards := by
  cases h with
  | ask => rw [Match.tell_eq_post]; exact hm.congr rfl rfl
  | writeCard => exact hm.markLive _ fun _ => rfl
  | bring => exact hm.insert rfl rfl rfl
  | deploy => exact hm.insert rfl rfl rfl
  | withdraw => exact (hm.cons _).despawn.congr rfl rfl
  | strike => exact (hm.cons _).despawn
  | condemn reason => exact (hm.condemn _ reason _).congr rfl rfl
  | fade allowed => cases hscope.symm.trans allowed
  | @replace card owner zone design cardType =>
      exact (hm.cons card).replace owner zone design cardType
  | _ => exact hm.congr rfl rfl

theorem Calm.ghosts (hscope : scope.fades = false) (h : Calm rules scope m m')
    (hm : m.GhostsAmong cards) : m'.GhostsAmong cards := by
  cases h with
  | change h => exact h.ghosts hscope hm
  | repeatQuestion => rw [Match.tell_eq_post]; exact hm.congr rfl rfl
  | discard hzone held =>
      rw [Match.discardCard_eq hzone held]
      exact hm.congr (Table.roster_bury ..) rfl
  | shuffle player zone =>
      rcases m.shuffleZone_eq player zone with heq | ⟨z, dice, -, heq⟩ <;> rw [heq]
      · exact hm
      · exact hm.congr rfl rfl
  | age => exact hm.markLive _ fun _ => rfl
  | owe | demand => rw [Match.tell_eq_post]; exact hm.congr rfl rfl
  | _ => exact hm.congr rfl rfl

theorem ghosts_of_changes (hscope : scope.fades = false)
    (h : ReflTransGen (Change rules scope) m m') (hm : m.GhostsAmong cards) :
    m'.GhostsAmong cards := by
  induction h with
  | refl => exact hm
  | tail _ hstep ih => exact hstep.ghosts hscope ih

theorem ghosts_of_calm (hscope : scope.fades = false)
    (h : ReflTransGen (Calm rules scope) m m') (hm : m.GhostsAmong cards) :
    m'.GhostsAmong cards := by
  induction h with
  | refl => exact hm
  | tail _ hstep ih => exact hstep.ghosts hscope ih

theorem Opens.ghosts (hscope : scope.fades = false) {now : Nat}
    (h : Opens rules scope now m m') (hm : m.GhostsAmong cards) : m'.GhostsAmong cards := by
  obtain ⟨-, path⟩ := h
  exact (ghosts_of_calm hscope path (hm.congr rfl rfl)).congr rfl rfl

theorem Passes.ghosts (hscope : scope.fades = false) {now : Nat}
    (h : Passes rules scope now m m') (hm : m.GhostsAmong cards) : m'.GhostsAmong cards := by
  obtain ⟨-, path, opens⟩ := h
  have hbefore : m.abandonSelection.GhostsAmong cards := hm.congr rfl rfl
  have hended : (Match.destroyAfterEffect rules _).GhostsAmong cards :=
    (ghosts_of_calm hscope path hbefore.destroyDue).destroyAfterEffect
  exact opens.ghosts hscope (hended.congr rfl rfl)

/-- Where cards do not fade, no operation makes a ghost. -/
theorem Course.ghosts (hscope : scope.fades = false) {ends : Nat}
    (h : Course rules scope m ends m') (hm : m.GhostsAmong cards) : m'.GhostsAmong cards := by
  cases h with
  | stay path => exact ghosts_of_calm hscope path hm
  | disconnect player => exact hm.congr rfl rfl
  | begin begins =>
      obtain ⟨-, -, path, opens⟩ := begins
      have hbegun := ghosts_of_calm hscope path (hm.congr rfl rfl)
      exact opens.ghosts hscope (hbegun.congr rfl rfl)
  | pass path _ passes => exact passes.ghosts hscope (ghosts_of_calm hscope path hm)
  | finish winner => exact hm.congr rfl rfl

/-! ## Operations -/

/-- No rule of the game transforms cards. -/
def Catalog.NeverTransforms (c : Catalog) : Prop :=
  ∀ rule ∈ c.rules, ∀ into cardType, rule.kind ≠ .targetsCard (.transform into) cardType

/-- No card fades before it is replaced; cards are transformed as allowed. -/
def Scope.fadeless (transforms : Bool) : Scope := ⟨true, fun _ => transforms, true, false, true⟩

theorem Catalog.NeverTransforms.fadeless_covers {c : Catalog} (h : c.NeverTransforms) :
    (Scope.fadeless false).Covers c :=
  fun rule hrule => ⟨fun _ _ => rfl, fun _ cardType hkind _ into he =>
    (h rule hrule into cardType (he ▸ hkind)).elim⟩

theorem Catalog.LeavesUnheard.fadeless_covers {c : Catalog} (h : c.LeavesUnheard) :
    (Scope.fadeless true).Covers c :=
  fun _ _ => ⟨fun _ _ => rfl, fun _ _ _ _ _ _ => ⟨rfl, .inr h⟩⟩

theorem Operation.within_fadeless {op : Operation} (h : op.transforms = false)
    (transforms : Bool) : op.Within (.fadeless transforms) := by
  unfold Within
  split <;> first | rfl | trivial

/-- **A transformation that does not fail makes no ghost.**  The card is one while the others hear that
it leaves, and is gone when they hear of the new one. -/
theorem transform_ghosts (hc : rules.catalog.Coherent)
    (hres : Resolves rules scope F ids resolve) (hscope : scope.fades = false)
    (hm : m.Fits rules.catalog ids) (hghosts : m.GhostsAmong cards) {card : LiveId}
    {into : String} {new : Option LiveId}
    (hrun : (transform rules resolve card into).run m = (.ok new, m')) : m'.GhostsAmong cards := by
  cases hlocated : m.table.locate? card with
  | none =>
      rw [transform_nowhere hlocated] at hrun
      cases hrun
      exact hghosts
  | some place =>
      obtain ⟨owner, zone⟩ := place
      obtain ⟨howner, hkind⟩ := hm.locate? hc hlocated
      cases hnamed : rules.catalog.cardNamed? into with
      | none =>
          rw [transform_unknown hlocated hnamed] at hrun
          cases hrun
      | some design =>
          obtain ⟨cardType, typed, htype⟩ := hc.typed?_of_mem (Catalog.cardNamed?_mem hnamed)
          rw [transform_run hlocated hnamed htype] at hrun
          obtain ⟨_, m₁, hleave, hrun⟩ := run_bind_eq_ok hrun
          rw [supplant_run] at hrun
          have hfade : Change rules .all m (m.fade card) := .fade rfl rfl
          have hm₁ := hfade.fits hc hm
          have hheard := raiseTransition_walks hc hres .leave zone card _ hm₁
          have hm₂ := hheard.after (kept_fits hc) hm₁ hleave
          have hpath := hheard.path
          rw [hleave] at hpath
          have hreplaced : (m₁.replace card owner zone design cardType).GhostsAmong cards :=
            (ghosts_of_changes hscope hpath (hghosts.fade card)).replace owner zone design cardType
          have hreplace : Change rules .all m₁ (m₁.replace card owner zone design cardType) :=
            .replace rfl typed ((hm₂.kind howner zone).trans hkind)
          have hwelcome := (welcome_walks hc hres zone (m₁.spawner.spawn design.id owner).1 _
            (hreplace.fits hc hm₂)).map some
          have hlast := hwelcome.path
          rw [hrun] at hlast
          exact ghosts_of_changes hscope hlast hreplaced

/-- Where nobody hears cards leave, a transformation makes no ghost even if it fails. -/
theorem transform_ghosts_of_unheard (hc : rules.catalog.Coherent)
    (hunheard : rules.catalog.LeavesUnheard)
    (hres : Resolves rules (.fadeless true) (fun _ => True) ids resolve)
    (hm : m.Fits rules.catalog ids) (hghosts : m.GhostsAmong cards) (card : LiveId)
    (into : String) : ((transform rules resolve card into).run m).2.GhostsAmong cards := by
  have hallowed : (Scope.fadeless true).transforms card = true := rfl
  exact ghosts_of_changes rfl
    (transform_walks hc hres hallowed (.inr hunheard) (.inr trivial) m hm).path hghosts

/-- Whoever takes a seat has no card in play. -/
theorem Match.GhostsAmong.seat (h : m.GhostsAmong cards) (name : String)
    (connection : ConnectionId) (deck : List CardId) :
    (m.seat rules name connection deck).GhostsAmong cards :=
  h.congr rfl rfl

/-- **In a game where no rule transforms cards, or nobody hears cards leave, an operation that is no
failed transformation makes no ghost.** -/
theorem perform_ghosts (hc : rules.catalog.Coherent)
    (hgame : rules.catalog.NeverTransforms ∨ rules.catalog.LeavesUnheard)
    (hm : m.Conforms rules.catalog) {op : Operation}
    (hanswer : op.transforms = true →
      rules.catalog.LeavesUnheard ∨ ∃ answer, (m.perform rules op).1 = .ok answer)
    (hghosts : m.GhostsAmong cards) : (m.perform rules op).2.GhostsAmong cards := by
  obtain ⟨transforms, hcovers⟩ : ∃ transforms, (Scope.fadeless transforms).Covers rules.catalog :=
    hgame.elim (fun h => ⟨false, h.fadeless_covers⟩) fun h => ⟨true, h.fadeless_covers⟩
  have hfits : m.Fits rules.catalog m.table.playerIds := ⟨hm, rfl⟩
  cases htransforms : op.transforms with
  | true =>
      cases op with
      | transform card into =>
          rw [Match.perform, performWith, run_map] at hanswer ⊢
          rcases hanswer htransforms with hunheard | ⟨answer, hok⟩
          · exact transform_ghosts_of_unheard hc hunheard
              (resolver_resolves hc hunheard.fadeless_covers (tolerates_all rules)) hfits hghosts card
              into
          · rcases hrun : (transform rules rules.resolver card into).run m with ⟨f | new, m'⟩
            · rw [hrun] at hok
              cases hok
            · exact transform_ghosts hc (resolver_resolves hc hcovers (tolerates_all rules)) rfl hfits
                hghosts hrun
      | _ => cases htransforms
  | false =>
      cases hop : op.isRegister with
      | true =>
          rcases register_cases rules m hop with heq | ⟨name, connection, deck, -, heq⟩ <;> rw [heq]
          · exact hghosts
          · exact hghosts.seat name connection deck
      | false =>
          exact (perform_course hc hcovers hm (Operation.within_fadeless htransforms _)
            hop).ghosts rfl hghosts

/-- A match that comes about by any operations with any answers, except that no transformation has
failed while others may have heard that its card leaves. -/
inductive Unhaunted (rules : Rulebook) : Match → Prop
  | opening (handle : Nat → LiveId) (dice : Dice) :
      Unhaunted rules (Match.opening rules.config handle dice)
  | perform {m : Match} (op : Operation) (h : Unhaunted rules m)
      (hanswer : op.transforms →
        rules.catalog.LeavesUnheard ∨ ∃ answer, (m.perform rules op).1 = .ok answer) :
      Unhaunted rules (m.perform rules op).2

theorem Unhaunted.reachable (h : Unhaunted rules m) : Reachable rules m := by
  induction h with
  | opening handle dice => exact .opening handle dice
  | perform op _ _ ih => exact ih.perform op

theorem Unhaunted.ghosts (hc : rules.catalog.Coherent)
    (hgame : rules.catalog.NeverTransforms ∨ rules.catalog.LeavesUnheard)
    (h : Unhaunted rules m) : m.GhostsAmong [] := by
  induction h with
  | opening handle dice => exact fun id live hlive => nomatch hlive
  | perform op h hanswer ih =>
      exact perform_ghosts hc hgame (h.reachable.conforms hc) hanswer ih

/-- Whether operations lead to a match without failed transformations can be checked. -/
theorem Unhaunted.run {ops : List Operation} (h : Unhaunted rules m)
    (hops : m.noneFails rules Operation.transforms ops = true) :
    Unhaunted rules (m.run rules ops) := by
  induction ops generalizing m with
  | nil => exact h
  | cons op rest ih =>
      obtain ⟨hanswer, hrest⟩ := Match.noneFails_cons.mp hops
      exact ih (h.perform op fun htransforms => .inr (hanswer htransforms)) hrest

/-- **A card in play is dead just if it is on its way out, as long as no transformation fails while
others hear that its card leaves.**

The match has come about by any other operations with any answers.  Either no rule transforms cards,
or nobody ever hears cards leave; transformations that are asked for must not fail unless nobody does.
That a card on its way out is dead takes a host that hands out no handle twice, as everything about
handles does. -/
theorem dead_iff_doomed (hc : rules.catalog.Accepted)
    (hgame : rules.catalog.NeverTransforms ∨ rules.catalog.LeavesUnheard) (h : Unhaunted rules m) :
    (∀ id live, m.table.live? id = some live → live.alive = false → id ∈ m.destructions.cards) ∧
      (m.spawner.handed.Nodup → ∀ id live, m.table.live? id = some live →
        (live.alive = false ↔ id ∈ m.destructions.cards)) := by
  have hghosts := h.ghosts hc.coherent hgame
  have hdoomed : ∀ id live, m.table.live? id = some live → live.alive = false →
      id ∈ m.destructions.cards :=
    fun id live hlive hdead => hghosts id live hlive hdead List.not_mem_nil
  refine ⟨hdoomed, fun hunique id live hlive => ⟨hdoomed id live hlive, fun hwaits => ?_⟩⟩
  obtain ⟨found, hfound, hdead⟩ :=
    (h.reachable.integrity hc.coherent hunique).books.dead id hwaits
  obtain rfl : live = found := Option.some.inj (hlive.symm.trans hfound)
  exact hdead

namespace Duel

theorem neverTransforms_book : book.catalog.NeverTransforms := by
  intro rule hrule into cardType
  obtain rfl := List.mem_singleton.mp hrule
  exact nofun

/-- Ann kills a wolf, and turns an archer into another wolf. -/
def changing : List Operation :=
  deal ++ [.playCard ⟨0⟩ ⟨1⟩, .kill ⟨0⟩, .playCard ⟨0⟩ ⟨2⟩, .transform ⟨1⟩ "Wolf"]

theorem dead_changing :
    book.catalog.NeverTransforms ∧ Unhaunted book (opening.run book changing) ∧
    (opening.run book changing).spawner.handed = [⟨0⟩, ⟨1⟩, ⟨2⟩] ∧
    (opening.run book changing).destructions.cards = [⟨0⟩] ∧
    ∀ id live, (opening.run book changing).table.live? id = some live →
      (live.alive = false ↔ id ∈ (opening.run book changing).destructions.cards) := by
  have hnever := neverTransforms_book
  have hhanded : (opening.run book changing).spawner.handed = [⟨0⟩, ⟨1⟩, ⟨2⟩] := by decide +kernel
  have hchanged : Unhaunted book (opening.run book changing) :=
    (Unhaunted.opening _ _).run (by decide +kernel)
  exact ⟨hnever, hchanged, hhanded, by decide +kernel,
    (dead_iff_doomed accepted (.inl hnever) hchanged).2 (by rw [hhanded]; decide)⟩

/-- A card of the haunted duel loses a counter that it does not have as it leaves the board. -/
def haunt : Effect :=
  { definition := "Haunt", trigger := .cardZoneTransition .leave "Board",
    target := .card .thisCard, magnitude := some (.fixed 1) }

/-- The duel of cards that haunt the board. -/
def haunted : Rulebook :=
  { book with catalog := { book.catalog with
      rules := draft.rules ++ [.onCard "Haunt" (.removeCounter "Ghost")]
      cardTypes := [{ name := "Creature", effects := [haunt] }] } }

theorem accepted_haunted : haunted.catalog.Accepted :=
  accepted_of_checks
    (d := { draft with rules := haunted.catalog.rules, cardTypes := haunted.catalog.cardTypes }) rfl
    (by decide +kernel) (by decide +kernel)

/-- A wolf that haunts the board is in play. -/
def lurking : Match :=
  after haunted (deal ++ [.playCard ⟨0⟩ ⟨1⟩])

/-- To transform the wolf fails; it stays in play, dead and not on its way out. -/
theorem ghost_stays :
    haunted.catalog.Accepted ∧ Reachable haunted lurking ∧
    (lurking.perform haunted (.transform ⟨0⟩ "Wolf")).1
      = .error (.attributeNotFound "live#0" "Ghost") ∧
    (lurking.perform haunted (.transform ⟨0⟩ "Wolf")).2.spawner.handed = [⟨0⟩] ∧
    (lurking.perform haunted (.transform ⟨0⟩ "Wolf")).2.table.liveInOrder = [⟨0⟩] ∧
    ((lurking.perform haunted (.transform ⟨0⟩ "Wolf")).2.table.live? ⟨0⟩).map LiveCard.alive
      = some false ∧
    (lurking.perform haunted (.transform ⟨0⟩ "Wolf")).2.destructions.cards = [] := by
  refine ⟨accepted_haunted, reachable_after .., ?_, ?_, ?_, ?_, ?_⟩ <;> decide +kernel

end Duel

end CardArena
