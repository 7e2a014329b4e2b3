import Mathlib
import CardArena.Proofs.Ghosts
import CardArena.Proofs.Held

/-!
# Cards that are gone before they are replaced

A card that is transformed hears that it leaves while it is still where it was, and nobody looks again
before the new card is put in its place.  If it has gone elsewhere by then, out of play or into another
card, the new card comes on top of the zone, and its player has a card that was not there before.

Here the engine is asked what it does then.  `Rulebook.resorting` is the engine, except that it resorts to
something else for a card that is in no zone when it is to be replaced.  If to replace the card is what it
resorts to, then it is the engine (`resorting_supplant`); if it resorts to nothing, then what a player has
stays the same.  Both are one law (`resorting_resolves`), for a relation `R` between what a player has
before and what they have afterwards.

A transformation happens in place (`Match.InPlace`) if it comes to the same whatever is resorted to: every
card that is replaced in the course of it is still in a zone.
-/

namespace CardArena

open Play
open Relation (ReflTransGen)

/-- What is done for a card that is in no zone when it is to be replaced, given how firings are done. -/
abbrev Resort :=
  Resolver → LiveId → PlayerId → String → CardDesign → CardType → Play (Option LiveId)

section

variable (rules : Rulebook) (resort : Resort)

/-- Replaces a card if it is in a zone, and else resorts to something. -/
def supplantOr (resolve : Resolver) (card : LiveId) (owner : PlayerId) (zone : String)
    (design : CardDesign) (cardType : CardType) : Play (Option LiveId) := do
  if ((← get).table.locate? card).isSome then
    supplant rules resolve card owner zone design cardType
  else
    resort resolve card owner zone design cardType

/-- Transforms a card, but resorts to something if it is in no zone when it has heard that it leaves. -/
def transformOr (resolve : Resolver) (card : LiveId) (into : String) : Play (Option LiveId) := do
  match (← get).table.locate? card with
  | none => pure none
  | some (owner, zone) =>
    match rules.catalog.cardNamed? into with
    | none => throw (.unknownCardName into)
    | some design =>
      match rules.catalog.cardType? design.cardType with
      | none => throw (.unknownCardType design.cardType)
      | some cardType =>
        modify (·.fade card)
        raiseTransition rules resolve .leave zone card
        supplantOr rules resort resolve card owner zone design cardType

/-- Does an effect, and transforms cards as `transformOr` does. -/
def resortingEffect (resolve : Resolver) (firing : Firing) : Play Unit :=
  match (rules.catalog.rule? firing.effect.definition).map Rule.kind, firing.effect.target with
  | some (.targetsCard (.transform into) _), .card target =>
    if target.requiresChoice then
      askForTarget rules .card firing
    else
      doToCards rules resolve firing target fun _ card => do
        if ((← get).table.live? card).isSome then
          discard (transformOr rules resort resolve card into)
  | _, _ => resolveEffect rules resolve firing

/-- Does a firing and all that it sets off, nested no deeper than `room`, and transforms cards as
`transformOr` does. -/
def resortingFiring : Nat → Resolver
  | 0, _ => do throw (.cascadeLimitExceeded (← get).cascadeDepth)
  | room + 1, firing => deeper (resortingEffect rules resort (resortingFiring room) firing)

/-- Does a firing with all the room that the settings leave, and transforms cards as `transformOr` does. -/
def Rulebook.resorting : Resolver := fun firing => do
  resortingFiring rules resort (rules.config.maxCascadeDepth.toNat - (← get).cascadeDepth) firing

end

variable {rules : Rulebook} {resort : Resort} {resolve : Resolver} {F : Fault → Prop}
  {ids : List PlayerId} {m m' : Match} {card : LiveId} {into : String}

/-! ## Runs -/

theorem transformOr_nowhere (nowhere : m.table.locate? card = none) :
    (transformOr rules resort resolve card into).run m = (.ok none, m) := by
  rw [transformOr, run_get_bind, nowhere]
  rfl

theorem transformOr_unknown {place : PlayerId × String} (located : m.table.locate? card = some place)
    (unknown : rules.catalog.cardNamed? into = none) :
    (transformOr rules resort resolve card into).run m = (.error (.unknownCardName into), m) := by
  rw [transformOr, run_get_bind, located]
  dsimp only
  rw [unknown]
  rfl

theorem transformOr_run {owner : PlayerId} {zone : String} {design : CardDesign}
    {cardType : CardType} (located : m.table.locate? card = some (owner, zone))
    (named : rules.catalog.cardNamed? into = some design)
    (typed : rules.catalog.cardType? design.cardType = some cardType) :
    (transformOr rules resort resolve card into).run m =
      (raiseTransition rules resolve .leave zone card >>= fun _ =>
        supplantOr rules resort resolve card owner zone design cardType).run (m.fade card) := by
  rw [transformOr, run_get_bind, located]
  dsimp only
  rw [named]
  dsimp only
  rw [typed]
  rfl

/-- To resort to something makes no difference to a transformation if it makes none once everybody has
heard that the card leaves. -/
theorem transformOr_eq (hc : rules.catalog.Coherent)
    (hsame : ∀ owner zone m₁, m.table.locate? card = some (owner, zone) →
      (raiseTransition rules resolve .leave zone card).run (m.fade card) = (.ok (), m₁) →
        ∀ design cardType, (supplantOr rules resort resolve card owner zone design cardType).run m₁
          = (supplant rules resolve card owner zone design cardType).run m₁) :
    (transformOr rules resort resolve card into).run m = (transform rules resolve card into).run m := by
  cases hlocated : m.table.locate? card with
  | none => rw [transformOr_nowhere hlocated, transform_nowhere hlocated]
  | some place =>
      obtain ⟨owner, zone⟩ := place
      cases hnamed : rules.catalog.cardNamed? into with
      | none => rw [transformOr_unknown hlocated hnamed, transform_unknown hlocated hnamed]
      | some design =>
          obtain ⟨cardType, -, htype⟩ := hc.typed?_of_mem (Catalog.cardNamed?_mem hnamed)
          rw [transformOr_run hlocated hnamed htype, transform_run hlocated hnamed htype,
            run_bind, run_bind]
          rcases hleave : (raiseTransition rules resolve .leave zone card).run (m.fade card)
            with ⟨f | _, m₁⟩
          · rfl
          · exact hsame owner zone m₁ hlocated hleave design cardType

/-- If everything that is transformed in the course of a firing is transformed as ever, the engine that
resorts is the engine. -/
theorem resorting_eq (h : ∀ rule ∈ rules.catalog.rules, ∀ into cardType,
    rule.kind = .targetsCard (.transform into) cardType → ∀ resolve card,
      transformOr rules resort resolve card into = transform rules resolve card into) :
    rules.resorting resort = rules.resolver := by
  have heffect (resolve : Resolver) (firing : Firing) :
      resortingEffect rules resort resolve firing = resolveEffect rules resolve firing := by
    unfold resortingEffect
    split
    · next into cardType target hkind htarget =>
        obtain ⟨rule, hfind, hrule⟩ := Option.map_eq_some_iff.mp hkind
        simp only [h rule (Catalog.rule?_mem hfind) into cardType hrule]
        rw [resolveEffect, hfind]
        dsimp only
        rw [hrule, htarget]
        rfl
    · rfl
  have hfiring (room : Nat) : resortingFiring rules resort room = resolveFiring rules room := by
    induction room with
    | zero => rfl
    | succ room ih =>
        funext firing
        rw [resortingFiring, resolveFiring, ih, heffect]
  funext firing
  rw [Rulebook.resorting, Rulebook.resolver]
  simp only [hfiring]

theorem transformOr_supplant (hc : rules.catalog.Coherent) (resolve : Resolver) (card : LiveId)
    (into : String) :
    transformOr rules (supplant rules) resolve card into = transform rules resolve card into := by
  funext m
  refine transformOr_eq hc ?_
  intro owner zone m₁ _ _ design cardType
  rw [supplantOr, run_get_bind]
  split <;> rfl

/-- **An engine that resorts to what is done anyway is the engine.** -/
theorem resorting_supplant (hc : rules.catalog.Coherent) :
    rules.resorting (supplant rules) = rules.resolver :=
  resorting_eq fun _ _ into _ _ resolve card => transformOr_supplant hc resolve card into

/-! ## Transformations in place -/

/-- To transform the card comes to the same whatever is resorted to. -/
def Match.InPlace (rules : Rulebook) (m : Match) (card : LiveId) (into : String) : Prop :=
  ∀ resort, (transformOr rules resort (rules.resorting resort) card into).run m
    = (transform rules rules.resolver card into).run m

/-- Where no rule transforms cards, a card is transformed in place if it is in a zone when everybody has
heard that it leaves. -/
theorem Catalog.NeverTransforms.inPlace (h : rules.catalog.NeverTransforms)
    (hc : rules.catalog.Coherent)
    (hthere : ∀ owner zone, m.table.locate? card = some (owner, zone) →
      ((((raiseTransition rules rules.resolver .leave zone card).run
        (m.fade card)).2.table.locate? card).isSome)) : m.InPlace rules card into := by
  intro resort
  rw [resorting_eq fun rule hrule into cardType hkind => absurd hkind (h rule hrule into cardType)]
  refine transformOr_eq hc ?_
  intro owner zone m₁ hlocated hleave design cardType
  have hstill := hthere owner zone hlocated
  rw [hleave] at hstill
  rw [supplantOr, run_get_bind, if_pos hstill]

/-! ## What a player has, along the way -/

/-- A match of the game with these seats, in order as long as handles are fresh. -/
structure Match.Tidy (c : Catalog) (ids : List PlayerId) (m : Match) : Prop where
  fits : m.Fits c ids
  integrity : m.Fresh → m.Integrity

/-- A change that takes what a player has to something that is related to it, as long as handles are
fresh and the match is in order. -/
structure Match.Counts (rules : Rulebook) (R : Nat → Nat → Prop) (player : PlayerId) (m m' : Match) :
    Prop where
  change : Change rules .all m m'
  held : m'.Fresh → m.Integrity → R (m.table.held player) (m'.table.held player)

/-- No card is made of another card; cards are made of nothing as allowed. -/
def Scope.faithful (creates : Bool) : Scope := ⟨creates, fun _ => false, true, false, true⟩

section

variable {creates : Bool} {R : Nat → Nat → Prop} {player : PlayerId}

theorem changes_of_counts (h : ReflTransGen (Match.Counts rules R player) m m') :
    ReflTransGen (Change rules .all) m m' :=
  ReflTransGen.mono (fun _ _ h => h.change) _ _ h

theorem fresh_of_counts (h : ReflTransGen (Match.Counts rules R player) m m') (hfresh : m'.Fresh) :
    m.Fresh :=
  fresh_of_changes (changes_of_counts h) hfresh

theorem kept_tidy (hc : rules.catalog.Coherent) :
    Kept (Match.Tidy rules.catalog ids) (Match.Counts rules R player) := by
  intro m m' h hm
  refine ⟨h.change.fits hc hm.fits, fun hfresh => ?_⟩
  exact h.change.integrity hc hm.fits.conforms (hm.integrity (h.change.fresh hfresh)) hfresh

theorem Match.Tidy.calm (hc : rules.catalog.Coherent) (hm : m.Tidy rules.catalog ids)
    (h : Calm rules .all m m') : m'.Tidy rules.catalog ids := by
  refine ⟨h.fits hc hm.fits, fun hfresh => ?_⟩
  exact h.integrity hc hm.fits.conforms (hm.integrity (h.fresh hfresh)) hfresh

theorem Reachable.tidy (hc : rules.catalog.Coherent) (h : Reachable rules m) :
    m.Tidy rules.catalog m.table.playerIds :=
  ⟨⟨h.conforms hc, rfl⟩, h.integrity hc⟩

/-- **What one change does to what a player has, a chain of changes does.** -/
theorem held_of_counts [Std.Refl R] [IsTrans Nat R] (hc : rules.catalog.Coherent)
    (hm : m.Tidy rules.catalog ids) (h : ReflTransGen (Match.Counts rules R player) m m')
    (hfresh : m'.Fresh) : R (m.table.held player) (m'.table.held player) := by
  induction h with
  | refl => exact refl_of R _
  | @tail m₁ m₂ hpath hstep ih =>
      have hfresh₁ := hstep.change.fresh hfresh
      have hm₁ := (kept_tidy hc).chain hpath hm
      exact trans_of R (ih hfresh₁) (hstep.held hfresh (hm₁.integrity hfresh₁))

variable [Std.Refl R] (hc : rules.catalog.Coherent)

include hc

/-- Changes that make no card of another keep what a player has, or let it be one more. -/
theorem follows_counts (hgain : creates = true → ∀ n, R n (n + 1)) :
    Follows rules (.faithful creates) ids (Match.Tidy rules.catalog ids)
      (Match.Counts rules R player) := by
  refine ⟨hc, fun _ hm => hm.fits, kept_tidy hc, ?_⟩
  intro m m' hm hmove
  refine ⟨hmove.widen, fun hfresh hi => ?_⟩
  rcases hmove.held hc hm.fits.conforms (fun _ => rfl) hi hfresh player with
    hsame | ⟨hcreates, hmore⟩
  · rw [hsame]
    exact refl_of R _
  · rw [hmore]
    exact hgain hcreates _

/-- Changes that make no card of anything keep what a player has. -/
theorem follows_keeping : Follows rules (.faithful false) ids (Match.Tidy rules.catalog ids)
    (Match.Counts rules R player) :=
  follows_counts hc nofun

omit [Std.Refl R] hc in
/-- A card that is found on the table is in play and belongs to the player it is found with. -/
theorem Table.Integrity.located {t : Table} (h : t.Integrity) {owner : PlayerId} {zone : String}
    (hlocated : t.locate? card = some (owner, zone)) :
    ∃ live, t.live? card = some live ∧ live.owner = owner := by
  obtain ⟨seat, hseat, hfound⟩ := List.exists_of_findSome?_eq_some hlocated
  obtain ⟨name, hname, heq⟩ := Option.map_eq_some_iff.mp hfound
  obtain ⟨z, hz, rfl⟩ := Option.map_eq_some_iff.mp hname
  cases heq
  exact h.owner hseat (List.mem_of_find?_eq_some hz) (by simpa using List.find?_some hz)

end

/-- A card of this design may take the place of the card, which belongs to this player if it is in play. -/
structure Match.Awaits (rules : Rulebook) (ids : List PlayerId) (m : Match) (card : LiveId)
    (owner : PlayerId) (zone : String) (design : CardDesign) (cardType : CardType) : Prop where
  seated : owner ∈ ids
  dynamic : rules.catalog.kind? zone = some .dynamic
  typed : rules.catalog.typed? design.id = some (design, cardType)
  whose : m.Fresh → card ∈ m.spawner.handed ∧
    ∀ live, m.table.live? card = some live → live.owner = owner

/-- What is resorted to leads along changes that count. -/
def Resort.Accounted (resort : Resort) (rules : Rulebook) (ids : List PlayerId)
    (R : Nat → Nat → Prop) (player : PlayerId) (F : Fault → Prop) : Prop :=
  ∀ resolve, ResolvesAlong rules (Match.Tidy rules.catalog ids) (Match.Counts rules R player) F
    resolve → ∀ m card owner zone design cardType, m.Tidy rules.catalog ids →
      m.Awaits rules ids card owner zone design cardType →
        Leads (Match.Counts rules R player) F (resort resolve card owner zone design cardType) m

section

variable {R : Nat → Nat → Prop} [Std.Refl R] {player : PlayerId} (hc : rules.catalog.Coherent)

include hc

/-- To replace a card keeps what a player has; if the card is gone it may let it be one more. -/
theorem supplant_counts (hres : ResolvesAlong rules (Match.Tidy rules.catalog ids)
      (Match.Counts rules R player) F resolve)
    (hm : m.Tidy rules.catalog ids) {owner : PlayerId} {zone : String} {design : CardDesign}
    {cardType : CardType} (hawaits : m.Awaits rules ids card owner zone design cardType)
    (hgain : m.Fresh → m.table.live? card = none → ∀ n, R n (n + 1)) :
    Leads (Match.Counts rules R player) F
      (supplant rules resolve card owner zone design cardType) m := by
  have room := (hm.fits.kind hawaits.seated zone).trans hawaits.dynamic
  have hreplace : Match.Counts rules R player m (m.replace card owner zone design cardType) := by
    have hmove : Change rules .all m (m.replace card owner zone design cardType) :=
      .replace rfl hawaits.typed room
    refine ⟨hmove, fun hfresh hi => ?_⟩
    have hfresh₀ := hmove.fresh hfresh
    obtain ⟨hhanded, howner⟩ := hawaits.whose hfresh₀
    rw [hm.fits.held_replace hc hawaits.typed room hi hhanded howner hfresh player]
    split
    · next hgone => exact hgain hfresh₀ hgone.2 _
    · exact refl_of R _
  have hm' := kept_tidy hc _ _ hreplace hm
  exact .of_run (supplant_run ..) (.single hreplace)
    ((welcome_along (follows_keeping hc) hres zone _ _ hm').map some)

omit [Std.Refl R] hc in
/-- Whatever becomes of a card that has been found on the table, it does not change hands. -/
theorem Match.Tidy.awaits (hm : m.Tidy rules.catalog ids) {owner : PlayerId} {zone : String}
    (hlocated : m.table.locate? card = some (owner, zone)) (howner : owner ∈ ids)
    (hkind : rules.catalog.kind? zone = some .dynamic) {design : CardDesign} {cardType : CardType}
    (typed : rules.catalog.typed? design.id = some (design, cardType))
    (hpath : ReflTransGen (Change rules .all) m m') :
    m'.Awaits rules ids card owner zone design cardType := by
  refine ⟨howner, hkind, typed, fun hfresh => ?_⟩
  have hi := hm.integrity (fresh_of_changes hpath hfresh)
  obtain ⟨live, hlive, rfl⟩ := hi.table.located hlocated
  obtain ⟨hmem, rfl⟩ := Roster.get?_eq_some_iff.mp hlive
  have hhanded := hi.books.handed live hmem
  refine ⟨(handed_of_changes hpath).subset hhanded, fun live' hlive' => ?_⟩
  obtain ⟨other, hother, hbecomes⟩ := whose_of_changes hpath hhanded hfresh live' hlive'
  obtain rfl : live = other := Option.some.inj (hlive.symm.trans hother)
  exact hbecomes.same.2.symm

/-- To transform a card keeps what a player has, if what is resorted to does. -/
theorem transformOr_counts (hres : ResolvesAlong rules (Match.Tidy rules.catalog ids)
      (Match.Counts rules R player) F resolve) (hresort : resort.Accounted rules ids R player F)
    (hinto : (rules.catalog.cardNamed? into).isSome ∨ F (.unknownCardName into)) :
    Along (Match.Tidy rules.catalog ids) (Match.Counts rules R player) F
      (transformOr rules resort resolve card into) := by
  intro m hm
  cases hlocated : m.table.locate? card with
  | none => exact .of_run (y := pure none) (transformOr_nowhere hlocated) .refl (.pure none)
  | some place =>
      obtain ⟨owner, zone⟩ := place
      obtain ⟨howner, hkind⟩ := hm.fits.locate? hc hlocated
      cases hnamed : rules.catalog.cardNamed? into with
      | none =>
          exact .of_run (y := throw _) (transformOr_unknown hlocated hnamed) .refl
            (.throw (hinto.resolve_left (by simp [hnamed])))
      | some design =>
          obtain ⟨cardType, typed, htype⟩ := hc.typed?_of_mem (Catalog.cardNamed?_mem hnamed)
          -- To fade changes nothing about zones, and so nothing about what is in them.
          have hfade : Match.Counts rules R player m (m.fade card) :=
            ⟨.fade rfl rfl, fun _ _ => refl_of R _⟩
          have hm₁ := kept_tidy hc _ _ hfade hm
          have hleave : Along (Match.Tidy rules.catalog ids) (Match.Counts rules R player) F
              (raiseTransition rules resolve .leave zone card) :=
            raiseTransition_along (follows_keeping hc) hres .leave zone card
          refine .of_run (transformOr_run hlocated hnamed htype) (.single hfade) ?_
          refine (hleave _ hm₁).bind ?_
          intro _ m₂ hrun
          have hm₂ := hleave.after (kept_tidy hc) hm₁ hrun
          have hawaits : m₂.Awaits rules ids card owner zone design cardType := by
            have hpath := (hleave _ hm₁).path
            rw [hrun] at hpath
            exact hm.awaits hlocated howner hkind typed (changes_of_counts (hpath.head hfade))
          refine .get_bind ?_
          split
          · next hthere =>
              refine supplant_counts hc hres hm₂ hawaits fun hfresh hgone => ?_
              obtain ⟨place, hplace⟩ := Option.isSome_iff_exists.mp hthere
              obtain ⟨live, hlive, -⟩ := (hm₂.integrity hfresh).table.located hplace
              rw [hgone] at hlive
              cases hlive
          · exact hresort resolve hres m₂ card owner zone design cardType hm₂ hawaits

/-- **Whatever a firing sets off keeps what a player has, if tokens and what is resorted to do.** -/
theorem resorting_resolves (creates : Bool) (htol : Tolerates rules F)
    (htokens : ∀ rule ∈ rules.catalog.rules, ∀ name,
      rule.kind = .general (.createToken name) → creates = true)
    (hgain : creates = true → ∀ n, R n (n + 1)) (hresort : resort.Accounted rules ids R player F) :
    ResolvesAlong rules (Match.Tidy rules.catalog ids) (Match.Counts rules R player) F
      (rules.resorting resort) := by
  have hfollows : Follows rules (.faithful creates) ids _ (Match.Counts rules R player) :=
    follows_counts hc hgain
  have hfiring (room : Nat) : ResolvesAlong rules (Match.Tidy rules.catalog ids)
      (Match.Counts rules R player) F (resortingFiring rules resort room) := by
    induction room with
    | zero => exact fun firing _ m _ => .get_bind (.throw (htol.depth _))
    | succ room ih =>
        intro firing hcarried m ⟨hm, hidle⟩
        refine deeper_follows hfollows hm ?_
        have hm₁ := hfollows.after hm (.nest (m.cascadeDepth + 1))
        have hnone : m.session.pending = none := Option.isNone_iff_eq_none.mp hidle
        unfold resortingEffect
        split
        · next into cardType target hkind htarget =>
            obtain ⟨rule, hfind, hrule⟩ := Option.map_eq_some_iff.mp hkind
            have hinto := hc.card_of_transform (Catalog.rule?_mem hfind) hrule
            split
            · exact askForTarget_follows hfollows hm₁ hnone .card hcarried
            · refine doToCards_along hfollows ih firing target (fun _ card m hm => ?_) _ hm₁
              refine .get_bind ?_
              split
              · exact (transformOr_counts hc ih hresort (.inl hinto) m hm).discard
              · exact .pure ()
        · next hno =>
            refine resolveEffect_follows hfollows ih htol hm₁ hidle hcarried ?_ ?_
            · exact fun rule hfind => htokens rule (Catalog.rule?_mem hfind)
            · -- A rule that transforms is aimed at cards, and that is dealt with.
              rintro rule hfind action cardType hkind card into rfl
              obtain ⟨target, htarget⟩ := hc.target_of_action hcarried hfind hkind
              exact (hno into cardType target (by rw [hfind, ← hkind]; rfl) htarget).elim
  exact fun firing hcarried m hm => .get_bind (hfiring _ firing hcarried m hm)

/-- To replace the card all the same is accounted for where what a player has may be one more. -/
theorem accounted_supplant (hgain : ∀ n, R n (n + 1)) :
    Resort.Accounted (supplant rules) rules ids R player F :=
  fun _ hres _ _ _ _ _ _ hm hawaits => supplant_counts hc hres hm hawaits fun _ _ => hgain

omit [Std.Refl R] hc in
/-- To do nothing is always accounted for. -/
theorem accounted_nothing :
    Resort.Accounted (fun _ _ _ _ _ _ => pure none) rules ids R player F :=
  fun _ _ _ _ _ _ _ _ _ _ => .pure none

omit [Std.Refl R] in
/-- **Whatever a firing sets off leaves a player with no fewer cards.** -/
theorem resolver_counts : ResolvesAlong rules (Match.Tidy rules.catalog ids)
    (Match.Counts rules (· ≤ ·) player) (fun _ => True) rules.resolver := by
  rw [← resorting_supplant hc]
  exact resorting_resolves hc true (tolerates_all rules) (fun _ _ _ _ => rfl)
    (fun _ n => n.le_succ) (accounted_supplant hc Nat.le_succ)

end

end CardArena
