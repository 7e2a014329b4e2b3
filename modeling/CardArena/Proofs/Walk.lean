import Mathlib
import CardArena.Proofs.Change
import CardArena.Proofs.Play

/-!
# Raising, writing, moving and dying, as chains of changes

Every step that a cascade is made of makes changes and no more, whether or not it fails.  So it leads
along any relation that keeps up with the changes, from the matches where it does (`Follows`); there is
one law for each step.  Each law takes what it needs to know of the firings that the step sets off from
`ResolvesAlong`, which says the same of the resolver.

The relation that keeps up with every change is `Change` itself, from any match of the game; for it the
laws are restated with `Walks` and `Resolves`, and `Proofs.Cascade` proves `Resolves` of the resolver
there is.

A law also says what the step may fail with: a fault that is possible has to be in `F`, and each
hypothesis of the form `… ∨ F fault` names the one thing that makes the fault impossible.
-/

namespace CardArena

open Play

/-! ## What is relied on -/

/-- The kind that the catalog gives to the zones of a name. -/
def Catalog.kind? (c : Catalog) (name : String) : Option ZoneKind :=
  (c.zone? name).map ZoneLayout.kind

/-- From a match of the game with these seats, the step makes changes and no more. -/
abbrev Walks (rules : Rulebook) (scope : Scope) (F : Fault → Prop) (ids : List PlayerId)
    (step : Play α) : Prop :=
  Along (Match.Fits rules.catalog ids) (Change rules scope) F step

/-- While no question is open, to do a firing of the game makes changes and no more. -/
def Resolves (rules : Rulebook) (scope : Scope) (F : Fault → Prop) (ids : List PlayerId)
    (resolve : Resolver) : Prop :=
  ∀ firing, rules.catalog.Carries firing.effect →
    Along (fun m => m.Fits rules.catalog ids ∧ m.session.isIdle) (Change rules scope) F
      (resolve firing)

/-- From the matches of `P`, which are of the game with these seats, every change is a move of `r`, and
no move leaves `P`. -/
structure Follows (rules : Rulebook) (scope : Scope) (ids : List PlayerId) (P : Match → Prop)
    (r : Match → Match → Prop) : Prop where
  coherent : rules.catalog.Coherent
  fits : ∀ m, P m → m.Fits rules.catalog ids
  kept : Kept P r
  move : ∀ {m m'}, P m → Change rules scope m m' → r m m'

/-- While no question is open, to do a firing of the game leads along `r`. -/
def ResolvesAlong (rules : Rulebook) (P : Match → Prop) (r : Match → Match → Prop)
    (F : Fault → Prop) (resolve : Resolver) : Prop :=
  ∀ firing, rules.catalog.Carries firing.effect →
    Along (fun m => P m ∧ m.session.isIdle) r F (resolve firing)

section

variable {c : Catalog} {ids : List PlayerId} {m : Match}

theorem Match.Fits.kind (h : m.Fits c ids) {player : PlayerId} (hp : player ∈ ids)
    (name : String) : (m.table.zone? player name).map Zone.kind = c.kind? name := by
  rw [Catalog.kind?, ← h.conforms.table.zone?_layout (h.seats.symm ▸ hp) name, Option.map_map]
  rfl

theorem Match.Fits.mem_of_zone? (h : m.Fits c ids) {player : PlayerId} {name : String} {z : Zone}
    (hz : m.table.zone? player name = some z) : player ∈ ids ∧ c.kind? name = some z.kind := by
  obtain ⟨hmem, hlayout⟩ := h.conforms.table.zone?_some hz
  exact ⟨h.seats ▸ hmem, by rw [Catalog.kind?, hlayout]; rfl⟩

theorem Match.Fits.player? (h : m.Fits c ids) {player : PlayerId} (hp : player ∈ ids) :
    ∃ seat, m.table.player? player = some seat ∧ seat.Conforms c := by
  obtain ⟨seat, hseat, rfl⟩ := List.mem_map.mp (h.seats.symm ▸ hp)
  obtain ⟨found, hfound⟩ := Option.isSome_iff_exists.mp
    (List.find?_isSome.mpr ⟨seat, hseat, by simp⟩ : (m.table.player? seat.id).isSome)
  exact ⟨found, hfound, h.conforms.table.players found (Table.mem_of_player? hfound).1⟩

theorem Match.Fits.mem_of_player? (h : m.Fits c ids) {player : PlayerId} {seat : Player}
    (hseat : m.table.player? player = some seat) : player ∈ ids ∧ seat.Conforms c := by
  obtain ⟨hmem, rfl⟩ := Table.mem_of_player? hseat
  exact ⟨h.seats ▸ List.mem_map_of_mem hmem, h.conforms.table.players seat hmem⟩

/-- A card that is found on the table is in a dynamic zone of a seated player. -/
theorem Match.Fits.locate? (h : m.Fits c ids) (hc : c.Coherent) {card : LiveId} {owner : PlayerId}
    {zone : String} (hloc : m.table.locate? card = some (owner, zone)) :
    owner ∈ ids ∧ c.kind? zone = some .dynamic := by
  obtain ⟨seat, hseat, hfound⟩ := List.exists_of_findSome?_eq_some hloc
  obtain ⟨name, hname, heq⟩ := Option.map_eq_some_iff.mp hfound
  obtain ⟨z, hz, rfl⟩ := Option.map_eq_some_iff.mp hname
  cases heq
  have hlive : card ∈ z.live := by simpa using List.find?_some hz
  have hfind := (h.conforms.table.distinct hc).zone? hseat (List.mem_of_find?_eq_some hz)
  obtain ⟨hmem, hkind⟩ := h.mem_of_zone? hfind
  exact ⟨hmem, hkind.trans (congrArg some (Zone.kind_of_mem_live hlive))⟩

theorem Catalog.carries_of_listener {card : LiveCard} {event : Event} {effect : Effect}
    (h : effect ∈ c.listeners card event) : c.Carries effect := by
  unfold Catalog.listeners at h
  cases ht : c.typed? card.card with
  | none => simp [ht] at h
  | some found =>
      obtain ⟨design, cardType⟩ := found
      obtain ⟨hcard, htype⟩ := Catalog.typed?_eq_some_iff.mp ht
      simp only [ht, List.mem_filter] at h
      rcases List.mem_append.mp h.1 with hd | hd
      · exact .inl ⟨design, (Catalog.card?_some hcard).1, hd⟩
      · exact .inr ⟨cardType, Catalog.cardType?_mem htype, hd⟩

theorem Catalog.listensFor_of_listener {card : LiveCard} {event : Event} {effect : Effect}
    (h : effect ∈ c.listeners card event) : effect.trigger.listensFor card.owner event = true := by
  unfold Catalog.listeners at h
  cases ht : c.typed? card.card with
  | none => simp [ht] at h
  | some found =>
      simp only [ht, List.mem_filter, Bool.and_eq_true] at h
      exact h.2.2

theorem Trigger.eq_of_listensFor {trigger : Trigger} {owner : PlayerId} {direction : Direction}
    {zone : String} (h : trigger.listensFor owner (.cardZoneTransition direction zone) = true) :
    trigger = .cardZoneTransition direction zone := by
  cases trigger with
  | cardZoneTransition direction' zone' =>
      obtain ⟨rfl, rfl⟩ : direction' = direction ∧ zone' = zone := by simpa [listensFor] using h
      rfl
  | _ => cases h

/-- Where nobody hears cards leave, nobody listens for it. -/
theorem Catalog.LeavesUnheard.listeners (h : c.LeavesUnheard) (card : LiveCard) (zone : String) :
    c.listeners card (.cardZoneTransition .leave zone) = [] := by
  refine List.eq_nil_iff_forall_not_mem.mpr ?_
  intro effect heffect
  exact h effect (Catalog.carries_of_listener heffect) zone
    (Trigger.eq_of_listensFor (Catalog.listensFor_of_listener heffect))

end

variable {rules : Rulebook} {scope : Scope} {F : Fault → Prop} {ids : List PlayerId}
  {resolve : Resolver} {P : Match → Prop} {r : Match → Match → Prop}

/-- An event that nobody listens for changes nothing. -/
theorem raise_unheard {event : Event} (h : ∀ card, rules.catalog.listeners card event = [])
    (source : LiveId) (m : Match) : (raise rules resolve event source).run m = (.ok (), m) := by
  rw [raise, run_get_bind]
  cases m.table.live? source with
  | none => rfl
  | some card =>
      dsimp only
      rw [h]
      rfl

theorem raiseTransition_unheard (h : rules.catalog.LeavesUnheard) (zone : String) (card : LiveId)
    (m : Match) : (raiseTransition rules resolve .leave zone card).run m = (.ok (), m) :=
  raise_unheard (h.listeners · zone) card m

theorem kept_fits (hc : rules.catalog.Coherent) :
    Kept (Match.Fits rules.catalog ids) (Change rules scope) :=
  fun _ _ h hm => h.fits hc hm

/-- Changes keep up with changes, from any match of the game. -/
theorem follows_changes (hc : rules.catalog.Coherent) :
    Follows rules scope ids (Match.Fits rules.catalog ids) (Change rules scope) :=
  ⟨hc, fun _ hm => hm, kept_fits hc, fun _ h => h⟩

/-- A change leaves a match of `P`. -/
theorem Follows.after (h : Follows rules scope ids P r) {m m' : Match} (hm : P m)
    (hmove : Change rules scope m m') : P m' :=
  h.kept m m' (h.move hm hmove) hm

/-! ## Reading attributes -/

/-- To read a player's attribute changes nothing; what is read is there. -/
theorem playerAttribute_run {m m' : Match} {player : PlayerId} {attr : String} {old : Amount}
    (h : (playerAttribute player attr).run m = (.ok old, m')) :
    m' = m ∧ ∃ seat, m.table.player? player = some seat ∧ seat.attributes.get? attr = some old := by
  rw [playerAttribute, run_get_bind] at h
  cases hseat : m.table.player? player with
  | none => rw [hseat] at h; cases h
  | some seat =>
      rw [hseat] at h
      dsimp only at h
      cases hvalue : seat.attributes.get? attr with
      | none => rw [hvalue] at h; cases h
      | some value =>
          rw [hvalue] at h
          cases h
          exact ⟨rfl, seat, rfl, hvalue⟩

theorem playerAttribute_along (h : Follows rules scope ids P r) {player : PlayerId} {attr : String}
    (hplayer : player ∈ ids ∨ F (.unknownPlayer player))
    (hattr : attr ∈ rules.catalog.playerAttributes.map PlayerAttribute.name ∨
      F (.attributeNotFound (toString player) attr)) :
    Along P r F (playerAttribute player attr) := by
  intro m hPm
  have hm := h.fits m hPm
  refine .get_bind ?_
  split
  · next hnone =>
      refine .throw (hplayer.resolve_left fun hp => ?_)
      obtain ⟨seat, hseat, -⟩ := hm.player? hp
      exact nomatch hnone.symm.trans hseat
  · next seat hseat =>
      split
      · next hnone =>
          refine .throw (hattr.resolve_left fun ha => ?_)
          have hsome := ((hm.mem_of_player? hseat).2.attributes attr).mpr ha
          rw [hnone] at hsome
          exact nomatch hsome
      · exact .pure _

/-- To read the attribute of a card changes nothing; what is read is there. -/
theorem cardAttribute_run {m m' : Match} {card : LiveId} {attr : String} {old : Amount}
    (h : (cardAttribute card attr).run m = (.ok old, m')) :
    m' = m ∧ ∃ live, m.table.live? card = some live ∧ live.attributes.get? attr = some old := by
  rw [cardAttribute, run_get_bind] at h
  cases hlive : m.table.live? card with
  | none => rw [hlive] at h; cases h
  | some live =>
      rw [hlive] at h
      dsimp only at h
      cases hvalue : live.attributes.get? attr with
      | none => rw [hvalue] at h; cases h
      | some value =>
          rw [hvalue] at h
          cases h
          exact ⟨rfl, live, rfl, hvalue⟩

/-- Every card in play has an attribute that every type declares. -/
theorem Match.Fits.cardAttribute {m : Match} (h : m.Fits rules.catalog ids) {card : LiveId}
    {live : LiveCard} (hlive : m.table.live? card = some live) {attr : String}
    (hattr : ∀ cardType ∈ rules.catalog.cardTypes, (cardType.attributes.get? attr).isSome) :
    (live.attributes.get? attr).isSome := by
  obtain ⟨design, cardType, htyped, hnames⟩ :=
    h.conforms.table.roster live (Roster.get?_eq_some_iff.mp hlive).1
  rw [hnames]
  exact hattr cardType (Catalog.cardType?_mem (Catalog.typed?_eq_some_iff.mp htyped).2)

theorem cardAttribute_leads {m : Match} (hm : m.Fits rules.catalog ids) {card : LiveId}
    {attr : String} (hcard : (m.table.live? card).isSome ∨ F (.unknownLiveCard card))
    (hattr : (∀ cardType ∈ rules.catalog.cardTypes, (cardType.attributes.get? attr).isSome) ∨
      F (.attributeNotFound (toString card) attr)) :
    Leads r F (cardAttribute card attr) m := by
  refine .get_bind ?_
  split
  · next hnone => exact .throw (hcard.resolve_left (by simp [hnone]))
  · next live hlive =>
      split
      · next hnone =>
          refine .throw (hattr.resolve_left fun ha => ?_)
          have hsome := hm.cardAttribute hlive ha
          rw [hnone] at hsome
          exact nomatch hsome
      · exact .pure _

section

variable (h : Follows rules scope ids P r) (hres : ResolvesAlong rules P r F resolve)

include h hres

/-! ## Raising events -/

theorem dispatch_along {firing : Firing}
    (hcarried : rules.catalog.Carries firing.effect) :
    Along P r F (dispatch resolve firing) := by
  intro m hm
  refine .get_bind ?_
  by_cases hidle : m.session.isIdle
  · rw [if_pos hidle]
    exact hres firing hcarried m ⟨hm, hidle⟩
  · rw [if_neg hidle]
    refine .modify (h.move hm (.enqueue ?_ hcarried))
    simpa [Session.isIdle, Option.isSome_iff_ne_none] using hidle

theorem offer_along {effect : Effect}
    (hcarried : rules.catalog.Carries effect) (source : LiveId) :
    Along P r F (offer rules resolve source effect) := by
  intro m hm
  refine .get_bind ?_
  split
  · exact dispatch_along h hres hcarried m hm
  · exact .pure ()

theorem raise_along (event : Event) (source : LiveId) :
    Along P r F (raise rules resolve event source) := by
  intro m hm
  refine .get_bind ?_
  split
  · exact .pure ()
  · exact Along.forM h.kept (fun effect heffect =>
      offer_along h hres (Catalog.carries_of_listener heffect) source) m hm

theorem raiseTransition_along (direction : Direction) (zone : String) (card : LiveId) :
    Along P r F (raiseTransition rules resolve direction zone card) :=
  raise_along h hres _ card

theorem raiseIfAlive_along (event : Event) (card : LiveId) :
    Along P r F (raiseIfAlive rules resolve event card) := by
  intro m hm
  refine .get_bind ?_
  split
  · exact raise_along h hres event card m hm
  · exact .pure ()

theorem raiseOnAll_along (event : Event) : Along P r F (raiseOnAll rules resolve event) :=
  fun m hm => .get_bind <|
    Along.forM h.kept (fun card _ => raiseIfAlive_along h hres event card) m hm

/-! ## Writing attributes -/

theorem setPlayerAttribute_along {player : PlayerId} {attr : String}
    (hplayer : player ∈ ids ∨ F (.unknownPlayer player))
    (hattr : attr ∈ rules.catalog.playerAttributes.map PlayerAttribute.name ∨
      F (.attributeNotFound (toString player) attr)) (value : Amount) :
    Along P r F (setPlayerAttribute rules resolve player attr value) := by
  intro m hm
  refine (playerAttribute_along h hplayer hattr m hm).bind ?_
  intro old m' hrun
  obtain ⟨rfl, seat, hseat, hold⟩ := playerAttribute_run hrun
  have hmove : Change rules scope m' _ := .writePlayer value hseat hold
  refine .modify_bind (h.move hm hmove) ?_
  split
  · exact .pure ()
  · exact raiseOnAll_along h hres _ _ (h.after hm hmove)

theorem changePlayerAttribute_along {player : PlayerId} {attr : String}
    (hplayer : player ∈ ids ∨ F (.unknownPlayer player))
    (hattr : attr ∈ rules.catalog.playerAttributes.map PlayerAttribute.name ∨
      F (.attributeNotFound (toString player) attr)) (change : Amount → Amount) :
    Along P r F (changePlayerAttribute rules resolve player attr change) :=
  .bind h.kept (playerAttribute_along h hplayer hattr) fun _ =>
    setPlayerAttribute_along h hres hplayer hattr _

theorem setCardAttribute_follows {m : Match} (hm : P m) {card : LiveId} {attr : String}
    (hcard : (m.table.live? card).isSome ∨ F (.unknownLiveCard card))
    (hattr : (∀ cardType ∈ rules.catalog.cardTypes, (cardType.attributes.get? attr).isSome) ∨
      F (.attributeNotFound (toString card) attr)) (value : Amount) :
    Leads r F (setCardAttribute rules resolve card attr value) m := by
  refine (cardAttribute_leads (h.fits m hm) hcard hattr).bind ?_
  intro old m' hrun
  obtain ⟨rfl, live, hlive, hold⟩ := cardAttribute_run hrun
  have hmove : Change rules scope m' _ := .writeCard value hlive hold
  refine .modify_bind (h.move hm hmove) ?_
  have hdelta : ∀ direction?, Along P r F (do
      match direction? with
      | none => pure ()
      | some direction => raise rules resolve (.cardAttributeDelta direction attr) card
      Comparison.all.forM fun op =>
        raise rules resolve (.cardAttributeCompare op attr value) card) := by
    intro direction?
    have hcompare : Along P r F (Comparison.all.forM fun op =>
        raise rules resolve (.cardAttributeCompare op attr value) card) :=
      .forM h.kept fun op _ => raise_along h hres _ card
    cases direction? with
    | none => exact hcompare
    | some direction => exact .bind h.kept (raise_along h hres _ card) fun _ => hcompare
  exact hdelta _ _ (h.after hm hmove)

theorem changeCardAttribute_follows {m : Match} (hm : P m) {card : LiveId} {attr : String}
    (hcard : (m.table.live? card).isSome ∨ F (.unknownLiveCard card))
    (hattr : (∀ cardType ∈ rules.catalog.cardTypes, (cardType.attributes.get? attr).isSome) ∨
      F (.attributeNotFound (toString card) attr)) (change : Amount → Amount) :
    Leads r F (changeCardAttribute rules resolve card attr change) m := by
  refine (cardAttribute_leads (h.fits m hm) hcard hattr).bind ?_
  intro old m' hrun
  obtain ⟨rfl, -⟩ := cardAttribute_run hrun
  exact setCardAttribute_follows h hres hm hcard hattr _

end

/-! ## Along changes -/

section

variable (hc : rules.catalog.Coherent) (hres : Resolves rules scope F ids resolve)

include hc hres

theorem raise_walks (event : Event) (source : LiveId) :
    Walks rules scope F ids (raise rules resolve event source) :=
  raise_along (follows_changes hc) hres event source

theorem raiseTransition_walks (direction : Direction) (zone : String) (card : LiveId) :
    Walks rules scope F ids (raiseTransition rules resolve direction zone card) :=
  raise_walks hc hres _ card

theorem raiseOnAll_walks (event : Event) :
    Walks rules scope F ids (raiseOnAll rules resolve event) :=
  raiseOnAll_along (follows_changes hc) hres event

theorem setPlayerAttribute_walks {player : PlayerId} {attr : String}
    (hplayer : player ∈ ids ∨ F (.unknownPlayer player))
    (hattr : attr ∈ rules.catalog.playerAttributes.map PlayerAttribute.name ∨
      F (.attributeNotFound (toString player) attr)) (value : Amount) :
    Walks rules scope F ids (setPlayerAttribute rules resolve player attr value) :=
  setPlayerAttribute_along (follows_changes hc) hres hplayer hattr value

theorem changePlayerAttribute_walks {player : PlayerId} {attr : String}
    (hplayer : player ∈ ids ∨ F (.unknownPlayer player))
    (hattr : attr ∈ rules.catalog.playerAttributes.map PlayerAttribute.name ∨
      F (.attributeNotFound (toString player) attr)) (change : Amount → Amount) :
    Walks rules scope F ids (changePlayerAttribute rules resolve player attr change) :=
  changePlayerAttribute_along (follows_changes hc) hres hplayer hattr change

theorem setCardAttribute_leads {m : Match} (hm : m.Fits rules.catalog ids)
    {card : LiveId} {attr : String}
    (hcard : (m.table.live? card).isSome ∨ F (.unknownLiveCard card))
    (hattr : (∀ cardType ∈ rules.catalog.cardTypes, (cardType.attributes.get? attr).isSome) ∨
      F (.attributeNotFound (toString card) attr)) (value : Amount) :
    Leads (Change rules scope) F (setCardAttribute rules resolve card attr value) m :=
  setCardAttribute_follows (follows_changes hc) hres hm hcard hattr value

end

end CardArena
