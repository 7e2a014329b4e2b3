import Mathlib
import CardArena.Proofs.Walk

/-!
# Moving and dying, as chains of changes

The zones that a move names keep their kinds as long as the match goes on, so that a move of many
cards is settled once: by the kinds that the catalog gives to the two zones.

A card comes into play in one place (`enterZone_run`), and nothing of it is left undone when what
its coming sets off fails.

The laws are those of every relation that keeps up with the changes (`Follows`), but for the one of a
card that is transformed: it is between two changes for as long as others hear that it leaves.
-/

namespace CardArena

open Play

variable {rules : Rulebook} {scope : Scope} {F : Fault → Prop} {ids : List PlayerId}
  {resolve : Resolver} {P : Match → Prop} {r : Match → Match → Prop}

/-! ## Coming into play -/

/-- What is left to do for a card that has come into a zone: it hears of it. -/
def welcome (rules : Rulebook) (resolve : Resolver) (zone : String) (card : LiveId) :
    Play LiveId := do
  raiseTransition rules resolve .enter zone card
  return card

/-- A design of the catalog comes into a dynamic zone before anybody hears of it. -/
theorem enterZone_run {m : Match} {owner : PlayerId} {card : CardDesign} {cardType : CardType}
    {zone : String} (typed : rules.catalog.typed? card.id = some (card, cardType))
    (room : (m.table.zone? owner zone).map Zone.kind = some .dynamic) :
    (enterZone rules resolve owner card.id zone).run m =
      (welcome rules resolve zone (m.spawner.spawn card.id owner).1).run
        (m.bring owner card cardType zone) := by
  simp only [enterZone, typed, run_get_bind, room, if_true]
  rfl

/-- Without such a zone a handle is handed out and given back. -/
theorem enterZone_refused {m : Match} {owner : PlayerId} {card : CardDesign} {cardType : CardType}
    {zone : String} (typed : rules.catalog.typed? card.id = some (card, cardType))
    (noRoom : (m.table.zone? owner zone).map Zone.kind ≠ some .dynamic) :
    (enterZone rules resolve owner card.id zone).run m =
      (.error (.unknownZone owner zone), m.refund owner card.id) := by
  simp only [enterZone, typed, run_get_bind, noRoom, if_false]
  rfl

theorem takeTop_run (m : Match) (player : PlayerId) (zone : String) :
    (takeTop player zone).run m =
      match (m.table.zone? player zone).bind fun z => z.pile.popCard? with
      | none => (.ok none, m)
      | some (card, pile) => (.ok (some card), m.putPile player zone pile) := by
  simp only [takeTop, run_get_bind]
  cases hz : m.table.zone? player zone with
  | none => rfl
  | some z =>
      cases htop : z.pile.popCard? with
      | none => simp only [Option.bind_some, htop]; rfl
      | some top => simp only [Option.bind_some, htop]; rfl

/-- A card on top of a zone of the game is a design of the game. -/
theorem Match.Fits.typed_top {m : Match} (hc : rules.catalog.Coherent)
    (hm : m.Fits rules.catalog ids) {player : PlayerId} {zone : String} {z : Zone}
    (hz : m.table.zone? player zone = some z) {card : CardId} {pile : Pile}
    (htop : z.pile.popCard? = some (card, pile)) :
    ∃ design cardType, design.id = card ∧
      rules.catalog.typed? design.id = some (design, cardType) := by
  obtain ⟨-, hknown⟩ := hm.conforms.table.popTop hc hz htop
  obtain ⟨design, hdesign⟩ := Option.isSome_iff_exists.mp hknown
  obtain ⟨cardType, htyped⟩ := hc.typed?_of_card? hdesign
  obtain ⟨-, rfl⟩ := Catalog.card?_some hdesign
  exact ⟨design, cardType, rfl, htyped⟩

theorem Match.Fits.popTop {m : Match} (hc : rules.catalog.Coherent)
    (hm : m.Fits rules.catalog ids) {player : PlayerId} {zone : String} {z : Zone}
    (hz : m.table.zone? player zone = some z) {card : CardId} {pile : Pile}
    (htop : z.pile.popCard? = some (card, pile)) :
    (m.putPile player zone pile).Fits rules.catalog ids :=
  ⟨⟨(hm.conforms.table.popTop hc hz htop).1, hm.conforms.session⟩,
    (Table.playerIds_modifyZone ..).trans hm.seats⟩

theorem welcome_along (h : Follows rules scope ids P r) (hres : ResolvesAlong rules P r F resolve)
    (zone : String) (card : LiveId) : Along P r F (welcome rules resolve zone card) :=
  .bind h.kept (raiseTransition_along h hres _ _ card) fun _ _ _ => .pure card

theorem welcome_walks (hc : rules.catalog.Coherent) (hres : Resolves rules scope F ids resolve)
    (zone : String) (card : LiveId) :
    Walks rules scope F ids (welcome rules resolve zone card) :=
  welcome_along (follows_changes hc) hres zone card

theorem Match.Fits.bring {m : Match} (hc : rules.catalog.Coherent)
    (hm : m.Fits rules.catalog ids) {owner : PlayerId} {card : CardDesign} {cardType : CardType}
    {zone : String} (typed : rules.catalog.typed? card.id = some (card, cardType))
    (room : (m.table.zone? owner zone).map Zone.kind = some .dynamic) :
    (m.bring owner card cardType zone).Fits rules.catalog ids :=
  (.bring rfl typed room : Change rules .all m _).fits hc hm

/-- A card that has come into play has done so under the next handle, and whatever happened since
is what its coming set off. -/
theorem enterZone_ok (hc : rules.catalog.Coherent) (hres : Resolves rules scope F ids resolve)
    {m m' : Match} (hm : m.Fits rules.catalog ids) {owner : PlayerId} {card : CardDesign}
    {cardType : CardType} (typed : rules.catalog.typed? card.id = some (card, cardType))
    {zone : String} {id : LiveId}
    (h : (enterZone rules resolve owner card.id zone).run m = (.ok id, m')) :
    (m.table.zone? owner zone).map Zone.kind = some .dynamic ∧
      id = (m.spawner.spawn card.id owner).1 ∧
      Relation.ReflTransGen (Change rules scope) (m.bring owner card cardType zone) m' := by
  by_cases room : (m.table.zone? owner zone).map Zone.kind = some .dynamic
  · have hwelcome := welcome_walks hc hres zone (m.spawner.spawn card.id owner).1 _
      (hm.bring hc typed room)
    rw [enterZone_run typed room] at h
    refine ⟨room, ?_, by simpa [h] using hwelcome.path⟩
    rw [welcome, run_bind] at h
    split at h
    · cases h
      rfl
    · cases h
  · rw [enterZone_refused typed room] at h
    cases h

/-! ## Moves -/

section

variable {m : Match} {player : PlayerId} {origin destination : String} {z : Zone}

theorem moveStatic_empty
    (hempty : ((m.table.zone? player origin).bind fun z => z.pile.popCard?) = none) :
    (moveStatic player origin destination).run m = (.ok false, m) := by
  rw [moveStatic, run_bind, takeTop_run, hempty]
  rfl

theorem moveStatic_run (hz : m.table.zone? player origin = some z) {card : CardId} {pile : Pile}
    (htop : z.pile.popCard? = some (card, pile)) :
    (moveStatic player origin destination).run m = (.ok true,
      (m.putPile player origin pile).onTable (·.modifyZone player destination (·.pushCard card))) := by
  rw [moveStatic, run_bind, takeTop_run, hz, Option.bind_some, htop]
  rfl

theorem moveIntoPlay_empty
    (hempty : ((m.table.zone? player origin).bind fun z => z.pile.popCard?) = none) :
    (moveIntoPlay rules resolve player origin destination).run m = (.ok false, m) := by
  rw [moveIntoPlay, run_bind, takeTop_run, hempty]
  rfl

/-- The top card of a static zone is in play before anybody hears of it. -/
theorem moveIntoPlay_run (hz : m.table.zone? player origin = some z) {card : CardDesign}
    {cardType : CardType} {pile : Pile} (htop : z.pile.popCard? = some (card.id, pile))
    (typed : rules.catalog.typed? card.id = some (card, cardType))
    (room : ((m.putPile player origin pile).table.zone? player destination).map Zone.kind
      = some .dynamic) :
    (moveIntoPlay rules resolve player origin destination).run m =
      (welcome rules resolve destination (m.spawner.spawn card.id player).1 >>= fun _ =>
        pure true).run ((m.putPile player origin pile).bring player card cardType destination) := by
  have hspawner : (m.putPile player origin pile).spawner = m.spawner := rfl
  rw [moveIntoPlay, run_bind, takeTop_run, hz, Option.bind_some, htop]
  simp only [run_bind, run_discard, enterZone_run typed room, hspawner]
  rcases (welcome rules resolve destination (m.spawner.spawn card.id player).1).run
    ((m.putPile player origin pile).bring player card cardType destination) with ⟨_ | _, _⟩ <;> rfl

/-- What is left to do for a card that has heard that it leaves play: it does so, unless it has gone
elsewhere. -/
def depart (player : PlayerId) (origin destination : String) (card : LiveId) : Play Bool := do
  let m ← get
  if (m.table.zone? player origin).any (·.live.contains card) then
    match m.despawn card with
    | (none, m) => set m
    | (some removed, m) =>
      set (m.onTable (·.modifyZone player destination (·.pushCard removed.card)))
  pure true

theorem moveOutOfPlay_empty (hempty : (m.table.zone? player origin).bind Zone.topLive? = none) :
    (moveOutOfPlay rules resolve player origin destination).run m = (.ok false, m) := by
  rw [moveOutOfPlay, run_bind_ok (x := topLive? player origin) rfl, hempty]
  rfl

/-- A card hears that it leaves play while it is still where it was. -/
theorem moveOutOfPlay_run {card : LiveId}
    (htop : (m.table.zone? player origin).bind Zone.topLive? = some card) :
    (moveOutOfPlay rules resolve player origin destination).run m =
      (raiseTransition rules resolve .leave origin card >>= fun _ =>
        depart player origin destination card).run m := by
  rw [moveOutOfPlay, run_bind_ok (x := topLive? player origin) rfl, htop]
  rfl

theorem moveBetweenDynamic_empty
    (hempty : (m.table.zone? player origin).bind Zone.topLive? = none) :
    (moveBetweenDynamic rules resolve player origin destination).run m = (.ok false, m) := by
  rw [moveBetweenDynamic, run_bind_ok (x := topLive? player origin) rfl, hempty]
  rfl

/-- A card that stays in play is where it goes before it hears of that. -/
theorem moveBetweenDynamic_run {card : LiveId}
    (htop : (m.table.zone? player origin).bind Zone.topLive? = some card) :
    (moveBetweenDynamic rules resolve player origin destination).run m =
      (raiseTransition rules resolve .leave origin card >>= fun _ =>
        raiseTransition rules resolve .enter destination card >>= fun _ => pure true).run
      (m.onTable fun table => (table.modifyZone player origin (·.removeLive card)).modifyZone player
        destination (·.pushLive card)) := by
  rw [moveBetweenDynamic, run_bind_ok (x := topLive? player origin) rfl, htop]
  rfl

/-- Where there is nothing of the card any more, nothing leaves play. -/
theorem depart_gone {card : LiveId}
    (hgone : (m.table.zone? player origin).any (·.live.contains card) = false) :
    (depart player origin destination card).run m = (.ok true, m) := by
  rw [depart, run_get_bind, hgone]
  rfl

theorem depart_struck {card : LiveId}
    (there : (m.table.zone? player origin).any (·.live.contains card) = true)
    (hlive : m.table.live? card = none) :
    (depart player origin destination card).run m = (.ok true, (m.despawn card).2) := by
  have hpair : m.despawn card = (none, (m.despawn card).2) := by rw [← hlive]; rfl
  rw [depart, run_get_bind, if_pos there, hpair]
  rfl

theorem depart_run {card : LiveId} {live : LiveCard}
    (there : (m.table.zone? player origin).any (·.live.contains card) = true)
    (hlive : m.table.live? card = some live) :
    (depart player origin destination card).run m = (.ok true,
      (m.despawn card).2.onTable (·.modifyZone player destination (·.pushCard live.card))) := by
  have hpair : m.despawn card = (some live, (m.despawn card).2) := by rw [← hlive]; rfl
  rw [depart, run_get_bind, if_pos there, hpair]
  rfl

end

section

variable {player : PlayerId} (h : Follows rules scope ids P r) (hp : player ∈ ids) (origin : String)
  {destination : String}

include h hp

theorem moveStatic_along (hd : rules.catalog.kind? destination = some .static) :
    Along P r F (moveStatic player origin destination) := by
  intro m hm
  cases htop : (m.table.zone? player origin).bind fun z => z.pile.popCard? with
  | none => exact .of_run (y := pure false) (moveStatic_empty htop) .refl (.pure _)
  | some top =>
      obtain ⟨card, pile⟩ := top
      obtain ⟨z, hz, htop'⟩ := Option.bind_eq_some_iff.mp htop
      have hmove : Change rules scope m _ :=
        .shift hz htop' (((h.fits m hm).kind hp destination).trans hd)
      exact .of_run (y := pure true) (moveStatic_run hz htop') (.single (h.move hm hmove)) (.pure _)

theorem depart_along (hd : rules.catalog.kind? destination = some .static) (card : LiveId) :
    Along P r F (depart player origin destination card) := by
  intro m hm
  cases there : (m.table.zone? player origin).any (·.live.contains card) with
  | false => exact .of_run (y := pure true) (depart_gone there) .refl (.pure _)
  | true =>
      cases hlive : m.table.live? card with
      | none =>
          exact .of_run (y := pure true) (depart_struck there hlive)
            (.single (h.move hm (.strike hlive))) (.pure _)
      | some live =>
          obtain ⟨z, hz, hcard⟩ := (Option.any_eq_true _ _).mp there
          have hmove : Change rules scope m _ :=
            .withdraw hz (by simpa using hcard) hlive (((h.fits m hm).kind hp destination).trans hd)
          exact .of_run (y := pure true) (depart_run there hlive) (.single (h.move hm hmove))
            (.pure _)

variable (hres : ResolvesAlong rules P r F resolve)

include hres

theorem moveIntoPlay_along (hd : rules.catalog.kind? destination = some .dynamic) :
    Along P r F (moveIntoPlay rules resolve player origin destination) := by
  intro m hm
  cases htop : (m.table.zone? player origin).bind fun z => z.pile.popCard? with
  | none => exact .of_run (y := pure false) (moveIntoPlay_empty htop) .refl (.pure _)
  | some top =>
      obtain ⟨card, pile⟩ := top
      obtain ⟨z, hz, htop'⟩ := Option.bind_eq_some_iff.mp htop
      have hfits := h.fits m hm
      obtain ⟨design, cardType, rfl, typed⟩ := hfits.typed_top h.coherent hz htop'
      have hmove : Change rules scope m _ :=
        .deploy hz htop' typed ((hfits.kind hp destination).trans hd)
      have hroom := ((hfits.popTop h.coherent hz htop').kind hp destination).trans hd
      have hrest := (welcome_along h hres destination (m.spawner.spawn design.id player).1 _
        (h.after hm hmove)).bind fun _ _ _ => .pure true
      exact .of_run (moveIntoPlay_run hz htop' typed hroom) (.single (h.move hm hmove)) hrest

theorem moveOutOfPlay_along (hd : rules.catalog.kind? destination = some .static) :
    Along P r F (moveOutOfPlay rules resolve player origin destination) := by
  intro m hm
  cases htop : (m.table.zone? player origin).bind Zone.topLive? with
  | none => exact .of_run (y := pure false) (moveOutOfPlay_empty htop) .refl (.pure _)
  | some card =>
      exact .of_run (moveOutOfPlay_run htop) .refl
        (Along.bind h.kept (raiseTransition_along h hres _ _ card)
          (fun _ => depart_along h hp origin hd card) m hm)

theorem moveBetweenDynamic_along (hd : rules.catalog.kind? destination = some .dynamic) :
    Along P r F (moveBetweenDynamic rules resolve player origin destination) := by
  intro m hm
  cases htop : (m.table.zone? player origin).bind Zone.topLive? with
  | none => exact .of_run (y := pure false) (moveBetweenDynamic_empty htop) .refl (.pure _)
  | some card =>
      obtain ⟨z, hz, hlast⟩ := Option.bind_eq_some_iff.mp htop
      have hmove : Change rules scope m _ :=
        .carry hz (List.mem_of_getLast? hlast) (((h.fits m hm).kind hp destination).trans hd)
      exact .of_run (moveBetweenDynamic_run htop) (.single (h.move hm hmove))
        (Along.bind h.kept (raiseTransition_along h hres _ _ card) (fun _ =>
          .bind h.kept (raiseTransition_along h hres _ _ card) fun _ _ _ => .pure true)
          _ (h.after hm hmove))

/-- A move goes by the kinds that the catalog gives to its zones. -/
theorem moveTop_along {kinds : ZoneKind × ZoneKind}
    (hd : rules.catalog.kind? destination = some kinds.2) :
    Along P r F (moveTop rules resolve kinds player origin destination) := by
  obtain ⟨_ | _, _ | _⟩ := kinds
  · exact moveStatic_along h hp origin hd
  · exact moveIntoPlay_along h hp origin hres hd
  · exact moveOutOfPlay_along h hp origin hres hd
  · exact moveBetweenDynamic_along h hp origin hres hd

omit h hp hres in
theorem repeatStep_along (kept : Kept P r) {step : Play Bool} (hstep : Along P r F step) (n : Nat) :
    Along P r F (repeatStep step n) := by
  induction n with
  | zero => exact fun _ _ => .pure 0
  | succ n ih =>
      refine .bind kept hstep ?_
      intro moved
      cases moved with
      | false => exact fun _ _ => .pure 0
      | true => exact .bind kept ih fun count _ _ => .pure (count + 1)

end

theorem moveCards_along (h : Follows rules scope ids P r) (hres : ResolvesAlong rules P r F resolve)
    {player : PlayerId} {origin destination : String}
    (hp : player ∈ ids ∨ F (.unknownPlayer player))
    (ho : (rules.catalog.kind? origin).isSome ∨ F (.unknownZone player origin))
    (hd : (rules.catalog.kind? destination).isSome ∨ F (.unknownZone player destination))
    (count : Nat) :
    Along P r F (moveCards rules resolve player origin destination count) := by
  intro m hPm
  have hm := h.fits m hPm
  refine .get_bind ?_
  split
  · next hnone =>
      refine .throw (hp.resolve_left fun hmem => ?_)
      obtain ⟨seat, hseat, -⟩ := hm.player? hmem
      exact nomatch hnone.symm.trans hseat
  · next seat hseat =>
      obtain ⟨hmem, -⟩ := hm.mem_of_player? hseat
      have hzone : ∀ name, (seat.zone? name).map Zone.kind = rules.catalog.kind? name := by
        intro name
        rw [← hm.kind hmem name, Table.zone?_eq, hseat]
        rfl
      split
      · next hnone => exact .throw (ho.resolve_left (by rw [← hzone, hnone]; simp))
      · next hnone => exact .throw (hd.resolve_left (by rw [← hzone, hnone]; simp))
      · next source target hsource htarget =>
          have hkind : rules.catalog.kind? destination = some target.kind := by
            rw [← hzone, htarget]
            rfl
          exact repeatStep_along h.kept (moveTop_along h hmem origin hres hkind) _ m hPm

theorem moveCards_walks (hc : rules.catalog.Coherent) (hres : Resolves rules scope F ids resolve)
    {player : PlayerId} {origin destination : String}
    (hp : player ∈ ids ∨ F (.unknownPlayer player))
    (ho : (rules.catalog.kind? origin).isSome ∨ F (.unknownZone player origin))
    (hd : (rules.catalog.kind? destination).isSome ∨ F (.unknownZone player destination))
    (count : Nat) :
    Walks rules scope F ids (moveCards rules resolve player origin destination count) :=
  moveCards_along (follows_changes hc) hres hp ho hd count

/-! ## Dying and changing -/

/-- What is left to do for a card that has been condemned: it hears that it leaves. -/
def mourn (rules : Rulebook) (resolve : Resolver) (card : LiveId) : Play Unit := do
  match (← get).table.locate? card with
  | none => pure ()
  | some (_, zone) => raiseTransition rules resolve .leave zone card

/-- A card that is killed is condemned at once, whatever it sets off by that. -/
theorem killFor_run {m : Match} {card : LiveId} {live : LiveCard}
    (hlive : m.table.live? card = some live) (free : m.destructions.contains card = false)
    (reason : DestructionReason) :
    (killFor rules resolve reason card).run m = (mourn rules resolve card).run
      ((m.condemn (reason.delay rules.config) reason card).broadcast (.cardKilled card)) := by
  rw [killFor, run_get_bind, hlive, free]
  rfl

/-- A card on its way out, or not in play, cannot be killed. -/
theorem killFor_spared {m : Match} {card : LiveId}
    (h : m.destructions.contains card = true ∨ m.table.live? card = none)
    (reason : DestructionReason) :
    (killFor rules resolve reason card).run m = (.ok (), m) := by
  have hguard : (m.destructions.contains card || (m.table.live? card).isNone) = true := by
    simpa using h
  rw [killFor, run_get_bind, if_pos hguard]
  rfl

/-- What is left to do for a transformed card when everybody has heard that it leaves: a new card
takes its place, and hears of that. -/
def supplant (rules : Rulebook) (resolve : Resolver) (card : LiveId) (owner : PlayerId)
    (zone : String) (design : CardDesign) (cardType : CardType) : Play (Option LiveId) := do
  let m ← get
  set (m.replace card owner zone design cardType)
  some <$> welcome rules resolve zone (m.spawner.spawn design.id owner).1

theorem supplant_run (m : Match) (card : LiveId) (owner : PlayerId) (zone : String)
    (design : CardDesign) (cardType : CardType) :
    (supplant rules resolve card owner zone design cardType).run m =
      (some <$> welcome rules resolve zone (m.spawner.spawn design.id owner).1).run
        (m.replace card owner zone design cardType) :=
  rfl

theorem transform_nowhere {m : Match} {card : LiveId} (nowhere : m.table.locate? card = none)
    (into : String) : (transform rules resolve card into).run m = (.ok none, m) := by
  rw [transform, run_get_bind, nowhere]
  rfl

theorem transform_unknown {m : Match} {card : LiveId} {place : PlayerId × String} {into : String}
    (located : m.table.locate? card = some place)
    (unknown : rules.catalog.cardNamed? into = none) :
    (transform rules resolve card into).run m = (.error (.unknownCardName into), m) := by
  rw [transform, run_get_bind, located]
  dsimp only
  rw [unknown]
  rfl

/-- A transformed card is dead, and waits for its destruction no more, before it hears that it
leaves. -/
theorem transform_run {m : Match} {card : LiveId} {owner : PlayerId} {zone into : String}
    {design : CardDesign} {cardType : CardType}
    (located : m.table.locate? card = some (owner, zone))
    (named : rules.catalog.cardNamed? into = some design)
    (typed : rules.catalog.cardType? design.cardType = some cardType) :
    (transform rules resolve card into).run m =
      (raiseTransition rules resolve .leave zone card >>= fun _ =>
        supplant rules resolve card owner zone design cardType).run (m.fade card) := by
  rw [transform, run_get_bind, located]
  dsimp only
  rw [named]
  dsimp only
  rw [typed]
  dsimp only
  rw [run_modify_bind]
  show (raiseTransition rules resolve .leave zone card >>= _).run (m.fade card) = _
  rw [run_bind, run_bind]
  rcases (raiseTransition rules resolve .leave zone card).run (m.fade card) with ⟨f | _, m₁⟩
  · rfl
  · simp only [supplant, welcome, map_bind, map_pure]
    rfl

section

variable (h : Follows rules scope ids P r) (hres : ResolvesAlong rules P r F resolve)

include h hres

theorem enterZone_along (hallowed : scope.creates = true) {owner : PlayerId} {design : CardId}
    {zone : String} (hdesign : (rules.catalog.card? design).isSome ∨ F (.unknownCard design))
    (hroom : owner ∈ ids ∧ rules.catalog.kind? zone = some .dynamic ∨
      F (.unknownZone owner zone)) :
    Along P r F (enterZone rules resolve owner design zone) := by
  intro m hm
  cases hcard : rules.catalog.card? design with
  | none =>
      have hnone : rules.catalog.typed? design = none := by simp [Catalog.typed?, hcard]
      rw [enterZone, hnone]
      exact .throw (hdesign.resolve_left (by simp [hcard]))
  | some card =>
      obtain ⟨-, rfl⟩ := Catalog.card?_some hcard
      obtain ⟨cardType, typed⟩ := h.coherent.typed?_of_card? hcard
      by_cases room : (m.table.zone? owner zone).map Zone.kind = some .dynamic
      · have hmove : Change rules scope m _ := .bring hallowed typed room
        exact .of_run (enterZone_run typed room) (.single (h.move hm hmove))
          (welcome_along h hres zone _ _ (h.after hm hmove))
      · have hF : F (.unknownZone owner zone) := by
          rcases hroom with ⟨howner, hkind⟩ | hF
          · exact absurd (((h.fits m hm).kind howner zone).trans hkind) room
          · exact hF
        exact .of_run (enterZone_refused typed room) (.single (h.move hm (.refund owner card.id)))
          (.throw hF)

theorem mourn_along (card : LiveId) : Along P r F (mourn rules resolve card) := by
  intro m hm
  refine .get_bind ?_
  split
  · exact .pure ()
  · exact raiseTransition_along h hres _ _ card m hm

theorem killFor_along (reason : DestructionReason) (card : LiveId) :
    Along P r F (killFor rules resolve reason card) := by
  intro m hm
  cases hfree : m.destructions.contains card with
  | true => exact .of_run (y := pure ()) (killFor_spared (.inl hfree) reason) .refl (.pure ())
  | false =>
      cases hlive : m.table.live? card with
      | none => exact .of_run (y := pure ()) (killFor_spared (.inr hlive) reason) .refl (.pure ())
      | some live =>
          have hmove : Change rules scope m _ := .condemn reason hlive hfree
          exact .of_run (killFor_run hlive hfree reason) (.single (h.move hm hmove))
            (mourn_along h hres card _ (h.after hm hmove))

theorem createToken_along (hallowed : scope.creates = true) {owner : PlayerId} {name : String}
    (hname : (rules.catalog.cardNamed? name).isSome ∨ F (.unknownCardName name))
    (hroom : owner ∈ ids ∧ rules.catalog.kind? rules.config.boardZone = some .dynamic ∨
      F (.unknownZone owner rules.config.boardZone)) :
    Along P r F (createToken rules resolve owner name) := by
  unfold createToken
  split
  · next hnone => exact fun _ _ => .throw (hname.resolve_left (by simp [hnone]))
  · next design hdesign =>
      obtain ⟨cardType, typed, -⟩ := h.coherent.typed?_of_mem (Catalog.cardNamed?_mem hdesign)
      refine enterZone_along h hres hallowed (.inl ?_) hroom
      rw [(Catalog.typed?_eq_some_iff.mp typed).1]
      rfl

end

/-! ### Along changes -/

section

variable (hc : rules.catalog.Coherent) (hres : Resolves rules scope F ids resolve)

include hc hres

theorem enterZone_walks (hallowed : scope.creates = true) {owner : PlayerId} {design : CardId}
    {zone : String} (hdesign : (rules.catalog.card? design).isSome ∨ F (.unknownCard design))
    (hroom : owner ∈ ids ∧ rules.catalog.kind? zone = some .dynamic ∨
      F (.unknownZone owner zone)) :
    Walks rules scope F ids (enterZone rules resolve owner design zone) :=
  enterZone_along (follows_changes hc) hres hallowed hdesign hroom

theorem mourn_walks (card : LiveId) : Walks rules scope F ids (mourn rules resolve card) :=
  mourn_along (follows_changes hc) hres card

theorem kill_walks (card : LiveId) : Walks rules scope F ids (kill rules resolve card) :=
  killFor_along (follows_changes hc) hres .killed card

theorem createToken_walks (hallowed : scope.creates = true) {owner : PlayerId} {name : String}
    (hname : (rules.catalog.cardNamed? name).isSome ∨ F (.unknownCardName name))
    (hroom : owner ∈ ids ∧ rules.catalog.kind? rules.config.boardZone = some .dynamic ∨
      F (.unknownZone owner rules.config.boardZone)) :
    Walks rules scope F ids (createToken rules resolve owner name) :=
  createToken_along (follows_changes hc) hres hallowed hname hroom


theorem transform_walks {card : LiveId} (hallowed : scope.transforms card = true)
    (hfades : scope.fades = true ∨ rules.catalog.LeavesUnheard) {into : String}
    (hinto : (rules.catalog.cardNamed? into).isSome ∨ F (.unknownCardName into)) :
    Walks rules scope F ids (transform rules resolve card into) := by
  intro m hm
  cases hlocated : m.table.locate? card with
  | none => exact .of_run (y := pure none) (transform_nowhere hlocated into) .refl (.pure none)
  | some place =>
      obtain ⟨owner, zone⟩ := place
      obtain ⟨howner, hkind⟩ := hm.locate? hc hlocated
      cases hnamed : rules.catalog.cardNamed? into with
      | none =>
          exact .of_run (y := throw _) (transform_unknown hlocated hnamed) .refl
            (.throw (hinto.resolve_left (by simp [hnamed])))
      | some design =>
          obtain ⟨cardType, typed, htype⟩ := hc.typed?_of_mem (Catalog.cardNamed?_mem hnamed)
          -- What is left once nobody has anything to hear of the old card any more.
          have hsupplant : ∀ m, m.Fits rules.catalog ids →
              Leads (Change rules scope) F
                (some <$> welcome rules resolve zone (m.spawner.spawn design.id owner).1)
                (m.replace card owner zone design cardType) ∧
              Change rules scope m (m.replace card owner zone design cardType) := by
            intro m hm
            have hreplace : Change rules scope m (m.replace card owner zone design cardType) :=
              .replace hallowed typed ((hm.kind howner zone).trans hkind)
            exact ⟨(welcome_walks hc hres zone _ _ (hreplace.fits hc hm)).map some, hreplace⟩
          rcases hfades with hfades | hunheard
          · have hfade : Change rules scope m _ := .fade hfades hallowed
            have hm₁ := hfade.fits hc hm
            have hleave : Walks rules scope F ids
                (raiseTransition rules resolve .leave zone card) := raiseTransition_walks hc hres _ _ card
            refine .of_run (transform_run hlocated hnamed htype) (.single hfade) ?_
            refine (hleave _ hm₁).bind ?_
            intro _ m₂ h
            obtain ⟨hwelcome, hreplace⟩ := hsupplant m₂ (hleave.after (kept_fits hc) hm₁ h)
            exact .of_run (supplant_run ..) (.single hreplace) hwelcome
          · obtain ⟨hwelcome, hreplace⟩ := hsupplant m hm
            refine .of_run ?_ (.single hreplace) hwelcome
            rw [transform_run hlocated hnamed htype, run_bind_ok (raiseTransition_unheard hunheard ..),
              supplant_run, Match.replace_fade]
            rfl

end

end CardArena
