import Mathlib
import CardArena.Proofs.Keyed
import CardArena.Table

/-!
# Where the cards of a table are

A table changes one zone at a time, and `Table.modifyZone` says so by mapping over every player and
every zone.  The laws here turn that around: with seats and zone names distinct (`Table.Distinct`)
the change touches one place in one list.

`Table.gather f` lists what `f` finds in the zones, each entry with the player it is found with, so
that `gather Zone.live` is where the cards in play are listed and `gather Zone.cards` is who holds
which design outside play.  `gather_modifyZone` is the law the other laws of this module come from:
before and after, the list is the same but for the entries of the one zone.
-/

namespace CardArena

/-! ## Zones -/

/-- What is taken from the top of a pile goes on top of what is left. -/
theorem Pile.popCard?_eq_some {pile rest : Pile} {card : CardId}
    (h : pile.popCard? = some (card, rest)) :
    ∃ cards, pile = .static (cards ++ [card]) ∧ rest = .static cards := by
  cases pile with
  | static cards =>
      cases hlast : cards.getLast? with
      | none => simp [popCard?, hlast] at h
      | some top =>
          simp only [popCard?, hlast, Option.map_some, Option.some.injEq, Prod.mk.injEq] at h
          obtain ⟨rfl, rfl⟩ := h
          exact ⟨cards.dropLast, by rw [List.dropLast_append_getLast? _ hlast], rfl⟩
  | dynamic cards => cases h

namespace Zone

/-- What the catalog says about the zone. -/
def layout (z : Zone) : ZoneLayout :=
  ⟨z.name, z.isPrivate, z.kind⟩

@[simp]
theorem layout_ofLayout (l : ZoneLayout) : (ofLayout l).layout = l := by
  cases l with
  | mk name isPrivate kind => cases kind <;> rfl

theorem layout_update {z : Zone} {change : Pile → Option Pile}
    (h : ∀ pile, change z.pile = some pile → pile.kind = z.pile.kind) :
    (z.update change).layout = z.layout := by
  cases hc : change z.pile with
  | none => simp [update, layout, kind, hc]
  | some pile => simp [update, layout, kind, hc, h pile hc]

@[simp]
theorem layout_pushCard (z : Zone) (card : CardId) : (z.pushCard card).layout = z.layout :=
  layout_update fun pile h => by
    cases hz : z.pile <;> simp [hz, Pile.pushCard?] at h ⊢
    rw [← h]; rfl

@[simp]
theorem layout_pushLive (z : Zone) (card : LiveId) : (z.pushLive card).layout = z.layout :=
  layout_update fun pile h => by
    cases hz : z.pile <;> simp [hz, Pile.pushLive?] at h ⊢
    rw [← h]; rfl

@[simp]
theorem layout_removeCard (z : Zone) (card : CardId) : (z.removeCard card).layout = z.layout :=
  layout_update fun pile h => by
    cases hz : z.pile <;> simp [hz, Pile.removeCard?] at h ⊢
    rw [← h.2]; rfl

@[simp]
theorem layout_removeLive (z : Zone) (card : LiveId) : (z.removeLive card).layout = z.layout :=
  layout_update fun pile h => by
    cases hz : z.pile <;> simp [hz, Pile.removeLive?] at h ⊢
    rw [← h.2]; rfl

@[simp]
theorem layout_swapLive (z : Zone) (old new : LiveId) : (z.swapLive old new).layout = z.layout :=
  layout_update fun pile h => by
    cases hz : z.pile with
    | static cards => simp [hz, Pile.pushLive?, Pile.replaceLive?] at h
    | dynamic cards =>
        by_cases ho : old ∈ cards <;> simp [hz, ho, Pile.pushLive?, Pile.replaceLive?] at h <;>
          rw [← h] <;> rfl

theorem size_eq (z : Zone) : z.size = z.cards.length + z.live.length := by
  obtain ⟨name, isPrivate, cards | live⟩ := z
  · exact (Nat.add_zero _).symm
  · exact (Nat.zero_add _).symm

theorem kind_of_mem_live {z : Zone} {card : LiveId} (h : card ∈ z.live) : z.kind = .dynamic := by
  obtain ⟨name, isPrivate, pile⟩ := z
  cases pile with
  | static cards => cases h
  | dynamic cards => rfl

@[simp]
theorem live_pushCard (z : Zone) (card : CardId) : (z.pushCard card).live = z.live := by
  obtain ⟨name, isPrivate, _ | _⟩ := z <;> rfl

@[simp]
theorem cards_pushLive (z : Zone) (card : LiveId) : (z.pushLive card).cards = z.cards := by
  obtain ⟨name, isPrivate, _ | _⟩ := z <;> rfl

theorem cards_pushCard {z : Zone} (h : z.kind = .static) (card : CardId) :
    (z.pushCard card).cards = z.cards ++ [card] := by
  obtain ⟨name, isPrivate, held | held⟩ := z
  · rfl
  · cases h

theorem live_pushLive {z : Zone} (h : z.kind = .dynamic) (card : LiveId) :
    (z.pushLive card).live = z.live ++ [card] := by
  obtain ⟨name, isPrivate, held | held⟩ := z
  · cases h
  · rfl

/-- A design pushed onto a zone that cannot take it is not there. -/
theorem mem_cards_pushCard {z : Zone} {card other : CardId} (h : other ∈ (z.pushCard card).cards) :
    other ∈ z.cards ∨ other = card := by
  obtain ⟨name, isPrivate, held | held⟩ := z
  · exact (List.mem_append.mp h).imp_right List.mem_singleton.mp
  · cases h

@[simp]
theorem live_removeCard (z : Zone) (card : CardId) : (z.removeCard card).live = z.live := by
  obtain ⟨name, isPrivate, cards | cards⟩ := z
  · by_cases h : card ∈ cards <;> simp [removeCard, update, live, Pile.removeCard?, h, Pile.live]
  · rfl

@[simp]
theorem cards_removeCard (z : Zone) (card : CardId) :
    (z.removeCard card).cards = z.cards.erase card := by
  obtain ⟨name, isPrivate, held | held⟩ := z
  · by_cases h : card ∈ held <;>
      simp [removeCard, update, cards, Pile.removeCard?, h, Pile.cards, List.erase_of_not_mem]
  · rfl

@[simp]
theorem cards_removeLive (z : Zone) (card : LiveId) : (z.removeLive card).cards = z.cards := by
  obtain ⟨name, isPrivate, held | held⟩ := z
  · rfl
  · by_cases h : card ∈ held <;> simp [removeLive, update, cards, Pile.removeLive?, h, Pile.cards]

@[simp]
theorem live_removeLive (z : Zone) (card : LiveId) :
    (z.removeLive card).live = z.live.erase card := by
  obtain ⟨name, isPrivate, held | held⟩ := z
  · rfl
  · by_cases h : card ∈ held <;>
      simp [removeLive, update, live, Pile.removeLive?, h, Pile.live, List.erase_of_not_mem]

@[simp]
theorem cards_swapLive (z : Zone) (old new : LiveId) : (z.swapLive old new).cards = z.cards := by
  obtain ⟨name, isPrivate, held | held⟩ := z
  · rfl
  · by_cases h : old ∈ held <;>
      simp [swapLive, update, cards, Pile.replaceLive?, Pile.pushLive?, h, Pile.cards]

theorem live_swapLive {z : Zone} (h : z.kind = .dynamic) (old new : LiveId) :
    (z.swapLive old new).live =
      if old ∈ z.live then z.live.replace old new else z.live ++ [new] := by
  obtain ⟨name, isPrivate, held | held⟩ := z
  · cases h
  · by_cases ho : old ∈ held <;>
      simp [swapLive, update, live, Pile.replaceLive?, Pile.pushLive?, ho, Pile.live]

end Zone

/-! ## The store of cards in play -/

namespace Roster

variable {r : Roster}

theorem get?_eq_some_iff {id : LiveId} {card : LiveCard} :
    r.get? id = some card ↔ card ∈ r.cards ∧ card.id = id := by
  constructor
  · intro h
    exact ⟨List.mem_of_find?_eq_some h, by simpa using List.find?_some h⟩
  · rintro ⟨hmem, rfl⟩
    exact find?_eq_some_of_nodup r.distinct hmem

theorem get?_eq_none_iff {id : LiveId} : r.get? id = none ↔ ∀ card ∈ r.cards, card.id ≠ id := by
  simp [get?]

theorem mem_insert {card other : LiveCard} :
    other ∈ (r.insert card).cards ↔ other = card ∨ other ∈ r.cards ∧ other.id ≠ card.id := by
  simp [insert, erase, List.mem_filter]

theorem cards_erase_of_get?_eq_none {id : LiveId} (h : r.get? id = none) :
    (r.erase id).cards = r.cards :=
  List.filter_eq_self.mpr fun card hcard => by simpa using get?_eq_none_iff.mp h card hcard

theorem cards_insert_of_get?_eq_none {card : LiveCard} (h : r.get? card.id = none) :
    (r.insert card).cards = card :: r.cards :=
  congrArg (card :: ·) (cards_erase_of_get?_eq_none h)

theorem mem_erase {id : LiveId} {other : LiveCard} :
    other ∈ (r.erase id).cards ↔ other ∈ r.cards ∧ other.id ≠ id := by
  simp [erase, List.mem_filter]

theorem ext_cards {s : Roster} (h : r.cards = s.cards) : r = s := by
  cases r
  cases s
  cases h
  rfl

/-- To change a card makes no difference once it is gone. -/
theorem erase_modify (r : Roster) (id : LiveId) (change : LiveCard → LiveCard) :
    (r.modify id change).erase id = r.erase id := by
  refine ext_cards ?_
  simp only [erase, modify]
  generalize r.cards = cards
  induction cards with
  | nil => rfl
  | cons card rest ih =>
      by_cases h : card.id = id
      · simpa [h] using ih
      · simpa [h] using ih

theorem erase_insert (r : Roster) (id : LiveId) (card : LiveCard) :
    (r.insert card).erase id = if card.id = id then r.erase id else (r.erase id).insert card := by
  refine ext_cards ?_
  by_cases h : card.id = id
  · rw [if_pos h]
    simp [erase, insert, h]
  · rw [if_neg h]
    simp [erase, insert, h, Bool.and_comm]

theorem mem_modify {id : LiveId} {change : LiveCard → LiveCard} {other : LiveCard}
    (h : other ∈ (r.modify id change).cards) :
    other ∈ r.cards ∨ ∃ card ∈ r.cards, card.id = id ∧ other = { change card with id := id } := by
  obtain ⟨card, hcard, rfl⟩ := List.mem_map.mp h
  by_cases hid : card.id = id
  · exact .inr ⟨card, hcard, hid, if_pos hid⟩
  · exact .inl ((if_neg hid).symm ▸ hcard)

@[simp]
theorem get?_insert (card : LiveCard) (id : LiveId) :
    (r.insert card).get? id = if id = card.id then some card else r.get? id := by
  by_cases h : id = card.id
  · rw [if_pos h, get?_eq_some_iff]
    exact ⟨mem_insert.mpr (.inl rfl), h.symm⟩
  · rw [if_neg h]
    refine Option.ext ?_
    intro other
    rw [get?_eq_some_iff, get?_eq_some_iff, mem_insert]
    constructor
    · rintro ⟨rfl | ⟨hmem, -⟩, hid⟩
      · exact absurd hid.symm h
      · exact ⟨hmem, hid⟩
    · rintro ⟨hmem, hid⟩
      exact ⟨.inr ⟨hmem, hid ▸ h⟩, hid⟩

@[simp]
theorem get?_erase (id other : LiveId) :
    (r.erase id).get? other = if other = id then none else r.get? other := by
  by_cases h : other = id
  · rw [if_pos h, get?_eq_none_iff]
    intro card hcard
    exact h ▸ (mem_erase.mp hcard).2
  · rw [if_neg h]
    refine Option.ext ?_
    intro card
    rw [get?_eq_some_iff, get?_eq_some_iff, mem_erase]
    exact ⟨fun ⟨⟨hmem, _⟩, hid⟩ => ⟨hmem, hid⟩, fun ⟨hmem, hid⟩ => ⟨⟨hmem, hid ▸ h⟩, hid⟩⟩

@[simp]
theorem get?_modify (id other : LiveId) (change : LiveCard → LiveCard) :
    (r.modify id change).get? other =
      if other = id then (r.get? id).map fun card => { change card with id := id }
      else r.get? other := by
  have hfind : ∀ cards : List LiveCard,
      (cards.map fun card => if card.id = id then { change card with id := id } else card).find?
          (·.id = other)
        = if other = id then (cards.find? (·.id = id)).map fun card => { change card with id := id }
          else cards.find? (·.id = other) := by
    intro cards
    induction cards with
    | nil => simp
    | cons card rest ih =>
        rw [List.map_cons]
        by_cases hc : card.id = id
        · by_cases ho : other = id
          · simp [hc, ho]
          · have hne : ¬ id = other := fun e => ho e.symm
            simp only [if_pos hc, if_neg ho] at ih ⊢
            rw [List.find?_cons_of_neg (by simpa using hne), ih,
              List.find?_cons_of_neg (by simpa [hc] using hne)]
        · by_cases ho : card.id = other
          · have hne : ¬ other = id := fun e => hc (ho.trans e)
            simp [ho, hne]
          · rw [if_neg hc, List.find?_cons_of_neg (by simpa using ho), ih]
            simp [hc, ho]
  exact hfind r.cards

end Roster

/-! ## Players -/

namespace Player

/-- The designs that a player holds outside play, zone by zone. -/
def cards (p : Player) : List CardId :=
  p.zones.flatMap Zone.cards

theorem mem_of_zone? {p : Player} {name : String} {z : Zone} (h : p.zone? name = some z) :
    z ∈ p.zones ∧ z.name = name :=
  ⟨List.mem_of_find?_eq_some h, by simpa using List.find?_some h⟩

theorem mem_modifyZone {p : Player} {name : String} {change : Zone → Zone} {z : Zone}
    (h : z ∈ (p.modifyZone name change).zones) :
    z ∈ p.zones ∨ ∃ old ∈ p.zones, old.name = name ∧ z = change old := by
  obtain ⟨old, hold, rfl⟩ := List.mem_map.mp h
  by_cases hn : old.name = name
  · exact .inr ⟨old, hold, hn, if_pos hn⟩
  · exact .inl ((if_neg hn).symm ▸ hold)

end Player

/-! ## Tables -/

namespace Table

/-- No two players share a seat, and no player has two zones of one name. -/
structure Distinct (t : Table) : Prop where
  seats : t.playerIds.Nodup
  zones : ∀ seat ∈ t.players, (seat.zones.map Zone.name).Nodup

variable {t : Table}

theorem mem_of_player? {id : PlayerId} {seat : Player} (h : t.player? id = some seat) :
    seat ∈ t.players ∧ seat.id = id :=
  ⟨List.mem_of_find?_eq_some h, by simpa using List.find?_some h⟩

theorem zone?_eq (id : PlayerId) (name : String) :
    t.zone? id name = (t.player? id).bind (·.zone? name) := rfl

theorem exists_of_zone? {id : PlayerId} {name : String} {z : Zone}
    (h : t.zone? id name = some z) : ∃ seat, t.player? id = some seat ∧ seat.zone? name = some z := by
  rw [zone?_eq] at h
  exact Option.bind_eq_some_iff.mp h

theorem Distinct.player? (h : t.Distinct) {seat : Player} (hseat : seat ∈ t.players) :
    t.player? seat.id = some seat :=
  find?_eq_some_of_nodup h.seats hseat

theorem Distinct.zone? (h : t.Distinct) {seat : Player} {z : Zone} (hseat : seat ∈ t.players)
    (hz : z ∈ seat.zones) : t.zone? seat.id z.name = some z := by
  rw [zone?_eq, h.player? hseat]
  exact find?_eq_some_of_nodup (h.zones seat hseat) hz

/-- A member of the changed table's players was there before, or is the one player changed. -/
theorem player?_modifyPlayer (id : PlayerId) {change : Player → Player}
    (hid : ∀ seat, (change seat).id = seat.id) (other : PlayerId) :
    (t.modifyPlayer id change).player? other
      = (t.player? other).map fun seat => if seat.id = id then change seat else seat := by
  rw [player?, modifyPlayer, List.find?_map]
  congr 2
  funext seat
  by_cases h : seat.id = id <;> simp [h, hid]

/-- A zone is found where it was when a zone has changed. -/
theorem zone?_modifyZone (id : PlayerId) (name : String) {change : Zone → Zone}
    (hname : ∀ z, (change z).name = z.name) (other : PlayerId) (name' : String) :
    (t.modifyZone id name change).zone? other name' = (t.zone? other name').map fun z =>
      if other = id ∧ name' = name then change z else z := by
  have hfound := @player?_modifyPlayer t id (·.modifyZone name change) (fun _ => rfl) other
  rw [zone?_eq, zone?_eq, modifyZone, hfound]
  cases hseat : t.player? other with
  | none => rfl
  | some seat =>
      obtain ⟨-, rfl⟩ := mem_of_player? hseat
      have hzone : (seat.modifyZone name change).zone? name'
          = (seat.zone? name').map fun z => if z.name = name then change z else z := by
        rw [Player.zone?, Player.modifyZone, List.find?_map]
        congr 2
        funext z
        by_cases h : z.name = name <;> simp [h, hname]
      show ((if seat.id = id then _ else seat).zone? name') = (seat.zone? name').map _
      cases hz : seat.zone? name' with
      | none =>
          rw [hz] at hzone
          split <;> assumption
      | some z =>
          obtain ⟨-, rfl⟩ := Player.mem_of_zone? hz
          rw [hz, Option.map_some] at hzone
          by_cases h : seat.id = id
          · rw [if_pos h, hzone]
            simp [h]
          · rw [if_neg h, hz]
            simp [h]

theorem player?_removeLive (card : LiveId) (id : PlayerId) :
    (t.removeLive card).player? id = (t.player? id).map (·.forget card) :=
  List.find?_map ..

theorem zone?_removeLive (card : LiveId) (id : PlayerId) (name : String) :
    (t.removeLive card).zone? id name = (t.zone? id name).map (·.removeLive card) := by
  rw [zone?_eq, zone?_eq, player?_removeLive]
  cases t.player? id with
  | none => rfl
  | some seat => exact List.find?_map ..

theorem mem_modifyPlayer {id : PlayerId} {change : Player → Player} {seat : Player}
    (h : seat ∈ (t.modifyPlayer id change).players) :
    seat ∈ t.players ∨ ∃ old ∈ t.players, old.id = id ∧ seat = change old := by
  obtain ⟨old, hold, rfl⟩ := List.mem_map.mp h
  by_cases hn : old.id = id
  · exact .inr ⟨old, hold, hn, if_pos hn⟩
  · exact .inl ((if_neg hn).symm ▸ hold)

@[simp]
theorem playerIds_modifyPlayer (id : PlayerId) {change : Player → Player}
    (hid : ∀ seat, (change seat).id = seat.id) :
    (t.modifyPlayer id change).playerIds = t.playerIds := by
  rw [playerIds, modifyPlayer, List.map_map]
  refine List.map_congr_left ?_
  intro seat _
  by_cases hs : seat.id = id <;> simp [hs, hid]

@[simp]
theorem playerIds_modifyZone (id : PlayerId) (name : String) (change : Zone → Zone) :
    (t.modifyZone id name change).playerIds = t.playerIds :=
  playerIds_modifyPlayer id fun _ => rfl

@[simp]
theorem playerIds_removeLive (id : LiveId) : (t.removeLive id).playerIds = t.playerIds := by
  simp [playerIds, removeLive, Player.forget, Function.comp_def]

/-- What is not in the zones of a player stays when a zone changes. -/
theorem map_players_modifyZone {α : Type} {f : Player → α}
    (hf : ∀ (seat : Player) zones, f { seat with zones } = f seat) (id : PlayerId) (name : String)
    (change : Zone → Zone) :
    (t.modifyZone id name change).players.map f = t.players.map f := by
  rw [modifyZone, modifyPlayer, List.map_map]
  refine List.map_congr_left ?_
  intro seat _
  rw [Function.comp_apply]
  split
  · exact hf seat _
  · rfl

/-- A change to a zone that is not there changes nothing. -/
theorem Distinct.modifyZone_of_none (h : t.Distinct) {id : PlayerId} {name : String}
    (hz : t.zone? id name = none) (change : Zone → Zone) : t.modifyZone id name change = t := by
  rw [zone?_eq] at hz
  cases hp : t.player? id with
  | none =>
      simp only [modifyZone, modifyPlayer, map_if_of_find?_eq_none (f := Player.id) hp]
  | some seat =>
      rw [hp] at hz
      obtain ⟨ps, qs, hsplit, hchange⟩ := exists_split_of_find? (f := Player.id) h.seats hp
      have hsame : seat.modifyZone name change = seat := by
        simp only [Player.modifyZone, map_if_of_find?_eq_none (f := Zone.name) hz]
      simp only [modifyZone, modifyPlayer, hchange, hsame, ← hsplit]

/-- A change to a zone that leaves it as it is changes nothing. -/
theorem Distinct.modifyZone_fixed (h : t.Distinct) {id : PlayerId} {name : String} {z : Zone}
    (hz : t.zone? id name = some z) {change : Zone → Zone} (hfixed : change z = z) :
    t.modifyZone id name change = t := by
  have hseats : ∀ seat ∈ t.players,
      (if seat.id = id then seat.modifyZone name change else seat) = seat := by
    intro seat hseat
    split
    · next hid =>
        have hzones : ∀ other ∈ seat.zones,
            (if other.name = name then change other else other) = other := by
          intro other hother
          split
          · next hname =>
              subst hid hname
              obtain rfl : z = other := Option.some.inj (hz.symm.trans (h.zone? hseat hother))
              exact hfixed
          · rfl
        rw [Player.modifyZone, List.map_congr_left hzones, List.map_id']
    · rfl
  rw [modifyZone, modifyPlayer, List.map_congr_left hseats, List.map_id']

/-- A zone that changes twice changes by both. -/
theorem modifyZone_modifyZone (id : PlayerId) (name : String) {f g : Zone → Zone}
    (hname : ∀ z, (f z).name = z.name) :
    (t.modifyZone id name f).modifyZone id name g = t.modifyZone id name (g ∘ f) := by
  have hzone : ∀ z : Zone,
      (if (if z.name = name then f z else z).name = name
        then g (if z.name = name then f z else z) else (if z.name = name then f z else z))
        = if z.name = name then (g ∘ f) z else z := by
    intro z
    by_cases h : z.name = name <;> simp [h, hname]
  simp only [modifyZone, modifyPlayer, List.map_map]
  congr 1
  refine List.map_congr_left ?_
  intro seat _
  by_cases h : seat.id = id
  · simp only [Function.comp_apply, if_pos h, Player.modifyZone, List.map_map]
    congr 1
    exact List.map_congr_left fun z _ => hzone z
  · simp only [Function.comp_apply, if_neg h]

/-- What `f` finds in the zones, each entry with the player it is found with. -/
def gather {α : Type} (f : Zone → List α) (t : Table) : List (PlayerId × α) :=
  t.players.flatMap fun seat => (seat.zones.flatMap f).map (seat.id, ·)

/-- Before and after a change to a zone the lists agree but for the entries of that zone. -/
theorem Distinct.gather_modifyZone {α : Type} (h : t.Distinct) {id : PlayerId} {name : String}
    {z : Zone} (hz : t.zone? id name = some z) (f : Zone → List α) :
    ∃ before after : List (PlayerId × α),
      t.gather f = before ++ (f z).map (id, ·) ++ after ∧
      ∀ change : Zone → Zone,
        (t.modifyZone id name change).gather f
          = before ++ (f (change z)).map (id, ·) ++ after := by
  obtain ⟨seat, hseat, hzone⟩ := exists_of_zone? hz
  obtain ⟨hmem, rfl⟩ := mem_of_player? hseat
  obtain ⟨ps, qs, hplayers, hplayers'⟩ := exists_split_of_find? (f := Player.id) h.seats hseat
  obtain ⟨zs, ws, hzones, hzones'⟩ :=
    exists_split_of_find? (f := Zone.name) (h.zones seat hmem) hzone
  refine ⟨ps.flatMap (fun p => (p.zones.flatMap f).map (p.id, ·)) ++
      (zs.flatMap f).map (seat.id, ·),
    (ws.flatMap f).map (seat.id, ·) ++ qs.flatMap (fun p => (p.zones.flatMap f).map (p.id, ·)),
    ?_, fun change => ?_⟩
  · simp only [gather, hplayers, List.flatMap_append, List.flatMap_cons]
    simp only [hzones, List.flatMap_append, List.flatMap_cons, List.map_append, List.append_assoc]
  · simp only [gather, modifyZone, modifyPlayer, hplayers', List.flatMap_append, List.flatMap_cons]
    simp only [Player.modifyZone, hzones', List.flatMap_append, List.flatMap_cons, List.map_append,
      List.append_assoc]

/-- What a change to a zone takes out of the zone and puts into it, it takes out of the list and
puts into it. -/
theorem Distinct.gather_perm {α : Type} [DecidableEq α] (h : t.Distinct) {id : PlayerId}
    {name : String} {z : Zone} (hz : t.zone? id name = some z) (f : Zone → List α)
    {g : Zone → Zone} {taken put : List α} (hperm : (taken ++ f (g z)).Perm (put ++ f z)) :
    (taken.map (id, ·) ++ (t.modifyZone id name g).gather f).Perm
      (put.map (id, ·) ++ t.gather f) := by
  obtain ⟨before, after, hold, hnew⟩ := h.gather_modifyZone hz f
  have hmap := hperm.map (id, ·)
  rw [hold, hnew]
  simp only [List.perm_iff_count, List.map_append, List.count_append] at hmap ⊢
  intro a
  have := hmap a
  omega

/-- A change to a zone that keeps what `f` finds there keeps the list. -/
theorem Distinct.gather_keep {α : Type} [DecidableEq α] (h : t.Distinct) {id : PlayerId}
    {name : String} (f : Zone → List α) {change : Zone → Zone}
    (hkeep : ∀ z, t.zone? id name = some z → (f (change z)).Perm (f z)) :
    ((t.modifyZone id name change).gather f).Perm (t.gather f) := by
  cases hz : t.zone? id name with
  | none => rw [h.modifyZone_of_none hz]
  | some z =>
      have hperm : ([] ++ f (change z)).Perm ([] ++ f z) := hkeep z hz
      exact h.gather_perm hz f hperm

/-- Changes to a player that keep seat and zones keep the list. -/
theorem gather_modifyPlayer {α : Type} (f : Zone → List α) (id : PlayerId)
    {change : Player → Player} (hid : ∀ seat, (change seat).id = seat.id)
    (hzones : ∀ seat, (change seat).zones = seat.zones) :
    (t.modifyPlayer id change).gather f = t.gather f := by
  rw [gather, modifyPlayer, List.flatMap_map]
  refine List.flatMap_congr ?_
  intro seat _
  split_ifs <;> simp [hid, hzones]

theorem mem_gather {α : Type} {f : Zone → List α} {id : PlayerId} {a : α} :
    (id, a) ∈ t.gather f ↔ ∃ seat ∈ t.players, seat.id = id ∧ ∃ z ∈ seat.zones, a ∈ f z := by
  simp only [gather, List.mem_flatMap, List.mem_map, Prod.mk.injEq]
  constructor
  · rintro ⟨seat, hseat, b, ⟨z, hz, hb⟩, rfl, rfl⟩
    exact ⟨seat, hseat, rfl, z, hz, hb⟩
  · rintro ⟨seat, hseat, rfl, z, hz, ha⟩
    exact ⟨seat, hseat, a, ⟨z, hz, ha⟩, rfl, rfl⟩

theorem gather_filter {α : Type} (f : Zone → List α) (p : α → Bool) :
    t.gather (fun z => (f z).filter p) = (t.gather f).filter (p ·.2) := by
  simp only [gather, List.filter_flatMap, List.filter_map]
  rfl

theorem map_snd_gather {α : Type} (f : Zone → List α) :
    (t.gather f).map Prod.snd = t.players.flatMap fun seat => seat.zones.flatMap f := by
  simp [gather, List.map_flatMap, Function.comp_def]

/-- While no handle is listed twice, to take a card off the table is to drop its entry. -/
theorem gather_removeLive {card : LiveId} (h : t.liveInOrder.Nodup) :
    (t.removeLive card).gather Zone.live = (t.gather Zone.live).filter (·.2 ≠ card) := by
  have hnd : ∀ seat ∈ t.players, ∀ z ∈ seat.zones, z.live.Nodup := by
    intro seat hseat z hz
    exact (List.nodup_flatMap.mp ((List.nodup_flatMap.mp h).1 seat hseat)).1 z hz
  rw [← gather_filter Zone.live (· ≠ card), gather, gather, removeLive, List.flatMap_map]
  refine List.flatMap_congr ?_
  intro seat hseat
  rw [Player.forget, List.flatMap_map]
  refine congrArg (List.map _) (List.flatMap_congr fun z hz => ?_)
  rw [Zone.live_removeLive, (hnd seat hseat z hz).erase_eq_filter]
  exact List.filter_congr fun id _ => by rw [bne, beq_eq_decide, ← decide_not]

end Table

end CardArena
