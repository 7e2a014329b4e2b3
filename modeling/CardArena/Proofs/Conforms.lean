import Mathlib
import CardArena.Match.Basic
import CardArena.Proofs.Catalog
import CardArena.Proofs.Table

/-!
# Matches that fit their catalog

`Match.Conforms c m` says that `m` is a match of the game `c`: seats are numbered in order, every
player has the zones and the attributes of the catalog, every design outside and inside play is a
design of the catalog, every card in play has the attributes of its type and a seated owner, and
every effect that waits is an effect of the catalog.

None of this depends on where a cascade stands, so it holds between any two changes to a match; the
laws here say so for each way in which a table changes.
-/

namespace CardArena

variable {c : Catalog}

/-- A player with the zones and the attributes of the catalog, who holds designs of the catalog. -/
structure Player.Conforms (c : Catalog) (p : Player) : Prop where
  layout : p.zones.map Zone.layout = c.zones
  known : ∀ zone ∈ p.zones, ∀ card ∈ zone.cards, (c.card? card).isSome
  attributes : ∀ attr, (p.attributes.get? attr).isSome ↔
    attr ∈ c.playerAttributes.map PlayerAttribute.name

/-- A card in play of a design of the catalog, with the attributes of its type. -/
def LiveCard.Conforms (c : Catalog) (card : LiveCard) : Prop :=
  ∃ design cardType, c.typed? card.card = some (design, cardType) ∧
    ∀ attr, (card.attributes.get? attr).isSome = (cardType.attributes.get? attr).isSome

/-- A table with seats in order, whose players and cards fit the catalog. -/
structure Table.Conforms (c : Catalog) (t : Table) : Prop where
  seats : t.players.map (·.id.index.toNat) = List.range t.players.length
  players : ∀ seat ∈ t.players, seat.Conforms c
  roster : ∀ card ∈ t.roster.cards, card.Conforms c
  owners : ∀ card ∈ t.roster.cards, card.owner ∈ t.playerIds

/-- The effects that wait are effects of the catalog. -/
structure Session.Conforms (c : Catalog) (s : Session) : Prop where
  pending : ∀ selection, s.pending = some selection → c.Carries selection.effect
  queue : ∀ firing ∈ s.queue, c.Carries firing.effect

/-- A match of the game of the catalog. -/
structure Match.Conforms (c : Catalog) (m : Match) : Prop where
  table : m.table.Conforms c
  session : m.session.Conforms c

/-! ## Players -/

namespace Player.Conforms

variable {p : Player}

/-- A player finds the zones that the catalog has, of the kinds that it gives them. -/
theorem zone?_layout (h : p.Conforms c) (name : String) :
    (p.zone? name).map Zone.layout = c.zone? name := by
  rw [Catalog.zone?, ← h.layout, List.find?_map]
  rfl

theorem distinct (h : p.Conforms c) (hc : c.Coherent) : (p.zones.map Zone.name).Nodup := by
  have hnames : p.zones.map Zone.name = c.zones.map ZoneLayout.name := by
    rw [← h.layout, List.map_map]
    rfl
  exact hnames ▸ hc.zones

theorem modifyZone (h : p.Conforms c) {name : String} {change : Zone → Zone}
    (hlayout : ∀ z ∈ p.zones, z.name = name → (change z).layout = z.layout)
    (hknown : ∀ z ∈ p.zones, z.name = name → ∀ card ∈ (change z).cards, (c.card? card).isSome) :
    (p.modifyZone name change).Conforms c := by
  refine ⟨?_, fun z hz => ?_, h.attributes⟩
  · rw [← h.layout, Player.modifyZone, List.map_map]
    refine List.map_congr_left ?_
    intro z hz
    by_cases hn : z.name = name
    · simp [hn, hlayout z hz hn]
    · simp [hn]
  · rcases Player.mem_modifyZone hz with hold | ⟨old, hold, hn, rfl⟩
    · exact h.known z hold
    · exact hknown old hold hn

/-- Zones with the same layouts and the same designs fit as well. -/
theorem of_zones (h : p.Conforms c) {g : Zone → Zone} (hlayout : ∀ z, (g z).layout = z.layout)
    (hcards : ∀ z, (g z).cards = z.cards) :
    ({ p with zones := p.zones.map g } : Player).Conforms c := by
  refine ⟨?_, fun z hz => ?_, h.attributes⟩
  · rw [← h.layout, List.map_map]
    exact List.map_congr_left fun z _ => hlayout z
  · obtain ⟨old, hold, rfl⟩ := List.mem_map.mp hz
    rw [hcards]
    exact h.known old hold

theorem forget (h : p.Conforms c) (card : LiveId) : (p.forget card).Conforms c := by
  have hz := h.of_zones (g := (·.removeLive card)) (by simp) (by simp)
  exact ⟨hz.layout, hz.known, hz.attributes⟩

theorem setAttribute (h : p.Conforms c) {attr : String} {old : Amount}
    (hattr : p.attributes.get? attr = some old) (value : Amount) :
    ({ p with attributes := p.attributes.set attr value } : Player).Conforms c := by
  refine ⟨h.layout, h.known, fun other => ?_⟩
  rw [← h.attributes other, Attributes.get?_set]
  by_cases ho : other = attr <;> simp [ho, hattr]

end Player.Conforms

theorem Attributes.get?_foldl_set (pairs : List (String × Amount)) (attr : String) :
    ∀ a : Attributes, ((pairs.foldl (fun a pair => a.set pair.1 pair.2) a).get? attr).isSome ↔
      (a.get? attr).isSome ∨ attr ∈ pairs.map Prod.fst := by
  induction pairs with
  | nil => simp
  | cons pair rest ih =>
      intro a
      rw [List.foldl_cons, ih, Attributes.get?_set, List.map_cons, List.mem_cons]
      by_cases h : attr = pair.1 <;> simp [h]

/-- The attributes made of pairs are those that the pairs name. -/
theorem Attributes.isSome_get?_ofList (pairs : List (String × Amount)) (attr : String) :
    ((Attributes.ofList pairs).get? attr).isSome ↔ attr ∈ pairs.map Prod.fst := by
  rw [Attributes.ofList, get?_foldl_set]
  simp

theorem Player.conforms_seated (id : PlayerId) (name : String) (connection : ConnectionId) :
    (Player.seated id name connection c).Conforms c := by
  refine ⟨?_, fun zone hzone => ?_, fun attr => ?_⟩
  · simp [Player.seated, Function.comp_def]
  · obtain ⟨l, -, rfl⟩ := List.mem_map.mp hzone
    obtain ⟨_, _, _ | _⟩ := l <;> exact fun _ h => absurd h List.not_mem_nil
  · rw [Player.seated, Attributes.isSome_get?_ofList, List.map_map]
    rfl

/-! ## Tables -/

namespace Table.Conforms

variable {t : Table}

theorem distinct (h : t.Conforms c) (hc : c.Coherent) : t.Distinct := by
  refine ⟨?_, fun seat hseat => (h.players seat hseat).distinct hc⟩
  have hmap : (t.playerIds.map (·.index.toNat)).Nodup := by
    have heq : t.playerIds.map (·.index.toNat) = List.range t.players.length := by
      rw [← h.seats, playerIds, List.map_map]
      rfl
    exact heq ▸ List.nodup_range
  exact hmap.of_map _

/-- A seated player finds the zones that the catalog has, of the kinds that it gives them. -/
theorem zone?_layout (h : t.Conforms c) {id : PlayerId} (hid : id ∈ t.playerIds) (name : String) :
    (t.zone? id name).map Zone.layout = c.zone? name := by
  obtain ⟨seat, hseat, rfl⟩ := List.mem_map.mp hid
  have hfind : (t.player? seat.id).isSome :=
    List.find?_isSome.mpr ⟨seat, hseat, by simp⟩
  obtain ⟨other, hother⟩ := Option.isSome_iff_exists.mp hfind
  rw [zone?_eq, hother]
  exact (h.players other (mem_of_player? hother).1).zone?_layout name

theorem zone?_some (h : t.Conforms c) {id : PlayerId} {name : String} {z : Zone}
    (hz : t.zone? id name = some z) : id ∈ t.playerIds ∧ c.zone? name = some z.layout := by
  obtain ⟨seat, hseat, hzone⟩ := exists_of_zone? hz
  obtain ⟨hmem, rfl⟩ := mem_of_player? hseat
  refine ⟨List.mem_map_of_mem hmem, ?_⟩
  rw [← (h.players seat hmem).zone?_layout, hzone]
  rfl

/-- The zones of the players keep their kinds. -/
theorem kind_eq (h : t.Conforms c) {t' : Table} (h' : t'.Conforms c)
    (hids : t'.playerIds = t.playerIds) {id : PlayerId} {name : String} {kind : ZoneKind}
    (hkind : (t.zone? id name).map Zone.kind = some kind) :
    (t'.zone? id name).map Zone.kind = some kind := by
  obtain ⟨z, hz, rfl⟩ := Option.map_eq_some_iff.mp hkind
  obtain ⟨hmem, hlayout⟩ := h.zone?_some hz
  have hlayout' := h'.zone?_layout (hids.symm ▸ hmem) name
  rw [hlayout] at hlayout'
  obtain ⟨z', hz', heq⟩ := Option.map_eq_some_iff.mp hlayout'
  rw [hz']
  exact congrArg (some ·.kind) heq

/-- Designs that a player holds are known. -/
theorem known (h : t.Conforms c) {id : PlayerId} {name : String} {z : Zone}
    (hz : t.zone? id name = some z) {card : CardId} (hcard : card ∈ z.cards) :
    (c.card? card).isSome := by
  obtain ⟨seat, hseat, hzone⟩ := exists_of_zone? hz
  exact (h.players seat (mem_of_player? hseat).1).known z (Player.mem_of_zone? hzone).1 card hcard

/-- To change one player without touching the seat keeps a table conforming if the player stays
so. -/
theorem modifyPlayer (h : t.Conforms c) {id : PlayerId} {change : Player → Player}
    (hid : ∀ seat, (change seat).id = seat.id)
    (hconf : ∀ seat ∈ t.players, seat.id = id → seat.Conforms c → (change seat).Conforms c) :
    (t.modifyPlayer id change).Conforms c := by
  have hids := playerIds_modifyPlayer (t := t) id hid
  refine ⟨?_, fun seat hseat => ?_, h.roster, fun card hcard => ?_⟩
  · have hkeep := congrArg (List.map (·.index.toNat)) hids
    rw [playerIds, playerIds, List.map_map, List.map_map] at hkeep
    exact hkeep.trans (h.seats.trans (by rw [Table.modifyPlayer, List.length_map]))
  · rcases mem_modifyPlayer hseat with hold | ⟨old, hold, he, rfl⟩
    · exact h.players seat hold
    · exact hconf old hold he (h.players old hold)
  · rw [hids]
    exact h.owners card hcard

theorem modifyZone (h : t.Conforms c) (hc : c.Coherent) {id : PlayerId} {name : String}
    {change : Zone → Zone}
    (hlayout : ∀ z, t.zone? id name = some z → (change z).layout = z.layout)
    (hknown : ∀ z, t.zone? id name = some z →
      ∀ card ∈ (change z).cards, (c.card? card).isSome) :
    (t.modifyZone id name change).Conforms c := by
  refine h.modifyPlayer (fun _ => rfl) ?_
  intro seat hseat he hconf
  have hfind : ∀ z ∈ seat.zones, z.name = name → t.zone? id name = some z := fun z hz hn =>
    he ▸ hn ▸ (h.distinct hc).zone? hseat hz
  exact hconf.modifyZone (fun z hz hn => hlayout z (hfind z hz hn))
    fun z hz hn => hknown z (hfind z hz hn)

/-- A change to a zone that keeps its layout and its designs keeps a table conforming. -/
theorem modifyZone_live (h : t.Conforms c) (hc : c.Coherent) (id : PlayerId) (name : String)
    {change : Zone → Zone} (hlayout : ∀ z, (change z).layout = z.layout)
    (hcards : ∀ z, (change z).cards = z.cards) : (t.modifyZone id name change).Conforms c :=
  h.modifyZone hc (fun z _ => hlayout z) fun z hz _ hcard => h.known hz (hcards z ▸ hcard)

/-- A known design may be put on top of a zone. -/
theorem pushCard (h : t.Conforms c) (hc : c.Coherent) (id : PlayerId) (name : String)
    {card : CardId} (hcard : (c.card? card).isSome) :
    (t.modifyZone id name (·.pushCard card)).Conforms c := by
  refine h.modifyZone hc (fun z _ => Zone.layout_pushCard z card) ?_
  intro z hz other hother
  rcases Zone.mem_cards_pushCard hother with hold | rfl
  · exact h.known hz hold
  · exact hcard

theorem removeCard (h : t.Conforms c) (hc : c.Coherent) (id : PlayerId) (name : String)
    (card : CardId) : (t.modifyZone id name (·.removeCard card)).Conforms c := by
  refine h.modifyZone hc (fun z _ => Zone.layout_removeCard z card) ?_
  intro z hz other hother
  exact h.known hz (List.mem_of_mem_erase (Zone.cards_removeCard z card ▸ hother))

/-- A zone may be given another pile of designs that it held. -/
theorem putPile (h : t.Conforms c) (hc : c.Coherent) {id : PlayerId} {name : String} {z : Zone}
    (hz : t.zone? id name = some z) {pile : Pile} (hkind : pile.kind = z.kind)
    (hcards : ∀ card ∈ pile.cards, card ∈ z.cards) :
    (t.modifyZone id name ({ · with pile })).Conforms c := by
  refine h.modifyZone hc (fun other hother => ?_) fun other hother card hcard => ?_
  · rw [hz, Option.some.injEq] at hother
    subst hother
    simp only [Zone.layout, Zone.kind, ZoneLayout.mk.injEq, true_and]
    exact hkind
  · exact h.known hz (hcards card hcard)

theorem insertLive (h : t.Conforms c) {card : LiveCard} (hcard : card.Conforms c)
    (howner : card.owner ∈ t.playerIds) : (t.insertLive card).Conforms c := by
  refine ⟨h.seats, h.players, fun other hother => ?_, fun other hother => ?_⟩ <;>
    rcases Roster.mem_insert.mp hother with rfl | ⟨hold, -⟩
  · exact hcard
  · exact h.roster other hold
  · exact howner
  · exact h.owners other hold

/-- A change to a card in play that keeps its design, its owner and the names of its attributes. -/
theorem modifyLive (h : t.Conforms c) {id : LiveId} {change : LiveCard → LiveCard}
    (hcard : ∀ card, (change card).card = card.card)
    (howner : ∀ card, (change card).owner = card.owner)
    (hattr : ∀ card, t.live? id = some card → ∀ attr,
      ((change card).attributes.get? attr).isSome = (card.attributes.get? attr).isSome) :
    (t.modifyLive id change).Conforms c := by
  refine ⟨h.seats, h.players, fun other hother => ?_, fun other hother => ?_⟩ <;>
    rcases Roster.mem_modify hother with hold | ⟨card, hold, hid, rfl⟩
  · exact h.roster other hold
  · obtain ⟨design, cardType, htyped, hnames⟩ := h.roster card hold
    refine ⟨design, cardType, (hcard card).symm ▸ htyped, fun attr => ?_⟩
    rw [← hnames attr]
    exact hattr card (Roster.get?_eq_some_iff.mpr ⟨hold, hid⟩) attr
  · exact h.owners other hold
  · exact (howner card).symm ▸ h.owners card hold

/-- Marks on a card in play, its attributes aside. -/
theorem markLive (h : t.Conforms c) (id : LiveId) {change : LiveCard → LiveCard}
    (hcard : ∀ card, (change card).card = card.card)
    (howner : ∀ card, (change card).owner = card.owner)
    (hattr : ∀ card, (change card).attributes = card.attributes) :
    (t.modifyLive id change).Conforms c :=
  h.modifyLive hcard howner fun _ _ _ => by rw [hattr]

theorem removeLive (h : t.Conforms c) (id : LiveId) : (t.removeLive id).Conforms c := by
  refine ⟨?_, fun seat hseat => ?_, fun card hcard => ?_, fun card hcard => ?_⟩
  · rw [Table.removeLive, List.map_map, List.length_map, ← h.seats]
    rfl
  · obtain ⟨old, hold, rfl⟩ := List.mem_map.mp hseat
    exact (h.players old hold).forget id
  · exact h.roster card (Roster.mem_erase.mp hcard).1
  · rw [playerIds_removeLive]
    exact h.owners card (Roster.mem_erase.mp hcard).1

/-- One more player, on the next seat. -/
theorem seat (h : t.Conforms c) {p : Player} (hp : p.Conforms c)
    (hid : p.id.index.toNat = t.players.length) :
    ({ t with players := t.players ++ [p] } : Table).Conforms c := by
  refine ⟨?_, fun seat hseat => ?_, h.roster, fun card hcard => ?_⟩
  · rw [List.map_append, h.seats, List.length_append, List.map_singleton, hid,
      List.length_singleton, List.range_succ]
  · rcases List.mem_append.mp hseat with hold | hnew
    · exact h.players seat hold
    · exact List.mem_singleton.mp hnew ▸ hp
  · simp only [playerIds, List.map_append, List.mem_append]
    exact .inl (h.owners card hcard)

end Table.Conforms

end CardArena
