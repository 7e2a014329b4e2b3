import Mathlib
import CardArena.Proofs.Acceptance
import CardArena.Proofs.Conservation

/-!
# Taking a seat

A registration is refused, and then nothing has happened at all, or it takes the next seat, and then
nothing has happened but that: one more player sits at the table, and everybody who can be reached,
the new player among them, has been told once.  `registerPlayer_cases` has the two ways out;
`Player.Enters` says how a player comes to the table, and `Match.Open.enters` that the player of the
second way out does.

The settings are not checked against the catalog, so that the zone that decks are put into may be
missing, and it may be a zone for cards in play.  A missing zone refuses every deck that has a card;
a zone for cards in play takes none of them, and the player sits down all the same
(`Duel.deck_on_the_board`).
-/

namespace CardArena

variable {rules : Rulebook}

/-! ## How a player comes to the table -/

/-- A player as they take a seat with a deck: reachable, with what the catalog gives everybody and
nothing else. -/
structure Player.Enters (p : Player) (rules : Rulebook) (name : String) (connection : ConnectionId)
    (deck : List CardId) : Prop where
  name : p.name = name
  connection : p.connection = connection
  connected : p.isConnected = true
  handle : p.handle = p.id.netHandle
  unplayed : p.lastPlayed = none
  attributes : p.attributes.entries =
    rules.catalog.playerAttributes.map fun attr => (attr.name, attr.baseValue)
  layout : p.zones.map Zone.layout = rules.catalog.zones
  /-- The deck lies in the deck zone as it was handed in, its last card on top. -/
  dealt : ∀ zone ∈ p.zones, zone.name = rules.config.deckZone → zone.kind = .static →
    zone.cards = deck
  /-- Nothing lies anywhere else, nor in a deck zone that is for cards in play. -/
  empty : ∀ zone ∈ p.zones, zone.name ≠ rules.config.deckZone ∨ zone.kind = .dynamic →
    zone.size = 0
  /-- There is a deck zone, unless there is no card to put into it. -/
  room : deck ≠ [] → ∃ zone ∈ p.zones, zone.name = rules.config.deckZone

/-- The attributes of an accepted catalog have different names. -/
theorem Catalog.Accepted.attributeNames {c : Catalog} (h : c.Accepted) :
    (c.playerAttributes.map PlayerAttribute.name).Nodup := by
  obtain ⟨d, hd⟩ := h
  obtain ⟨hsound, rfl⟩ := Draft.ofDraft_eq_ok_iff.mp hd
  exact hsound.attributeNames

/-- Everybody starts with the base values. -/
theorem Player.attributes_seated {c : Catalog} (hc : c.Accepted) (id : PlayerId) (name : String)
    (connection : ConnectionId) : (Player.seated id name connection c).attributes.entries =
      c.playerAttributes.map fun attr => (attr.name, attr.baseValue) := by
  refine (Attributes.entries_foldl_set _ .empty ?_).trans (List.nil_append _)
  show (List.map Prod.fst ([] ++ c.playerAttributes.map fun attr => (attr.name, attr.baseValue))).Nodup
  rw [List.nil_append, List.map_map]
  exact hc.attributeNames

/-- Nobody starts with a card. -/
theorem Player.size_seated {id : PlayerId} {name : String} {connection : ConnectionId}
    {c : Catalog} {zone : Zone} (h : zone ∈ (Player.seated id name connection c).zones) :
    zone.cards = [] ∧ zone.size = 0 := by
  obtain ⟨⟨_, _, kind⟩, -, rfl⟩ := List.mem_map.mp h
  cases kind with
  | static => exact ⟨rfl, rfl⟩
  | dynamic => exact ⟨rfl, rfl⟩

/-- A zone for cards in play takes no designs. -/
theorem Zone.size_foldl_pushCard (deck : List CardId) :
    ∀ zone : Zone, zone.kind = .dynamic → (deck.foldl pushCard zone).size = zone.size := by
  induction deck with
  | nil =>
      intro zone _
      rfl
  | cons card rest ih =>
      intro zone hkind
      obtain ⟨name, isPrivate, cards | cards⟩ := zone
      · cases hkind
      · exact ih _ rfl

/-- **Whoever may take the next seat comes to the table with their deck and what everybody gets.** -/
theorem Match.Open.enters (hc : rules.catalog.Accepted) {m : Match} {deck : List CardId}
    (h : m.Open rules deck) (name : String) (connection : ConnectionId) :
    (m.nextPlayer rules name connection deck).Enters rules name connection deck := by
  have hlayout := (h.conforms_nextPlayer name connection).layout
  have hkind (zone : Zone) : (deck.foldl Zone.pushCard zone).kind = zone.kind :=
    congrArg ZoneLayout.kind (Zone.layout_foldl_pushCard deck zone)
  have hname (zone : Zone) : (deck.foldl Zone.pushCard zone).name = zone.name :=
    congrArg ZoneLayout.name (Zone.layout_foldl_pushCard deck zone)
  refine ⟨rfl, rfl, rfl, rfl, rfl,
    Player.attributes_seated hc ⟨UInt8.ofNat m.table.players.length⟩ name connection, hlayout,
    ?_, ?_, ?_⟩
  · intro zone hzone hdeck hstatic
    obtain ⟨old, hold, rfl⟩ := List.mem_map.mp hzone
    split at hdeck
    · next holdName =>
        rw [if_pos holdName] at hstatic ⊢
        rw [Zone.cards_foldl_pushCard deck ((hkind old).symm.trans hstatic),
          (Player.size_seated hold).1, List.nil_append]
    · next holdName => exact absurd hdeck holdName
  · intro zone hzone helsewhere
    obtain ⟨old, hold, rfl⟩ := List.mem_map.mp hzone
    split at helsewhere
    · next holdName =>
        have hdynamic : old.kind = .dynamic :=
          (hkind old).symm.trans (helsewhere.resolve_left (absurd ((hname old).trans holdName)))
        rw [if_pos holdName, Zone.size_foldl_pushCard deck old hdynamic, (Player.size_seated hold).2]
    · next holdName => rw [if_neg holdName, (Player.size_seated hold).2]
  · intro hdeck
    obtain ⟨layout, hfound⟩ := Option.isSome_iff_exists.mp (h.zone.resolve_right hdeck)
    rw [Catalog.zone?, ← hlayout] at hfound
    obtain ⟨zone, hzone, hlayouts⟩ := List.mem_map.mp (List.mem_of_find?_eq_some hfound)
    have hnamed : layout.name = rules.config.deckZone := by
      simpa using List.find?_some hfound
    exact ⟨zone, hzone, (congrArg ZoneLayout.name hlayouts).trans hnamed⟩

/-! ## All or nothing -/

/-- **A registration that is refused changes nothing and tells nobody.  One that is not adds one
player in the next seat, with the deck and otherwise as everybody starts, tells everybody who can be
reached once, and leaves all else as it was.** -/
theorem registrations_seat_or_refuse (hc : rules.catalog.Accepted) (m : Match) (name : String)
    (connection : ConnectionId) (deck : List CardId) :
    match (registerPlayer rules name connection deck).run m with
    | (.error _, m') => m' = m
    | (.ok id, m') => ∃ seat : Player,
        seat.id = id ∧ id.index.toNat = m.table.players.length ∧
        seat.Enters rules name connection deck ∧
        m' = (m.onTable fun table => { table with players := table.players ++ [seat] }).post
          ((m.table.connected ++ [seat]).map fun player =>
            (player.connection, .playerRegistered id name seat.handle)) := by
  rcases registerPlayer_cases rules m name connection deck with ⟨f, hrun⟩ | ⟨hopen, hrun⟩
  · rw [hrun]
  · rw [hrun]
    refine ⟨m.nextPlayer rules name connection deck, rfl, UInt8.toNat_ofNat_of_lt hopen.seats,
      hopen.enters hc name connection, ?_⟩
    have hconnected : ((m.table.players ++ [m.nextPlayer rules name connection deck]).filter
        Player.isConnected) = m.table.connected ++ [m.nextPlayer rules name connection deck] := by
      rw [List.filter_append]
      rfl
    rw [← hconnected]
    rfl

namespace Duel

/-- Bob comes to Ann's table, and both are told. -/
theorem bob_sits_down :
    book.catalog.Accepted ∧ ∃ seat : Player,
      seat.Enters book "Bob" ⟨2⟩ [⟨1⟩, ⟨2⟩] ∧
      (registerPlayer book "Bob" ⟨2⟩ [⟨1⟩, ⟨2⟩]).run (after book [.register "Ann" ⟨1⟩ []]) =
        (.ok ⟨1⟩,
          ((after book [.register "Ann" ⟨1⟩ []]).onTable fun table =>
            { table with players := table.players ++ [seat] }).post
            (((after book [.register "Ann" ⟨1⟩ []]).table.connected ++ [seat]).map fun player =>
              (player.connection, .playerRegistered ⟨1⟩ "Bob" seat.handle))) := by
  refine ⟨accepted, ?_⟩
  have h := registrations_seat_or_refuse accepted (after book [.register "Ann" ⟨1⟩ []]) "Bob" ⟨2⟩
    [⟨1⟩, ⟨2⟩]
  have hok : ((registerPlayer book "Bob" ⟨2⟩ [⟨1⟩, ⟨2⟩]).run
      (after book [.register "Ann" ⟨1⟩ []])).1 = .ok ⟨1⟩ := by
    decide +kernel
  rcases hrun : (registerPlayer book "Bob" ⟨2⟩ [⟨1⟩, ⟨2⟩]).run
    (after book [.register "Ann" ⟨1⟩ []]) with ⟨answer, m'⟩
  rw [hrun] at h hok
  cases hok
  obtain ⟨seat, -, -, henters, hm'⟩ := h
  exact ⟨seat, henters, by rw [hm']⟩

/-- The duel with its decks put on the board. -/
def astray : Rulebook :=
  { book with config := { deckZone := "Board" } }

/-- Ann sits down with a wolf, the zone for her deck is there, and the wolf is nowhere. -/
theorem deck_on_the_board :
    astray.catalog.Accepted ∧ Reachable astray (after astray []) ∧
    ((registerPlayer astray "Ann" ⟨1⟩ [⟨1⟩]).run (after astray [])).1 = .ok ⟨0⟩ ∧
    ((registerPlayer astray "Ann" ⟨1⟩ [⟨1⟩]).run (after astray [])).2.table.zone? ⟨0⟩
      astray.config.deckZone = some ⟨"Board", false, .dynamic []⟩ ∧
    ((registerPlayer astray "Ann" ⟨1⟩ [⟨1⟩]).run (after astray [])).2.table.players.map
      (fun player => player.zones.map Zone.size) = [[0, 0, 0, 0]] :=
  ⟨accepted, reachable_after astray [], by decide +kernel, by decide +kernel, by decide +kernel⟩

end Duel

end CardArena
