import Mathlib
import CardArena.Proofs.Reachable

/-!
# The catalog is the schema of a match

A match looks things up all the time, and where it does not find them it fails or, as a condition does,
takes them for absent.  That everything which ought to be there is there is kept by whatever is done
to a match: seats are taken in order and with what the catalog lists, attributes are only overwritten,
zones only change their members, and whatever comes into play comes with its type.

`Match.Conforms` says so in terms of what the engine looks up, one key at a time, which is what the
steps of a match keep.  Here it is said of the lists themselves (`Catalog.Describes`), where nothing may
be missing and nothing may be too much; for names that occur once the two are the same
(`Attributes.names_perm_iff`).

* `described_by_catalog` : the catalog describes every reachable match.
-/

namespace CardArena

namespace Attributes

theorem isSome_get?_iff {a : Attributes} {attr : String} : (a.get? attr).isSome ↔ attr ∈ a.names := by
  rw [get?, List.lookup_isSome_iff, names, List.mem_map]
  exact exists_congr fun entry => and_congr_right fun _ => beq_iff_eq.trans eq_comm

/-- As each name occurs once, attributes have the names of a list if they have just its members. -/
theorem names_perm_iff {a : Attributes} {names : List String} (h : names.Nodup) :
    a.names.Perm names ↔ ∀ attr, (a.get? attr).isSome ↔ attr ∈ names := by
  have hdistinct : a.names.Nodup := a.distinct
  rw [List.perm_ext_iff_of_nodup hdistinct h]
  simp only [isSome_get?_iff]

end Attributes

/-- The match is made up of what the catalog lists. -/
structure Catalog.Describes (c : Catalog) (m : Match) : Prop where
  /-- Players have the numbers of their seats. -/
  seats : ∀ (i : Nat) (h : i < m.table.players.length), m.table.players[i].id.index.toNat = i
  attributes : ∀ seat ∈ m.table.players,
    seat.attributes.names.Perm (c.playerAttributes.map PlayerAttribute.name)
  /-- Players have the zones of the catalog, in its order. -/
  zones : ∀ seat ∈ m.table.players, seat.zones.map Zone.layout = c.zones
  /-- Whatever lies in a static zone is a design of the catalog. -/
  piles : ∀ seat ∈ m.table.players, ∀ zone ∈ seat.zones, ∀ card ∈ zone.cards,
    ∃ design cardType, c.typed? card = some (design, cardType)
  /-- Whatever is in play is a design of the catalog and has the attributes of its type. -/
  cards : ∀ card ∈ m.table.roster.cards, ∃ design cardType,
    c.typed? card.card = some (design, cardType) ∧
      card.attributes.names.Perm cardType.attributes.names
  pending : ∀ selection, m.session.pending = some selection → c.Carries selection.effect
  queue : ∀ firing ∈ m.session.queue, c.Carries firing.effect

namespace Catalog

variable {c : Catalog}

theorem Accepted.nodup_playerAttributes (h : c.Accepted) :
    (c.playerAttributes.map PlayerAttribute.name).Nodup := by
  obtain ⟨d, hd⟩ := h
  obtain ⟨hnames, hd⟩ := seq_eq_ok_iff.mp hd
  obtain ⟨-, hd⟩ := seq_eq_ok_iff.mp hd
  cases hd
  exact (checkNames_eq_ok_iff.mp hnames).2.1

end Catalog

theorem Table.Conforms.index_eq {c : Catalog} {t : Table} (h : t.Conforms c) {i : Nat}
    (hi : i < t.players.length) : t.players[i].id.index.toNat = i := by
  have hseats := congrArg (·[i]?) h.seats
  simpa [hi] using hseats

theorem LiveCard.Conforms.names {c : Catalog} {card : LiveCard} (h : card.Conforms c) :
    ∃ design cardType, c.typed? card.card = some (design, cardType) ∧
      card.attributes.names.Perm cardType.attributes.names := by
  obtain ⟨design, cardType, htyped, hnames⟩ := h
  refine ⟨design, cardType, htyped, (Attributes.names_perm_iff cardType.attributes.distinct).mpr ?_⟩
  intro attr
  rw [hnames attr]
  exact Attributes.isSome_get?_iff

/-- **The catalog describes whatever match of its game.** -/
theorem Match.Conforms.describes {c : Catalog} {m : Match} (hc : c.Accepted) (h : m.Conforms c) :
    c.Describes m where
  seats _ hi := h.table.index_eq hi
  attributes seat hseat :=
    (Attributes.names_perm_iff hc.nodup_playerAttributes).mpr (h.table.players seat hseat).attributes
  zones seat hseat := (h.table.players seat hseat).layout
  piles seat hseat zone hzone card hcard := by
    have hknown := (h.table.players seat hseat).known zone hzone card hcard
    obtain ⟨design, hdesign⟩ := Option.isSome_iff_exists.mp hknown
    obtain ⟨cardType, htyped⟩ := hc.coherent.typed?_of_card? hdesign
    exact ⟨design, cardType, htyped⟩
  cards card hcard := (h.table.roster card hcard).names
  pending := h.session.pending
  queue := h.session.queue

/-- **The catalog describes every match that comes about by operations, whatever they answer.** -/
theorem described_by_catalog {rules : Rulebook} {m : Match} (hc : rules.catalog.Accepted)
    (h : Reachable rules m) : rules.catalog.Describes m :=
  (h.conforms hc.coherent).describes hc

namespace Duel

/-- Ann's first archer asks whom to hit, and the second one waits; there is no mana to be had. -/
def volley : List Operation :=
  deal ++ [.playCard ⟨0⟩ ⟨2⟩, .playCard ⟨0⟩ ⟨2⟩, .setPlayerAttribute ⟨0⟩ "Mana" 1]

theorem volley_described :
    (after book volley).table.players.length = 2 ∧
    (after book volley).table.roster.cards.length = 2 ∧
    (after book volley).session.queue.length = 1 ∧ (after book volley).session.pending.isSome ∧
    book.catalog.Describes (after book volley) :=
  ⟨by decide +kernel, by decide +kernel, by decide +kernel, by decide +kernel,
    described_by_catalog accepted (reachable_after book volley)⟩

end Duel

end CardArena
