import Mathlib
import CardArena.Proofs.Integrity
import CardArena.Proofs.Speech

/-!
# What a viewer may know, and does

Of somebody else's private zone a viewer may know what it is called, that it is private and how many
cards it holds.  `Table.LooksLike` says that two tables agree in all that a viewer may know; what
the private zones of others hold may differ at will, and with it what the store keeps of cards that
are there.  To such a viewer the two tables look the same (`Table.LooksLike.snapshot`).

What the viewer may know is shown in full, on the other hand, as long as the zones list only cards
that the store has (`Table.Integrity`); a card that it had not would be left out without a word.

* `hidden_stays_hidden` : the main statement, with what has been sent in any run.
-/

namespace CardArena

/-! ## Tables that look alike -/

/-- Two zones agree in what may be known of them; somebody who may look into them sees the same
cards, and the stores keep the same of these. -/
structure Zone.LooksLike (t t' : Table) (own : Prop) (z z' : Zone) : Prop where
  name : z'.name = z.name
  isPrivate : z'.isPrivate = z.isPrivate
  size : z'.size = z.size
  cards : z.isPrivate = false ∨ own → z'.cards = z.cards
  live : z.isPrivate = false ∨ own → z'.live = z.live
  stored : z.isPrivate = false ∨ own → ∀ id ∈ z.live, t'.live? id = t.live? id

/-- Two players agree in what the viewer may know of them. -/
structure Player.LooksLike (t t' : Table) (viewer : Option PlayerId) (p p' : Player) : Prop where
  id : p'.id = p.id
  name : p'.name = p.name
  isConnected : p'.isConnected = p.isConnected
  attributes : p'.attributes = p.attributes
  zones : List.Forall₂ (Zone.LooksLike t t' (viewer = some p.id)) p.zones p'.zones

/-- Two tables agree in what the viewer may know of them. -/
structure Table.LooksLike (viewer : Option PlayerId) (t t' : Table) : Prop where
  turn : t'.turn = t.turn
  players : List.Forall₂ (Player.LooksLike t t' viewer) t.players t'.players

instance (t t' : Table) (own : Prop) [Decidable own] (z z' : Zone) :
    Decidable (z.LooksLike t t' own z') :=
  decidable_of_iff
    (z'.name = z.name ∧ z'.isPrivate = z.isPrivate ∧ z'.size = z.size ∧
      (z.isPrivate = false ∨ own →
        z'.cards = z.cards ∧ z'.live = z.live ∧ ∀ id ∈ z.live, t'.live? id = t.live? id))
    ⟨fun ⟨name, isPrivate, size, seen⟩ => ⟨name, isPrivate, size, fun h => (seen h).1,
      fun h => (seen h).2.1, fun h => (seen h).2.2⟩,
    fun h => ⟨h.name, h.isPrivate, h.size, fun hs => ⟨h.cards hs, h.live hs, h.stored hs⟩⟩⟩

instance (t t' : Table) (viewer : Option PlayerId) (p p' : Player) :
    Decidable (p.LooksLike t t' viewer p') :=
  decidable_of_iff
    (p'.id = p.id ∧ p'.name = p.name ∧ p'.isConnected = p.isConnected ∧
      p'.attributes = p.attributes ∧
      List.Forall₂ (Zone.LooksLike t t' (viewer = some p.id)) p.zones p'.zones)
    ⟨fun ⟨id, name, isConnected, attributes, zones⟩ => ⟨id, name, isConnected, attributes, zones⟩,
      fun h => ⟨h.id, h.name, h.isConnected, h.attributes, h.zones⟩⟩

instance (viewer : Option PlayerId) (t t' : Table) : Decidable (t.LooksLike viewer t') :=
  decidable_of_iff
    (t'.turn = t.turn ∧ List.Forall₂ (Player.LooksLike t t' viewer) t.players t'.players)
    ⟨fun ⟨turn, players⟩ => ⟨turn, players⟩, fun h => ⟨h.turn, h.players⟩⟩

/-- Lists whose members look alike in turn look alike. -/
private theorem map_eq_of_forall₂ {α β γ : Type} {R : α → β → Prop} {f : α → γ} {g : β → γ}
    (hR : ∀ a b, R a b → g b = f a) {xs : List α} {ys : List β} (h : List.Forall₂ R xs ys) :
    ys.map g = xs.map f := by
  induction h with
  | nil => rfl
  | cons hab _ ih => rw [List.map_cons, List.map_cons, hR _ _ hab, ih]

section

variable {t t' : Table} {viewer : Option PlayerId}

theorem Zone.LooksLike.view {own : Prop} [Decidable own] {z z' : Zone}
    (h : z.LooksLike t t' own z') : t'.viewZone own z' = t.viewZone own z := by
  by_cases hseen : z.isPrivate = false ∨ own
  · have hlive : z'.live.filterMap t'.live? = z.live.filterMap t.live? := by
      rw [h.live hseen]
      exact List.filterMap_congr (h.stored hseen)
    rw [Table.viewZone, Table.viewZone, h.name, h.size, h.isPrivate, h.cards hseen, hlive]
  · obtain ⟨hprivate, hother⟩ := not_or.mp hseen
    have hhidden : (z.isPrivate && !decide own) = true := by simp [hprivate, hother]
    simp only [Table.viewZone, h.name, h.size, h.isPrivate, hhidden, if_true]

theorem Player.LooksLike.view {p p' : Player} (h : p.LooksLike t t' viewer p') :
    t'.viewPlayer viewer p' = t.viewPlayer viewer p := by
  rw [Table.viewPlayer, Table.viewPlayer, h.id, h.name, h.isConnected, h.attributes,
    map_eq_of_forall₂ (fun _ _ hz => hz.view) h.zones]

theorem Table.LooksLike.activePlayer? (h : t.LooksLike viewer t') :
    t'.activePlayer? = t.activePlayer? :=
  activePlayer?_congr (map_eq_of_forall₂ (fun _ _ hp => hp.id) h.players) h.turn

/-- **Two tables that agree in what a viewer may know look the same to them.** -/
theorem Table.LooksLike.snapshot (h : t.LooksLike viewer t') :
    t'.snapshot viewer = t.snapshot viewer := by
  rw [Table.snapshot, Table.snapshot, h.turn, h.activePlayer?,
    map_eq_of_forall₂ (fun _ _ hp => hp.view) h.players]

end

/-! ## What is shown in full -/

/-- The view of a zone lists all that the zone holds, in order, each card in play as it is
stored, and gives the number of what it lists. -/
structure ZoneView.Complete (t : Table) (z : Zone) (view : ZoneView) : Prop where
  name : view.name = z.name
  cards : view.cards = some z.cards
  live : List.Forall₂
    (fun id card => ∃ live, t.live? id = some live ∧ live.id = id ∧ card = live.view)
    z.live view.liveCards
  count : view.count = UInt64.ofNat (z.cards.length + view.liveCards.length)

section

variable {t : Table} {viewer : Option PlayerId}

/-- Where every card of a zone is stored, no card is left out. -/
theorem Table.live_views {ids : List LiveId} (h : ∀ id ∈ ids, ∃ live, t.live? id = some live) :
    List.Forall₂ (fun id card => ∃ live, t.live? id = some live ∧ live.id = id ∧ card = live.view)
      ids ((ids.filterMap t.live?).map LiveCard.view) := by
  induction ids with
  | nil => exact .nil
  | cons id rest ih =>
      obtain ⟨live, hlive⟩ := h id List.mem_cons_self
      rw [List.filterMap_cons, hlive]
      refine .cons ⟨live, hlive, (Roster.get?_eq_some_iff.mp hlive).2, rfl⟩ (ih ?_)
      exact fun other hother => h other (List.mem_cons_of_mem _ hother)

/-- A zone that the viewer may look into is shown in full. -/
theorem Table.Integrity.complete (h : t.Integrity) {seat : Player} (hseat : seat ∈ t.players)
    {z : Zone} (hz : z ∈ seat.zones) {own : Prop} [Decidable own]
    (hseen : z.isPrivate = false ∨ own) : (t.viewZone own z).Complete t z := by
  have hshown : (z.isPrivate && !decide own) = false := by
    rcases hseen with hpublic | hown
    · rw [hpublic, Bool.false_and]
    · simp [hown]
  have hstored : ∀ id ∈ z.live, ∃ live, t.live? id = some live := fun id hid =>
    (h.owner hseat hz hid).imp fun _ => And.left
  have hviews := Table.live_views hstored
  have hlength := hviews.length_eq
  refine ⟨rfl, ?_, ?_, ?_⟩ <;> simp only [viewZone, hshown, Bool.false_eq_true, if_false]
  · exact hviews
  · rw [← hlength, z.size_eq]

end

/-- **Hidden information stays hidden, and nothing else is hidden.**

Two tables that agree in what a viewer may know look the same to that viewer, whatever the
private zones of others hold.  In a reachable match every public zone and every zone of the
viewer is shown in full, as long as the host handed out no handle twice.  And whoever was ever
sent a view of the table was reached at that moment and got the view that was theirs. -/
theorem hidden_stays_hidden {rules : Rulebook} {m : Match} (hc : rules.catalog.Accepted)
    (h : Reachable rules m) :
    (∀ (viewer : Option PlayerId) (t t' : Table), t.LooksLike viewer t' →
      t'.snapshot viewer = t.snapshot viewer) ∧
    (m.spawner.handed.Nodup → ∀ viewer : Option PlayerId, List.Forall₂
      (fun seat shown => shown.id = seat.id ∧ List.Forall₂
        (fun z view =>
          z.isPrivate = false ∨ viewer = some seat.id → ZoneView.Complete m.table z view)
        seat.zones shown.zones)
      m.table.players (m.table.snapshot viewer).players) ∧
    ∀ (i : Nat) (letter : ConnectionId × Message) (view : Snapshot),
      m.outbox[i]? = some letter → letter.2.snapshot? = some view →
      ∃ scene, m.scenes[i]? = some scene ∧ ∃ seat ∈ scene.players,
        seat.isConnected = true ∧ seat.connection = letter.1 ∧
          view = scene.snapshot (some seat.id) := by
  refine ⟨fun viewer t t' hlike => hlike.snapshot, fun hunique viewer => ?_,
    fun i letter view hi hview => ?_⟩
  · have hi := (h.integrity hc.coherent hunique).table
    rw [Table.snapshot, List.forall₂_map_right_iff, List.forall₂_same]
    intro seat hseat
    refine ⟨rfl, ?_⟩
    rw [Table.viewPlayer, List.forall₂_map_right_iff, List.forall₂_same]
    exact fun z hz hseen => hi.complete hseat hz hseen
  · obtain ⟨scene, mail, hscene, hmail, hletter⟩ := h.said hc.coherent hi
    exact ⟨scene, hscene, hmail.viewer hletter hview⟩

namespace Duel

/-- Ann plays an archer out of a deck of three. -/
def archery (deck : List CardId) : Match :=
  after book [.register "Ann" ⟨1⟩ deck, .register "Bob" ⟨2⟩ [⟨1⟩], .start 0,
    .moveCards ⟨0⟩ "Deck" "Hand" 3, .playCard ⟨0⟩ ⟨2⟩]

/-- Bob sees both players and the archer come, but not whether Ann holds a wolf; the last letter
is the view that he got then. -/
theorem hidden_wolf :
    (archery [⟨2⟩, ⟨2⟩, ⟨2⟩]).table.snapshot (some ⟨1⟩)
      = (archery [⟨1⟩, ⟨2⟩, ⟨2⟩]).table.snapshot (some ⟨1⟩) ∧
    (archery [⟨2⟩, ⟨2⟩, ⟨2⟩]).table.snapshot (some ⟨0⟩)
      ≠ (archery [⟨1⟩, ⟨2⟩, ⟨2⟩]).table.snapshot (some ⟨0⟩) ∧
    (archery [⟨1⟩, ⟨2⟩, ⟨2⟩]).spawner.handed = [⟨0⟩] ∧
    List.Forall₂ (fun seat shown => shown.id = seat.id) (archery [⟨1⟩, ⟨2⟩, ⟨2⟩]).table.players
      ((archery [⟨1⟩, ⟨2⟩, ⟨2⟩]).table.snapshot (some ⟨1⟩)).players ∧
    ∃ view scene, ((archery [⟨1⟩, ⟨2⟩, ⟨2⟩]).outbox[11]?).bind (·.2.snapshot?) = some view ∧
      (archery [⟨1⟩, ⟨2⟩, ⟨2⟩]).scenes[11]? = some scene ∧
      ∃ seat ∈ scene.players, view = scene.snapshot (some seat.id) := by
  have hreach : Reachable book (archery [⟨1⟩, ⟨2⟩, ⟨2⟩]) := reachable_after ..
  have hhanded : (archery [⟨1⟩, ⟨2⟩, ⟨2⟩]).spawner.handed = [⟨0⟩] := by decide +kernel
  have hunique : (archery [⟨1⟩, ⟨2⟩, ⟨2⟩]).spawner.handed.Nodup := by
    rw [hhanded]
    decide
  have hlast : ((archery [⟨1⟩, ⟨2⟩, ⟨2⟩]).outbox[11]?).bind (·.2.snapshot?) ≠ none := by
    decide +kernel
  obtain ⟨hhidden, hfull, hsent⟩ := hidden_stays_hidden accepted hreach
  refine ⟨hhidden _ _ _ (by decide +kernel), by decide +kernel, hhanded,
    (hfull hunique _).imp fun _ _ hshown => hshown.1, ?_⟩
  obtain ⟨view, hview⟩ := Option.ne_none_iff_exists'.mp hlast
  obtain ⟨letter, hi, hshows⟩ := Option.bind_eq_some_iff.mp hview
  obtain ⟨scene, hscene, seat, hseat, -, -, heq⟩ := hsent 11 letter view hi hshows
  exact ⟨view, scene, hview, hscene, seat, hseat, heq⟩

end Duel

end CardArena
