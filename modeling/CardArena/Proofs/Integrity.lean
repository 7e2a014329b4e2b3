import Mathlib
import CardArena.Proofs.Reachable

/-!
# The store, the zones and the host agree

A card in play is known in several places: the store keeps it, a zone of its owner lists it, the
host has it among the cards that came and did not go, the queue of destructions may name it, and its
owner may remember it as the last card played.  `Match.Integrity` says that these agree, and every
step keeps it as long as handles are fresh.

The heart of it is one permutation (`Table.Integrity.listed`): the entries of all zones, each with
the player it is found with, are the entries of the store, each with its owner.  Every change takes
and puts the same entries on both sides.

* `Step.integrity` : every step keeps the agreement.
* `reachable_integrity` : so every reachable match has it, whatever its operations answered.
-/

namespace CardArena

open Play
open Relation (ReflTransGen)

/-- To put a new member in the place of an old one is to put it in and to take the old one out. -/
theorem cons_replace_perm {α : Type} [DecidableEq α] {old : α} (new : α) :
    ∀ {l : List α}, old ∈ l → (old :: l.replace old new).Perm (new :: l)
  | x :: rest, h => by
      by_cases hx : old = x
      · subst hx
        rw [List.replace_cons_self]
        exact List.Perm.swap ..
      · have hrest : old ∈ rest := (List.mem_cons.mp h).resolve_left hx
        have hne : (old == x) = false := by simpa using hx
        rw [List.replace_cons, hne]
        exact (List.Perm.swap ..).trans (((cons_replace_perm new hrest).cons x).trans (.swap ..))

/-! ## Tables -/

namespace Table

/-- Who owns which card in play, by the store. -/
def owned (t : Table) : List (PlayerId × LiveId) :=
  t.roster.cards.map fun live => (live.owner, live.id)

/-- The zones list the cards of the store, each once and with its owner, and a last card played that
is in play is the card that was played. -/
structure Integrity (t : Table) : Prop where
  listed : (t.gather Zone.live).Perm t.owned
  played : ∀ seat ∈ t.players, ∀ last, seat.lastPlayed = some last → ∀ id, last.live = some id →
    ∃ live, t.live? id = some live ∧ live.card = last.card ∧ live.owner = seat.id

variable {t t' : Table}

theorem map_snd_owned (t : Table) : t.owned.map Prod.snd = t.roster.cards.map LiveCard.id := by
  simp [owned, Function.comp_def]

theorem liveInOrder_eq (t : Table) : t.liveInOrder = (t.gather Zone.live).map Prod.snd :=
  (map_snd_gather _).symm

theorem mem_owned {owner : PlayerId} {id : LiveId} :
    (owner, id) ∈ t.owned ↔ ∃ live, t.live? id = some live ∧ live.owner = owner := by
  simp only [owned, List.mem_map, Prod.mk.injEq]
  constructor
  · rintro ⟨live, hlive, rfl, rfl⟩
    exact ⟨live, Roster.get?_eq_some_iff.mpr ⟨hlive, rfl⟩, rfl⟩
  · rintro ⟨live, hlive, rfl⟩
    obtain ⟨hmem, rfl⟩ := Roster.get?_eq_some_iff.mp hlive
    exact ⟨live, hmem, rfl, rfl⟩

namespace Integrity

theorem congr (h : t.Integrity) (hplayers : t'.players = t.players)
    (hroster : t'.roster = t.roster) : t'.Integrity := by
  refine ⟨?_, ?_⟩ <;> simp only [gather, owned, live?, hplayers, hroster]
  · exact h.listed
  · exact h.played

/-- No handle is listed twice. -/
theorem nodup (h : t.Integrity) : t.liveInOrder.Nodup := by
  rw [liveInOrder_eq, (h.listed.map Prod.snd).nodup_iff, map_snd_owned]
  exact t.roster.distinct

/-- The handles listed are those of the store. -/
theorem mem_liveInOrder (h : t.Integrity) {id : LiveId} :
    id ∈ t.liveInOrder ↔ ∃ live, t.live? id = some live := by
  rw [liveInOrder_eq, (h.listed.map Prod.snd).mem_iff]
  constructor
  · intro hid
    obtain ⟨⟨owner, _⟩, hmem, rfl⟩ := List.mem_map.mp hid
    obtain ⟨live, hlive, -⟩ := mem_owned.mp hmem
    exact ⟨live, hlive⟩
  · rintro ⟨live, hlive⟩
    exact List.mem_map.mpr ⟨(live.owner, id), mem_owned.mpr ⟨live, hlive, rfl⟩, rfl⟩

/-- The owner of a card is the player in whose zone it is. -/
theorem owner (h : t.Integrity) {seat : Player} (hseat : seat ∈ t.players) {z : Zone}
    (hz : z ∈ seat.zones) {id : LiveId} (hid : id ∈ z.live) :
    ∃ live, t.live? id = some live ∧ live.owner = seat.id :=
  mem_owned.mp (h.listed.mem_iff.mp (mem_gather.mpr ⟨seat, hseat, rfl, z, hz, hid⟩))

theorem owner_of_zone? (h : t.Integrity) {player : PlayerId} {zone : String} {z : Zone}
    (hz : t.zone? player zone = some z) {id : LiveId} (hid : id ∈ z.live) {live : LiveCard}
    (hlive : t.live? id = some live) : live.owner = player := by
  obtain ⟨seat, hseat, hzone⟩ := exists_of_zone? hz
  obtain ⟨hmem, rfl⟩ := mem_of_player? hseat
  obtain ⟨other, hother, howner⟩ := h.owner hmem (Player.mem_of_zone? hzone).1 hid
  exact Option.some.inj (hlive.symm.trans hother) ▸ howner

/-- A card in play is in one zone alone. -/
theorem only_in (h : t.Integrity) {player owner : PlayerId} {origin zone : String} {z z' : Zone}
    {card : LiveId} (hz : t.zone? player origin = some z) (hcard : card ∈ z.live)
    (hz' : t.zone? owner zone = some z') (hcard' : card ∈ z'.live) :
    owner = player ∧ zone = origin := by
  obtain ⟨seat, hseat, hfound⟩ := exists_of_zone? hz
  obtain ⟨hmem, rfl⟩ := mem_of_player? hseat
  obtain ⟨hzone, rfl⟩ := Player.mem_of_zone? hfound
  obtain ⟨live, hlive, -⟩ := h.owner hmem hzone hcard
  have hown : owner = seat.id :=
    (h.owner_of_zone? hz' hcard' hlive).symm.trans (h.owner_of_zone? hz hcard hlive)
  subst hown
  obtain ⟨seat', hseat', hfound'⟩ := exists_of_zone? hz'
  obtain rfl : seat = seat' := Option.some.inj (hseat.symm.trans hseat')
  obtain ⟨hzone', rfl⟩ := Player.mem_of_zone? hfound'
  have happart := (List.nodup_flatMap.mp ((List.nodup_flatMap.mp h.nodup).1 seat hmem)).2
  have : Std.Symm (Function.onFun List.Disjoint Zone.live) := ⟨fun _ _ hxy => hxy.symm⟩
  refine ⟨rfl, ?_⟩
  by_contra hne
  exact happart.forall hzone hzone' (fun e => hne (e ▸ rfl)) hcard hcard'

/-- What is remembered in one table is remembered in another that keeps the cards that are
remembered. -/
theorem played_of (h : t.Integrity)
    (hkeep : ∀ seat' ∈ t'.players, ∀ last, seat'.lastPlayed = some last →
      ∀ id, last.live = some id → (∃ seat ∈ t.players, seat.id = seat'.id ∧
        seat.lastPlayed = some last) ∧
        ∀ live, t.live? id = some live → ∃ live', t'.live? id = some live' ∧ live.Same live') :
    ∀ seat' ∈ t'.players, ∀ last, seat'.lastPlayed = some last → ∀ id, last.live = some id →
      ∃ live, t'.live? id = some live ∧ live.card = last.card ∧ live.owner = seat'.id := by
  intro seat' hseat' last hlast id hid
  obtain ⟨⟨seat, hseat, he, hold⟩, hlive⟩ := hkeep seat' hseat' last hlast id hid
  obtain ⟨live, hget, hcard, howner⟩ := h.played seat hseat last hold id hid
  obtain ⟨live', hget', hsame⟩ := hlive live hget
  exact ⟨live', hget', hsame.1.symm.trans hcard, (hsame.2.symm.trans howner).trans he⟩

theorem modifyPlayer (h : t.Integrity) (id : PlayerId) {change : Player → Player}
    (hid : ∀ seat, (change seat).id = seat.id) (hzones : ∀ seat, (change seat).zones = seat.zones)
    (hplayed : ∀ seat, (change seat).lastPlayed = seat.lastPlayed) :
    (t.modifyPlayer id change).Integrity := by
  refine ⟨(gather_modifyPlayer _ id hid hzones).symm ▸ h.listed, h.played_of ?_⟩
  intro seat' hseat' last hlast card hcard
  refine ⟨?_, fun live hlive => ⟨live, hlive, rfl, rfl⟩⟩
  rcases mem_modifyPlayer hseat' with hold | ⟨old, hold, -, rfl⟩
  · exact ⟨seat', hold, rfl, hlast⟩
  · exact ⟨old, hold, (hid old).symm, (hplayed old).symm.trans hlast⟩

theorem mem_players_modifyZone {id : PlayerId} {name : String} {change : Zone → Zone}
    {seat' : Player} (h : seat' ∈ (t.modifyZone id name change).players) :
    ∃ seat ∈ t.players, seat.id = seat'.id ∧ seat.lastPlayed = seat'.lastPlayed := by
  rcases mem_modifyPlayer h with hold | ⟨old, hold, -, rfl⟩
  · exact ⟨seat', hold, rfl, rfl⟩
  · exact ⟨old, hold, rfl, rfl⟩

/-- A zone may change as long as it lists the same cards in play. -/
theorem modifyZone (h : t.Integrity) (hd : t.Distinct) (id : PlayerId) (name : String)
    {g : Zone → Zone} (hkeep : ∀ z, t.zone? id name = some z → (g z).live.Perm z.live) :
    (t.modifyZone id name g).Integrity := by
  refine ⟨(hd.gather_keep Zone.live hkeep).trans h.listed, h.played_of ?_⟩
  intro seat' hseat' last hlast card hcard
  obtain ⟨seat, hseat, he, heq⟩ := mem_players_modifyZone hseat'
  exact ⟨⟨seat, hseat, he, heq.trans hlast⟩, fun live hlive => ⟨live, hlive, rfl, rfl⟩⟩

/-- A zone may get another pile of the same cards in play. -/
theorem putPile (h : t.Integrity) (hd : t.Distinct) {id : PlayerId} {name : String} {z : Zone}
    (hz : t.zone? id name = some z) {pile : Pile} (hlive : pile.live.Perm z.live) :
    (t.modifyZone id name ({ · with pile })).Integrity := by
  refine h.modifyZone hd id name ?_
  intro other hother
  obtain rfl : z = other := Option.some.inj (hz.symm.trans hother)
  exact hlive

/-- The top card of a static zone may be taken. -/
theorem popTop (h : t.Integrity) (hd : t.Distinct) {id : PlayerId} {name : String} {z : Zone}
    (hz : t.zone? id name = some z) {card : CardId} {pile : Pile}
    (htop : z.pile.popCard? = some (card, pile)) :
    (t.modifyZone id name ({ · with pile })).Integrity := by
  obtain ⟨cards, hpile, rfl⟩ := Pile.popCard?_eq_some htop
  refine h.putPile hd hz ?_
  rw [Zone.live, hpile]
  exact .refl _

theorem pushCard (h : t.Integrity) (hd : t.Distinct) (id : PlayerId) (name : String)
    (card : CardId) : (t.modifyZone id name (·.pushCard card)).Integrity :=
  h.modifyZone hd id name fun z _ => by rw [Zone.live_pushCard]

/-- A card may go from one dynamic zone of a player to another. -/
theorem carry (h : t.Integrity) (hd : t.Distinct) {player : PlayerId} {origin destination : String}
    {z w : Zone} {card : LiveId} (hz : t.zone? player origin = some z) (there : card ∈ z.live)
    (hw : (t.modifyZone player origin (·.removeLive card)).zone? player destination = some w)
    (hkind : w.kind = .dynamic)
    (hd' : (t.modifyZone player origin (·.removeLive card)).Distinct) :
    ((t.modifyZone player origin (·.removeLive card)).modifyZone player destination
      (·.pushLive card)).Integrity := by
  have htake : ([card] ++ (z.removeLive card).live).Perm ([] ++ z.live) := by
    rw [Zone.live_removeLive]
    exact (List.perm_cons_erase there).symm
  have hput : ([] ++ (w.pushLive card).live).Perm ([card] ++ w.live) := by
    rw [Zone.live_pushLive hkind]
    exact List.perm_append_singleton _ _
  have hperm := (hd'.gather_perm hw Zone.live (g := (·.pushLive card)) hput).trans
    (hd.gather_perm hz Zone.live (g := (·.removeLive card)) htake)
  refine ⟨hperm.trans h.listed, h.played_of ?_⟩
  intro seat' hseat' last hlast id hid
  obtain ⟨seat₁, hseat₁, he₁, heq₁⟩ := mem_players_modifyZone hseat'
  obtain ⟨seat, hseat, he, heq⟩ := mem_players_modifyZone hseat₁
  exact ⟨⟨seat, hseat, he.trans he₁, (heq.trans heq₁).trans hlast⟩,
    fun live hlive => ⟨live, hlive, rfl, rfl⟩⟩

theorem owned_insertLive {live : LiveCard} (hnew : t.live? live.id = none) :
    (t.insertLive live).owned = (live.owner, live.id) :: t.owned := by
  show List.map _ (t.roster.insert live).cards = _
  rw [Roster.cards_insert_of_get?_eq_none hnew]
  rfl

/-- A new card may come on top of a dynamic zone of its owner. -/
theorem bring (h : t.Integrity) (hd : t.Distinct) (live : LiveCard) {zone : String} {z : Zone}
    (hz : t.zone? live.owner zone = some z) (hkind : z.kind = .dynamic)
    (hnew : t.live? live.id = none) :
    ((t.modifyZone live.owner zone (·.pushLive live.id)).insertLive live).Integrity := by
  have hput : ([] ++ (z.pushLive live.id).live).Perm ([live.id] ++ z.live) := by
    rw [Zone.live_pushLive hkind]
    exact List.perm_append_singleton _ _
  refine ⟨?_, h.played_of ?_⟩
  · refine (hd.gather_perm hz Zone.live (g := (·.pushLive live.id)) hput).trans ?_
    exact (h.listed.cons _).trans (.of_eq (owned_insertLive hnew).symm)
  · intro seat' hseat' last hlast id hid
    obtain ⟨seat, hseat, he, heq⟩ := mem_players_modifyZone hseat'
    refine ⟨⟨seat, hseat, he, heq.trans hlast⟩, fun other hother => ⟨other, ?_, rfl, rfl⟩⟩
    have hne : id ≠ live.id := fun e => nomatch (e ▸ hnew).symm.trans hother
    exact (Roster.get?_insert ..).trans ((if_neg hne).trans hother)

theorem owned_removeLive (t : Table) (id : LiveId) :
    (t.removeLive id).owned = t.owned.filter (·.2 ≠ id) := by
  rw [owned, owned, List.filter_map]
  rfl

/-- What a player still remembers when a card has left play is another card. -/
theorem mem_players_removeLive {id : LiveId} {seat' : Player}
    (h : seat' ∈ (t.removeLive id).players) {last : LastPlayed}
    (hlast : seat'.lastPlayed = some last) {card : LiveId} (hcard : last.live = some card) :
    card ≠ id ∧ ∃ seat ∈ t.players, seat.id = seat'.id ∧ seat.lastPlayed = some last := by
  obtain ⟨seat, hseat, rfl⟩ := List.mem_map.mp h
  obtain ⟨old, hold, heq⟩ := Option.map_eq_some_iff.mp hlast
  by_cases hid : old.live = some id
  · rw [if_pos hid] at heq
    subst heq
    cases hcard
  · rw [if_neg hid] at heq
    subst heq
    exact ⟨fun e => hid (e ▸ hcard), seat, hseat, rfl, hold⟩

/-- A card may leave play. -/
theorem removeLive (h : t.Integrity) (id : LiveId) : (t.removeLive id).Integrity := by
  refine ⟨?_, h.played_of ?_⟩
  · rw [gather_removeLive h.nodup, owned_removeLive]
    exact h.listed.filter _
  · intro seat' hseat' last hlast card hcard
    obtain ⟨hne, hseat⟩ := mem_players_removeLive hseat' hlast hcard
    exact ⟨hseat, fun live hlive => ⟨live, (Roster.get?_erase ..).trans ((if_neg hne).trans hlive),
      rfl, rfl⟩⟩

/-- Marks on a card that keep its design and its owner. -/
theorem modifyLive (h : t.Integrity) (id : LiveId) {change : LiveCard → LiveCard}
    (hcard : ∀ live, (change live).card = live.card)
    (howner : ∀ live, (change live).owner = live.owner) : (t.modifyLive id change).Integrity := by
  have howned : (t.modifyLive id change).owned = t.owned := by
    rw [owned, owned, Table.modifyLive, Roster.modify, List.map_map]
    refine List.map_congr_left ?_
    intro live _
    by_cases he : live.id = id <;> simp [he, howner]
  refine ⟨(h.listed.trans (.of_eq howned.symm)), h.played_of ?_⟩
  intro seat hseat last hlast card _
  refine ⟨⟨seat, hseat, rfl, hlast⟩, fun live hlive => ?_⟩
  have hget : (t.modifyLive id change).live? card = _ := Roster.get?_modify id card change
  by_cases he : card = id
  · subst he
    rw [if_pos rfl] at hget
    refine ⟨_, hget.trans (congrArg _ hlive), (hcard live).symm, (howner live).symm⟩
  · exact ⟨live, (hget.trans (if_neg he)).trans hlive, rfl, rfl⟩

/-- A new card may take the place of another, or come on top if that one is not there. -/
theorem replace (h : t.Integrity) (hd : t.Distinct) (old : LiveId) (live : LiveCard) {zone : String}
    {z : Zone} (hz : t.zone? live.owner zone = some z) (hkind : z.kind = .dynamic)
    (hnew : t.live? live.id = none) :
    (((t.insertLive live).modifyZone live.owner zone
      (·.swapLive old live.id)).removeLive old).Integrity := by
  have hd' : (t.insertLive live).Distinct := ⟨hd.seats, hd.zones⟩
  -- What the zone gives up is the old card or nothing.
  obtain ⟨taken, htaken, hswap⟩ : ∃ taken : List LiveId, (∀ id ∈ taken, id = old) ∧
      (taken ++ (z.swapLive old live.id).live).Perm ([live.id] ++ z.live) := by
    rw [Zone.live_swapLive hkind]
    split_ifs with hold
    · exact ⟨[old], by simp, cons_replace_perm live.id hold⟩
    · exact ⟨[], by simp, List.perm_append_singleton _ _⟩
  have hperm := (hd'.gather_perm hz Zone.live (g := (·.swapLive old live.id)) hswap).trans
    (h.listed.cons (live.owner, live.id))
  have hnodup : ((t.insertLive live).modifyZone live.owner zone
      (·.swapLive old live.id)).liveInOrder.Nodup := by
    have hids := hperm.map Prod.snd
    rw [List.map_append, ← liveInOrder_eq] at hids
    refine (List.nodup_append.mp (hids.nodup_iff.mpr ?_)).2.1
    rw [← owned_insertLive hnew, map_snd_owned]
    exact (t.insertLive live).roster.distinct
  refine ⟨?_, h.played_of ?_⟩
  · rw [gather_removeLive hnodup, owned_removeLive]
    have hfilter := hperm.filter (·.2 ≠ old)
    rw [List.filter_append, ← owned_insertLive hnew, List.filter_eq_nil_iff.mpr ?_] at hfilter
    · exact hfilter
    · intro entry hentry
      obtain ⟨id, hid, rfl⟩ := List.mem_map.mp hentry
      simp [htaken id hid]
  · intro seat' hseat' last hlast card hcard
    obtain ⟨hcne, seat₁, hseat₁, he₁, hlast₁⟩ := mem_players_removeLive hseat' hlast hcard
    obtain ⟨seat, hseat, he, heq⟩ := mem_players_modifyZone hseat₁
    refine ⟨⟨seat, hseat, he.trans he₁, heq.trans hlast₁⟩, fun other hother => ⟨other, ?_, rfl, rfl⟩⟩
    have hnew' : card ≠ live.id := fun e => nomatch (e ▸ hnew).symm.trans hother
    refine (Roster.get?_erase ..).trans ((if_neg hcne).trans ?_)
    exact (Roster.get?_insert ..).trans ((if_neg hnew').trans hother)

end Integrity

end Table

/-! ## The host -/

/-- The cards that the host has been told of so far, after one more call. -/
def SpawnCall.note (out : List LiveId) : SpawnCall → List LiveId
  | .spawn id _ _ => id :: out
  | .despawn id => out.erase id

namespace Spawner

/-- The handles that have been spawned and not been despawned. -/
def outstanding (s : Spawner) : List LiveId :=
  s.calls.foldl SpawnCall.note []

@[simp]
theorem outstanding_spawn (s : Spawner) (card : CardId) (owner : PlayerId) :
    (s.spawn card owner).2.outstanding = (s.spawn card owner).1 :: s.outstanding := by
  simp [outstanding, spawn, SpawnCall.note]

@[simp]
theorem outstanding_despawn (s : Spawner) (id : LiveId) :
    (s.despawn id).outstanding = s.outstanding.erase id := by
  simp [outstanding, despawn, SpawnCall.note]

end Spawner

theorem DestructionQueue.cards_cancel (q : DestructionQueue) (card : LiveId) :
    (q.cancel card).cards = q.cards.filter (· ≠ card) := by
  rw [cancel, cards, cards, List.filter_map]
  rfl

/-! ## Matches -/

namespace Match

/-- The host and the queue of destructions agree with the store. -/
structure Books (m : Match) : Prop where
  handed : ∀ live ∈ m.table.roster.cards, live.id ∈ m.spawner.handed
  ledger : m.spawner.outstanding.Perm (m.table.roster.cards.map LiveCard.id)
  doomed : m.destructions.cards.Nodup
  dead : ∀ card ∈ m.destructions.cards, ∃ live, m.table.live? card = some live ∧ live.alive = false

/-- The zones, the store, the host, the queue of destructions and the players' memories agree. -/
structure Integrity (m : Match) : Prop where
  table : m.table.Integrity
  books : m.Books

variable {m : Match}

namespace Books

/-- A handle that has not been handed out stands for no card. -/
theorem live?_eq_none (h : m.Books) {id : LiveId} (hid : id ∉ m.spawner.handed) :
    m.table.live? id = none := by
  cases hlive : m.table.live? id with
  | none => rfl
  | some live =>
      obtain ⟨hmem, rfl⟩ := Roster.get?_eq_some_iff.mp hlive
      exact absurd (h.handed live hmem) hid

/-- The books are about the store, the host and the queue alone. -/
theorem congr (h : m.Books) {m' : Match} (hroster : m'.table.roster = m.table.roster)
    (hspawner : m'.spawner = m.spawner) (hqueue : m'.destructions = m.destructions) :
    m'.Books := by
  refine ⟨?_, ?_, ?_, ?_⟩ <;> simp only [Table.live?, hroster, hspawner, hqueue]
  · exact h.handed
  · exact h.ledger
  · exact h.doomed
  · exact h.dead

/-- Marks on a card that do not wake the dead. -/
theorem markLive (h : m.Books) (card : LiveId) {g : LiveCard → LiveCard}
    (halive : ∀ live, live.alive = false → (g live).alive = false) :
    (m.onTable (·.modifyLive card g)).Books := by
  have hids : (m.table.roster.modify card g).cards.map LiveCard.id
      = m.table.roster.cards.map LiveCard.id := by
    rw [Roster.modify, List.map_map]
    refine List.map_congr_left ?_
    intro live _
    by_cases he : live.id = card <;> simp [he]
  refine ⟨fun live hlive => ?_, h.ledger.trans (.of_eq hids.symm), h.doomed, ?_⟩
  · have hid : live.id ∈ (m.table.roster.modify card g).cards.map LiveCard.id :=
      List.mem_map_of_mem hlive
    rw [hids] at hid
    obtain ⟨old, hold, he⟩ := List.mem_map.mp hid
    exact he ▸ h.handed old hold
  · intro doomed hdoomed
    obtain ⟨live, hlive, hdead⟩ := h.dead doomed hdoomed
    have hget : (m.table.modifyLive card g).live? doomed = _ :=
      Roster.get?_modify card doomed g
    by_cases he : doomed = card
    · subst he
      rw [if_pos rfl] at hget
      exact ⟨_, hget.trans (congrArg _ hlive), halive live hdead⟩
    · exact ⟨live, (hget.trans (if_neg he)).trans hlive, hdead⟩

/-- The queue may lose entries. -/
theorem release (h : m.Books) {q : DestructionQueue}
    (hsub : q.cards.Sublist m.destructions.cards) : Books { m with destructions := q } :=
  ⟨h.handed, h.ledger, h.doomed.sublist hsub, fun card hcard => h.dead card (hsub.subset hcard)⟩

/-- A dead card may join the queue. -/
theorem schedule (h : m.Books) {card : LiveId} {live : LiveCard}
    (hlive : m.table.live? card = some live) (hdead : live.alive = false) (delay : UInt32)
    (reason : DestructionReason) (hfree : m.destructions.contains card = false) :
    Books { m with destructions := m.destructions.schedule card delay reason } := by
  have hcards : (m.destructions.schedule card delay reason).cards
      = m.destructions.cards ++ [card] := by
    rw [DestructionQueue.schedule, hfree]
    simp [DestructionQueue.cards]
  have hnew : card ∉ m.destructions.cards := by simpa [DestructionQueue.contains] using hfree
  refine ⟨h.handed, h.ledger, ?_, fun doomed hdoomed => ?_⟩
  · show (m.destructions.schedule card delay reason).cards.Nodup
    rw [hcards]
    exact h.doomed.append (List.nodup_singleton card) (List.disjoint_singleton.mpr hnew)
  · rw [hcards] at hdoomed
    rcases List.mem_append.mp hdoomed with hold | hthis
    · exact h.dead doomed hold
    · exact ⟨live, List.mem_singleton.mp hthis ▸ hlive, hdead⟩

/-- A card leaves the store, the queue and the host's hands at once. -/
theorem despawn (h : m.Books) (card : LiveId) : (m.despawn card).2.Books := by
  have hids : (m.table.roster.erase card).cards.map LiveCard.id
      = (m.table.roster.cards.map LiveCard.id).filter (· ≠ card) := by
    rw [Roster.erase, List.filter_map]
    rfl
  refine ⟨fun live hlive => ?_, ?_, ?_, fun doomed hdoomed => ?_⟩
  · rw [handed_despawn]
    exact h.handed live (Roster.mem_erase.mp hlive).1
  · show (if (m.table.live? card).isSome then m.spawner.despawn card
      else m.spawner).outstanding.Perm ((m.table.roster.erase card).cards.map LiveCard.id)
    split_ifs with hlive
    · rw [Spawner.outstanding_despawn, hids]
      refine (h.ledger.erase card).trans (.of_eq ?_)
      rw [m.table.roster.distinct.erase_eq_filter]
      exact List.filter_congr fun id _ => by rw [bne, beq_eq_decide, ← decide_not]
    · rw [Roster.cards_erase_of_get?_eq_none (by simpa [Table.live?] using hlive)]
      exact h.ledger
  · show (m.destructions.cancel card).cards.Nodup
    rw [DestructionQueue.cards_cancel]
    exact h.doomed.filter _
  · change doomed ∈ (m.destructions.cancel card).cards at hdoomed
    rw [DestructionQueue.cards_cancel, List.mem_filter] at hdoomed
    obtain ⟨live, hlive, hdead⟩ := h.dead doomed hdoomed.1
    refine ⟨live, (Roster.get?_erase ..).trans ((if_neg ?_).trans hlive), hdead⟩
    simpa using hdoomed.2

/-- A card enters the store under the handle that the host hands out for it. -/
theorem spawn (h : m.Books) {m' : Match} (design : CardId) (owner : PlayerId) {live : LiveCard}
    (hid : live.id = (m.spawner.spawn design owner).1)
    (hunused : (m.spawner.spawn design owner).1 ∉ m.spawner.handed)
    (hroster : m'.table.roster = m.table.roster.insert live)
    (hspawner : m'.spawner = (m.spawner.spawn design owner).2)
    (hqueue : m'.destructions = m.destructions) : m'.Books := by
  have hnew : m.table.roster.get? live.id = none := h.live?_eq_none (hid ▸ hunused)
  have hcards := Roster.cards_insert_of_get?_eq_none hnew
  refine ⟨fun other hother => ?_, ?_, hqueue ▸ h.doomed, fun doomed hdoomed => ?_⟩
  · rw [hroster, hcards] at hother
    rw [hspawner, Spawner.handed_spawn]
    rcases List.mem_cons.mp hother with rfl | hold
    · exact List.mem_append_right _ (hid ▸ List.mem_cons_self)
    · exact List.mem_append_left _ (h.handed other hold)
  · rw [hspawner, Spawner.outstanding_spawn, hroster, hcards, List.map_cons, hid]
    exact h.ledger.cons _
  · obtain ⟨other, hother, hdead⟩ := h.dead doomed (hqueue ▸ hdoomed)
    have hne : doomed ≠ live.id := fun e => nomatch (e ▸ hnew).symm.trans hother
    refine ⟨other, ?_, hdead⟩
    rw [Table.live?, hroster, Roster.get?_insert, if_neg hne]
    exact hother

end Books

namespace Integrity

theorem congr (h : m.Integrity) {m' : Match} (hplayers : m'.table.players = m.table.players)
    (hroster : m'.table.roster = m.table.roster) (hspawner : m'.spawner = m.spawner)
    (hqueue : m'.destructions = m.destructions) : m'.Integrity :=
  ⟨h.table.congr hplayers hroster, h.books.congr hroster hspawner hqueue⟩

/-- A card may come into play as long as its handle is fresh. -/
theorem bring (h : m.Integrity) (hd : m.table.Distinct) {owner : PlayerId} {card : CardDesign}
    {cardType : CardType} {zone : String}
    (room : (m.table.zone? owner zone).map Zone.kind = some .dynamic)
    (hfresh : (m.bring owner card cardType zone).Fresh) :
    (m.bring owner card cardType zone).Integrity := by
  rw [Fresh, handed_bring] at hfresh
  obtain ⟨-, hunused⟩ := Fresh.next hfresh
  obtain ⟨z, hz, hkind⟩ := Option.map_eq_some_iff.mp room
  exact ⟨h.table.bring hd (.spawn _ card cardType owner) hz hkind (h.books.live?_eq_none hunused),
    h.books.spawn card.id owner rfl hunused rfl rfl rfl⟩

end Integrity

end Match

/-! ## Changes and steps -/

variable {rules : Rulebook} {scope : Scope} {m m' : Match}

theorem Change.integrity (hc : rules.catalog.Coherent) (hm : m.Conforms rules.catalog)
    (h : Change rules scope m m') (hi : m.Integrity) (hfresh : m'.Fresh) : m'.Integrity := by
  have ht := hm.table
  have hd := ht.distinct hc
  have hhanded := h.handed
  cases h with
  | ask => rw [Match.tell_eq_post]; exact hi.congr rfl rfl rfl rfl
  | writePlayer =>
      exact ⟨hi.table.modifyPlayer _ (fun _ => rfl) (fun _ => rfl) fun _ => rfl,
        hi.books.congr rfl rfl rfl⟩
  | writeCard =>
      exact ⟨hi.table.modifyLive _ (fun _ => rfl) fun _ => rfl,
        hi.books.markLive _ fun _ hdead => hdead⟩
  | bring _ _ room => exact hi.bring hd room hfresh
  | refund owner card =>
      refine ⟨hi.table, fun live hlive => hhanded.subset (hi.books.handed live hlive), ?_,
        hi.books.doomed, hi.books.dead⟩
      show (Spawner.despawn _ _).outstanding.Perm _
      rw [Spawner.outstanding_despawn, Spawner.outstanding_spawn, List.erase_cons_head]
      exact hi.books.ledger
  | shift hzone htop room =>
      have hpop := ht.popTop hc hzone htop
      exact ⟨(hi.table.popTop hd hzone htop).pushCard (hpop.1.distinct hc) _ _ _,
        hi.books.congr rfl rfl rfl⟩
  | deploy hzone htop typed room =>
      have hpop := ht.popTop hc hzone htop
      have hput : (m.putPile _ _ _).Integrity :=
        ⟨hi.table.popTop hd hzone htop, hi.books.congr rfl rfl rfl⟩
      exact hput.bring (hpop.1.distinct hc)
        (ht.kind_eq hpop.1 (Table.playerIds_modifyZone ..) room) hfresh
  | withdraw hzone there hlive room =>
      exact ⟨(hi.table.removeLive _).pushCard ((ht.removeLive _).distinct hc) _ _ _,
        (hi.books.despawn _).congr rfl rfl rfl⟩
  | strike => exact ⟨hi.table.removeLive _, hi.books.despawn _⟩
  | @carry player origin _ _ card hzone there room =>
      have hout := ht.modifyZone_live hc player origin (Zone.layout_removeLive · card)
        (Zone.cards_removeLive · card)
      obtain ⟨w, hw, hkind⟩ := Option.map_eq_some_iff.mp
        (ht.kind_eq hout (Table.playerIds_modifyZone ..) room)
      exact ⟨hi.table.carry hd hzone there hw hkind (hout.distinct hc), hi.books.congr rfl rfl rfl⟩
  | @condemn card _ reason hlive free =>
      refine ⟨hi.table.modifyLive _ (fun _ => rfl) fun _ => rfl, ?_⟩
      have hdead := hi.books.markLive card (g := ({ · with alive := false })) fun _ _ => rfl
      have hget := (Roster.get?_modify card card ({ · with alive := false })).trans
        ((if_pos rfl).trans (congrArg _ hlive))
      exact (hdead.schedule hget rfl _ reason free).congr rfl rfl rfl
  | @fade card =>
      refine ⟨hi.table.modifyLive _ (fun _ => rfl) fun _ => rfl, ?_⟩
      have hdead := hi.books.markLive card (g := ({ · with alive := false })) fun _ _ => rfl
      refine (hdead.release ?_).congr rfl rfl rfl
      rw [DestructionQueue.cards_cancel]
      exact List.filter_sublist
  | @replace card owner zone design cardType _ _ room =>
      rw [Match.Fresh, Match.handed_replace] at hfresh
      obtain ⟨-, hunused⟩ := Match.Fresh.next hfresh
      obtain ⟨z, hz, hkind⟩ := Option.map_eq_some_iff.mp room
      have hnew := hi.books.live?_eq_none hunused
      refine ⟨hi.table.replace hd card (.spawn _ design cardType owner) hz hkind hnew, ?_⟩
      have hspawn : ({ m with spawner := (m.spawner.spawn design.id owner).2 }.onTable fun table =>
          (table.insertLive (.spawn (m.spawner.spawn design.id owner).1 design cardType
            owner)).modifyZone owner zone (·.swapLive card
              (m.spawner.spawn design.id owner).1)).Books :=
        hi.books.spawn design.id owner rfl hunused rfl rfl rfl
      exact (hspawn.despawn card).congr rfl rfl rfl
  | _ => exact hi.congr rfl rfl rfl rfl

theorem Calm.handed (h : Calm rules scope m m') : m.spawner.handed <+: m'.spawner.handed := by
  cases h with
  | change h => exact h.handed
  | repeatQuestion => rw [Match.tell_eq_post]; exact List.prefix_rfl
  | discard hzone held => rw [Match.discardCard_eq hzone held]; exact List.prefix_rfl
  | shuffle player zone =>
      rcases m.shuffleZone_eq player zone with heq | ⟨z, dice, hz, heq⟩ <;>
        rw [heq]
      exact List.prefix_rfl
  | owe | demand => rw [Match.tell_eq_post]; exact List.prefix_rfl
  | _ => exact List.prefix_rfl

/-- Destructions hand out nothing. -/
theorem Match.handed_destroyAll (m : Match) (graveyard : Option String) (cards : List LiveId) :
    (m.destroyAll graveyard cards).spawner.handed = m.spawner.handed := by
  refine destroyAll_induction (P := fun m' => m'.spawner.handed = m.spawner.handed) ?_ cards rfl
  intro m' card h
  cases hlive : m'.table.live? card with
  | none => rw [destroy_of_none hlive, handed_despawn, h]
  | some live =>
      rw [destroy_eq hlive]
      exact (handed_despawn ..).trans h

/-- A step only ever adds to the handles handed out. -/
theorem Step.handed (h : Step rules scope m m') : m.spawner.handed <+: m'.spawner.handed := by
  cases h with
  | calm h => exact h.handed
  | destroyDue | destroyAfterEffect =>
      exact (Match.handed_destroyAll { m with destructions := _ } _ _).symm ▸ List.prefix_rfl
  | _ => exact List.prefix_rfl

theorem Calm.fresh (h : Calm rules scope m m') (hfresh : m'.Fresh) : m.Fresh :=
  hfresh.sublist h.handed.sublist

theorem Step.fresh (h : Step rules scope m m') (hfresh : m'.Fresh) : m.Fresh :=
  hfresh.sublist h.handed.sublist

theorem handed_of_steps (h : ReflTransGen (Step rules scope) m m') :
    m.spawner.handed <+: m'.spawner.handed := by
  induction h with
  | refl => exact List.prefix_rfl
  | tail _ hstep ih => exact ih.trans hstep.handed

theorem fresh_of_steps (h : ReflTransGen (Step rules scope) m m') (hfresh : m'.Fresh) : m.Fresh :=
  hfresh.sublist (handed_of_steps h).sublist

@[simp]
theorem Table.roster_bury (t : Table) (graveyard : Option String) (player : PlayerId)
    (card : CardId) : (t.bury graveyard player card).roster = t.roster := by
  cases graveyard <;> rfl

theorem Table.Integrity.bury {t : Table} (h : t.Integrity) (hd : t.Distinct)
    (graveyard : Option String) (player : PlayerId) (card : CardId) :
    (t.bury graveyard player card).Integrity := by
  cases graveyard with
  | none => exact h
  | some zone => exact h.pushCard hd player zone card

/-- A player may remember a card that is the card played. -/
theorem Table.Integrity.markPlayed {t : Table} (h : t.Integrity) {player : PlayerId}
    {design : CardId} {id : LiveId}
    (hplayed : ∀ live, t.live? id = some live → live.card = design ∧ live.owner = player) :
    (t.modifyPlayer player fun seat =>
      { seat with lastPlayed := some ⟨design, (t.live? id).map LiveCard.id⟩ }).Integrity := by
  refine ⟨?_, fun seat hseat last hlast other hother => ?_⟩
  · rw [gather_modifyPlayer Zone.live player (by intro; rfl) (by intro; rfl)]
    exact h.listed
  rcases mem_modifyPlayer hseat with hold | ⟨old, hold, he, rfl⟩
  · exact h.played seat hold last hlast other hother
  · cases hlast
    obtain ⟨live, hlive, rfl⟩ := Option.map_eq_some_iff.mp hother
    obtain ⟨hcard, howner⟩ := hplayed live hlive
    obtain ⟨-, hid⟩ := Roster.get?_eq_some_iff.mp hlive
    exact ⟨live, hid.symm ▸ hlive, hcard, howner.trans he.symm⟩

theorem Table.Integrity.clearLastPlayed {t : Table} (h : t.Integrity) :
    ({ t with players := t.players.map fun seat => { seat with lastPlayed := none } } :
      Table).Integrity := by
  refine ⟨?_, fun seat hseat last hlast => ?_⟩
  · rw [gather, List.flatMap_map]
    exact h.listed
  · obtain ⟨old, -, rfl⟩ := List.mem_map.mp hseat
    cases hlast

theorem DestructionQueue.card_countedDown (d : Doomed) : d.countedDown.card = d.card := by
  unfold Doomed.countedDown
  split <;> rfl

theorem DestructionQueue.map_card_countedDown (q : DestructionQueue) :
    (q.entries.map Doomed.countedDown).map Doomed.card = q.cards := by
  rw [cards, List.map_map]
  exact List.map_congr_left fun d _ => card_countedDown d

theorem DestructionQueue.cards_countDown (q : DestructionQueue) :
    q.countDown.2.cards.Sublist q.cards := by
  rw [← map_card_countedDown q]
  exact List.filter_sublist.map _

/-- Nobody is due twice. -/
theorem DestructionQueue.nodup_countDown {q : DestructionQueue} (h : q.cards.Nodup) :
    q.countDown.1.Nodup := by
  rw [← map_card_countedDown] at h
  exact h.sublist (List.filter_sublist.map _)

theorem Calm.integrity (hc : rules.catalog.Coherent) (hm : m.Conforms rules.catalog)
    (h : Calm rules scope m m') (hi : m.Integrity) (hfresh : m'.Fresh) : m'.Integrity := by
  have ht := hm.table
  have hd := ht.distinct hc
  have hold := h.fresh hfresh
  cases h with
  | change h => exact h.integrity hc hm hi hfresh
  | draw =>
      exact ⟨hi.table.modifyZone hd _ _ fun z _ => by rw [Zone.live_removeCard],
        hi.books.congr rfl rfl rfl⟩
  | markPlayed played => exact ⟨hi.table.markPlayed (played hold), hi.books.congr rfl rfl rfl⟩
  | repeatQuestion => rw [Match.tell_eq_post]; exact hi.congr rfl rfl rfl rfl
  | @discard player _ card hzone held =>
      rw [Match.discardCard_eq hzone held]
      have hout := hi.table.modifyZone hd player rules.config.handZone (g := (·.removeCard card))
        fun z _ => by rw [Zone.live_removeCard]
      exact ⟨hout.bury ((ht.removeCard hc _ _ _).distinct hc) _ _ _,
        hi.books.congr (Table.roster_bury ..) rfl rfl⟩
  | shuffle player zone =>
      rcases m.shuffleZone_eq player zone with heq | ⟨z, dice, hz, heq⟩ <;> rw [heq]
      · exact hi
      · exact ⟨hi.table.putPile hd hz (Pile.live_shuffle _ _), hi.books.congr rfl rfl rfl⟩
  | age =>
      exact ⟨hi.table.modifyLive _ (fun _ => rfl) fun _ => rfl,
        hi.books.markLive _ fun _ hdead => hdead⟩
  | owe | demand => rw [Match.tell_eq_post]; exact hi.congr rfl rfl rfl rfl
  | _ => exact hi.congr rfl rfl rfl rfl

/-- Cards that are destroyed leave the zones, the store, the host and the queue alike. -/
theorem Match.Conforms.integrity_destroyAll {c : Catalog} (hc : c.Coherent) (hm : m.Conforms c)
    (hi : m.Integrity) (graveyard : Option String) (cards : List LiveId) :
    (m.destroyAll graveyard cards).Integrity := by
  refine (destroyAll_induction (P := fun m => m.Conforms c ∧ m.Integrity) ?_ cards ⟨hm, hi⟩).2
  intro m card ⟨hm, hi⟩
  refine ⟨hm.destroy hc graveyard card, ?_⟩
  cases hlive : m.table.live? card with
  | none =>
      rw [destroy_of_none hlive]
      exact ⟨hi.table.removeLive _, hi.books.despawn _⟩
  | some live =>
      rw [destroy_eq hlive]
      exact ⟨(hi.table.removeLive _).bury ((hm.table.removeLive card).distinct hc) _ _ _,
        (hi.books.despawn _).congr (Table.roster_bury ..) rfl rfl⟩

/-- **As long as handles are fresh, every step keeps the agreement.** -/
theorem Step.integrity (hc : rules.catalog.Coherent) (hm : m.Conforms rules.catalog)
    (h : Step rules scope m m') (hi : m.Integrity) (hfresh : m'.Fresh) : m'.Integrity := by
  have ht := hm.table
  cases h with
  | calm h => exact h.integrity hc hm hi hfresh
  | disconnect =>
      exact ⟨hi.table.modifyPlayer _ (fun _ => rfl) (fun _ => rfl) fun _ => rfl,
        hi.books.congr rfl rfl rfl⟩
  | destroyDue =>
      exact (hm.release m.destructions.countDown.2).integrity_destroyAll hc
        ⟨hi.table, hi.books.release (DestructionQueue.cards_countDown _)⟩ _ _
  | destroyAfterEffect =>
      exact (hm.release m.destructions.takeAfterEffect.2).integrity_destroyAll hc
        ⟨hi.table, hi.books.release (List.filter_sublist.map _)⟩ _ _
  | clearLastPlayed => exact ⟨hi.table.clearLastPlayed, hi.books.congr rfl rfl rfl⟩
  | _ => exact hi.congr rfl rfl rfl rfl

/-! ## Reachable matches -/

theorem Match.integrity_opening (config : Config) (handle : Nat → LiveId) (dice : Dice) :
    (Match.opening config handle dice).Integrity :=
  ⟨⟨.refl _, fun _ h => absurd h List.not_mem_nil⟩,
    ⟨fun _ h => absurd h List.not_mem_nil, .refl _, List.nodup_nil,
      fun _ h => absurd h List.not_mem_nil⟩⟩

theorem Zone.live_foldl_pushCard (deck : List CardId) :
    ∀ z : Zone, (deck.foldl pushCard z).live = z.live := by
  induction deck with
  | nil => exact fun z => rfl
  | cons card rest ih => exact fun z => (ih _).trans (live_pushCard z card)

/-- Whoever takes a seat has no card in play. -/
theorem Match.live_nextPlayer (m : Match) (rules : Rulebook) (name : String)
    (connection : ConnectionId) (deck : List CardId) :
    (m.nextPlayer rules name connection deck).live = [] := by
  rw [Player.live, List.flatMap_eq_nil_iff]
  intro z hz
  have hempty : ∀ z ∈ (Player.seated ⟨UInt8.ofNat m.table.players.length⟩ name connection
      rules.catalog).zones, z.live = [] := by
    intro z hz
    obtain ⟨l, -, rfl⟩ := List.mem_map.mp hz
    obtain ⟨_, _, _ | _⟩ := l <;> rfl
  rcases Player.mem_modifyZone hz with hold | ⟨old, hold, -, rfl⟩
  · exact hempty z hold
  · rw [Zone.live_foldl_pushCard, hempty old hold]

/-- A new player changes nothing in play. -/
theorem Match.Integrity.seat (h : m.Integrity) (name : String) (connection : ConnectionId)
    (deck : List CardId) : (m.seat rules name connection deck).Integrity := by
  refine ⟨⟨?_, fun seat hseat last hlast => ?_⟩, h.books.congr rfl rfl rfl⟩
  · show List.Perm (List.flatMap _ (m.table.players ++ [_])) _
    rw [List.flatMap_append, List.flatMap_singleton]
    show List.Perm (_ ++ (m.nextPlayer rules name connection deck).live.map _) _
    rw [m.live_nextPlayer, List.map_nil, List.append_nil]
    exact h.table.listed
  · rcases List.mem_append.mp hseat with hold | hnew
    · exact h.table.played seat hold last hlast
    · obtain rfl := List.mem_singleton.mp hnew
      cases hlast

theorem Reachable.integrity (hc : rules.catalog.Coherent) (h : Reachable rules m)
    (hfresh : m.Fresh) : m.Integrity := by
  refine (h.induction hc (P := fun m => m.Fresh → m.Integrity)
    (fun handle dice _ => Match.integrity_opening _ handle dice) ?_ ?_).2 hfresh
  · intro m name connection deck _ _ hi hfresh
    exact (hi hfresh).seat name connection deck
  · exact fun m m' hm hstep hi hfresh =>
      hstep.integrity hc hm (hi (hstep.fresh hfresh)) hfresh

/-- **Zones, store, host, destructions and memories agree in every reachable match.**

The match has come about by any operations with any answers, for any settings, dice and row of
handles, as long as the host handed out no handle twice. -/
theorem reachable_integrity (hc : rules.catalog.Accepted) (h : Reachable rules m)
    (hunique : m.spawner.handed.Nodup) :
    -- The zones list each card of the store once, and the store keeps it under its own handle.
    (m.table.liveInOrder.Nodup ∧
      (∀ id, id ∈ m.table.liveInOrder ↔ (m.table.live? id).isSome) ∧
      ∀ id live, m.table.live? id = some live → live.id = id) ∧
    -- The owner of a card is the player in whose zone it is.
    (∀ seat ∈ m.table.players, ∀ z ∈ seat.zones, ∀ id ∈ z.live,
      ∃ live, m.table.live? id = some live ∧ live.owner = seat.id) ∧
    -- The host has the cards of the store and no others.
    (m.spawner.outstanding.Nodup ∧
      ∀ id, id ∈ m.spawner.outstanding ↔ (m.table.live? id).isSome) ∧
    -- The cards on their way out are distinct, in the store and dead.
    (m.destructions.cards.Nodup ∧ ∀ id ∈ m.destructions.cards,
      ∃ live, m.table.live? id = some live ∧ live.alive = false) ∧
    -- A last card played that is in play is of the design that was played.
    ∀ seat ∈ m.table.players, ∀ last, seat.lastPlayed = some last →
      ∀ id, last.live = some id → ∃ live, m.table.live? id = some live ∧ live.card = last.card := by
  have hi := h.integrity hc.coherent hunique
  have hstored : ∀ id, id ∈ m.table.roster.cards.map LiveCard.id ↔ (m.table.live? id).isSome := by
    intro id
    rw [Table.live?, Roster.get?, List.find?_isSome]
    simp
  refine ⟨⟨hi.table.nodup, fun id => ?_, fun id live hlive => ?_⟩, ?_, ⟨?_, fun id => ?_⟩,
    ⟨hi.books.doomed, hi.books.dead⟩, ?_⟩
  · rw [hi.table.mem_liveInOrder, Option.isSome_iff_exists]
  · exact (Roster.get?_eq_some_iff.mp hlive).2
  · intro seat hseat z hz id hid
    exact hi.table.owner hseat hz hid
  · exact hi.books.ledger.nodup_iff.mpr m.table.roster.distinct
  · rw [hi.books.ledger.mem_iff, hstored]
  · intro seat hseat last hlast id hid
    obtain ⟨live, hlive, hcard, -⟩ := hi.table.played seat hseat last hlast id hid
    exact ⟨live, hlive, hcard⟩

/-- Ann plays a wolf and an archer and kills the wolf: three structures change hands. -/
def Duel.killing : List Operation :=
  deal ++ [.playCard ⟨0⟩ ⟨1⟩, .playCard ⟨0⟩ ⟨2⟩, .kill ⟨0⟩]

theorem Duel.integrity_killing :
    (opening.run book killing).spawner.handed = [⟨0⟩, ⟨1⟩] ∧
    (opening.run book killing).table.liveInOrder = [⟨0⟩, ⟨1⟩] ∧
    (opening.run book killing).destructions.cards = [⟨0⟩] ∧
    (opening.run book killing).table.liveInOrder.Nodup ∧
    (opening.run book killing).spawner.outstanding.Nodup := by
  have hhanded : (opening.run book killing).spawner.handed = [⟨0⟩, ⟨1⟩] := by decide +kernel
  obtain ⟨⟨hlisted, -⟩, -, ⟨houtstanding, -⟩, -⟩ :=
    reachable_integrity accepted (reachable killing) (by rw [hhanded]; decide)
  exact ⟨hhanded, by decide +kernel, by decide +kernel, hlisted, houtstanding⟩

end CardArena
