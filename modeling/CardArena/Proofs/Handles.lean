import Mathlib
import CardArena.Proofs.Change

/-!
# Handles

The host hands out the handles of cards in play.  The match never compares two handles to see
whether they are new; it relies on the host for that, and so do the laws on cards in play: they hold
while no handle has been handed out twice (`Match.Fresh`).  Since handles are numbers of 64 bits,
this is a law of a run, not of a row of handles: no row stays fresh for ever.

* `Change.whose` : as long as handles are fresh, a handle that has been handed out stands for the
  same design and the same owner from then on.
-/

namespace CardArena

open Relation (ReflTransGen)

namespace Spawner

/-- The handles handed out so far, in order. -/
def handed (s : Spawner) : List LiveId :=
  (List.range s.issued).map s.handle

@[simp]
theorem handed_spawn (s : Spawner) (card : CardId) (owner : PlayerId) :
    (s.spawn card owner).2.handed = s.handed ++ [(s.spawn card owner).1] := by
  simp [handed, spawn, List.range_succ]

@[simp]
theorem handed_despawn (s : Spawner) (id : LiveId) : (s.despawn id).handed = s.handed := rfl

end Spawner

/-- No handle has been handed out twice. -/
def Match.Fresh (m : Match) : Prop :=
  m.spawner.handed.Nodup

namespace Match

variable {m : Match}

@[simp]
theorem handed_despawn (m : Match) (card : LiveId) :
    (m.despawn card).2.spawner.handed = m.spawner.handed := by
  simp only [despawn]
  split <;> rfl

theorem handed_bring (m : Match) (owner : PlayerId) (card : CardDesign) (cardType : CardType)
    (zone : String) : (m.bring owner card cardType zone).spawner.handed
      = m.spawner.handed ++ [(m.spawner.spawn card.id owner).1] :=
  Spawner.handed_spawn ..

theorem live?_bring (m : Match) (owner : PlayerId) (card : CardDesign) (cardType : CardType)
    (zone : String) :
    (m.bring owner card cardType zone).table.live? (m.spawner.spawn card.id owner).1
      = some (.spawn (m.spawner.spawn card.id owner).1 card cardType owner) :=
  (Roster.get?_insert ..).trans (if_pos rfl)

theorem handed_replace (m : Match) (card : LiveId) (owner : PlayerId) (zone : String)
    (design : CardDesign) (cardType : CardType) :
    (m.replace card owner zone design cardType).spawner.handed
      = m.spawner.handed ++ [(m.spawner.spawn design.id owner).1] :=
  (handed_despawn _ _).trans (Spawner.handed_spawn ..)

/-- The handle handed out next is none of those before it. -/
theorem Fresh.next {next : LiveId} (h : (m.spawner.handed ++ [next]).Nodup) :
    m.Fresh ∧ next ∉ m.spawner.handed := by
  rw [List.nodup_append] at h
  exact ⟨h.1, fun hmem => h.2.2 next hmem next List.mem_cons_self rfl⟩

end Match

variable {rules : Rulebook} {scope : Scope} {m m' : Match}

/-- Handles are only ever added to those handed out. -/
theorem Change.handed (h : Change rules scope m m') :
    m.spawner.handed <+: m'.spawner.handed := by
  cases h with
  | ask => rw [Match.tell_eq_post]; exact List.prefix_rfl
  | bring => rw [Match.handed_bring]; exact List.prefix_append _ _
  | refund owner card =>
      have heq : (m.refund owner card).spawner.handed
          = m.spawner.handed ++ [(m.spawner.spawn card owner).1] :=
        (Spawner.handed_despawn ..).trans (Spawner.handed_spawn ..)
      rw [heq]
      exact List.prefix_append _ _
  | deploy => rw [Match.handed_bring]; exact List.prefix_append _ _
  | withdraw =>
      show _ <+: (m.despawn _).2.spawner.handed
      rw [Match.handed_despawn]
  | strike => rw [Match.handed_despawn]
  | replace => rw [Match.handed_replace]; exact List.prefix_append _ _
  | _ => exact List.prefix_rfl

theorem Change.fresh (h : Change rules scope m m') (hfresh : m'.Fresh) : m.Fresh :=
  hfresh.sublist h.handed.sublist

/-- Two cards of one design and one owner. -/
def LiveCard.Same (a b : LiveCard) : Prop :=
  a.card = b.card ∧ a.owner = b.owner

/-- What may become of a card in play: its design and its owner stay, and the dead stay dead. -/
structure LiveCard.Becomes (a b : LiveCard) : Prop where
  same : a.Same b
  dead : a.alive = false → b.alive = false

namespace LiveCard.Becomes

theorem refl (live : LiveCard) : live.Becomes live :=
  ⟨⟨rfl, rfl⟩, fun hdead => hdead⟩

theorem trans {a b c : LiveCard} (h : a.Becomes b) (h' : b.Becomes c) : a.Becomes c :=
  ⟨⟨h.same.1.trans h'.same.1, h.same.2.trans h'.same.2⟩, fun hdead => h'.dead (h.dead hdead)⟩

end LiveCard.Becomes

/-- Whoever is in play under a handle afterwards was in play under it before. -/
def Match.Descends (id : LiveId) (m m' : Match) : Prop :=
  ∀ live', m'.table.live? id = some live' →
    ∃ live, m.table.live? id = some live ∧ live.Becomes live'

namespace Match.Descends

variable {id : LiveId}

theorem refl (m : Match) : Descends id m m :=
  fun live' hlive => ⟨live', hlive, .refl live'⟩

theorem trans {m'' : Match} (h : Descends id m m') (h' : Descends id m' m'') :
    Descends id m m'' := by
  intro live'' hlive''
  obtain ⟨live', hlive', hbecomes'⟩ := h' live'' hlive''
  obtain ⟨live, hlive, hbecomes⟩ := h live' hlive'
  exact ⟨live, hlive, hbecomes.trans hbecomes'⟩

theorem of_roster (h : m'.table.roster = m.table.roster) : Descends id m m' := by
  intro live' hlive
  rw [Table.live?, h] at hlive
  exact ⟨live', hlive, .refl live'⟩

theorem mark (card : LiveId) {change : LiveCard → LiveCard}
    (h : m'.table.roster = m.table.roster.modify card change)
    (hbecomes : ∀ live : LiveCard, live.Becomes (change live)) : Descends id m m' := by
  intro live' hlive
  rw [Table.live?, h, Roster.get?_modify] at hlive
  split_ifs at hlive with he
  · obtain ⟨live, hold, rfl⟩ := Option.map_eq_some_iff.mp hlive
    exact ⟨live, he ▸ hold, (hbecomes live).same, (hbecomes live).dead⟩
  · exact ⟨live', hlive, .refl live'⟩

theorem insert {card : LiveCard} (h : m'.table.roster = m.table.roster.insert card)
    (hnew : id ≠ card.id) : Descends id m m' := by
  intro live' hlive
  rw [Table.live?, h, Roster.get?_insert, if_neg hnew] at hlive
  exact ⟨live', hlive, .refl live'⟩

theorem erase (card : LiveId) (h : m'.table.roster = m.table.roster.erase card) :
    Descends id m m' := by
  intro live' hlive
  rw [Table.live?, h, Roster.get?_erase] at hlive
  split_ifs at hlive
  exact ⟨live', hlive, .refl live'⟩

end Match.Descends

/-- **A handle that has been handed out keeps its design and its owner, and its card does not come
back.** -/
theorem Change.whose (h : Change rules scope m m') (hfresh : m'.Fresh) {id : LiveId}
    (hid : id ∈ m.spawner.handed) : Match.Descends id m m' := by
  have hnew : ∀ {next : LiveId}, (m.spawner.handed ++ [next]).Nodup → id ≠ next := by
    rintro next hnodup rfl
    exact (Match.Fresh.next hnodup).2 hid
  have hkilled : ∀ live : LiveCard, live.Becomes { live with alive := false } :=
    fun live => ⟨⟨rfl, rfl⟩, fun _ => rfl⟩
  cases h with
  | ask => rw [Match.tell_eq_post]; exact .of_roster rfl
  | @writeCard _ card => exact .mark card rfl fun live => ⟨⟨rfl, rfl⟩, fun hdead => hdead⟩
  | @bring owner design cardType zone =>
      rw [Match.Fresh, Match.handed_bring] at hfresh
      exact .insert rfl (hnew hfresh)
  | deploy =>
      rw [Match.Fresh, Match.handed_bring] at hfresh
      exact .insert rfl (hnew hfresh)
  | @withdraw _ _ _ _ card => exact .erase card rfl
  | @strike card => exact .erase card rfl
  | @condemn card => exact .mark card rfl hkilled
  | @fade card => exact .mark card rfl hkilled
  | @replace card owner zone design cardType =>
      rw [Match.Fresh, Match.handed_replace] at hfresh
      have hinserted : Match.Descends id m (m.bring owner design cardType zone) :=
        .insert rfl (hnew hfresh)
      exact hinserted.trans (.erase card rfl)
  | _ => exact .of_roster rfl

theorem handed_of_changes (h : ReflTransGen (Change rules scope) m m') :
    m.spawner.handed <+: m'.spawner.handed := by
  induction h with
  | refl => exact List.prefix_rfl
  | tail _ hstep ih => exact ih.trans hstep.handed

/-- What a handle stands for is settled when it is handed out, however much changes afterwards. -/
theorem whose_of_changes (h : ReflTransGen (Change rules scope) m m') {id : LiveId}
    (hid : id ∈ m.spawner.handed) (hfresh : m'.Fresh) : Match.Descends id m m' := by
  induction h with
  | refl => exact .refl m
  | tail hpath hstep ih =>
      exact (ih (hstep.fresh hfresh)).trans
        (hstep.whose hfresh ((handed_of_changes hpath).subset hid))

end CardArena
