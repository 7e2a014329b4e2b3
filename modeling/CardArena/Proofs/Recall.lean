import Mathlib
import CardArena.Proofs.Step

/-!
# What players remember

A player remembers the design of the last card that they played, and the card in play that it became
for as long as that one is in play.  A change takes at most one card out of play, and then whoever
remembers it forgets it, but not its design (`Change.retains_or_releases`).  That is all that a change
does to memories: no player comes to remember another design, and nobody forgets one.

Within a turn a memory is made in one way only, which is to play a card.  Everything else that is done
is `Mild`, and the laws of `Proofs.Course` on what stays within the turn are laws on what is mild
wherever no card is played.

* `Change.retains_or_releases` : what a change makes of memories.
* `Match.Recalls` : every player remembers a card of the same design, or none, as before.
-/

namespace CardArena

open Relation (ReflTransGen)

/-! ## Memories -/

namespace LastPlayed

/-- What is remembered of a play when a card leaves play. -/
def forget (last : LastPlayed) (card : LiveId) : LastPlayed :=
  if last.live = some card then { last with live := none } else last

@[simp]
theorem card_forget (last : LastPlayed) (card : LiveId) : (last.forget card).card = last.card := by
  unfold forget
  split <;> rfl

theorem forget_self (design : CardId) (card : LiveId) :
    forget ⟨design, some card⟩ card = ⟨design, none⟩ :=
  if_pos rfl

theorem forget_other {last : LastPlayed} {card : LiveId} (h : last.live ≠ some card) :
    last.forget card = last :=
  if_neg h

end LastPlayed

namespace Table

variable {t : Table}

/-- What a player remembers. -/
def lastPlayed? (t : Table) (player : PlayerId) : Option LastPlayed :=
  (t.player? player).bind Player.lastPlayed

theorem lastPlayed?_modifyPlayer (id : PlayerId) {change : Player → Player}
    (hid : ∀ seat, (change seat).id = seat.id)
    (hplayed : ∀ seat, (change seat).lastPlayed = seat.lastPlayed) (player : PlayerId) :
    (t.modifyPlayer id change).lastPlayed? player = t.lastPlayed? player := by
  rw [lastPlayed?, lastPlayed?, player?_modifyPlayer id hid]
  cases t.player? player with
  | none => rfl
  | some seat =>
      show Player.lastPlayed (if seat.id = id then change seat else seat) = seat.lastPlayed
      split
      · exact hplayed seat
      · rfl

@[simp]
theorem lastPlayed?_modifyZone (id : PlayerId) (name : String) (change : Zone → Zone)
    (player : PlayerId) :
    (t.modifyZone id name change).lastPlayed? player = t.lastPlayed? player :=
  @lastPlayed?_modifyPlayer t id (·.modifyZone name change) (fun _ => rfl) (fun _ => rfl) player

theorem lastPlayed?_removeLive (card : LiveId) (player : PlayerId) :
    (t.removeLive card).lastPlayed? player = (t.lastPlayed? player).map (·.forget card) := by
  rw [lastPlayed?, lastPlayed?, player?_removeLive]
  cases t.player? player with
  | none => rfl
  | some seat => rfl

/-- A player who is seated comes to remember a card, and everybody else remembers what they did. -/
theorem lastPlayed?_mark {player : PlayerId} (hseated : (t.player? player).isSome)
    (last : LastPlayed) (other : PlayerId) :
    (t.modifyPlayer player ({ · with lastPlayed := some last })).lastPlayed? other
      = if other = player then some last else t.lastPlayed? other := by
  have hfound :=
    @player?_modifyPlayer t player ({ · with lastPlayed := some last }) (fun _ => rfl) other
  rw [lastPlayed?, lastPlayed?, hfound]
  cases hseat : t.player? other with
  | none =>
      rw [if_neg]
      · rfl
      · rintro rfl
        rw [hseat] at hseated
        cases hseated
  | some seat =>
      obtain ⟨-, rfl⟩ := mem_of_player? hseat
      show Player.lastPlayed (if seat.id = player then _ else seat) = _
      split <;> rfl

end Table

/-! ## What a change makes of memories -/

namespace Match

/-- Everybody remembers what they did, and whatever is in play stays there. -/
structure Retains (m m' : Match) : Prop where
  memory : ∀ player, m'.table.lastPlayed? player = m.table.lastPlayed? player
  present : ∀ id, (m.table.live? id).isSome → (m'.table.live? id).isSome

/-- A card leaves play and is forgotten, and whatever else is in play stays there. -/
structure Releases (card : LiveId) (m m' : Match) : Prop where
  memory : ∀ player, m'.table.lastPlayed? player = (m.table.lastPlayed? player).map (·.forget card)
  gone : m'.table.live? card = none
  present : ∀ id, id ≠ card → (m.table.live? id).isSome → (m'.table.live? id).isSome

variable {m m' : Match}

theorem Retains.of_roster (hroster : m'.table.roster = m.table.roster)
    (memory : ∀ player, m'.table.lastPlayed? player = m.table.lastPlayed? player) :
    m.Retains m' :=
  ⟨memory, fun id hid => by rwa [Table.live?, hroster]⟩

theorem Retains.of_insert {live : LiveCard} (hroster : m'.table.roster = m.table.roster.insert live)
    (memory : ∀ player, m'.table.lastPlayed? player = m.table.lastPlayed? player) :
    m.Retains m' := by
  refine ⟨memory, fun id hid => ?_⟩
  rw [Table.live?, hroster, Roster.get?_insert]
  split
  · rfl
  · exact hid

theorem Retains.of_modify (card : LiveId) {change : LiveCard → LiveCard}
    (hroster : m'.table.roster = m.table.roster.modify card change)
    (memory : ∀ player, m'.table.lastPlayed? player = m.table.lastPlayed? player) :
    m.Retains m' := by
  refine ⟨memory, fun id hid => ?_⟩
  rw [Table.live?, hroster, Roster.get?_modify]
  split
  · next h => rwa [Option.isSome_map, ← h]
  · exact hid

theorem Releases.of_erase {card : LiveId} (hroster : m'.table.roster = m.table.roster.erase card)
    (memory : ∀ player,
      m'.table.lastPlayed? player = (m.table.lastPlayed? player).map (·.forget card)) :
    m.Releases card m' := by
  have hget (id : LiveId) : m'.table.live? id = if id = card then none else m.table.live? id := by
    rw [Table.live?, hroster, Roster.get?_erase]
    rfl
  refine ⟨memory, (hget card).trans (if_pos rfl), fun id hne hid => ?_⟩
  rwa [hget, if_neg hne]

theorem Releases.after {m₁ : Match} {card : LiveId} (h : m.Retains m₁) (h' : m₁.Releases card m') :
    m.Releases card m' :=
  ⟨fun player => (h'.memory player).trans (by rw [h.memory player]), h'.gone,
    fun id hne hid => h'.present id hne (h.present id hid)⟩

end Match

variable {rules : Rulebook} {scope : Scope} {m m' : Match}

open Match (Retains Releases)

/-- **A change leaves memories as they are, or makes everybody forget one card that leaves play.** -/
theorem Change.retains_or_releases (h : Change rules scope m m') :
    m.Retains m' ∨ ∃ card, m.Releases card m' := by
  cases h with
  | ask => rw [Match.tell_eq_post]; exact .inl (.of_roster rfl fun _ => rfl)
  | writePlayer =>
      exact .inl (.of_roster rfl (Table.lastPlayed?_modifyPlayer _ (fun _ => rfl) fun _ => rfl))
  | writeCard => exact .inl (.of_modify _ rfl fun _ => rfl)
  | bring => exact .inl (.of_insert rfl fun _ => Table.lastPlayed?_modifyZone ..)
  | shift =>
      exact .inl (.of_roster rfl fun _ =>
        (Table.lastPlayed?_modifyZone ..).trans (Table.lastPlayed?_modifyZone ..))
  | deploy =>
      exact .inl (.of_insert rfl fun _ =>
        (Table.lastPlayed?_modifyZone ..).trans (Table.lastPlayed?_modifyZone ..))
  | @withdraw _ _ _ _ card =>
      exact .inr ⟨card, .of_erase rfl fun _ =>
        (Table.lastPlayed?_modifyZone ..).trans (Table.lastPlayed?_removeLive ..)⟩
  | @strike card => exact .inr ⟨card, .of_erase rfl (Table.lastPlayed?_removeLive card)⟩
  | carry =>
      exact .inl (.of_roster rfl fun _ =>
        (Table.lastPlayed?_modifyZone ..).trans (Table.lastPlayed?_modifyZone ..))
  | condemn => exact .inl (.of_modify _ rfl fun _ => rfl)
  | fade => exact .inl (.of_modify _ rfl fun _ => rfl)
  | @replace card owner zone design cardType =>
      have hinserted : m.Retains (m.bring owner design cardType zone) :=
        .of_insert rfl fun _ => Table.lastPlayed?_modifyZone ..
      refine .inr ⟨card, .after hinserted (.of_erase rfl fun player => ?_)⟩
      refine (Table.lastPlayed?_removeLive card player).trans (congrArg _ ?_)
      exact (Table.lastPlayed?_modifyZone ..).trans (hinserted.memory player).symm
  | _ => exact .inl (.of_roster rfl fun _ => rfl)

/-! ## What is done within a turn -/

/-- Everybody remembers a card of the same design as before, or none as before. -/
def Match.Recalls (m m' : Match) : Prop :=
  ∀ player, (m'.table.lastPlayed? player).map LastPlayed.card
    = (m.table.lastPlayed? player).map LastPlayed.card

namespace Match.Recalls

theorem refl (m : Match) : m.Recalls m :=
  fun _ => rfl

theorem trans {m'' : Match} (h : m.Recalls m') (h' : m'.Recalls m'') : m.Recalls m'' :=
  fun player => (h' player).trans (h player)

theorem of_memory (h : ∀ player, m'.table.lastPlayed? player = m.table.lastPlayed? player) :
    m.Recalls m' :=
  fun player => by rw [h player]

theorem chain {r : Match → Match → Prop} (hr : ∀ a b, r a b → a.Recalls b)
    (h : ReflTransGen r m m') : m.Recalls m' := by
  induction h with
  | refl => exact .refl m
  | tail _ hstep ih => exact ih.trans (hr _ _ hstep)

/-- Who remembers nothing still remembers nothing. -/
theorem eq_none_iff (h : m.Recalls m') (player : PlayerId) :
    m'.table.lastPlayed? player = none ↔ m.table.lastPlayed? player = none := by
  rw [← Option.map_eq_none_iff, h player, Option.map_eq_none_iff]

end Match.Recalls

theorem Change.recalls (h : Change rules scope m m') : m.Recalls m' := by
  rcases h.retains_or_releases with hretains | ⟨card, hreleases⟩
  · exact .of_memory hretains.memory
  · intro player
    rw [hreleases.memory player, Option.map_map]
    exact congrArg (Option.map · _) (funext fun last => last.card_forget card)

/-- Something is done within a turn that makes nobody remember another design. -/
def Mild (rules : Rulebook) (scope : Scope) (m m' : Match) : Prop :=
  Calm rules scope m m' ∧ m.Recalls m'

namespace Mild

theorem change (h : Change rules scope m m') : Mild rules scope m m' :=
  ⟨.change h, h.recalls⟩

/-- What leaves the table alone is mild. -/
theorem of_table (h : Calm rules scope m m') (htable : m'.table = m.table) :
    Mild rules scope m m' :=
  ⟨h, .of_memory fun _ => by rw [htable]⟩

theorem draw {player : PlayerId} {z : Zone} {card : CardId} (allowed : scope.creates = true)
    (hzone : m.table.zone? player rules.config.handZone = some z) (held : card ∈ z.cards) :
    Mild rules scope m
      (m.onTable (·.modifyZone player rules.config.handZone (·.removeCard card))) :=
  ⟨.draw allowed hzone held, .of_memory fun _ => Table.lastPlayed?_modifyZone ..⟩

theorem shuffle (player : PlayerId) (zone : String) :
    Mild rules scope m (m.shuffleZone player zone) := by
  refine ⟨.shuffle player zone, ?_⟩
  rcases m.shuffleZone_eq player zone with heq | ⟨z, dice, hz, heq⟩ <;> rw [heq]
  · exact .refl m
  · exact .of_memory fun _ => Table.lastPlayed?_modifyZone ..

theorem age (card : LiveId) (turns : UInt32) (allowed : scope.turns = true) :
    Mild rules scope m (m.onTable (·.modifyLive card ({ · with turnsInPlay := turns }))) :=
  ⟨.age card turns allowed, .of_memory fun _ => rfl⟩

theorem repeatQuestion (player : PlayerId) (selection : Selection) :
    Mild rules scope m (m.tell player selection.question) := by
  refine .of_table (.repeatQuestion player selection) ?_
  rw [Match.tell_eq_post]
  rfl

end Mild

theorem recalls_of_mild (h : ReflTransGen (Mild rules scope) m m') : m.Recalls m' :=
  .chain (fun _ _ => And.right) h

theorem calm_of_mild (h : ReflTransGen (Mild rules scope) m m') :
    ReflTransGen (Calm rules scope) m m' :=
  ReflTransGen.mono (fun _ _ => And.left) _ _ h

end CardArena
