import Mathlib
import CardArena.Proofs.Integrity

/-!
# What a move is when nothing fires

A move takes cards from the top of one zone of a player to the top of another, one at a time, in one
of four ways: designs stay designs or come into play, cards in play leave it or stay in play.  Of
each of them effects may make anything.  In a game in which nothing is set off (`Catalog.Inert`) a
move is what its name says, and the four ways are one.

What a move does is said for any number of cards at once, and in two parts.  `Recast` says what the
cards taken become, who leaves play for that and who comes; it is the only place that knows the four
ways.  `Match.Relocates` says what that makes of the match: a pile is lower, another is higher, some
cards are no more in play, others are, and all the rest is as it was.  Both can be done in turn
(`Recast.append`, `Match.Relocates.trans`), so that one card, looked at in four ways, gives any
number of them.

Who is in play is looked up by handle.  So these are laws of matches whose books agree
(`Match.Integrity`), and of hosts that hand out no handle twice.

* `moves_are_plain` : the main statement, of every reachable match.
-/

namespace CardArena

open Play

/-! ## Games in which nothing fires -/

/-- Every effect of the game is a permanent one, and these are only asked for. -/
def Catalog.Inert (c : Catalog) : Prop :=
  ∀ effect, c.Carries effect → c.isPermanent effect.definition = true

section

variable {rules : Rulebook} {resolve : Resolver} {c : Catalog}

/-- Nobody listens for anything. -/
theorem Catalog.Inert.listeners (h : c.Inert) (card : LiveCard) (event : Event) :
    c.listeners card event = [] := by
  refine List.eq_nil_iff_forall_not_mem.mpr ?_
  intro effect heffect
  have hpermanent := h effect (Catalog.carries_of_listener heffect)
  unfold Catalog.listeners at heffect
  split at heffect
  · cases heffect
  · simp [hpermanent] at heffect

theorem raiseTransition_inert (h : rules.catalog.Inert) (direction : Direction) (zone : String)
    (card : LiveId) (m : Match) :
    (raiseTransition rules resolve direction zone card).run m = (.ok (), m) :=
  raise_unheard (fun live => h.listeners live _) card m

theorem welcome_inert (h : rules.catalog.Inert) (zone : String) (card : LiveId) (m : Match) :
    (welcome rules resolve zone card).run m = (.ok card, m) := by
  rw [welcome, run_bind_ok (raiseTransition_inert h .enter zone card m)]
  rfl

end

/-! ## Piles -/

namespace Pile

/-- The pile without so many cards from the top. -/
def below (count : Nat) : Pile → Pile
  | .static cards => .static (cards.rdrop count)
  | .dynamic cards => .dynamic (cards.rdrop count)

/-- So many cards from the top, the topmost first. -/
def taken (count : Nat) : Pile → Pile
  | .static cards => .static (cards.reverse.take count)
  | .dynamic cards => .dynamic (cards.reverse.take count)

/-- The pile with the cards of another on top, in their order. -/
def topped : Pile → Pile → Pile
  | .static cards, load => .static (cards ++ load.cards)
  | .dynamic cards, load => .dynamic (cards ++ load.live)

variable {pile load more : Pile}

@[simp]
theorem kind_below (count : Nat) (pile : Pile) : (pile.below count).kind = pile.kind := by
  cases pile <;> rfl

@[simp]
theorem kind_taken (count : Nat) (pile : Pile) : (pile.taken count).kind = pile.kind := by
  cases pile <;> rfl

@[simp]
theorem kind_topped (pile load : Pile) : (pile.topped load).kind = pile.kind := by
  cases pile <;> rfl

@[simp]
theorem below_zero (pile : Pile) : pile.below 0 = pile := by
  cases pile <;> simp [below]

@[simp]
theorem topped_empty (kind : ZoneKind) (pile : Pile) : pile.topped (.empty kind) = pile := by
  cases pile <;> cases kind <;> simp [topped, empty, cards, live]

theorem taken_zero (pile : Pile) : pile.taken 0 = .empty pile.kind := by
  cases pile <;> rfl

theorem size_below (count : Nat) (pile : Pile) : (pile.below count).size = pile.size - count := by
  cases pile <;> simp [below, size, List.rdrop]

theorem rdrop_rdrop {α : Type} (l : List α) (i j : Nat) :
    (l.rdrop i).rdrop j = l.rdrop (i + j) := by
  simp [List.rdrop_eq_reverse_drop_reverse]

theorem below_below (i j : Nat) (pile : Pile) : (pile.below i).below j = pile.below (i + j) := by
  cases pile <;> simp [below, rdrop_rdrop]

theorem taken_add (i j : Nat) (pile : Pile) :
    pile.taken (i + j) = (pile.taken i).topped ((pile.below i).taken j) := by
  cases pile <;>
    simp [taken, below, topped, Pile.cards, live, List.take_add, List.rdrop_eq_reverse_drop_reverse]

theorem topped_topped (h : load.kind = more.kind) (pile : Pile) :
    (pile.topped load).topped more = pile.topped (load.topped more) := by
  cases pile <;> cases load <;> cases more <;> simp_all [topped, Pile.cards, live, kind]

/-- What is taken from the top and put back is where it was. -/
theorem topped_taken_one (pile : Pile) : (pile.below 1).topped (pile.taken 1) = pile := by
  have hback {α : Type} (l : List α) : l.rdrop 1 ++ l.reverse.take 1 = l := by
    rcases List.eq_nil_or_concat' l with rfl | ⟨init, last, rfl⟩
    · rfl
    · simp [List.rdrop]
  cases pile with
  | static cards => exact congrArg Pile.static (hback cards)
  | dynamic cards => exact congrArg Pile.dynamic (hback cards)

/-- The top of a pile of designs can be taken. -/
theorem popCard?_eq (h : pile.kind = .static) (hsize : 0 < pile.size) :
    ∃ card, pile.popCard? = some (card, pile.below 1) ∧ pile.taken 1 = .static [card] := by
  cases pile with
  | dynamic cards => cases h
  | static cards =>
      obtain ⟨init, card, rfl⟩ := (List.eq_nil_or_concat' cards).resolve_left
        (List.ne_nil_of_length_pos hsize)
      exact ⟨card, by simp [popCard?, below, List.rdrop], by simp [taken]⟩

/-- The top of a pile of cards in play can be taken, if no card is there twice. -/
theorem removeLive?_eq (h : pile.kind = .dynamic) (hsize : 0 < pile.size) :
    ∃ card, pile.live.getLast? = some card ∧ pile.taken 1 = .dynamic [card] ∧
      (pile.live.Nodup → pile.removeLive? card = some (pile.below 1)) := by
  cases pile with
  | static cards => cases h
  | dynamic cards =>
      obtain ⟨init, card, rfl⟩ := (List.eq_nil_or_concat' cards).resolve_left
        (List.ne_nil_of_length_pos hsize)
      refine ⟨card, by simp [live], by simp [taken], fun hnodup => ?_⟩
      have hnew : card ∉ init := fun hmem => (List.nodup_append.mp hnodup).2.2 card hmem card
        List.mem_cons_self rfl
      simp [removeLive?, below, List.rdrop, List.erase_append_right _ hnew]

end Pile

theorem Zone.pushCard_eq_topped (z : Zone) (card : CardId) :
    z.pushCard card = { z with pile := z.pile.topped (.static [card]) } := by
  obtain ⟨name, isPrivate, held | held⟩ := z
  · rfl
  · simp [pushCard, update, Pile.pushCard?, Pile.topped, Pile.live]

theorem Zone.pushLive_eq_topped (z : Zone) (card : LiveId) :
    z.pushLive card = { z with pile := z.pile.topped (.dynamic [card]) } := by
  obtain ⟨name, isPrivate, held | held⟩ := z
  · simp [pushLive, update, Pile.pushLive?, Pile.topped, Pile.cards]
  · rfl

theorem Zone.removeLive_of_not_mem {z : Zone} {card : LiveId} (h : card ∉ z.live) :
    z.removeLive card = z := by
  obtain ⟨name, isPrivate, held | held⟩ := z
  · rfl
  · have hout : card ∉ held := h
    simp [removeLive, update, Pile.removeLive?, hout]

/-! ## What the cards become -/

/-- A card has just come into play: it is alive, has seen no turn, and has the attributes of its
type. -/
structure LiveCard.Newborn (c : Catalog) (owner : PlayerId) (live : LiveCard) : Prop where
  owner : live.owner = owner
  alive : live.alive = true
  turns : live.turnsInPlay = 0
  attributes : ∃ design cardType, c.typed? live.card = some (design, cardType) ∧
    live.attributes = cardType.attributes

theorem LiveCard.newborn_spawn {c : Catalog} {design : CardDesign} {cardType : CardType}
    (typed : c.typed? design.id = some (design, cardType)) (id : LiveId) (owner : PlayerId) :
    (LiveCard.spawn id design cardType owner).Newborn c owner :=
  ⟨rfl, rfl, rfl, design, cardType, typed, rfl⟩

/-- What the cards taken from a pile become on their way to another one, which cards leave play for
that, and which come into play: designs stay designs or come into play as new cards, and cards in
play leave it as their designs or stay in play. -/
inductive Recast (c : Catalog) (owner : PlayerId) :
    (taken load : Pile) → (gone came : List LiveCard) → Prop
  | designs (cards : List CardId) : Recast c owner (.static cards) (.static cards) [] []
  | spawned (came : List LiveCard) (newborn : ∀ live ∈ came, live.Newborn c owner) :
      Recast c owner (.static (came.map LiveCard.card)) (.dynamic (came.map LiveCard.id)) [] came
  | withdrawn (gone : List LiveCard) :
      Recast c owner (.dynamic (gone.map LiveCard.id)) (.static (gone.map LiveCard.card)) gone []
  | carried (ids : List LiveId) : Recast c owner (.dynamic ids) (.dynamic ids) [] []

namespace Recast

variable {c : Catalog} {owner : PlayerId} {taken load taken' load' : Pile}
  {gone came gone' came' : List LiveCard}

theorem nothing (kind kind' : ZoneKind) :
    Recast c owner (.empty kind) (.empty kind') [] [] := by
  cases kind <;> cases kind'
  · exact .designs []
  · exact .spawned [] nofun
  · exact .withdrawn []
  · exact .carried []

/-- Nobody comes into play while others leave it. -/
theorem oneWay (h : Recast c owner taken load gone came) : gone = [] ∨ came = [] := by
  cases h with
  | withdrawn => exact .inr rfl
  | _ => exact .inl rfl

/-- **More cards become what they would become alone.** -/
theorem append (h : Recast c owner taken load gone came)
    (h' : Recast c owner taken' load' gone' came') (htaken : taken.kind = taken'.kind)
    (hload : load.kind = load'.kind) :
    Recast c owner (taken.topped taken') (load.topped load') (gone ++ gone') (came ++ came') := by
  cases h with
  | designs cards =>
      cases h' with
      | designs cards' => exact .designs (cards ++ cards')
      | spawned => cases hload
      | _ => cases htaken
  | spawned came newborn =>
      cases h' with
      | spawned came' newborn' =>
          have hall : Recast c owner _ _ [] _ := .spawned (came ++ came')
            (List.forall_mem_append.mpr ⟨newborn, newborn'⟩)
          rwa [List.map_append, List.map_append] at hall
      | designs => cases hload
      | _ => cases htaken
  | withdrawn gone =>
      cases h' with
      | withdrawn gone' =>
          have hall : Recast c owner _ _ _ [] := .withdrawn (gone ++ gone')
          rwa [List.map_append, List.map_append] at hall
      | carried => cases hload
      | _ => cases htaken
  | carried ids =>
      cases h' with
      | carried ids' => exact .carried (ids ++ ids')
      | withdrawn => cases hload
      | _ => cases htaken

end Recast

/-! ## What is left, and what is there -/

/-- The player but for the zones, when some cards have left play. -/
def Player.without (gone : List LiveId) (p : Player) : Player :=
  { p with
    zones := []
    lastPlayed := p.lastPlayed.map fun last =>
      if last.live.any (· ∈ gone) then { last with live := none } else last }

theorem Player.without_without (gone gone' : List LiveId) (p : Player) :
    (p.without gone).without gone' = p.without (gone ++ gone') := by
  obtain ⟨id, handle, connection, isConnected, name, attributes, zones, _ | ⟨card, _ | live⟩⟩ := p
  · rfl
  · simp [without]
  · by_cases hgone : live ∈ gone
    · simp [without, hgone]
    · by_cases hgone' : live ∈ gone' <;> simp [without, hgone, hgone']

/-- So many cards have been taken from the top of a zone of a player, and another has this on top. -/
structure Table.Shifts (player : PlayerId) (origin destination : String) (count : Nat) (load : Pile)
    (t t' : Table) : Prop where
  lower : t'.zone? player origin
    = (t.zone? player origin).map fun z => { z with pile := z.pile.below count }
  higher : t'.zone? player destination
    = (t.zone? player destination).map fun z => { z with pile := z.pile.topped load }
  elsewhere : ∀ owner zone, ¬ (owner = player ∧ (zone = origin ∨ zone = destination)) →
    t'.zone? owner zone = t.zone? owner zone

/-- So many cards have gone from the top of a zone of a player to the top of another, where they are
now this pile.  For that these cards have left play, and these have come into play under the handles
that the host has handed out next.  Of cards that have left play nothing is left, and nothing else
has happened, but for what the players and the host have been told. -/
structure Match.Relocates (player : PlayerId) (origin destination : String) (count : Nat)
    (load : Pile) (gone came : List LiveCard) (m m' : Match) : Prop where
  zones : m.table.Shifts player origin destination count load m'.table
  seats : m'.table.players.map (·.without [])
    = m.table.players.map (·.without (gone.map LiveCard.id))
  departed : ∀ live ∈ gone, m.table.live? live.id = some live ∧ m'.table.live? live.id = none
  entered : ∀ live ∈ came, live.id ∉ m.spawner.handed ∧ m'.table.live? live.id = some live
  kept : ∀ id, id ∉ gone.map LiveCard.id → id ∉ came.map LiveCard.id →
    m'.table.live? id = m.table.live? id
  handed : m'.spawner.handed = m.spawner.handed ++ came.map LiveCard.id
  destructions : m'.destructions.entries
    = m.destructions.entries.filter fun doomed => doomed.card ∉ gone.map LiveCard.id
  turn : m'.table.turn = m.table.turn
  frame : m' = { m with
    table := m'.table, destructions := m'.destructions, spawner := m'.spawner
    outbox := m'.outbox, scenes := m'.scenes }

section

variable {t t' t'' : Table} {m m' m'' : Match} {player : PlayerId} {origin destination : String}
  {count count' : Nat} {load load' : Pile} {gone came gone' came' : List LiveCard}

theorem Table.Shifts.refl (player : PlayerId) (origin destination : String) (kind : ZoneKind)
    (t : Table) : t.Shifts player origin destination 0 (.empty kind) t := by
  constructor <;> simp

theorem Table.Shifts.trans (h : t.Shifts player origin destination count load t')
    (h' : t'.Shifts player origin destination count' load' t'') (hload : load.kind = load'.kind) :
    t.Shifts player origin destination (count + count') (load.topped load') t'' where
  lower := by
    rw [h'.lower, h.lower, Option.map_map]
    simp only [Function.comp_def, Pile.below_below]
  higher := by
    rw [h'.higher, h.higher, Option.map_map]
    simp only [Function.comp_def, Pile.topped_topped hload]
  elsewhere owner zone hother :=
    (h'.elsewhere owner zone hother).trans (h.elsewhere owner zone hother)

namespace Match.Relocates

theorem refl (player : PlayerId) (origin destination : String) (kind : ZoneKind) (m : Match) :
    m.Relocates player origin destination 0 (.empty kind) [] [] m := by
  constructor <;> simp [Table.Shifts.refl]

/-- Who is not in play is not in play after a move that brings nobody into play. -/
theorem none_after (h : m.Relocates player origin destination count load gone [] m') {id : LiveId}
    (hnone : m.table.live? id = none) : m'.table.live? id = none := by
  by_cases hgone : id ∈ gone.map LiveCard.id
  · obtain ⟨live, hlive, rfl⟩ := List.mem_map.mp hgone
    exact (h.departed live hlive).2
  · rw [h.kept id hgone List.not_mem_nil]
    exact hnone

/-- Who is in play after a move that brings nobody into play was in play before it. -/
theorem some_before (h : m.Relocates player origin destination count load gone [] m') {id : LiveId}
    {live : LiveCard} (hlive : m'.table.live? id = some live) : m.table.live? id = some live := by
  by_cases hgone : id ∈ gone.map LiveCard.id
  · obtain ⟨other, hother, rfl⟩ := List.mem_map.mp hgone
    exact nomatch (h.departed other hother).2.symm.trans hlive
  · rw [h.kept id hgone List.not_mem_nil] at hlive
    exact hlive

/-- Who is in play stays there in a move that takes nobody out of play: what is handed out for that
is another handle. -/
theorem some_after (h : m.Relocates player origin destination count load [] came m') {id : LiveId}
    (hid : id ∈ m.spawner.handed) {live : LiveCard} (hlive : m.table.live? id = some live) :
    m'.table.live? id = some live := by
  have hother : id ∉ came.map LiveCard.id := by
    intro hmem
    obtain ⟨other, hother, rfl⟩ := List.mem_map.mp hmem
    exact (h.entered other hother).1 hid
  rw [h.kept id List.not_mem_nil hother]
  exact hlive

/-- **Moves follow one another**, as long as nobody comes into play while others leave it. -/
theorem trans (h : m.Relocates player origin destination count load gone came m')
    (h' : m'.Relocates player origin destination count' load' gone' came' m'')
    (hload : load.kind = load'.kind) (hway : gone ++ gone' = [] ∨ came ++ came' = []) :
    m.Relocates player origin destination (count + count') (load.topped load') (gone ++ gone')
      (came ++ came') m'' where
  zones := h.zones.trans h'.zones hload
  seats := by
    have hseats := congrArg (List.map (Player.without (gone'.map LiveCard.id))) h.seats
    simp only [List.map_map, Function.comp_def, Player.without_without, List.nil_append] at hseats
    rw [h'.seats, hseats, List.map_append]
  departed live hlive := by
    rcases hway with hnone | hnone
    · rw [hnone] at hlive
      cases hlive
    · obtain ⟨rfl, rfl⟩ := List.append_eq_nil_iff.mp hnone
      rcases List.mem_append.mp hlive with hfirst | hthen
      · obtain ⟨hbefore, hafter⟩ := h.departed live hfirst
        exact ⟨hbefore, h'.none_after hafter⟩
      · obtain ⟨hbefore, hafter⟩ := h'.departed live hthen
        exact ⟨h.some_before hbefore, hafter⟩
  entered live hlive := by
    rcases hway with hnone | hnone
    · obtain ⟨rfl, rfl⟩ := List.append_eq_nil_iff.mp hnone
      rcases List.mem_append.mp hlive with hfirst | hthen
      · obtain ⟨hnew, hthere⟩ := h.entered live hfirst
        have hhanded : live.id ∈ m'.spawner.handed := by
          rw [h.handed]
          exact List.mem_append_right _ (List.mem_map_of_mem hfirst)
        exact ⟨hnew, h'.some_after hhanded hthere⟩
      · obtain ⟨hnew, hthere⟩ := h'.entered live hthen
        rw [h.handed] at hnew
        exact ⟨fun hmem => hnew (List.mem_append_left _ hmem), hthere⟩
    · rw [hnone] at hlive
      cases hlive
  kept id hgone hcame := by
    rw [List.map_append, List.mem_append, not_or] at hgone hcame
    rw [h'.kept id hgone.2 hcame.2, h.kept id hgone.1 hcame.1]
  handed := by
    rw [h'.handed, h.handed, List.map_append, List.append_assoc]
  destructions := by
    rw [h'.destructions, h.destructions, List.filter_filter]
    refine List.filter_congr ?_
    intro doomed _
    simp only [List.map_append, List.mem_append, not_or, Bool.decide_and, Bool.and_comm]
  turn := h'.turn.trans h.turn
  frame := by
    rw [h'.frame, h.frame]

end Match.Relocates

/-! ## One card -/

namespace Table

/-- A player who forgets a card is left as one without it. -/
theorem map_players_removeLive (t : Table) (card : LiveId) :
    (t.removeLive card).players.map (·.without []) = t.players.map (·.without [card]) := by
  rw [removeLive, List.map_map]
  refine List.map_congr_left ?_
  intro seat _
  obtain ⟨id, handle, connection, isConnected, name, attributes, zones, _ | ⟨_, _ | live⟩⟩ := seat
  · rfl
  · rfl
  · by_cases h : live = card <;> simp [Player.without, Player.forget, h]

theorem map_kind_of_zone? {name : String} {z : Zone} {kind : ZoneKind}
    (hz : t.zone? player name = some z) (hkind : z.kind = kind) :
    (t.zone? player name).map Zone.kind = some kind := by
  rw [hz, Option.map_some, hkind]

/-- The top of a zone is taken first, and put on another one then. -/
theorem shifts_of_lowered {t₁ : Table} {z : Zone} {g : Zone → Zone} (hother : origin ≠ destination)
    (hz : t.zone? player origin = some z)
    (hlow : t₁.zone? player origin = some { z with pile := z.pile.below 1 })
    (hrest : ∀ owner zone, ¬ (owner = player ∧ zone = origin) →
      t₁.zone? owner zone = t.zone? owner zone)
    (hput : ∀ w : Zone, g w = { w with pile := w.pile.topped load }) :
    t.Shifts player origin destination 1 load (t₁.modifyZone player destination g) := by
  have hfound := fun owner zone => zone?_modifyZone (t := t₁) player destination
    (fun w => show (g w).name = w.name by rw [hput]) owner zone
  constructor
  · rw [hfound, hlow, hz]
    simp [hother]
  · rw [hfound, hrest _ _ fun h => hother h.2.symm]
    simp [hput]
  · intro owner zone hnot
    rw [hfound, hrest _ _ fun h => hnot ⟨h.1, .inl h.2⟩]
    have hkept : ¬ (owner = player ∧ zone = destination) := fun h => hnot ⟨h.1, .inr h.2⟩
    simp [hkept]

theorem shifts_modifyZone {z : Zone} {f g : Zone → Zone} (hother : origin ≠ destination)
    (hz : t.zone? player origin = some z) (hname : ∀ z, (f z).name = z.name)
    (htake : f z = { z with pile := z.pile.below 1 })
    (hput : ∀ w : Zone, g w = { w with pile := w.pile.topped load }) :
    t.Shifts player origin destination 1 load
      ((t.modifyZone player origin f).modifyZone player destination g) := by
  refine shifts_of_lowered hother hz ?_ ?_ hput
  · rw [zone?_modifyZone _ _ hname, hz]
    simp [htake]
  · intro owner zone hnot
    rw [zone?_modifyZone _ _ hname]
    simp [hnot]

end Table

namespace Match

/-- A card goes from a zone to another as what it is. -/
theorem relocates_modifyZone {z : Zone} {f g : Zone → Zone} (hother : origin ≠ destination)
    (hz : m.table.zone? player origin = some z) (hname : ∀ z, (f z).name = z.name)
    (htake : f z = { z with pile := z.pile.below 1 })
    (hput : ∀ w : Zone, g w = { w with pile := w.pile.topped load }) :
    m.Relocates player origin destination 1 load [] [] (m.onTable fun table =>
      (table.modifyZone player origin f).modifyZone player destination g) where
  zones := Table.shifts_modifyZone hother hz hname htake hput
  seats := by
    show List.map _ (Table.modifyZone (Table.modifyZone ..) ..).players = _
    rw [Table.map_players_modifyZone fun _ _ => rfl, Table.map_players_modifyZone fun _ _ => rfl]
    rfl
  departed := nofun
  entered := nofun
  kept _ _ _ := rfl
  handed := (List.append_nil _).symm
  destructions := (List.filter_eq_self.mpr fun _ _ => rfl).symm
  turn := rfl
  frame := rfl

/-- A design goes to a zone as a new card in play. -/
theorem relocates_deploy {z : Zone} {pile : Pile} {design : CardDesign} {cardType : CardType}
    (hother : origin ≠ destination) (hz : m.table.zone? player origin = some z)
    (hpile : pile = z.pile.below 1)
    (hunused : (m.spawner.spawn design.id player).1 ∉ m.spawner.handed) :
    m.Relocates player origin destination 1 (.dynamic [(m.spawner.spawn design.id player).1]) []
      [.spawn (m.spawner.spawn design.id player).1 design cardType player]
      ((m.putPile player origin pile).bring player design cardType destination) where
  zones := by
    have hshifts := Table.shifts_modifyZone (f := ({ · with pile })) hother hz (fun _ => rfl)
      (by rw [hpile]) fun w => w.pushLive_eq_topped (m.spawner.spawn design.id player).1
    exact ⟨hshifts.lower, hshifts.higher, hshifts.elsewhere⟩
  seats := by
    show List.map _ (Table.modifyZone (Table.modifyZone ..) ..).players = _
    rw [Table.map_players_modifyZone fun _ _ => rfl, Table.map_players_modifyZone fun _ _ => rfl]
    rfl
  departed := nofun
  entered live hlive := by
    obtain rfl := List.mem_singleton.mp hlive
    exact ⟨hunused, (m.putPile player origin pile).live?_bring player design cardType destination⟩
  kept id _ hcame := by
    have hne : id ≠ (m.spawner.spawn design.id player).1 :=
      fun e => hcame (e ▸ List.mem_cons_self)
    exact (Roster.get?_insert ..).trans (if_neg hne)
  handed := (m.putPile player origin pile).handed_bring player design cardType destination
  destructions := (List.filter_eq_self.mpr fun _ _ => rfl).symm
  turn := rfl
  frame := rfl

/-- A card in play leaves it, and its design goes to a zone. -/
theorem relocates_withdraw {z : Zone} {card : LiveId} {live : LiveCard}
    (hother : origin ≠ destination) (hi : m.table.Integrity)
    (hz : m.table.zone? player origin = some z) (hcard : card ∈ z.live)
    (htake : z.removeLive card = { z with pile := z.pile.below 1 })
    (hlive : m.table.live? card = some live) :
    m.Relocates player origin destination 1 (.static [live.card]) [live] []
      ((m.despawn card).2.onTable (·.modifyZone player destination (·.pushCard live.card))) := by
  obtain ⟨-, rfl⟩ := Roster.get?_eq_some_iff.mp hlive
  refine {
    zones := ?_
    seats := ?_
    departed := ?_
    entered := nofun
    kept := ?_
    handed := ?_
    destructions := ?_
    turn := rfl
    frame := rfl }
  · have hout : (m.despawn live.id).2.table = m.table.removeLive live.id := rfl
    refine Table.shifts_of_lowered hother hz ?_ ?_ fun w => w.pushCard_eq_topped _
    · rw [hout, Table.zone?_removeLive, hz, Option.map_some, htake]
    · intro owner zone hnot
      rw [hout, Table.zone?_removeLive]
      cases hz' : m.table.zone? owner zone with
      | none => rfl
      | some z' =>
          have habsent : live.id ∉ z'.live := fun hmem => hnot (hi.only_in hz hcard hz' hmem)
          rw [Option.map_some, Zone.removeLive_of_not_mem habsent]
  · show List.map _ (Table.modifyZone (Table.removeLive ..) ..).players = _
    rw [Table.map_players_modifyZone fun _ _ => rfl, Table.map_players_removeLive]
    rfl
  · intro other hother
    obtain rfl := List.mem_singleton.mp hother
    exact ⟨hlive, (Roster.get?_erase ..).trans (if_pos rfl)⟩
  · intro id hgone _
    have hne : id ≠ live.id := fun e => hgone (e ▸ List.mem_cons_self)
    exact (Roster.get?_erase ..).trans (if_neg hne)
  · exact (handed_despawn m live.id).trans (List.append_nil _).symm
  · show List.filter _ _ = List.filter _ _
    refine List.filter_congr ?_
    intro doomed _
    simp

end Match

/-- The card on top of a dynamic zone is there once, and in play. -/
theorem Match.Integrity.top (hi : m.Integrity) {z : Zone}
    (hz : m.table.zone? player origin = some z) (hsize : 0 < z.size) (hkind : z.kind = .dynamic) :
    ∃ card live, (m.table.zone? player origin).bind Zone.topLive? = some card ∧ card ∈ z.live ∧
      z.pile.taken 1 = .dynamic [card] ∧ z.removeLive card = { z with pile := z.pile.below 1 } ∧
      m.table.live? card = some live := by
  obtain ⟨card, htop, htaken, hbelow⟩ := Pile.removeLive?_eq hkind hsize
  have hcard : card ∈ z.live := List.mem_of_getLast? htop
  obtain ⟨seat, hseat, hfound⟩ := Table.exists_of_zone? hz
  obtain ⟨hmem, -⟩ := Table.mem_of_player? hseat
  have hzone := (Player.mem_of_zone? hfound).1
  obtain ⟨live, hlive, -⟩ := hi.table.owner hmem hzone hcard
  have hseatNodup := (List.nodup_flatMap.mp hi.table.nodup).1 seat hmem
  have hnodup := (List.nodup_flatMap.mp hseatNodup).1 z hzone
  refine ⟨card, live, ?_, hcard, htaken, ?_, hlive⟩
  · rw [hz]
    exact htop
  · rw [Zone.removeLive, Zone.update, hbelow hnodup]
    rfl

/-- So many cards have gone from the top of a zone to the top of another, as what they become there.
-/
def Match.Transfers (c : Catalog) (player : PlayerId) (origin destination : String) (z w : Zone)
    (count : Nat) (m m' : Match) : Prop :=
  ∃ load gone came, Recast c player (z.pile.taken count) load gone came ∧ load.kind = w.kind ∧
    m.Relocates player origin destination count load gone came m'

/-- From the match the step moves the card on top of a zone to the top of another, if the host has a
new handle for it. -/
def MovesTop (rules : Rulebook) (player : PlayerId) (origin destination : String) (z w : Zone)
    (step : Play Bool) (m : Match) : Prop :=
  ∃ m₁, step.run m = (.ok true, m₁) ∧ Change rules .all m m₁ ∧
    (m₁.Fresh → m.Transfers rules.catalog player origin destination z w 1 m₁)

end

section

variable {rules : Rulebook} {resolve : Resolver} {ids : List PlayerId} {m : Match}
  {player : PlayerId} {origin destination : String} {z w : Zone}
  (hc : rules.catalog.Coherent) (hinert : rules.catalog.Inert) (hother : origin ≠ destination)
  (hm : m.Fits rules.catalog ids) (hi : m.Integrity)
  (hz : m.table.zone? player origin = some z) (hw : m.table.zone? player destination = some w)
  (hsize : 0 < z.size)

include hother hz hw hsize

theorem moveStatic_moves (hkind : z.kind = .static) (hkind' : w.kind = .static) :
    MovesTop rules player origin destination z w (moveStatic player origin destination) m := by
  obtain ⟨card, htop, htaken⟩ := Pile.popCard?_eq hkind hsize
  have room := Table.map_kind_of_zone? hw hkind'
  refine ⟨_, moveStatic_run hz htop, .shift hz htop room, fun _ =>
    ⟨.static [card], [], [], ?_, hkind'.symm, ?_⟩⟩
  · rw [htaken]
    exact .designs [card]
  · exact Match.relocates_modifyZone (f := ({ · with pile := z.pile.below 1 })) hother hz
      (fun _ => rfl) rfl (·.pushCard_eq_topped card)

include hc hm hinert

theorem moveIntoPlay_moves (hkind : z.kind = .static) (hkind' : w.kind = .dynamic) :
    MovesTop rules player origin destination z w
      (moveIntoPlay rules resolve player origin destination) m := by
  obtain ⟨card, htop, htaken⟩ := Pile.popCard?_eq hkind hsize
  obtain ⟨design, cardType, rfl, typed⟩ := hm.typed_top hc hz htop
  have room := Table.map_kind_of_zone? hw hkind'
  have hroom := hm.conforms.table.kind_eq (hm.popTop hc hz htop).conforms.table
    (Table.playerIds_modifyZone ..) room
  let born : LiveCard := .spawn (m.spawner.spawn design.id player).1 design cardType player
  refine ⟨_, ?_, .deploy hz htop typed room, fun hfresh =>
    ⟨.dynamic [born.id], [], [born], ?_, hkind'.symm, ?_⟩⟩
  · rw [moveIntoPlay_run hz htop typed hroom, run_bind_ok (welcome_inert hinert ..)]
    rfl
  · rw [htaken]
    refine .spawned [born] fun live hlive => ?_
    obtain rfl := List.mem_singleton.mp hlive
    exact LiveCard.newborn_spawn typed _ player
  · rw [Match.Fresh, Match.handed_bring] at hfresh
    exact Match.relocates_deploy hother hz rfl (Match.Fresh.next hfresh).2

omit hc hm

include hi

theorem moveOutOfPlay_moves (hkind : z.kind = .dynamic) (hkind' : w.kind = .static) :
    MovesTop rules player origin destination z w
      (moveOutOfPlay rules resolve player origin destination) m := by
  obtain ⟨card, live, htop, hcard, htaken, htake, hlive⟩ := hi.top hz hsize hkind
  have room := Table.map_kind_of_zone? hw hkind'
  have there : (m.table.zone? player origin).any (·.live.contains card) = true := by
    simpa [hz] using hcard
  refine ⟨_, ?_, .withdraw hz hcard hlive room, fun _ =>
    ⟨.static [live.card], [live], [], ?_, hkind'.symm, ?_⟩⟩
  · rw [moveOutOfPlay_run htop, run_bind_ok (raiseTransition_inert hinert ..)]
    exact depart_run there hlive
  · obtain ⟨-, rfl⟩ := Roster.get?_eq_some_iff.mp hlive
    rw [htaken]
    exact .withdrawn [live]
  · exact Match.relocates_withdraw hother hi.table hz hcard htake hlive

theorem moveBetweenDynamic_moves (hkind : z.kind = .dynamic) (hkind' : w.kind = .dynamic) :
    MovesTop rules player origin destination z w
      (moveBetweenDynamic rules resolve player origin destination) m := by
  obtain ⟨card, live, htop, hcard, htaken, htake, -⟩ := hi.top hz hsize hkind
  have room := Table.map_kind_of_zone? hw hkind'
  refine ⟨_, ?_, .carry hz hcard room, fun _ =>
    ⟨.dynamic [card], [], [], ?_, hkind'.symm, ?_⟩⟩
  · rw [moveBetweenDynamic_run htop, run_bind_ok (raiseTransition_inert hinert ..),
      run_bind_ok (raiseTransition_inert hinert ..)]
    rfl
  · rw [htaken]
    exact .carried [card]
  · exact Match.relocates_modifyZone hother hz (fun z => congrArg ZoneLayout.name
      (Zone.layout_removeLive z card)) htake (·.pushLive_eq_topped card)

include hc hm

/-- **One card goes from one zone to the other, whatever they hold.** -/
theorem moveTop_moves (resolve : Resolver) :
    MovesTop rules player origin destination z w
      (moveTop rules resolve (z.kind, w.kind) player origin destination) m := by
  cases hkind : z.kind <;> cases hkind' : w.kind
  case static.static => exact moveStatic_moves hother hz hw hsize hkind hkind'
  case static.dynamic => exact moveIntoPlay_moves hc hinert hother hm hz hw hsize hkind hkind'
  case dynamic.static => exact moveOutOfPlay_moves hinert hother hi hz hw hsize hkind hkind'
  case dynamic.dynamic => exact moveBetweenDynamic_moves hinert hother hi hz hw hsize hkind hkind'

end

/-! ## Many cards -/

/-- A step that has something to do is done, and then the others. -/
theorem repeatStep_run {step : Play Bool} {m m₁ : Match} (h : step.run m = (.ok true, m₁))
    (count : Nat) :
    (repeatStep step (count + 1)).run m = ((· + 1) <$> repeatStep step count).run m₁ := by
  rw [repeatStep, run_bind_ok h]
  rfl

/-- A step that always has something to do, and does nothing, is done as often as asked for. -/
theorem repeatStep_still {step : Play Bool} {m : Match} (h : step.run m = (.ok true, m))
    (count : Nat) : (repeatStep step count).run m = (.ok count, m) := by
  induction count with
  | zero => rfl
  | succ count ih =>
      rw [repeatStep_run h, run_map, ih]
      rfl

section

variable {rules : Rulebook} {resolve : Resolver} {ids : List PlayerId} {player : PlayerId}
  {origin destination : String} (hc : rules.catalog.Coherent)
  (hres : Resolves rules .all (fun _ => True) ids resolve)

include hc hres

/-- No handle has been handed out twice before a move, if none has been after it. -/
theorem fresh_of_repeatStep {m m' : Match} (hm : m.Fits rules.catalog ids) (hp : player ∈ ids)
    {kinds : ZoneKind × ZoneKind} (hd : rules.catalog.kind? destination = some kinds.2)
    {count : Nat} {answer : Except Fault Nat}
    (hrun : (repeatStep (moveTop rules resolve kinds player origin destination) count).run m
      = (answer, m')) (hfresh : m'.Fresh) : m.Fresh := by
  have hwalks : Walks rules .all (fun _ => True) ids _ :=
    repeatStep_along (kept_fits hc) (moveTop_along (follows_changes hc) hp origin hres hd) count
  have hpath := (hwalks m hm).path
  rw [hrun] at hpath
  exact hfresh.sublist (handed_of_changes hpath).sublist

/-- **Any number of cards that are there go from one zone to the other.** -/
theorem repeatStep_transfers (hinert : rules.catalog.Inert) (hother : origin ≠ destination)
    {kind kind' : ZoneKind} (count : Nat) :
    ∀ {m m' : Match} {z w : Zone} {answer : Except Fault Nat}, m.Fits rules.catalog ids →
      m.Integrity → m.table.zone? player origin = some z → z.kind = kind →
      m.table.zone? player destination = some w → w.kind = kind' → count ≤ z.size →
      (repeatStep (moveTop rules resolve (kind, kind') player origin destination) count).run m
        = (answer, m') → m'.Fresh →
      answer = .ok count ∧
        m.Transfers rules.catalog player origin destination z w count m' := by
  induction count with
  | zero =>
      intro m m' z w answer _ _ _ _ _ _ _ hrun _
      cases hrun
      refine ⟨rfl, .empty w.kind, [], [], ?_, ?_, .refl player origin destination w.kind m⟩
      · rw [Pile.taken_zero]
        exact .nothing _ _
      · cases w.kind <;> rfl
  | succ count ih =>
      intro m m' z w answer hm hi hz hkind hw hkind' hsize hrun hfresh
      obtain ⟨m₁, hstep, hmove, hfirst⟩ := moveTop_moves hc hinert hother hm hi hz hw
        (Nat.lt_of_lt_of_le (Nat.succ_pos count) hsize) resolve
      rw [hkind, hkind'] at hstep
      rw [repeatStep_run hstep, run_map] at hrun
      rcases hrest : (repeatStep (moveTop rules resolve (kind, kind') player origin destination)
        count).run m₁ with ⟨answer', m''⟩
      rw [hrest] at hrun
      cases hrun
      have hm₁ := hmove.fits hc hm
      obtain ⟨hp, hd⟩ := hm.mem_of_zone? hw
      have hfresh₁ := fresh_of_repeatStep hc hres hm₁ hp (hkind' ▸ hd) hrest hfresh
      have hi₁ := hmove.integrity hc hm.conforms hi hfresh₁
      obtain ⟨load, gone, came, hrecast, hload, hrelocates⟩ := hfirst hfresh₁
      have hz₁ := hrelocates.zones.lower.trans (congrArg _ hz)
      have hw₁ := hrelocates.zones.higher.trans (congrArg _ hw)
      have hleft : count ≤ (z.pile.below 1).size := by
        rw [Pile.size_below]
        exact Nat.le_sub_of_add_le hsize
      obtain ⟨rfl, load', gone', came', hrecast', hload', hrelocates'⟩ :=
        ih hm₁ hi₁ hz₁ ((Pile.kind_below 1 z.pile).trans hkind) hw₁
          ((Pile.kind_topped w.pile load).trans hkind') hleft hrest hfresh
      have hsame : load.kind = load'.kind :=
        (hload.trans (Pile.kind_topped w.pile load).symm).trans hload'.symm
      have hall := hrecast.append hrecast'
        (by rw [Pile.kind_taken, Pile.kind_taken, Pile.kind_below]) hsame
      rw [Nat.add_comm count 1]
      refine ⟨congrArg Except.ok (Nat.add_comm count 1), load.topped load', gone ++ gone',
        came ++ came', ?_, ?_, ?_⟩
      · rw [Pile.taken_add]
        exact hall
      · rw [Pile.kind_topped, hload]
      · exact hrelocates.trans hrelocates' hsame hall.oneWay

end

/-! ## To where they come from -/

section

variable {rules : Rulebook} {ids : List PlayerId} {m : Match} {player : PlayerId} {origin : String}
  {z : Zone}

/-- What is taken from a zone and put back makes no difference. -/
theorem Match.onTable_fixed (hd : m.table.Distinct) (hz : m.table.zone? player origin = some z)
    {f g : Zone → Zone} (hname : ∀ z, (f z).name = z.name) (hback : g (f z) = z) :
    (m.onTable fun table =>
      (table.modifyZone player origin f).modifyZone player origin g) = m := by
  rw [Match.onTable, Table.modifyZone_modifyZone _ _ hname, hd.modifyZone_fixed hz hback]

/-- A card that goes to where it is stays there. -/
theorem moveTop_still (hc : rules.catalog.Coherent) (hinert : rules.catalog.Inert)
    (hm : m.Fits rules.catalog ids) (hi : m.Integrity)
    (hz : m.table.zone? player origin = some z) (hsize : 0 < z.size) (resolve : Resolver) :
    (moveTop rules resolve (z.kind, z.kind) player origin origin).run m = (.ok true, m) := by
  have hd := hm.conforms.table.distinct hc
  cases hkind : z.kind with
  | static =>
      obtain ⟨card, htop, htaken⟩ := Pile.popCard?_eq hkind hsize
      have hback : ({ z with pile := z.pile.below 1 } : Zone).pushCard card = z := by
        rw [Zone.pushCard_eq_topped, ← htaken, Pile.topped_taken_one]
      rw [moveTop, moveStatic_run hz htop]
      refine congrArg _ (Match.onTable_fixed hd hz (f := ({ · with pile := z.pile.below 1 }))
        (fun _ => rfl) hback)
  | dynamic =>
      obtain ⟨card, live, htop, hcard, htaken, htake, -⟩ := hi.top hz hsize hkind
      have hback : (z.removeLive card).pushLive card = z := by
        rw [htake, Zone.pushLive_eq_topped, ← htaken, Pile.topped_taken_one]
      rw [moveTop, moveBetweenDynamic_run htop, run_bind_ok (raiseTransition_inert hinert ..),
        run_bind_ok (raiseTransition_inert hinert ..)]
      exact congrArg _ (Match.onTable_fixed hd hz (fun z => congrArg ZoneLayout.name
        (Zone.layout_removeLive z card)) hback)

end

/-! ## Moves -/

section

variable {rules : Rulebook} {m m' : Match} {player : PlayerId} {origin destination : String}
  {z w : Zone}

/-- A move between zones that are there takes what is asked for, or all there is. -/
theorem moveCards_run (hz : m.table.zone? player origin = some z)
    (hw : m.table.zone? player destination = some w) (resolve : Resolver) (count : Nat) :
    (moveCards rules resolve player origin destination count).run m
      = (repeatStep (moveTop rules resolve (z.kind, w.kind) player origin destination)
          (min count z.size)).run m := by
  obtain ⟨seat, hseat, hfound⟩ := Table.exists_of_zone? hz
  rw [Table.zone?_eq, hseat, Option.bind_some] at hw
  rw [moveCards, run_get_bind, hseat]
  dsimp only
  rw [hfound, hw]

/-- **In a game in which nothing fires, a move moves what it says, and nothing else.**

A move between two zones of a player moves as many cards as are asked for, or all there are.  To the
zone that they come from it changes nothing.  To another one the cards go in the order in which they
are taken, from the top: designs as designs, or as new cards in play under handles that have never
been handed out; cards in play as their designs, or as themselves.  What is not said to change there
stays as it is: other zones, players, cards in play.  This is true as long as the host hands out no
handle twice. -/
theorem moves_are_plain (hc : rules.catalog.Accepted) (hinert : rules.catalog.Inert)
    (h : Reachable rules m) (hz : m.table.zone? player origin = some z)
    (hw : m.table.zone? player destination = some w) {count : Nat} {answer : Except Fault Answer}
    (hrun : m.perform rules (.moveCards player origin destination count) = (answer, m'))
    (hunique : m'.spawner.handed.Nodup) :
    answer = .ok (.count (min count z.size)) ∧
      (origin = destination → m' = m) ∧
      (origin ≠ destination →
        m.Transfers rules.catalog player origin destination z w (min count z.size) m') := by
  have hcoherent := hc.coherent
  have hm : m.Fits rules.catalog m.table.playerIds := ⟨h.conforms hcoherent, rfl⟩
  rw [Match.perform, performWith, run_map, moveCards_run hz hw] at hrun
  rcases hrest : (repeatStep (moveTop rules rules.resolver (z.kind, w.kind) player origin
    destination) (min count z.size)).run m with ⟨answer', m₁⟩
  rw [hrest] at hrun
  cases hrun
  obtain ⟨hp, hd⟩ := hm.mem_of_zone? hw
  have hres : Resolves rules .all (fun _ => True) m.table.playerIds rules.resolver :=
    resolver_resolves_all hcoherent
  have hi := h.integrity hcoherent (fresh_of_repeatStep hcoherent hres hm hp hd hrest hunique)
  by_cases hsame : origin = destination
  · subst hsame
    obtain rfl : z = w := Option.some.inj (hz.symm.trans hw)
    have hstill : (answer', m₁) = (.ok (min count z.size), m) := by
      rw [← hrest]
      cases hsize : z.size with
      | zero => rw [Nat.min_zero]; rfl
      | succ size =>
          have hsome : 0 < z.size := by rw [hsize]; exact Nat.succ_pos size
          exact repeatStep_still (moveTop_still hcoherent hinert hm hi hz hsome rules.resolver) _
    cases hstill
    exact ⟨rfl, fun _ => rfl, fun hne => absurd rfl hne⟩
  · obtain ⟨rfl, htransfers⟩ := repeatStep_transfers hcoherent hres hinert hsame
      (min count z.size) hm hi hz rfl hw rfl (Nat.min_le_right _ _) hrest hunique
    exact ⟨rfl, fun he => absurd he hsame, fun _ => htransfers⟩

end

namespace Duel

/-- A sentinel cannot be attacked, say; nothing is set off by that. -/
def ward : Effect :=
  { definition := "Ward", trigger := .cardZoneTransition .enter "Board" }

def sentinel : CardDesign :=
  { wolf with name := "Sentinel", effects := [ward] }

def squire : CardDesign :=
  { archer with name := "Squire", effects := [] }

def watchDraft : Draft :=
  { draft with
    rules := [.permanent "Ward"]
    cardTypes := [{ name := "Creature", attributes := .set .empty "Toughness" 4 }]
    cards := [sentinel, squire] }

/-- The duel of sentinels and squires. -/
def watch : Rulebook where
  catalog := { watchDraft.assemble with cards := [sentinel, squire] }
  config := {}

theorem accepted_watch : watch.catalog.Accepted :=
  accepted_of_sorted (d := watchDraft) (by decide) (by decide +kernel) (by decide +kernel)

theorem inert_watch : watch.catalog.Inert := by
  have hdesigns : ∀ design ∈ watch.catalog.cards, ∀ effect ∈ design.effects,
      watch.catalog.isPermanent effect.definition = true := by decide
  have htypes : ∀ cardType ∈ watch.catalog.cardTypes, cardType.effects = [] := by decide
  rintro effect (⟨design, hdesign, heffect⟩ | ⟨cardType, htype, heffect⟩)
  · exact hdesigns design hdesign effect heffect
  · rw [htypes cardType htype] at heffect
    cases heffect

/-- Ann has a sentinel on top of two squires in hand, and puts two cards on the board. -/
def posted : Except Fault Answer × Match :=
  (after watch deal).perform watch (.moveCards ⟨0⟩ "Hand" "Board" 2)

/-- The sentinel comes to the board first, and the squire on top of it. -/
theorem posted_transfers :
    posted.1 = .ok (.count 2) ∧ posted.2.spawner.handed.Nodup ∧
      (after watch deal).Transfers watch.catalog ⟨0⟩ "Hand" "Board"
        ⟨"Hand", true, .static [⟨2⟩, ⟨2⟩, ⟨1⟩]⟩ ⟨"Board", false, .dynamic []⟩ 2 posted.2 ∧
      posted.2.table.zone? ⟨0⟩ "Hand" = some ⟨"Hand", true, .static [⟨2⟩]⟩ ∧
      posted.2.table.zone? ⟨0⟩ "Board" = some ⟨"Board", false, .dynamic [⟨0⟩, ⟨1⟩]⟩ ∧
      (posted.2.table.live? ⟨0⟩).map LiveCard.card = some ⟨1⟩ := by
  have hhand : (after watch deal).table.zone? ⟨0⟩ "Hand"
      = some ⟨"Hand", true, .static [⟨2⟩, ⟨2⟩, ⟨1⟩]⟩ := by decide +kernel
  have hboard : (after watch deal).table.zone? ⟨0⟩ "Board"
      = some ⟨"Board", false, .dynamic []⟩ := by decide +kernel
  have hunique : posted.2.spawner.handed.Nodup := by decide +kernel
  have hrun : (after watch deal).perform watch (.moveCards ⟨0⟩ "Hand" "Board" 2)
      = (posted.1, posted.2) := rfl
  obtain ⟨hanswer, -, htransfers⟩ := moves_are_plain accepted_watch inert_watch (reachable_after ..)
    hhand hboard hrun hunique
  exact ⟨hanswer, hunique, htransfers (by decide), by decide +kernel, by decide +kernel,
    by decide +kernel⟩

end Duel

end CardArena
