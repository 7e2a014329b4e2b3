import Mathlib
import CardArena.Proofs.Fate
import CardArena.Proofs.Found
import CardArena.Proofs.Mindful

/-!
# What a play is judged by

A trigger on plays is matched by who played, but its conditions are asked of the last card that any
player remembers whom it listens to.  The two agree, because nobody but the player who has just played
remembers a play (`Proofs.Mindful`).  And what that player remembers is the card just played: its copy
for as long as that is in play, else its design.

That the memory follows the copy is a law of changes (`Change.recent`): a copy that leaves play is
forgotten in the same change, and nothing else is.  Here it matters that no handle is handed out twice,
or else another card could come into play under the handle of a copy that is gone.

* `Match.Recent` : a play is fresh in memory, and nobody remembers another.
* `Match.hearings` : who is asked about an event, and how the match is by then.
* `played_cards_judged` : the main statement.
-/

namespace CardArena

open Play
open Relation (ReflTransGen)

variable {rules : Rulebook} {scope : Scope} {m m' : Match} {player : PlayerId}
  {design : CardDesign} {cardType : CardType} {id : LiveId}

/-! ## The card that was played -/

/-- A card that has been played, as conditions see it: its copy while that is in play, or its design
after that. -/
def Table.asPlayed (t : Table) (design : CardDesign) (cardType : CardType) (copy : LiveId) : Subject :=
  match t.live? copy with
  | some live => ⟨design, cardType, live.attributes⟩
  | none => .ofDesign design cardType

/-- A player has just played a card, of which a copy has come into play under a handle: it is what they
remember, with the copy for as long as that is in play, and nobody else remembers a play. -/
structure Match.Recent (player : PlayerId) (design : CardId) (id : LiveId) (m : Match) : Prop where
  handed : id ∈ m.spawner.handed
  own : m.table.lastPlayed? player = some ⟨design, (m.table.live? id).map LiveCard.id⟩
  copy : ∀ live, m.table.live? id = some live → live.card = design
  others : ∀ other, other ≠ player → m.table.lastPlayed? other = none

/-- The handle under which a card is found is its own. -/
theorem Table.map_id_live? (t : Table) (id : LiveId) :
    (t.live? id).map LiveCard.id = if (t.live? id).isSome then some id else none := by
  cases hlive : t.live? id with
  | none => rfl
  | some live => exact congrArg some (Roster.get?_eq_some_iff.mp hlive).2

/-- A card that was not in play under a handle that has been handed out is not in play afterwards. -/
theorem Match.Descends.isSome (h : Match.Descends id m m') (hsome : (m'.table.live? id).isSome) :
    (m.table.live? id).isSome := by
  obtain ⟨live', hlive'⟩ := Option.isSome_iff_exists.mp hsome
  obtain ⟨live, hlive, -⟩ := h live' hlive'
  rw [hlive]
  rfl

/-- **A change leaves a play fresh in memory: its copy is forgotten if and when it leaves play.** -/
theorem Change.recent (h : Change rules scope m m') (hfresh : m'.Fresh)
    (hm : m.Recent player design.id id) : m'.Recent player design.id id := by
  have hdescends := h.whose hfresh hm.handed
  have hstays (hpresent : (m.table.live? id).isSome → (m'.table.live? id).isSome) :
      (m'.table.live? id).map LiveCard.id = (m.table.live? id).map LiveCard.id := by
    have hsame : (m'.table.live? id).isSome = (m.table.live? id).isSome :=
      Bool.eq_iff_iff.mpr ⟨hdescends.isSome, hpresent⟩
    rw [Table.map_id_live?, Table.map_id_live?, hsame]
  refine ⟨h.handed.subset hm.handed, ?_, ?_, ?_⟩
  · rcases h.retains_or_releases with hretains | ⟨card, hreleases⟩
    · rw [hretains.memory, hm.own, hstays (hretains.present id)]
    · rw [hreleases.memory, hm.own, Option.map_some]
      refine congrArg some ?_
      by_cases hid : id = card
      · -- It is the copy that leaves play.
        rw [hid, hreleases.gone, Table.map_id_live?]
        split
        · exact LastPlayed.forget_self _ card
        · exact LastPlayed.forget_other nofun
      · rw [hstays (hreleases.present id hid), Table.map_id_live?]
        refine LastPlayed.forget_other ?_
        split
        · exact fun heq => hid (Option.some.inj heq)
        · nofun
  · intro live' hlive'
    obtain ⟨live, hlive, hbecomes⟩ := hdescends live' hlive'
    exact hbecomes.same.1.symm.trans (hm.copy live hlive)
  · intro other hne
    exact (h.recalls.eq_none_iff other).mpr (hm.others other hne)

/-- A play stays fresh in memory through all that it sets off. -/
theorem recent_of_changes (h : ReflTransGen (Change rules scope) m m')
    (hm : m.Fresh → m.Recent player design.id id) (hfresh : m'.Fresh) :
    m'.Recent player design.id id := by
  induction h with
  | refl => exact hm hfresh
  | tail _ hstep ih => exact hstep.recent hfresh (ih (hstep.fresh hfresh))

/-! ## Judging a play -/

/-- A trigger that hears of a play is one on plays, and listens to the player. -/
theorem Trigger.of_listensFor_play {trigger : Trigger} {owner : PlayerId} {card : CardId}
    {type : String} (h : trigger.listensFor owner (.playerPlayedCard player card type) = true) :
    ∃ source, trigger = .playerPlayedCard type source ∧ source.admits owner player = true := by
  cases trigger with
  | playerPlayedCard type' source =>
      simp only [listensFor, Bool.and_eq_true, decide_eq_true_eq] at h
      obtain ⟨rfl, hadmits⟩ := h
      exact ⟨source, rfl, hadmits⟩
  | _ => cases h

namespace Table

variable {t : Table} {c : Catalog}

theorem lastPlayedSubject?_eq (t : Table) (c : Catalog) (player : PlayerId) :
    t.lastPlayedSubject? c player = (t.lastPlayed? player).bind fun last =>
      (last.live.bind (t.subject? c)) <|>
        (c.typed? last.card).map fun (design, cardType) => .ofDesign design cardType := by
  rw [lastPlayedSubject?, lastPlayed?, Option.bind_assoc]
  rfl

/-- Whoever remembers nothing satisfies no condition on plays. -/
theorem lastPlayedSubject?_of_none (h : t.lastPlayed? player = none) (c : Catalog) :
    t.lastPlayedSubject? c player = none := by
  rw [lastPlayedSubject?_eq, h]
  rfl

/-- What the effects that listen for a play look at is asked of the player who played, if nobody else
remembers a play. -/
theorem canFire_of_play (hd : t.Distinct) {effect : Effect} {source : LiveId} {carrier : LiveCard}
    (hlive : t.live? source = some carrier) {card : CardId} {type : String}
    (hlistens : effect.trigger.listensFor carrier.owner (.playerPlayedCard player card type) = true)
    (hothers : ∀ other, other ≠ player → t.lastPlayed? other = none) :
    effect.canFire c t source = true ↔ (t.player? player).any Player.isConnected = true ∧
      (t.lastPlayedSubject? c player).any
        (Condition.allHoldForCard c effect.triggerConditions) = true := by
  obtain ⟨filter, htrigger, hadmits⟩ := Trigger.of_listensFor_play hlistens
  simp only [Effect.canFire, hlive, htrigger, List.any_eq_true, Effect.candidates, connected,
    List.mem_filter]
  constructor
  · rintro ⟨seat, ⟨⟨hseat, hconnected⟩, -⟩, hholds⟩
    obtain rfl : seat.id = player := by
      by_contra hne
      rw [lastPlayedSubject?_of_none (hothers seat.id hne)] at hholds
      cases hholds
    exact ⟨by rw [hd.player? hseat]; exact hconnected, hholds⟩
  · rintro ⟨hthere, hholds⟩
    obtain ⟨seat, hseat, hconnected⟩ := (Option.any_eq_true _ _).mp hthere
    obtain ⟨hmem, rfl⟩ := mem_of_player? hseat
    exact ⟨seat, ⟨⟨hmem, hconnected⟩, hadmits⟩, hholds⟩

end Table

/-- What conditions look at after a play is the card that was played. -/
theorem Match.Recent.subject (h : m.Recent player design.id id)
    (typed : rules.catalog.typed? design.id = some (design, cardType)) :
    m.table.lastPlayedSubject? rules.catalog player = some (m.table.asPlayed design cardType id) := by
  rw [Table.lastPlayedSubject?_eq, h.own, Table.asPlayed]
  cases hlive : m.table.live? id with
  | none =>
      show (rules.catalog.typed? design.id).map _ = _
      rw [typed]
      rfl
  | some live =>
      have hid : live.id = id := (Roster.get?_eq_some_iff.mp hlive).2
      have hsubject : m.table.subject? rules.catalog id = some ⟨design, cardType, live.attributes⟩ := by
        rw [Table.subject?, hlive]
        show (rules.catalog.typed? live.card).bind _ = _
        rw [h.copy live hlive, typed]
        rfl
      show (m.table.subject? rules.catalog live.id <|> _) = _
      rw [hid, hsubject]
      rfl

/-! ## From the play to those who hear of it -/

/-- The copy that has come into play of a card, and the match in which everybody hears of the play, if
it comes to that. -/
def Match.played? (m : Match) (rules : Rulebook) (player : PlayerId) (design : CardDesign) :
    Option (LiveId × Match) :=
  match (summon rules rules.resolver player design).run (m.draw rules player design.id) with
  | (.ok id, m') => some (id, m'.markPlayed player design.id id)
  | (.error _, _) => none

/-- Who is asked as an event goes round the table: an effect of a card, and the match as it is by
then. -/
def Match.hearings (m : Match) (rules : Rulebook) (event : Event) : List (LiveId × Effect × Match) :=
  (stops (raiseIfAlive rules rules.resolver event) m m.table.liveInOrder).flatMap
    fun (source, m₁) =>
      match m₁.table.live? source with
      | none => []
      | some card =>
        if card.alive then
          (stops (offer rules rules.resolver source) m₁ (rules.catalog.listeners card event)).map
            fun ask => (source, ask)
        else []

section

variable (hc : rules.catalog.Coherent) {ids : List PlayerId} (hm : m.Fits rules.catalog ids)

include hc hm

/-- Whoever is asked about an event is asked after changes that it set off, and listens for it. -/
theorem Match.heard (hordered : m.Orderly rules) {event : Event} {source : LiveId} {effect : Effect}
    {s : Match} (h : (source, effect, s) ∈ m.hearings rules event) :
    ReflTransGen (Change rules .all) m s ∧ (s.Fresh → ∀ carrier,
      s.table.live? source = some carrier →
        effect.trigger.listensFor carrier.owner event = true) := by
  have hfollows : Follows rules .all ids (Match.Fits rules.catalog ids) (Change rules .all) :=
    follows_changes hc
  have hres : Resolves rules .all (fun _ => True) ids rules.resolver := resolver_resolves_all hc
  obtain ⟨⟨other, m₁⟩, hstop, hasked⟩ := List.mem_flatMap.mp h
  obtain ⟨hm₁, hpath₁⟩ := Along.stops hfollows.kept
    (fun card _ => raiseIfAlive_along hfollows hres event card) hm _ hstop
  dsimp only at hasked
  cases hlive : m₁.table.live? other with
  | none =>
      rw [hlive] at hasked
      exact absurd hasked List.not_mem_nil
  | some card =>
      rw [hlive] at hasked
      dsimp only at hasked
      split at hasked
      · obtain ⟨⟨ask, s'⟩, hask, heq⟩ := List.mem_map.mp hasked
        cases heq
        obtain ⟨-, hpath⟩ := Along.stops hfollows.kept
          (fun effect heffect =>
            offer_along hfollows hres (Catalog.carries_of_listener heffect) source) hm₁ _ hask
        refine ⟨hpath₁.trans hpath, fun hfresh carrier hcarrier => ?_⟩
        have hlistener : effect ∈ rules.catalog.listeners card event :=
          (stops_isPrefix _ _ _).subset (List.mem_map_of_mem (f := Prod.fst) hask)
        -- The card is the one that was asked when the event came round to it.
        have hhanded := (hordered.of_steps hc (steps_of_changes hpath₁)).mem_handed
          (fresh_of_steps (steps_of_changes hpath) hfresh) hlive
        obtain ⟨live, hold, hbecomes⟩ := whose_of_changes hpath hhanded hfresh carrier hcarrier
        obtain rfl : card = live := Option.some.inj (hlive.symm.trans hold)
        rw [← hbecomes.same.2]
        exact Catalog.listensFor_of_listener hlistener
      · exact absurd hasked List.not_mem_nil

/-- When everybody hears of a play, it is fresh in memory. -/
theorem Match.Summons.recent (hmind : m.Mindful) (hplay : m.Playable rules player design)
    (h : m.Summons rules player design cardType id m') (hfresh : m'.Fresh) :
    (m'.markPlayed player design.id id).Recent player design.id id := by
  obtain ⟨m₁, hid, hbrought⟩ := h.brought
  have hin : id ∈ (m₁.bring player design cardType rules.config.boardZone).spawner.handed := by
    rw [Match.handed_bring, hid]
    exact List.mem_append_right _ List.mem_cons_self
  have hm' := (kept_fits_mild hc).chain h.mild hm
  obtain ⟨seat, hseat, -⟩ := hplay.affordable
  obtain ⟨seat', hseat', -⟩ := hm'.player? (hm.mem_of_player? hseat).1
  have hseated : (m'.table.player? player).isSome = true := by rw [hseat']; rfl
  have hmark := Table.lastPlayed?_mark hseated ⟨design.id, (m'.table.live? id).map LiveCard.id⟩
  refine ⟨(handed_of_changes hbrought).subset hin, (hmark player).trans (if_pos rfl), ?_, ?_⟩
  · intro live hlive
    obtain ⟨first, hfirst, ⟨hcard, -⟩, -⟩ := whose_of_changes hbrought hin hfresh live hlive
    rw [hid, Match.live?_bring] at hfirst
    cases hfirst
    exact hcard.symm
  · intro other hne
    refine (hmark other).trans ((if_neg hne).trans ?_)
    exact ((recalls_of_mild h.mild).eq_none_iff other).mpr
      (hmind.active player hplay.active other hne)

end

/-- **Effects that listen for plays judge the card just played.**  While the match is under way nobody
but the active player remembers a play, and when a turn has ended nobody does.  A call to play a card is
rejected and changes nothing, or it fails before anybody hears of the card, or everybody hears of it.
Then, whatever that sets off, an effect of any card in play that listens for the play may fire if the
player is connected and its conditions hold of the card as it was played, and not otherwise. -/
theorem played_cards_judged (hc : rules.catalog.Accepted) (h : Reachable rules m) :
    (m.table.isRunning = true → ∀ seat ∈ m.table.players, seat.lastPlayed ≠ none →
      m.table.activePlayer? = some seat.id) ∧
    (∀ op : Operation, op.turnEnds (m.perform rules op).1 = 1 →
      ∀ seat ∈ (m.perform rules op).2.table.players, seat.lastPlayed = none) ∧
    ∀ player card,
      let done := (playCard rules rules.resolver player card).run m
      (∃ reason, done = (.ok (.rejected reason), m)) ∨
      ∃ design cardType, rules.catalog.typed? card = some (design, cardType) ∧
        let event := Event.playerPlayedCard player card design.cardType
        match m.played? rules player design with
        | none => ∃ fault, done.1 = .error fault
        | some (copy, m') =>
          done = (proclaim rules rules.resolver player design).run m' ∧
          -- Whoever is asked about the play is asked after changes that it set off, and listens for it.
          (∀ source effect s, (source, effect, s) ∈ m'.hearings rules event →
            ReflTransGen (Change rules .all) m' s ∧ (s.Fresh → ∀ carrier,
              s.table.live? source = some carrier →
                effect.trigger.listensFor carrier.owner event = true)) ∧
          ∀ s, ReflTransGen (Change rules .all) m' s → s.Fresh →
            ∀ source carrier, s.table.live? source = some carrier →
            ∀ effect : Effect, effect.trigger.listensFor carrier.owner event = true →
              (effect.canFire rules.catalog s.table source = true ↔
                (s.table.player? player).any Player.isConnected = true ∧
                Condition.allHoldForCard rules.catalog effect.triggerConditions
                  (s.table.asPlayed design cardType copy) = true) := by
  have hcoherent := hc.coherent
  have hmind := h.mindful hcoherent
  have hm : m.Fits rules.catalog m.table.playerIds := ⟨h.conforms hcoherent, rfl⟩
  have hdistinct := hm.conforms.table.distinct hcoherent
  refine ⟨fun hrunning seat hseat hplayed => ?_, fun op hends seat hseat => ?_, fun player card => ?_⟩
  · obtain ⟨active, hactive⟩ := (h.timely hcoherent).exists_active hrunning
    by_contra hother
    have hne : seat.id ≠ active := fun heq => hother (heq ▸ hactive)
    have hnone := hmind.active active hactive seat.id hne
    rw [Table.lastPlayed?, hdistinct.player? hseat] at hnone
    exact hplayed hnone
  · have hunplayed := (perform_minds hcoherent h hmind op).unplayed hends seat.id
    have hdistinct' := ((h.perform op).conforms hcoherent).table.distinct hcoherent
    rwa [Table.lastPlayed?, hdistinct'.player? hseat] at hunplayed
  · intro done
    rcases playCard_ways hm player card with ⟨reason, hrun⟩ | ⟨design, hknown, hplay, hrun⟩
    · exact .inl ⟨reason, hrun⟩
    obtain ⟨-, rfl⟩ := Catalog.card?_some hknown
    obtain ⟨cardType, typed⟩ := hcoherent.typed?_of_card? hknown
    refine .inr ⟨design, cardType, typed, ?_⟩
    rw [payAndPlay_run] at hrun
    rcases hsummon : (summon rules rules.resolver player design).run
      (m.draw rules player design.id) with ⟨fault | copy, m₁⟩ <;> rw [hsummon] at hrun
    · have hplayed : m.played? rules player design = none := by rw [Match.played?, hsummon]
      rw [hplayed]
      exact ⟨fault, congrArg Prod.fst hrun⟩
    · have hplayed : m.played? rules player design
          = some (copy, m₁.markPlayed player design.id copy) := by rw [Match.played?, hsummon]
      obtain ⟨cardType', hsummons⟩ := hplay.summons hcoherent hm hsummon
      obtain rfl : cardType' = cardType :=
        congrArg Prod.snd (Option.some.inj (hsummons.typed.symm.trans typed))
      have hmarks : Step rules .all m₁ (m₁.markPlayed player design.id copy) := .calm hsummons.marks
      have hsteps : ReflTransGen (Step rules .all) m (m₁.markPlayed player design.id copy) :=
        (steps_of_calm (calm_of_mild hsummons.mild)).tail hmarks
      have hmarked := (kept_fits_step hcoherent).chain hsteps hm
      have hordered := (h.orderly hcoherent).of_steps hcoherent hsteps
      rw [hplayed]
      refine ⟨hrun, fun source effect s => Match.heard hcoherent hmarked hordered, ?_⟩
      intro s hpath hfresh source carrier hlive effect hlistens
      have hrecent := recent_of_changes hpath (hsummons.recent hcoherent hm hmind hplay) hfresh
      have hfits := (kept_fits hcoherent).chain hpath hmarked
      rw [Table.canFire_of_play (hfits.conforms.table.distinct hcoherent) hlive hlistens
        hrecent.others, hrecent.subject typed]
      rfl

namespace Duel

/-- A wolf grows as a dragon is played. -/
def howl : Effect :=
  { definition := "Grow", trigger := .playerPlayedCard "Creature" .anyPlayer,
    triggerConditions := [.cardHasSubtype "Dragon" false], target := .card .thisCard,
    magnitude := some (.fixed 1) }

def howler : CardDesign :=
  { wolf with effects := [howl] }

def drake : CardDesign :=
  { archer with subtypes := ["Dragon"], effects := [] }

def huntDraft : Draft :=
  { vainDraft with cards := [howler, drake] }

/-- The duel with a wolf that howls at dragons. -/
def hunt : Rulebook where
  catalog := { huntDraft.assemble with cards := [howler, drake] }
  config := {}

theorem accepted_hunt : hunt.catalog.Accepted :=
  accepted_of_sorted (d := huntDraft) (by decide) (by decide +kernel) (by decide +kernel)

/-- Ann has played the wolf. -/
def den : Match :=
  after hunt (deal ++ [.playCard ⟨0⟩ ⟨1⟩])

/-- When Ann plays a dragon, the wolf may howl; Ann alone remembers a play until then, and when her turn
has ended she does not. -/
theorem howls_at_dragon :
    hunt.catalog.Accepted ∧ Reachable hunt den ∧ den.table.isRunning = true ∧
    (∀ seat ∈ den.table.players, seat.lastPlayed ≠ none → den.table.activePlayer? = some seat.id) ∧
    (∀ seat ∈ (den.perform hunt (.endTurn 1)).2.table.players, seat.lastPlayed = none) ∧
    ∃ copy m', den.played? hunt ⟨0⟩ drake = some (copy, m') ∧
      howl.canFire hunt.catalog m'.table ⟨0⟩ = true := by
  have hreach : Reachable hunt den := reachable_after ..
  have hrunning : den.table.isRunning = true := by decide +kernel
  have hends : (Operation.endTurn 1).turnEnds (den.perform hunt (.endTurn 1)).1 = 1 := by
    decide +kernel
  obtain ⟨hactive, hunplayed, hplays⟩ := played_cards_judged accepted_hunt hreach
  refine ⟨accepted_hunt, hreach, hrunning, hactive hrunning, hunplayed _ hends, ?_⟩
  have hsome : (den.played? hunt ⟨0⟩ drake).isSome = true := by decide +kernel
  obtain ⟨⟨copy, m'⟩, hplayed⟩ := Option.isSome_iff_exists.mp hsome
  refine ⟨copy, m', hplayed, ?_⟩
  rcases hplays ⟨0⟩ ⟨2⟩ with ⟨reason, hrejected⟩ | ⟨design, cardType, typed, hheard⟩
  · have hdone : ((playCard hunt hunt.resolver ⟨0⟩ ⟨2⟩).run den).1 = .ok .applied := by
      decide +kernel
    rw [hrejected] at hdone
    cases hdone
  · have hdrake : (hunt.catalog.typed? ⟨2⟩).map Prod.fst = some drake := by decide +kernel
    rw [typed] at hdrake
    obtain rfl : design = drake := Option.some.inj hdrake
    rw [hplayed] at hheard
    obtain ⟨-, -, hjudged⟩ := hheard
    have hfacts : (den.played? hunt ⟨0⟩ drake).map (fun play =>
        (play.2.spawner.handed, (play.2.table.live? ⟨0⟩).map LiveCard.owner,
          (play.2.table.player? ⟨0⟩).any Player.isConnected)) =
        some ([⟨0⟩, ⟨1⟩], some ⟨0⟩, true) := by decide +kernel
    rw [hplayed] at hfacts
    simp only [Option.map_some, Option.some.injEq, Prod.mk.injEq] at hfacts
    obtain ⟨hhanded, howner, hconnected⟩ := hfacts
    obtain ⟨carrier, hcarrier, howner⟩ := Option.map_eq_some_iff.mp howner
    have hfresh : m'.Fresh := by
      rw [Match.Fresh, hhanded]
      decide
    refine (hjudged m' .refl hfresh ⟨0⟩ carrier hcarrier howl ?_).mpr ⟨hconnected, ?_⟩
    · rfl
    · unfold Table.asPlayed
      split <;> rfl

end Duel

end CardArena
