import Mathlib
import CardArena.Proofs.Muted
import CardArena.Proofs.Reachable

/-!
# What a card costs, and what a player has

The costs of a design are a list, and an attribute may stand in it more than once.  A play is refused
unless every entry of the list, taken by itself, is covered by what the player has; the entries are then
taken one after the other.  So what is asked first says something about the sum that is taken only where
an attribute stands in the list once.  In general a player may come to pay an attribute as many times over
as it has entries (`plays_cover_each_cost`), and ends below zero (`Duel.tolled_twice`).

What payment comes to is said of the attributes alone (`Attributes.pay`).  That is what the engine does to
them in a game in which nothing fires (`payCosts_muted`).
-/

namespace CardArena

open Play

/-! ## Sums of costs -/

namespace Cost

/-- The entries on an attribute. -/
def onAttr (costs : List Cost) (attr : String) : List Cost :=
  costs.filter (·.attr = attr)

/-- What the entries on an attribute come to. -/
def total (costs : List Cost) (attr : String) : Int :=
  ((onAttr costs attr).map fun cost => cost.amount.toInt).sum

theorem total_cons (cost : Cost) (costs : List Cost) (attr : String) :
    total (cost :: costs) attr =
      if cost.attr = attr then cost.amount.toInt + total costs attr else total costs attr := by
  by_cases h : cost.attr = attr <;> simp [total, onAttr, h]

theorem total_append (paid rest : List Cost) (attr : String) :
    total (paid ++ rest) attr = total paid attr + total rest attr := by
  simp [total, onAttr]

theorem total_nonneg {costs : List Cost} (h : ∀ cost ∈ costs, 0 ≤ cost.amount) (attr : String) :
    0 ≤ total costs attr := by
  refine List.sum_nonneg ?_
  intro amount hamount
  obtain ⟨cost, hcost, rfl⟩ := List.mem_map.mp hamount
  exact Int32.le_iff_toInt_le.mp (h cost (List.mem_of_mem_filter hcost))

/-- A part of the entries comes to no more than all of them. -/
theorem total_le_of_prefix {paid costs : List Cost} (hpart : paid <+: costs)
    (h : ∀ cost ∈ costs, 0 ≤ cost.amount) (attr : String) : total paid attr ≤ total costs attr := by
  obtain ⟨rest, rfl⟩ := hpart
  have hrest : 0 ≤ total rest attr :=
    total_nonneg (fun cost hcost => h cost (List.mem_append_right paid hcost)) attr
  rw [total_append]
  omega

/-- Entries that are covered one by one come to as many times what covers them. -/
theorem total_le {costs : List Cost} {attr : String} {value : Amount}
    (h : ∀ cost ∈ costs, cost.attr = attr → cost.amount ≤ value) :
    total costs attr ≤ (onAttr costs attr).length * value.toInt := by
  have hle : ∀ amount ∈ (onAttr costs attr).map fun cost => cost.amount.toInt,
      amount ≤ value.toInt := by
    intro amount hamount
    obtain ⟨cost, hcost, rfl⟩ := List.mem_map.mp hamount
    obtain ⟨hmem, hattr⟩ := List.mem_filter.mp hcost
    exact Int32.le_iff_toInt_le.mp (h cost hmem (of_decide_eq_true hattr))
  have hsum := List.sum_le_card_nsmul _ _ hle
  simpa [total] using hsum

end Cost

/-! ## Payment -/

namespace Attributes

/-- Each entry is covered by what is there. -/
theorem canPay_iff {a : Attributes} {costs : List Cost} :
    a.canPay costs ↔ ∀ cost ∈ costs, ∃ value, a.get? cost.attr = some value ∧ cost.amount ≤ value := by
  simp only [canPay, List.all_eq_true, Option.any_eq_true, decide_eq_true_eq]

theorem isSome_get?_of_canPay {a : Attributes} {costs : List Cost} (h : a.canPay costs) :
    ∀ cost ∈ costs, (a.get? cost.attr).isSome := by
  intro cost hcost
  obtain ⟨value, hvalue, -⟩ := canPay_iff.mp h cost hcost
  rw [hvalue]
  rfl

theorem amount_le_of_canPay {a : Attributes} {costs : List Cost} (h : a.canPay costs) {attr : String}
    {value : Amount} (hvalue : a.get? attr = some value) :
    ∀ cost ∈ costs, cost.attr = attr → cost.amount ≤ value := by
  rintro cost hcost rfl
  obtain ⟨value', hvalue', hle⟩ := canPay_iff.mp h cost hcost
  rw [hvalue] at hvalue'
  cases hvalue'
  exact hle

/-- What is left when costs have been taken one after the other; payment stops at an attribute that is
not there. -/
def pay (a : Attributes) : List Cost → Attributes
  | [] => a
  | cost :: rest =>
    match a.get? cost.attr with
    | none => a
    | some value => (a.set cost.attr (value.less cost.amount)).pay rest

theorem pay_cons {a : Attributes} {cost : Cost} {value : Amount} (h : a.get? cost.attr = some value)
    (rest : List Cost) : a.pay (cost :: rest) = (a.set cost.attr (value.less cost.amount)).pay rest := by
  rw [pay, h]

theorem isSome_get?_set {a : Attributes} {name attr : String} (value : Amount)
    (h : (a.get? attr).isSome) : ((a.set name value).get? attr).isSome := by
  rw [get?_set]
  split_ifs
  · rfl
  · exact h

end Attributes

/-- To take away no less than nothing stops at the least amount. -/
theorem Amount.toInt_less {a b : Amount} (h : 0 ≤ b) :
    (a.less b).toInt = max Int32.minValue.toInt (a.toInt - b.toInt) := by
  have hb : 0 ≤ b.toInt := Int32.le_iff_toInt_le.mp h
  have ha := a.toInt_le
  have hmin : Int32.minValue.toInt = -2 ^ 31 := rfl
  have hmax : Int32.maxValue.toInt = 2 ^ 31 - 1 := rfl
  rw [less, nearest, Int32.toInt_ofInt_of_le]
  · omega
  · omega
  · omega

/-- **What is left of an attribute is what was there less all that was to be paid of it**, or the least
amount if that is more. -/
theorem Attributes.get?_pay {costs : List Cost} (hcosts : ∀ cost ∈ costs, 0 ≤ cost.amount)
    {a : Attributes} (hnamed : ∀ cost ∈ costs, (a.get? cost.attr).isSome) {attr : String} {value : Amount}
    (h : a.get? attr = some value) :
    ∃ left, (a.pay costs).get? attr = some left ∧
      left.toInt = max Int32.minValue.toInt (value.toInt - Cost.total costs attr) := by
  induction costs generalizing a value with
  | nil =>
      refine ⟨value, h, ?_⟩
      have := value.minValue_le_toInt
      simp only [Cost.total, Cost.onAttr, List.filter_nil, List.map_nil, List.sum_nil]
      omega
  | cons cost rest ih =>
      obtain ⟨old, hold⟩ := Option.isSome_iff_exists.mp (hnamed cost List.mem_cons_self)
      have hrest : ∀ cost ∈ rest, 0 ≤ cost.amount := fun c hc => hcosts c (List.mem_cons_of_mem _ hc)
      have hset : ∀ c ∈ rest, ((a.set cost.attr (old.less cost.amount)).get? c.attr).isSome :=
        fun c hc => isSome_get?_set _ (hnamed c (List.mem_cons_of_mem _ hc))
      rw [pay_cons hold, Cost.total_cons]
      by_cases hattr : cost.attr = attr
      · subst hattr
        rw [h] at hold
        cases hold
        obtain ⟨left, hleft, hvalue⟩ := ih hrest hset (get?_set a cost.attr cost.attr _ ▸ if_pos rfl)
        refine ⟨left, hleft, ?_⟩
        have hless := Amount.toInt_less (a := value) (hcosts cost List.mem_cons_self)
        have htotal := Cost.total_nonneg hrest cost.attr
        rw [if_pos rfl]
        omega
      · have hkept : (a.set cost.attr (old.less cost.amount)).get? attr = some value := by
          rw [get?_set, if_neg (Ne.symm hattr), h]
        obtain ⟨left, hleft, hvalue⟩ := ih hrest hset hkept
        exact ⟨left, hleft, by rw [if_neg hattr, hvalue]⟩

namespace Table

variable {t : Table}

/-- The attributes of a player. -/
def attributes? (t : Table) (player : PlayerId) : Option Attributes :=
  (t.player? player).map Player.attributes

theorem attributes?_setAttribute {player : PlayerId} {seat : Player}
    (h : t.player? player = some seat) (attr : String) (value : Amount) :
    (t.modifyPlayer player fun seat =>
      { seat with attributes := seat.attributes.set attr value }).attributes? player
      = some (seat.attributes.set attr value) := by
  have hfound := @player?_modifyPlayer t player
    (fun seat => { seat with attributes := seat.attributes.set attr value }) (fun _ => rfl) player
  rw [attributes?, hfound, h, Option.map_some, Option.map_some, if_pos (mem_of_player? h).2]

/-- What happens to the cards of players changes no attributes. -/
theorem attributes?_modifyZone (player : PlayerId) (zone : String) (change : Zone → Zone)
    (other : PlayerId) : (t.modifyZone player zone change).attributes? other = t.attributes? other := by
  have hfound := @player?_modifyPlayer t player (·.modifyZone zone change) (fun _ => rfl) other
  rw [attributes?, modifyZone, hfound, attributes?, Option.map_map]
  congr 1
  funext seat
  show (if seat.id = player then seat.modifyZone zone change else seat).attributes = seat.attributes
  split_ifs <;> rfl

end Table

/-! ## Where nothing fires -/

section

variable (rules : Rulebook) (resolve : Resolver) {m : Match}

theorem raise_muted (event : Event) (card : LiveId) (m : Match) :
    (raise rules.muted resolve event card).run m = (.ok (), m) := by
  rw [raise, run_get_bind]
  cases m.table.live? card with
  | none => rfl
  | some live =>
      show ((rules.catalog.muted.listeners live event).forM (offer rules.muted resolve card)).run m = _
      rw [rules.catalog.listeners_muted]
      rfl

theorem raiseOnAll_muted (event : Event) (m : Match) :
    (raiseOnAll rules.muted resolve event).run m = (.ok (), m) := by
  rw [raiseOnAll, run_get_bind]
  induction m.table.liveInOrder with
  | nil => rfl
  | cons card rest ih =>
      have hcard : (raiseIfAlive rules.muted resolve event card).run m = (.ok (), m) := by
        rw [raiseIfAlive, run_get_bind]
        split
        · exact raise_muted rules resolve event card m
        · rfl
      rw [forM_cons, run_bind_ok hcard, ih]

/-- A write to an attribute that nobody hears of. -/
theorem changePlayerAttribute_muted {player : PlayerId} {a : Attributes} {attr : String} {old : Amount}
    (change : Amount → Amount) (ha : m.table.attributes? player = some a)
    (hold : a.get? attr = some old) :
    ∃ m', (changePlayerAttribute rules.muted resolve player attr change).run m = (.ok (), m') ∧
      m'.table.attributes? player = some (a.set attr (change old)) := by
  obtain ⟨seat, hseat, rfl⟩ := Option.map_eq_some_iff.mp ha
  have hread : (playerAttribute player attr).run m = (.ok old, m) := by
    rw [playerAttribute, run_get_bind, hseat]
    dsimp only
    rw [hold]
    rfl
  refine ⟨m.onTable (·.modifyPlayer player fun seat =>
    { seat with attributes := seat.attributes.set attr (change old) }), ?_, ?_⟩
  · rw [changePlayerAttribute, run_bind_ok hread, setPlayerAttribute, run_bind_ok hread,
      run_modify_bind]
    split
    · rfl
    · exact raiseOnAll_muted ..
  · exact Table.attributes?_setAttribute hseat attr (change old)

/-- **Where nothing fires, payment is `Attributes.pay`.** -/
theorem payCosts_muted {player : PlayerId} {costs : List Cost} {a : Attributes}
    (ha : m.table.attributes? player = some a)
    (hnamed : ∀ cost ∈ costs, (a.get? cost.attr).isSome) :
    ∃ m', (payCosts rules.muted resolve player costs).run m = (.ok (), m') ∧
      m'.table.attributes? player = some (a.pay costs) := by
  induction costs generalizing m a with
  | nil => exact ⟨m, rfl, ha⟩
  | cons cost rest ih =>
      obtain ⟨old, hold⟩ := Option.isSome_iff_exists.mp (hnamed cost List.mem_cons_self)
      obtain ⟨m₁, hchange, hset⟩ :=
        changePlayerAttribute_muted rules resolve (·.less cost.amount) ha hold
      obtain ⟨m', hrun, hpaid⟩ := ih hset fun c hc =>
        Attributes.isSome_get?_set _ (hnamed c (List.mem_cons_of_mem _ hc))
      refine ⟨m', ?_, ?_⟩
      · rw [payCosts, forM_cons, run_bind_ok hchange]
        exact hrun
      · rw [hpaid, Attributes.pay_cons hold]

end

/-- A play that is not refused has met all that is asked of it. -/
theorem Match.Fits.playable {rules : Rulebook} {ids : List PlayerId} {m : Match}
    (hm : m.Fits rules.catalog ids) {player : PlayerId} {card : CardId} {design : CardDesign}
    (hdesign : rules.catalog.card? card = some design)
    (hplayed : ∀ reason,
      (m.perform rules (.playCard player card)).1 ≠ .ok (.outcome (.rejected reason))) :
    m.Playable rules player design := by
  rcases playCard_ways hm player card with ⟨reason, hrun⟩ | ⟨played, hknown, hplayable, -⟩
  · have hanswer : (m.perform rules (.playCard player card)).1
        = .ok (.outcome (.rejected reason)) := by
      rw [Match.perform, performWith, run_map, hrun]
      rfl
    exact absurd hanswer (hplayed reason)
  · rw [hdesign] at hknown
    cases hknown
    exact hplayable

/-- **A play that is not refused covers each of its costs.**  So in the end every attribute of which the
design names one cost is paid from what was there.  An attribute with more entries need not be: they come
to no more than as many times its value, and nothing better can be said (`Duel.tolled_twice`). -/
theorem plays_cover_each_cost {rules : Rulebook} {m : Match} (hc : rules.catalog.Accepted)
    (h : Reachable rules m) {player : PlayerId} {card : CardId} {design : CardDesign}
    (hdesign : rules.catalog.card? card = some design)
    (hcosts : ∀ cost ∈ design.costs, 0 ≤ cost.amount)
    (hplayed : ∀ reason,
      (m.perform rules (.playCard player card)).1 ≠ .ok (.outcome (.rejected reason))) :
    ∃ a m', m.table.attributes? player = some a ∧
      (payCosts rules.muted rules.muted.resolver player design.costs).run
        (m.draw rules player card) = (.ok (), m') ∧
      m'.table.attributes? player = some (a.pay design.costs) ∧
      ∀ cost ∈ design.costs, ∃ value, a.get? cost.attr = some value ∧
        Cost.total design.costs cost.attr
          ≤ (Cost.onAttr design.costs cost.attr).length * value.toInt ∧
        ∀ paid, paid <+: design.costs → ∃ left,
          (a.pay paid).get? cost.attr = some left ∧
          left.toInt = max Int32.minValue.toInt (value.toInt - Cost.total paid cost.attr) ∧
          (Cost.onAttr design.costs cost.attr = [cost] →
            Cost.total design.costs cost.attr ≤ value.toInt ∧ 0 ≤ left) := by
  have hfits : m.Fits rules.catalog m.table.playerIds := ⟨h.conforms hc.coherent, rfl⟩
  have hplayable := hfits.playable hdesign hplayed
  obtain ⟨seat, hseat, hpay⟩ := hplayable.affordable
  have ha : m.table.attributes? player = some seat.attributes := by
    rw [Table.attributes?, hseat]
    rfl
  have hnamed := Attributes.isSome_get?_of_canPay hpay
  have hdraw : (m.draw rules player card).table.attributes? player = some seat.attributes :=
    (Table.attributes?_modifyZone ..).trans ha
  obtain ⟨m', hrun, hpaid⟩ := payCosts_muted rules rules.muted.resolver hdraw hnamed
  refine ⟨seat.attributes, m', ha, hrun, hpaid, ?_⟩
  intro cost hcost
  obtain ⟨value, hvalue, hcovered⟩ := Attributes.canPay_iff.mp hpay cost hcost
  refine ⟨value, hvalue, Cost.total_le (Attributes.amount_le_of_canPay hpay hvalue), ?_⟩
  intro paid hpart
  obtain ⟨left, hleft, hamount⟩ := Attributes.get?_pay (fun c hc => hcosts c (hpart.subset hc))
    (fun c hc => hnamed c (hpart.subset hc)) hvalue
  refine ⟨left, hleft, hamount, ?_⟩
  intro honce
  have htotal : Cost.total design.costs cost.attr = cost.amount.toInt := by
    rw [Cost.total, honce]
    simp
  have hpaidTotal := Cost.total_le_of_prefix hpart hcosts cost.attr
  have hle := Int32.le_iff_toInt_le.mp hcovered
  refine ⟨by omega, Int32.le_iff_toInt_le.mpr ?_⟩
  have hmin : Int32.minValue.toInt = -2 ^ 31 := rfl
  have hzero : (0 : Int32).toInt = 0 := rfl
  omega

namespace Duel

/-- A wolf that costs two mana and two mana more. -/
def tollWolf : CardDesign :=
  { wolf with costs := [⟨"Mana", 2⟩, ⟨"Mana", 2⟩] }

/-- An archer that costs two mana and some life. -/
def tollArcher : CardDesign :=
  { archer with costs := [⟨"Mana", 2⟩, ⟨"Life", 5⟩] }

def tollDraft : Draft :=
  { draft with
    cards := [tollWolf, tollArcher]
    playerAttributes := [⟨"Life", 20⟩, ⟨"Mana", 3⟩] }

/-- The duel in which cards cost something. -/
def tolled : Rulebook where
  catalog := { tollDraft.assemble with cards := [tollWolf, tollArcher] }
  config := {}

theorem accepted_tolled : tolled.catalog.Accepted :=
  accepted_of_sorted (d := tollDraft) (by decide) (by decide +kernel) (by decide +kernel)

/-- Ann has three mana, and pays for the archer from it. -/
theorem tolled_once :
    ((after tolled deal).perform tolled (.playCard ⟨0⟩ ⟨2⟩)).1 = .ok (.outcome .applied) ∧
    ∃ a m', (after tolled deal).table.attributes? ⟨0⟩ = some a ∧
      (payCosts tolled.muted tolled.muted.resolver ⟨0⟩ tollArcher.costs).run
        ((after tolled deal).draw tolled ⟨0⟩ ⟨2⟩) = (.ok (), m') ∧
      m'.table.attributes? ⟨0⟩ = some (a.pay tollArcher.costs) ∧
      ∃ value, a.get? "Mana" = some value ∧ Cost.total tollArcher.costs "Mana" ≤ value.toInt := by
  have happlied : ((after tolled deal).perform tolled (.playCard ⟨0⟩ ⟨2⟩)).1
      = .ok (.outcome .applied) := by decide +kernel
  obtain ⟨a, m', ha, hrun, hpaid, heach⟩ :=
    @plays_cover_each_cost tolled _ accepted_tolled (reachable_after tolled deal) ⟨0⟩ ⟨2⟩ tollArcher
      (by decide +kernel) (by decide) (fun reason => by rw [happlied]; simp)
  obtain ⟨value, hvalue, -, hparts⟩ := heach ⟨"Mana", 2⟩ (by decide)
  obtain ⟨left, -, -, honce⟩ := hparts [] List.nil_prefix
  exact ⟨happlied, a, m', ha, hrun, hpaid, value, hvalue, (honce (by decide)).1⟩

/-- She may play the wolf just as well, which costs four mana in all, and has less than none then. -/
theorem tolled_twice :
    tolled.catalog.Accepted ∧ Reachable tolled (after tolled deal) ∧
    tolled.catalog.card? ⟨1⟩ = some tollWolf ∧ (∀ cost ∈ tollWolf.costs, 0 ≤ cost.amount) ∧
    ((after tolled deal).perform tolled (.playCard ⟨0⟩ ⟨1⟩)).1 = .ok (.outcome .applied) ∧
    ((after tolled deal).table.attributes? ⟨0⟩).bind (·.get? "Mana") = some 3 ∧
    Cost.total tollWolf.costs "Mana" = 4 ∧
    (((after tolled deal).perform tolled (.playCard ⟨0⟩ ⟨1⟩)).2.table.attributes? ⟨0⟩).bind
      (·.get? "Mana") = some (-1) := by
  refine ⟨accepted_tolled, reachable_after .., ?_⟩
  refine ⟨?_, ?_, ?_, ?_, ?_, ?_⟩ <;> decide +kernel

end Duel

end CardArena
