import Mathlib
import CardArena.Catalog.Check
import CardArena.Proofs.Keyed

/-!
# What an accepted catalog is good for

A catalog is accepted if it comes from a draft that passed the checks.  The checks are made once
and in a fixed order; what a match relies on afterwards is a handful of facts about the catalog,
gathered in `Catalog.Coherent`: names and numbers that are used as keys are distinct, and whatever
is named by a key is there.  `Accepted.coherent` is the main statement.
-/

namespace CardArena.Catalog

/-! ## Checks as facts -/

theorem forM_eq_ok_iff {α : Type} {f : α → Checked Unit} {xs : List α} :
    xs.forM f = .ok () ↔ ∀ x ∈ xs, f x = .ok () := by
  induction xs with
  | nil => exact ⟨fun _ _ h => absurd h List.not_mem_nil, fun _ => rfl⟩
  | cons x rest ih =>
      show (f x >>= fun _ => rest.forM f) = .ok () ↔ _
      cases hx : f x with
      | error d =>
          refine ⟨nofun, fun h => ?_⟩
          have := h x List.mem_cons_self
          rw [hx] at this
          cases this
      | ok u =>
          show rest.forM f = .ok () ↔ _
          rw [ih, List.forall_mem_cons]
          exact ⟨fun h => ⟨hx, h⟩, fun h => h.2⟩

/-- Two checks in turn pass if both do. -/
theorem seq_eq_ok_iff {α : Type} {first : Checked Unit} {second : Checked α} {a : α} :
    (first >>= fun _ => second) = .ok a ↔ first = .ok () ∧ second = .ok a := by
  cases first with
  | error d => exact ⟨nofun, fun h => nomatch h.1⟩
  | ok u => exact ⟨fun h => ⟨rfl, h⟩, fun h => h.2⟩

theorem firstRepeat?_eq_none_iff {α : Type} [DecidableEq α] {xs : List α} :
    ∀ {seen : List α}, firstRepeat? seen xs = none ↔ xs.Nodup ∧ ∀ x ∈ xs, x ∉ seen := by
  induction xs with
  | nil => simp [firstRepeat?]
  | cons x rest ih =>
      intro seen
      by_cases hx : x ∈ seen
      · simp [firstRepeat?, hx]
      · simp only [firstRepeat?, if_neg hx, ih, List.nodup_cons, List.mem_cons]
        constructor
        · rintro ⟨hnd, hnew⟩
          refine ⟨⟨fun hmem => hnew x hmem (.inl rfl), hnd⟩, ?_⟩
          rintro y (rfl | hy)
          · exact hx
          · intro hs
            exact hnew y hy (.inr hs)
        · rintro ⟨⟨hnot, hnd⟩, hnew⟩
          refine ⟨hnd, fun y hy => ?_⟩
          rintro (rfl | hs)
          · exact hnot hy
          · exact hnew y (.inr hy) hs

theorem checkDistinct_eq_ok_iff {kind : String} {names : List String} :
    checkDistinct kind names = .ok () ↔ names.Nodup := by
  have h : firstRepeat? [] names = none ↔ names.Nodup ∧ ∀ name ∈ names, name ∉ [] :=
    firstRepeat?_eq_none_iff
  unfold checkDistinct
  cases hr : firstRepeat? [] names with
  | none => simpa [hr] using h
  | some name => simpa [hr] using h

/-- The designs pass if numbers and names are new and types are there. -/
theorem checkDesigns_eq_ok_iff {types : List CardType} {cards : List CardDesign} :
    ∀ {seen : List CardDesign}, checkDesigns types seen cards = .ok () ↔
      (cards.map CardDesign.id).Nodup ∧ (cards.map CardDesign.name).Nodup ∧
      ∀ card ∈ cards, (∀ other ∈ seen, other.id ≠ card.id ∧ other.name ≠ card.name) ∧
        ∃ cardType ∈ types, cardType.name = card.cardType := by
  induction cards with
  | nil => simp [checkDesigns]
  | cons card rest ih =>
      intro seen
      rw [checkDesigns]
      split_ifs with hid hname htype
      · simp only [List.any_eq_true, decide_eq_true_eq] at hid
        obtain ⟨other, hother, he⟩ := hid
        refine ⟨nofun, fun h => ?_⟩
        exact absurd he ((h.2.2 card List.mem_cons_self).1 other hother).1
      · simp only [List.any_eq_true, decide_eq_true_eq] at hname
        obtain ⟨other, hother, he⟩ := hname
        refine ⟨nofun, fun h => ?_⟩
        exact absurd he ((h.2.2 card List.mem_cons_self).1 other hother).2
      · simp only [List.all_eq_true, decide_eq_true_eq] at htype
        refine ⟨nofun, fun h => ?_⟩
        obtain ⟨cardType, hmem, he⟩ := (h.2.2 card List.mem_cons_self).2
        exact absurd he (htype cardType hmem)
      · simp only [Bool.not_eq_true, List.any_eq_false, decide_eq_true_eq] at hid hname
        simp only [List.all_eq_true, decide_eq_true_eq, not_forall, not_not] at htype
        obtain ⟨cardType, hmem, he⟩ := htype
        rw [ih]
        simp only [List.map_cons, List.nodup_cons, List.mem_map, List.forall_mem_cons]
        constructor
        · rintro ⟨hids, hnames, hrest⟩
          refine ⟨⟨?_, hids⟩, ⟨?_, hnames⟩,
            ⟨fun other ho => ⟨hid other ho, hname other ho⟩, cardType, hmem, he⟩, ?_⟩
          · rintro ⟨other, ho, heq⟩
            exact (hrest other ho).1.1.1 heq.symm
          · rintro ⟨other, ho, heq⟩
            exact (hrest other ho).1.1.2 heq.symm
          · intro other ho
            exact ⟨(hrest other ho).1.2, (hrest other ho).2⟩
        · rintro ⟨⟨hid', hids⟩, ⟨hname', hnames⟩, -, hrest⟩
          refine ⟨hids, hnames, fun other ho => ⟨⟨⟨?_, ?_⟩, (hrest other ho).1⟩, (hrest other ho).2⟩⟩
          · intro heq
            exact hid' ⟨other, ho, heq.symm⟩
          · intro heq
            exact hname' ⟨other, ho, heq.symm⟩

/-! ## The facts a match relies on -/

variable (c : Catalog)

/-- Some design or type of the catalog has the effect. -/
def Carries (effect : Effect) : Prop :=
  (∃ design ∈ c.cards, effect ∈ design.effects) ∨
    ∃ cardType ∈ c.cardTypes, effect ∈ cardType.effects

/-- The catalog comes from a draft that passed the checks. -/
def Accepted : Prop :=
  ∃ d : Draft, ofDraft d = .ok c

/-- Keys are distinct, and whatever is named by a key is there. -/
structure Coherent : Prop where
  zones : (c.zones.map ZoneLayout.name).Nodup
  ids : (c.cards.map CardDesign.id).Nodup
  types : ∀ design ∈ c.cards, (c.cardType? design.cardType).isSome
  rules : ∀ rule ∈ c.rules, c.checkRule rule = .ok ()
  effects : ∀ effect, c.Carries effect → ∃ owner, c.checkEffect owner effect = .ok ()

variable {c}

theorem checkReferences_eq_ok_iff :
    c.checkReferences = .ok () ↔
      (∀ rule ∈ c.rules, c.checkRule rule = .ok ()) ∧
      (∀ cardType ∈ c.cardTypes, ∀ effect ∈ cardType.effects,
        c.checkEffect cardType.name effect = .ok ()) ∧
      (∀ card ∈ c.cards, ∀ effect ∈ card.effects, c.checkEffect card.name effect = .ok ()) ∧
      ∀ scheduled ∈ c.gameStartActions ++ c.turnStartActions ++ c.turnEndActions,
        c.checkScheduled scheduled = .ok () := by
  simp only [checkReferences, seq_eq_ok_iff, forM_eq_ok_iff]

theorem checkNames_eq_ok_iff {d : Draft} :
    checkNames d = .ok () ↔
      (d.zones.map (·.name)).Nodup ∧ (d.playerAttributes.map (·.name)).Nodup ∧
      (d.rules.map (·.name)).Nodup ∧ (d.cardTypes.map (·.name)).Nodup ∧
      checkDesigns d.cardTypes [] d.cards = .ok () := by
  simp only [checkNames, seq_eq_ok_iff, checkDistinct_eq_ok_iff]

/-- **An accepted catalog is coherent.** -/
theorem Accepted.coherent (h : c.Accepted) : c.Coherent := by
  obtain ⟨d, hd⟩ := h
  obtain ⟨hnames, hd⟩ := seq_eq_ok_iff.mp hd
  obtain ⟨hrefs, hd⟩ := seq_eq_ok_iff.mp hd
  cases hd
  obtain ⟨hzones, -, -, -, hdesigns⟩ := checkNames_eq_ok_iff.mp hnames
  obtain ⟨hrules, htypes, hcards, -⟩ := checkReferences_eq_ok_iff.mp hrefs
  obtain ⟨hids, -, hknown⟩ := checkDesigns_eq_ok_iff.mp hdesigns
  have hperm : d.assemble.cards.Perm d.cards := List.mergeSort_perm _ _
  refine ⟨hzones, (hperm.map _).nodup_iff.mpr hids, fun design hdesign => ?_, hrules, ?_⟩
  · obtain ⟨cardType, hmem, he⟩ := (hknown design (hperm.mem_iff.mp hdesign)).2
    exact List.find?_isSome.mpr ⟨cardType, hmem, by simpa using he⟩
  · rintro effect (⟨design, hdesign, heffect⟩ | ⟨cardType, htype, heffect⟩)
    · exact ⟨_, hcards design hdesign effect heffect⟩
    · exact ⟨_, htypes cardType htype effect heffect⟩

/-! ## Looking things up -/

theorem typed?_eq_some_iff {id : CardId} {design : CardDesign} {cardType : CardType} :
    c.typed? id = some (design, cardType) ↔
      c.card? id = some design ∧ c.cardType? design.cardType = some cardType := by
  simp only [typed?, Option.bind_eq_bind, Option.bind_eq_some_iff, Option.pure_def,
    Option.some.injEq, Prod.mk.injEq]
  constructor
  · rintro ⟨_, hcard, _, htype, rfl, rfl⟩
    exact ⟨hcard, htype⟩
  · exact fun ⟨hcard, htype⟩ => ⟨design, hcard, cardType, htype, rfl, rfl⟩

theorem card?_some {id : CardId} {design : CardDesign} (h : c.card? id = some design) :
    design ∈ c.cards ∧ design.id = id :=
  ⟨List.mem_of_find?_eq_some h, by simpa using List.find?_some h⟩

theorem cardNamed?_mem {name : String} {design : CardDesign}
    (h : c.cardNamed? name = some design) : design ∈ c.cards :=
  List.mem_of_find?_eq_some h

theorem rule?_mem {name : String} {rule : Rule} (h : c.rule? name = some rule) : rule ∈ c.rules :=
  List.mem_of_find?_eq_some h

theorem cardType?_mem {name : String} {cardType : CardType}
    (h : c.cardType? name = some cardType) : cardType ∈ c.cardTypes :=
  List.mem_of_find?_eq_some h

/-- A design of the catalog is found under its own number, together with its type. -/
theorem Coherent.typed?_of_mem (hc : c.Coherent) {design : CardDesign} (h : design ∈ c.cards) :
    ∃ cardType, c.typed? design.id = some (design, cardType) ∧
      c.cardType? design.cardType = some cardType := by
  obtain ⟨cardType, htype⟩ := Option.isSome_iff_exists.mp (hc.types design h)
  have hcard : c.card? design.id = some design := find?_eq_some_of_nodup hc.ids h
  exact ⟨cardType, typed?_eq_some_iff.mpr ⟨hcard, htype⟩, htype⟩

theorem Coherent.typed?_of_card? (hc : c.Coherent) {id : CardId} {design : CardDesign}
    (h : c.card? id = some design) : ∃ cardType, c.typed? id = some (design, cardType) := by
  obtain ⟨hmem, rfl⟩ := card?_some h
  obtain ⟨cardType, htyped, -⟩ := hc.typed?_of_mem hmem
  exact ⟨cardType, htyped⟩

end CardArena.Catalog
