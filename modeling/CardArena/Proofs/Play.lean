import Mathlib
import CardArena.Match.Operation

/-!
# What a step does, and what it does whether or not it fails

`Play` is a fault over a state, and the state stays changed when a step fails.  So a law about a
step is a law about the pair `step.run m`, and most laws concern its second half alone.

* `run_bind` and its companions compute `step.run m` from the parts of the step.
* `Leads r F step m` says that from `m` the step goes along `r`, in any number of moves and whether
  or not it fails, and that it fails with faults of `F` only.  It is closed under everything that
  steps are built with; so a law about one move of `r` becomes a law about the step.
* `Along P r F step` says so for every match of `P`, where `P` is kept along `r` (`Kept`).
* `Yields P step Q` says nothing of a step that fails: if it does not, it takes a match of `P` to an
  answer and a match of `Q`.
* `stops f m xs` is where a loop stands, one member after the other, for laws about what it meets.
-/

namespace CardArena.Play

open Relation (ReflTransGen)

/-! ## Running a step -/

theorem run_bind (x : Play α) (k : α → Play β) (m : Match) :
    (x >>= k).run m = match x.run m with
      | (.ok a, m') => (k a).run m'
      | (.error f, m') => (.error f, m') := by
  show ExceptT.bindCont k (x.run m).1 (x.run m).2 = _
  obtain ⟨_ | _, _⟩ := x.run m <;> rfl

theorem run_bind_ok {x : Play α} {m m' : Match} {a : α} (h : x.run m = (.ok a, m'))
    (k : α → Play β) : (x >>= k).run m = (k a).run m' := by
  rw [run_bind, h]

theorem run_bind_error {x : Play α} {m m' : Match} {f : Fault} (h : x.run m = (.error f, m'))
    (k : α → Play β) : (x >>= k).run m = (.error f, m') := by
  rw [run_bind, h]

/-- Two steps in turn end well if both do. -/
theorem run_bind_eq_ok {x : Play α} {k : α → Play β} {m m' : Match} {b : β}
    (h : (x >>= k).run m = (.ok b, m')) :
    ∃ a m₁, x.run m = (.ok a, m₁) ∧ (k a).run m₁ = (.ok b, m') := by
  rcases hx : x.run m with ⟨f | a, m₁⟩
  · rw [run_bind_error hx] at h
    cases h
  · exact ⟨a, m₁, rfl, run_bind_ok hx k ▸ h⟩

@[simp]
theorem run_pure (a : α) (m : Match) : (pure a : Play α).run m = (.ok a, m) := rfl

@[simp]
theorem run_throw (f : Fault) (m : Match) : (throw f : Play α).run m = (.error f, m) := rfl

@[simp]
theorem run_modify (f : Match → Match) (m : Match) :
    (modify f : Play Unit).run m = (.ok (), f m) := rfl

@[simp]
theorem run_get_bind (k : Match → Play β) (m : Match) : (get >>= k).run m = (k m).run m := rfl

@[simp]
theorem run_modify_bind (f : Match → Match) (k : Unit → Play β) (m : Match) :
    (modify f >>= k).run m = (k ()).run (f m) := rfl

@[simp]
theorem run_modifyGet_bind (f : Match → α × Match) (k : α → Play β) (m : Match) :
    (modifyGet f >>= k).run m = (k (f m).1).run (f m).2 := rfl

@[simp]
theorem run_map (f : α → β) (x : Play α) (m : Match) :
    (f <$> x).run m = ((x.run m).1.map f, (x.run m).2) := by
  show (x >>= fun a => pure (f a)).run m = _
  rw [run_bind]
  obtain ⟨_ | _, _⟩ := x.run m <;> rfl

theorem run_map_eq_ok {f : α → β} {x : Play α} {b : β} {m m' : Match}
    (h : (f <$> x).run m = (.ok b, m')) : ∃ a, x.run m = (.ok a, m') ∧ f a = b := by
  rw [run_map] at h
  rcases hx : x.run m with ⟨fault | a, m₁⟩ <;> rw [hx] at h <;> cases h
  exact ⟨a, rfl, rfl⟩

theorem run_map_eq_error {f : α → β} {x : Play α} {fault : Fault} {m m' : Match}
    (h : (f <$> x).run m = (.error fault, m')) : x.run m = (.error fault, m') := by
  rw [run_map] at h
  rcases hx : x.run m with ⟨fault | a, m₁⟩ <;> rw [hx] at h <;> cases h
  rfl

/-- To answer something else changes nothing. -/
theorem run_bind_pure (x : Play α) (b : β) (m : Match) :
    ((x >>= fun _ => pure b).run m).2 = (x.run m).2 := by
  rw [run_bind]
  obtain ⟨_ | _, _⟩ := x.run m <;> rfl

@[simp]
theorem run_discard (x : Play α) (m : Match) :
    (discard x).run m = ((x.run m).1.map fun _ => (), (x.run m).2) :=
  run_map _ x m

/-- An attempt never fails, and leaves the match as the step left it. -/
@[simp]
theorem run_attempt (x : Play Unit) (m : Match) : (attempt x).run m = (.ok (), (x.run m).2) := by
  have hbind {β γ : Type} (y : StateM Match β) (k : β → StateM Match γ) :
      (y >>= k) m = k (y m).1 (y m).2 := rfl
  rw [attempt, ExceptT.run_tryCatch, hbind]
  obtain ⟨_ | _, _⟩ := x.run m <;> rfl

theorem run_finally (x : Play Unit) (f : Match → Match) (m : Match) :
    (try x finally modify f : Play Unit).run m = ((x.run m).1, f (x.run m).2) := by
  show (Functor.map Prod.fst (tryFinally' x fun _ => modify f)).run m = _
  rw [ExceptT.run_map]
  simp only [tryFinally', ExceptT.run_mk, Functor.map, StateT.map, bind, StateT.bind, pure]
  show _ = ((x m).1, f (x m).2)
  generalize x m = p
  obtain ⟨_ | _, _⟩ := p <;> rfl

theorem forM_cons (a : α) (rest : List α) (f : α → Play Unit) :
    (a :: rest).forM f = f a >>= fun _ => rest.forM f := rfl

theorem forM_singleton (a : α) (f : α → Play Unit) : [a].forM f = f a :=
  bind_pure_unit

/-! ## Where a step leads -/

/-- From `m` the step goes along `r`, whatever comes of it, and fails with faults of `F` only. -/
structure Leads (r : Match → Match → Prop) (F : Fault → Prop) (step : Play α) (m : Match) :
    Prop where
  path : ReflTransGen r m (step.run m).2
  fault : ∀ f, (step.run m).1 = .error f → F f

/-- The step leads along `r` from every match of `P`. -/
def Along (P : Match → Prop) (r : Match → Match → Prop) (F : Fault → Prop) (step : Play α) :
    Prop :=
  ∀ m, P m → Leads r F step m

/-- A move of `r` from a match of `P` ends in one. -/
def Kept (P : Match → Prop) (r : Match → Match → Prop) : Prop :=
  ∀ m m', r m m' → P m → P m'

variable {P : Match → Prop} {r r' : Match → Match → Prop} {F G : Fault → Prop} {m : Match}

theorem Kept.chain (kept : Kept P r) {m' : Match} (h : ReflTransGen r m m') (hm : P m) : P m' := by
  induction h with
  | refl => exact hm
  | tail _ hstep ih => exact kept _ _ hstep ih

/-! ### From one match -/

namespace Leads

theorem pure (a : α) : Leads r F (pure a : Play α) m :=
  ⟨.refl, nofun⟩

theorem throw {f : Fault} (hf : F f) : Leads r F (throw f : Play α) m :=
  ⟨.refl, fun _ h => by cases h; exact hf⟩

/-- A fault ends a step, a result goes on. -/
theorem bind {x : Play α} {k : α → Play β} (hx : Leads r F x m)
    (hk : ∀ a m', x.run m = (.ok a, m') → Leads r F (k a) m') : Leads r F (x >>= k) m := by
  obtain ⟨hpath, hfault⟩ := hx
  rcases h : x.run m with ⟨f | a, m'⟩
  · rw [h] at hpath hfault
    refine ⟨?_, ?_⟩ <;> rw [run_bind_error h]
    · exact hpath
    · intro g hg
      exact hfault g (by cases hg; rfl)
  · rw [h] at hpath
    obtain ⟨hpath', hfault'⟩ := hk a m' h
    refine ⟨?_, ?_⟩ <;> rw [run_bind_ok h]
    · exact hpath.trans hpath'
    · exact hfault'

theorem get_bind {k : Match → Play β} (h : Leads r F (k m) m) : Leads r F (get >>= k) m :=
  ⟨h.path, h.fault⟩

theorem set_bind {m₁ : Match} {k : Unit → Play β} (hmove : r m m₁) (h : Leads r F (k ()) m₁) :
    Leads r F (set m₁ >>= k) m :=
  ⟨.trans (.single hmove) h.path, h.fault⟩

theorem modify_bind {f : Match → Match} {k : Unit → Play β} (hmove : r m (f m))
    (h : Leads r F (k ()) (f m)) : Leads r F (modify f >>= k) m :=
  ⟨.trans (.single hmove) h.path, h.fault⟩

theorem modifyGet_bind {f : Match → α × Match} {k : α → Play β} (hmove : r m (f m).2)
    (h : Leads r F (k (f m).1) (f m).2) : Leads r F (modifyGet f >>= k) m :=
  ⟨.trans (.single hmove) h.path, h.fault⟩

theorem modify {f : Match → Match} (hmove : r m (f m)) : Leads r F (modify f : Play Unit) m :=
  ⟨.single hmove, nofun⟩

theorem map {x : Play α} (hx : Leads r F x m) (f : α → β) : Leads r F (f <$> x) m := by
  refine ⟨?_, fun g hg => hx.fault g ?_⟩ <;> rw [run_map] at *
  · exact hx.path
  · cases h : (x.run m).1 with
    | error f => rw [h] at hg; cases hg; rfl
    | ok a => rw [h] at hg; cases hg

theorem discard {x : Play α} (hx : Leads r F x m) : Leads r F (discard x) m :=
  hx.map _

theorem thenDone {x : Play Unit} (hx : Leads r F x m) : Leads r F (thenDone x) m :=
  hx.bind fun _ _ _ => .pure _

/-- What an attempt fails with does not matter. -/
theorem attempt {x : Play Unit} (hx : Leads r G x m) : Leads r F (attempt x) m := by
  refine ⟨?_, fun f hf => ?_⟩ <;> rw [run_attempt] at *
  · exact hx.path
  · cases hf

theorem after (kept : Kept P r) {x : Play α} (hx : Leads r F x m) (hm : P m)
    {result : Except Fault α} {m' : Match} (h : x.run m = (result, m')) : P m' := by
  simpa [h] using kept.chain hx.path hm

/-- A step that cannot fail ends well. -/
theorem exists_ok {x : Play α} (hx : Leads r (fun _ => False) x m) :
    ∃ a m', x.run m = (.ok a, m') ∧ ReflTransGen r m m' := by
  obtain ⟨hpath, hfault⟩ := hx
  rcases h : x.run m with ⟨f | a, m'⟩ <;> rw [h] at hpath hfault
  · exact (hfault f rfl).elim
  · exact ⟨a, m', rfl, hpath⟩

/-- Two steps that end alike lead alike, once the first is as far as the second starts. -/
theorem of_run {x y : Play α} {m₁ : Match} (h : x.run m = y.run m₁) (hpath : ReflTransGen r m m₁)
    (hy : Leads r F y m₁) : Leads r F x m :=
  ⟨h ▸ hpath.trans hy.path, h ▸ hy.fault⟩

theorem mono {x : Play α} (hx : Leads r F x m) (hr : ∀ a b, r a b → r' a b)
    (hF : ∀ f, F f → G f) : Leads r' G x m :=
  ⟨ReflTransGen.mono hr _ _ hx.path, fun f hf => hF f (hx.fault f hf)⟩

end Leads

/-! ### From every match of a kind -/

namespace Along

theorem after (kept : Kept P r) {x : Play α} (hx : Along P r F x) (hm : P m)
    {result : Except Fault α} {m' : Match} (h : x.run m = (result, m')) : P m' :=
  (hx m hm).after kept hm h

theorem bind (kept : Kept P r) {x : Play α} {k : α → Play β} (hx : Along P r F x)
    (hk : ∀ a, Along P r F (k a)) : Along P r F (x >>= k) :=
  fun m hm => (hx m hm).bind fun a m' h => hk a m' (hx.after kept hm h)

theorem forM (kept : Kept P r) {f : α → Play Unit} :
    ∀ {xs : List α}, (∀ a ∈ xs, Along P r F (f a)) → Along P r F (xs.forM f)
  | [], _ => fun _ _ => .pure ()
  | a :: rest, h => by
      rw [forM_cons]
      exact bind kept (h a List.mem_cons_self) fun _ =>
        forM kept fun b hb => h b (List.mem_cons_of_mem _ hb)

end Along

/-! ## Where a step leads if it does not fail -/

/-- From a match of `P` the step leaves a match and gives an answer of `Q`, if it does not fail. -/
def Yields (P : Match → Prop) (step : Play α) (Q : α → Match → Prop) : Prop :=
  ∀ m a m', P m → step.run m = (.ok a, m') → Q a m'

/-- The step leaves a match of `P` in `P`, if it does not fail. -/
abbrev Keeps (P : Match → Prop) (step : Play α) : Prop :=
  Yields P step fun _ => P

namespace Yields

variable {P P' : Match → Prop} {Q : α → Match → Prop} {R : β → Match → Prop}

theorem pure {a : α} (h : ∀ m, P m → Q a m) : Yields P (pure a : Play α) Q := by
  intro m a m' hm hrun
  cases hrun
  exact h m hm

theorem throw {fault : Fault} : Yields P (throw fault : Play α) Q :=
  fun _ _ _ _ hrun => nomatch hrun

theorem bind {x : Play α} {k : α → Play β} (hx : Yields P x Q) (hk : ∀ a, Yields (Q a) (k a) R) :
    Yields P (x >>= k) R := by
  intro m b m' hm hrun
  obtain ⟨a, m₁, hfirst, hrest⟩ := run_bind_eq_ok hrun
  exact hk a m₁ b m' (hx m a m₁ hm hfirst) hrest

/-- What comes last counts, if it does not matter what was before. -/
theorem after {x : Play α} {k : α → Play β} (hk : ∀ a, Yields (fun _ => True) (k a) R) :
    Yields P (x >>= k) R :=
  .bind (fun _ _ _ _ _ => trivial) hk

theorem get_bind {k : Match → Play α} (h : ∀ m, Yields P (k m) Q) : Yields P (get >>= k) Q :=
  fun m => h m m

theorem modify_bind {f : Match → Match} {k : Unit → Play α} (hf : ∀ m, P m → P' (f m))
    (hk : Yields P' (k ()) Q) : Yields P (modify f >>= k) Q :=
  fun m a m' hm => hk (f m) a m' (hf m hm)

theorem modify {f : Match → Match} {Q : Unit → Match → Prop} (h : ∀ m, P m → Q () (f m)) :
    Yields P (modify f : Play Unit) Q := by
  intro m a m' hm hrun
  cases hrun
  exact h m hm

theorem discard {x : Play α} (hx : Keeps P x) : Keeps P (discard x) := by
  intro m a m' hm hrun
  obtain ⟨b, hb, -⟩ := run_map_eq_ok hrun
  exact hx m b m' hm hb

theorem forM {f : α → Play Unit} :
    ∀ {xs : List α}, (∀ a ∈ xs, Keeps P (f a)) → Keeps P (xs.forM f)
  | [], _ => .pure fun _ hm => hm
  | a :: rest, h => by
      rw [forM_cons]
      exact .bind (h a List.mem_cons_self) fun _ => forM fun b hb => h b (List.mem_cons_of_mem _ hb)

/-- What holds along a step, failing or not, holds when it does not fail. -/
theorem of_along {r : Match → Match → Prop} {F : Fault → Prop} (kept : Kept P r) {x : Play α}
    (hx : Along P r F x) : Keeps P x :=
  fun _ _ _ hm hrun => hx.after kept hm hrun

end Yields

/-! ## Where a loop stands -/

/-- The members that a loop comes to, each with the match as it is then.  One that fails is the
last. -/
def stops (f : α → Play Unit) : Match → List α → List (α × Match)
  | _, [] => []
  | m, a :: rest =>
    (a, m) :: match (f a).run m with
      | (.ok _, m') => stops f m' rest
      | (.error _, _) => []

theorem stops_cons_ok {f : α → Play Unit} {a : α} {m m' : Match}
    (h : (f a).run m = (.ok (), m')) (rest : List α) :
    stops f m (a :: rest) = (a, m) :: stops f m' rest := by
  rw [stops, h]

theorem stops_cons_error {f : α → Play Unit} {a : α} {m m' : Match} {fault : Fault}
    (h : (f a).run m = (.error fault, m')) (rest : List α) : stops f m (a :: rest) = [(a, m)] := by
  rw [stops, h]

/-- A loop comes to its members in order and leaves none out on its way. -/
theorem stops_isPrefix (f : α → Play Unit) (xs : List α) (m : Match) :
    (stops f m xs).map Prod.fst <+: xs := by
  induction xs generalizing m with
  | nil => exact List.prefix_rfl
  | cons a rest ih =>
      rcases h : (f a).run m with ⟨fault | _, m'⟩
      · rw [stops_cons_error h]
        exact (List.prefix_cons_inj a).mpr (List.nil_prefix)
      · rw [stops_cons_ok h]
        exact (List.prefix_cons_inj a).mpr (ih m')

/-- A loop that does not fail comes to all of its members. -/
theorem stops_of_ok {f : α → Play Unit} {xs : List α} {m m' : Match}
    (h : (xs.forM f).run m = (.ok (), m')) : (stops f m xs).map Prod.fst = xs := by
  induction xs generalizing m with
  | nil => rfl
  | cons a rest ih =>
      rw [forM_cons] at h
      obtain ⟨_, m₁, hfirst, hrest⟩ := run_bind_eq_ok h
      rw [stops_cons_ok hfirst, List.map_cons, ih hrest]

/-- Wherever a loop stands, it has come there along the way of its members. -/
theorem Along.stops (kept : Kept P r) {f : α → Play Unit} {xs : List α}
    (h : ∀ a ∈ xs, Along P r F (f a)) (hm : P m) :
    ∀ stop ∈ Play.stops f m xs, P stop.2 ∧ ReflTransGen r m stop.2 := by
  induction xs generalizing m with
  | nil =>
      intro stop hstop
      exact absurd hstop List.not_mem_nil
  | cons a rest ih =>
      intro stop hstop
      have hfirst := h a List.mem_cons_self m hm
      rcases hrun : (f a).run m with ⟨fault | _, m'⟩
      · rw [stops_cons_error hrun, List.mem_singleton] at hstop
        rw [hstop]
        exact ⟨hm, .refl⟩
      · rw [stops_cons_ok hrun, List.mem_cons] at hstop
        have hpath : ReflTransGen r m m' := by
          simpa [hrun] using hfirst.path
        rcases hstop with rfl | hlater
        · exact ⟨hm, .refl⟩
        · obtain ⟨hP, hrest⟩ := ih (fun b hb => h b (List.mem_cons_of_mem _ hb))
            (hfirst.after kept hm hrun) stop hlater
          exact ⟨hP, hpath.trans hrest⟩

end CardArena.Play
