import Mathlib.Data.Option.Basic
import Mathlib.Data.List.Basic

/-!
# Labelled machines and their runs

A machine takes a state and an event and either moves to one next state or refuses the event.
Everything a proof about interleavings needs from it is here, for any states and any events.

* `run_invariant` — what every step preserves, every run preserves
* `run_invariant_along` — the same for the runs whose steps all meet a condition
* `run_project` — a run seen through a projection is a run of the projected machine on the
  events that the projection can see
* `outputs_lockstep` — two machines whose steps keep a relation and agree on what they emit
  agree on everything they emit
-/

namespace Kaede.Infra

/-- A deterministic machine. An event that cannot happen in a state has no next state. -/
structure Machine (σ : Type*) (ε : Type*) where
  step : σ → ε → Option σ

namespace Machine

variable {σ τ ε ω : Type*} (M : Machine σ ε)

/-! ## Runs -/

/-- The state after a list of events, if all of them can happen in that order. -/
def run : σ → List ε → Option σ
  | s, [] => some s
  | s, e :: es => (M.step s e).bind fun t => run t es

@[simp] theorem run_nil (s : σ) : M.run s [] = some s := rfl

theorem run_cons (s : σ) (e : ε) (es : List ε) :
    M.run s (e :: es) = (M.step s e).bind fun t => M.run t es := rfl

theorem run_cons_of_step {s t : σ} {e : ε} (h : M.step s e = some t) (es : List ε) :
    M.run s (e :: es) = M.run t es := by
  rw [run_cons, h, Option.bind_some]

theorem run_cons_eq_some {s u : σ} {e : ε} {es : List ε} :
    M.run s (e :: es) = some u ↔ ∃ t, M.step s e = some t ∧ M.run t es = some u := by
  rw [run_cons, Option.bind_eq_some_iff]

theorem run_append (s : σ) (xs ys : List ε) :
    M.run s (xs ++ ys) = (M.run s xs).bind fun t => M.run t ys := by
  induction xs generalizing s with
  | nil => rfl
  | cons e es ih =>
    rw [List.cons_append, run_cons, run_cons, Option.bind_assoc]
    exact congrArg _ (funext fun t => ih t)

theorem run_append_eq_some {s u : σ} {xs ys : List ε} :
    M.run s (xs ++ ys) = some u ↔ ∃ t, M.run s xs = some t ∧ M.run t ys = some u := by
  rw [run_append, Option.bind_eq_some_iff]

theorem run_concat {s t u : σ} {xs : List ε} {e : ε} (hx : M.run s xs = some t)
    (he : M.step t e = some u) : M.run s (xs ++ [e]) = some u := by
  rw [run_append, hx, Option.bind_some, run_cons_of_step M he, run_nil]

theorem run_concat_eq_some {s u : σ} {xs : List ε} {e : ε} :
    M.run s (xs ++ [e]) = some u ↔ ∃ t, M.run s xs = some t ∧ M.step t e = some u := by
  rw [run_append_eq_some]
  refine exists_congr fun t => and_congr_right fun _ => ?_
  rw [run_cons, Option.bind_eq_some_iff]
  simp [run_nil]

/-- The step that a run takes after one of its prefixes. -/
theorem step_of_run {s t u : σ} {xs ys : List ε} {e : ε} (hr : M.run s (xs ++ e :: ys) = some u)
    (ht : M.run s xs = some t) : ∃ t', M.step t e = some t' ∧ M.run t' ys = some u := by
  obtain ⟨t₁, ht₁, hrest⟩ := (run_append_eq_some M).mp hr
  rw [ht, Option.some.injEq] at ht₁
  subst ht₁
  exact (run_cons_eq_some M).mp hrest

/-! ## Conditions on the steps of a run -/

/-- Every step of the run from `s` is taken in a state and by an event that `G` allows. -/
def Along (G : σ → ε → Prop) : σ → List ε → Prop
  | _, [] => True
  | s, e :: es => G s e ∧ ∀ t, M.step s e = some t → Along G t es

variable {M} {G : σ → ε → Prop}

@[simp] theorem along_nil (s : σ) : M.Along G s [] := trivial

theorem along_cons {s : σ} {e : ε} {es : List ε} :
    M.Along G s (e :: es) ↔ G s e ∧ ∀ t, M.step s e = some t → M.Along G t es := Iff.rfl

/-- Whether a condition holds along a run can be computed. -/
instance decidableAlong [∀ s e, Decidable (G s e)] : ∀ s es, Decidable (M.Along G s es)
  | _, [] => .isTrue trivial
  | s, e :: es =>
    match h : M.step s e with
    | none => decidable_of_iff (G s e) (by simp [along_cons, h])
    | some t =>
      have := decidableAlong t es
      decidable_of_iff (G s e ∧ M.Along G t es) (by simp [along_cons, h])

theorem along_append {s : σ} {xs ys : List ε} :
    M.Along G s (xs ++ ys) ↔
      M.Along G s xs ∧ ∀ t, M.run s xs = some t → M.Along G t ys := by
  induction xs generalizing s with
  | nil => simp
  | cons e es ih =>
    rw [List.cons_append, along_cons, along_cons, and_assoc]
    refine and_congr_right fun _ => ?_
    constructor
    · intro h
      refine ⟨fun t ht => (ih.mp (h t ht)).1, fun u hu => ?_⟩
      obtain ⟨t, ht, hr⟩ := (run_cons_eq_some M).mp hu
      exact (ih.mp (h t ht)).2 u hr
    · rintro ⟨h1, h2⟩ t ht
      exact ih.mpr ⟨h1 t ht, fun u hu => h2 u (by rw [run_cons_of_step M ht]; exact hu)⟩

theorem along_and {G' : σ → ε → Prop} {s : σ} {es : List ε} (h : M.Along G s es)
    (h' : M.Along G' s es) : M.Along (fun s e => G s e ∧ G' s e) s es := by
  induction es generalizing s with
  | nil => trivial
  | cons e es ih => exact ⟨⟨h.1, h'.1⟩, fun t ht => ih (h.2 t ht) (h'.2 t ht)⟩

/-- What holds of every event in every state holds along every run. -/
theorem along_of_forall {s : σ} {es : List ε} (h : ∀ e ∈ es, ∀ s, G s e) : M.Along G s es := by
  induction es generalizing s with
  | nil => trivial
  | cons e es ih =>
    rw [List.forall_mem_cons] at h
    exact ⟨h.1 s, fun t _ => ih h.2⟩

/-- A condition on the events alone holds along a run exactly when it holds of every event. -/
theorem along_const_iff {P : ε → Prop} {s u : σ} {es : List ε} (hr : M.run s es = some u) :
    M.Along (fun _ e => P e) s es ↔ ∀ e ∈ es, P e := by
  induction es generalizing s with
  | nil => simp
  | cons e es ih =>
    obtain ⟨t, ht, hu⟩ := (run_cons_eq_some M).mp hr
    rw [along_cons, List.forall_mem_cons]
    refine and_congr_right fun _ => ?_
    constructor
    · exact fun h => (ih hu).mp (h t ht)
    · intro h t' ht'
      rw [ht, Option.some.injEq] at ht'
      exact ht' ▸ (ih hu).mpr h

/-- The condition holds along a run exactly when it holds wherever a prefix of the run ends. -/
theorem along_iff_prefix {s : σ} {es : List ε} :
    M.Along G s es ↔
      ∀ xs e ys t, es = xs ++ e :: ys → M.run s xs = some t → G t e := by
  constructor
  · rintro h xs e ys t rfl ht
    exact ((along_append.mp h).2 t ht).1
  · intro h
    induction es generalizing s with
    | nil => trivial
    | cons e es ih =>
      refine ⟨h [] e es s rfl rfl, fun t ht => ih ?_⟩
      intro xs e' ys u hes hu
      exact h (e :: xs) e' ys u (by rw [hes]; rfl) (by rw [run_cons_of_step M ht]; exact hu)

/-- A run whose steps do not all meet the condition has a first step that does not. -/
theorem exists_first_violation {s : σ} {es : List ε} (h : ¬ M.Along G s es) :
    ∃ xs e ys t, es = xs ++ e :: ys ∧ M.run s xs = some t ∧ M.Along G s xs ∧ ¬ G t e := by
  induction es generalizing s with
  | nil => exact absurd (along_nil s) h
  | cons e es ih =>
    by_cases hg : G s e
    · have hnext : ¬ ∀ t, M.step s e = some t → M.Along G t es := fun hall => h ⟨hg, hall⟩
      obtain ⟨t, hnext⟩ := not_forall.mp hnext
      obtain ⟨ht, hrest⟩ := Classical.not_imp.mp hnext
      obtain ⟨xs, e', ys, u, rfl, hu, ha, hviolated⟩ := ih hrest
      refine ⟨e :: xs, e', ys, u, rfl, by rw [run_cons_of_step M ht, hu], ⟨hg, ?_⟩, hviolated⟩
      intro t' ht'
      rw [ht, Option.some.injEq] at ht'
      exact ht' ▸ ha
    · exact ⟨[], e, es, s, rfl, rfl, along_nil s, hg⟩

/-! ## Invariants -/

/-- What every allowed step preserves, every run of allowed steps preserves. -/
theorem run_invariant_along {I : σ → Prop}
    (hstep : ∀ s e t, I s → G s e → M.step s e = some t → I t) {s u : σ} {es : List ε}
    (ha : M.Along G s es) (hs : I s) (hr : M.run s es = some u) : I u := by
  induction es generalizing s with
  | nil => rw [run_nil, Option.some.injEq] at hr; exact hr ▸ hs
  | cons e es ih =>
    obtain ⟨t, ht, hu⟩ := (run_cons_eq_some M).mp hr
    exact ih (ha.2 t ht) (hstep s e t hs ha.1 ht) hu

/-- What every step preserves, every run preserves. -/
theorem run_invariant {I : σ → Prop} (hstep : ∀ s e t, I s → M.step s e = some t → I t)
    {s u : σ} {es : List ε} (hs : I s) (hr : M.run s es = some u) : I u := by
  have htrue : M.Along (fun _ _ => True) s es :=
    along_iff_prefix.mpr fun _ _ _ _ _ _ => trivial
  exact run_invariant_along (fun s e t hi _ h => hstep s e t hi h) htrue hs hr

/-! ## Projections -/

/--
A run seen through `π` is a run of `N` on the events that `keep` selects.

The other events must leave the projection alone.
-/
theorem run_project {N : Machine τ ε} {π : σ → τ} {keep : ε → Bool}
    (hkeep : ∀ s e t, M.step s e = some t → keep e = true → N.step (π s) e = some (π t))
    (hskip : ∀ s e t, M.step s e = some t → keep e = false → π t = π s)
    {s u : σ} {es : List ε} (hr : M.run s es = some u) :
    N.run (π s) (es.filter keep) = some (π u) := by
  induction es generalizing s with
  | nil => rw [run_nil, Option.some.injEq] at hr; rw [hr]; rfl
  | cons e es ih =>
    obtain ⟨t, ht, hu⟩ := (run_cons_eq_some M).mp hr
    cases hk : keep e with
    | true =>
      rw [List.filter_cons_of_pos hk, run_cons_of_step N (hkeep s e t ht hk)]
      exact ih hu
    | false =>
      rw [List.filter_cons_of_neg (by simp [hk]), ← hskip s e t ht hk]
      exact ih hu

/-! ## What a run emits -/

/-- What the steps of a run emit, in order. It ends at the first event that cannot happen. -/
def outputs (M : Machine σ ε) (emit : σ → ε → Option ω) : σ → List ε → List ω
  | _, [] => []
  | s, e :: es =>
    match M.step s e with
    | none => []
    | some t => (emit s e).toList ++ outputs M emit t es

theorem outputs_cons_of_step {emit : σ → ε → Option ω} {s t : σ} {e : ε}
    (h : M.step s e = some t) (es : List ε) :
    M.outputs emit s (e :: es) = (emit s e).toList ++ M.outputs emit t es := by
  rw [outputs, h]

/--
Two machines emit the same as long as their states stay related.

Related states allow the same events, emit the same on each, and the next states are related.
-/
theorem outputs_lockstep {N : Machine τ ε} {R : σ → τ → Prop} {emit : σ → ε → Option ω}
    {emit' : τ → ε → Option ω}
    (hstep : ∀ s t e, R s t →
      Option.Rel R (M.step s e) (N.step t e) ∧
        (∀ s', M.step s e = some s' → emit s e = emit' t e))
    {s : σ} {t : τ} (h : R s t) (es : List ε) :
    M.outputs emit s es = N.outputs emit' t es := by
  induction es generalizing s t with
  | nil => rfl
  | cons e es ih =>
    obtain ⟨hrel, hemit⟩ := hstep s t e h
    cases hs : M.step s e with
    | none =>
      rw [hs] at hrel
      cases ht : N.step t e with
      | none => rw [outputs, outputs, hs, ht]
      | some t' => rw [ht] at hrel; cases hrel
    | some s' =>
      rw [hs] at hrel
      cases ht : N.step t e with
      | none => rw [ht] at hrel; cases hrel
      | some t' =>
        rw [ht] at hrel
        cases hrel with
        | some hR =>
          rw [outputs_cons_of_step hs, outputs_cons_of_step ht, hemit s' hs, ih hR]

end Machine

end Kaede.Infra
