import Kaede.Ai.LlamaJni
import Kaede.Infra.History

/-!
# The ledger of models and contexts

What llama.cpp has been asked to do with models and contexts, and what the globals still hold of them.

* `InOrder` — what may be created, freed and read after what
* `Ledger` — everything so far is in order, and what has not been freed is held
* `Globals.Settled` and its siblings — what the globals can hold
* `Globals.SameHandles` — a change that none of it notices
-/

namespace Kaede

open Infra

namespace LlamaJni

variable {g g' : Globals} {m c : Nat}

/-! ## The ledger -/

/-- Created and not freed. -/
def LiveModel (log : List Access) (m : Nat) : Prop := .loadModel m ∈ log ∧ .freeModel m ∉ log

/-- Created from `m` and not freed. -/
def LiveContext (log : List Access) (c m : Nat) : Prop :=
  .initContext c m ∈ log ∧ .freeContext c ∉ log

theorem LiveModel.concat {log : List Access} {a : Access} (h : LiveModel log m)
    (hne : .freeModel m ≠ a) : LiveModel (log ++ [a]) m := by
  refine ⟨List.mem_append_left _ h.1, fun hfreed => ?_⟩
  simp only [List.mem_append, List.mem_singleton] at hfreed
  exact hfreed.elim h.2 hne

theorem LiveContext.concat {log : List Access} {a : Access} (h : LiveContext log c m)
    (hne : .freeContext c ≠ a) : LiveContext (log ++ [a]) c m := by
  refine ⟨List.mem_append_left _ h.1, fun hfreed => ?_⟩
  simp only [List.mem_append, List.mem_singleton] at hfreed
  exact hfreed.elim h.2 hne

/-- The access is in order after these. What is freed or read is live, and so is the model of a
context that is created or freed. -/
def InOrder (before : List Access) : Access → Prop
  | .loadModel m => .loadModel m ∉ before
  | .initContext c m => LiveModel before m ∧ ∀ m', .initContext c m' ∉ before
  | .freeModel m => LiveModel before m
  | .freeContext c => ∃ m, LiveContext before c m ∧ LiveModel before m
  | .readContext ctx => ∃ c m, ctx = some c ∧ LiveContext before c m

/-- A context is created once. -/
theorem initContext_unique {log : List Access} {m' : Nat} (h : EachAfter InOrder log)
    (hm : .initContext c m ∈ log) (hm' : .initContext c m' ∈ log) : m = m' := by
  induction log using List.reverseRecOn with
  | nil => cases hm
  | append_singleton log last ih =>
    obtain ⟨hlog, hlast⟩ := eachAfter_concat.mp h
    simp only [List.mem_append, List.mem_singleton] at hm hm'
    rcases hm with hm | rfl
    · rcases hm' with hm' | rfl
      · exact ih hlog hm hm'
      · exact absurd hm (hlast.2 m)
    · rcases hm' with hm' | heq
      · exact absurd hm' (hlast.2 m')
      · cases heq
        rfl

/-- The ids of a creation have been given out. -/
def Access.Below (n : Nat) : Access → Prop
  | .loadModel m => m < n
  | .initContext c _ => c < n
  | _ => True

theorem Access.Below.succ {a : Access} {n : Nat} (h : a.Below n) : a.Below (n + 1) := by
  cases a with
  | loadModel => exact Nat.lt_succ_of_lt h
  | initContext => exact Nat.lt_succ_of_lt h
  | _ => trivial

/-- What has been freed and read is in order, and what has not been freed is held by the globals. -/
structure Ledger (g : Globals) : Prop where
  below : ∀ a ∈ g.log, a.Below g.log.length
  inOrder : EachAfter InOrder g.log
  models : ∀ m, .loadModel m ∈ g.log → .freeModel m ∈ g.log ∨ g.model = some m
  contexts : ∀ c m, .initContext c m ∈ g.log → .freeContext c ∈ g.log ∨ g.ctx = some c

namespace Ledger

theorem congr (h : Ledger g) (hmodel : g'.model = g.model) (hctx : g'.ctx = g.ctx)
    (hlog : g'.log = g.log) : Ledger g' := by
  refine ⟨?_, ?_, ?_, ?_⟩
  · rw [hlog]
    exact h.below
  · rw [hlog]
    exact h.inOrder
  · rw [hlog, hmodel]
    exact h.models
  · rw [hlog, hctx]
    exact h.contexts

theorem below_concat (h : Ledger g) {a : Access} (ha : a.Below (g.log.length + 1)) :
    ∀ b ∈ g.log ++ [a], b.Below (g.log ++ [a]).length := by
  intro b hb
  rw [List.length_append, List.length_singleton]
  simp only [List.mem_append, List.mem_singleton] at hb
  rcases hb with hb | rfl
  · exact (h.below b hb).succ
  · exact ha

/-- A creation of something else was there before. -/
theorem mem_of_concat {log : List Access} {a b : Access} (h : b ∈ log ++ [a]) (hne : b ≠ a) :
    b ∈ log := by
  simp only [List.mem_append, List.mem_singleton] at h
  exact h.resolve_right hne

/-- An access that creates nothing. -/
theorem access (h : Ledger g) {a : Access} (hinit : ∀ c m, .initContext c m ≠ a)
    (hload : ∀ m, .loadModel m ≠ a) (hinOrder : InOrder g.log a) : Ledger (g.access a) := by
  have hbelow : a.Below (g.log.length + 1) := by
    cases a with
    | loadModel m => exact absurd rfl (hload m)
    | initContext c m => exact absurd rfl (hinit c m)
    | _ => trivial
  refine ⟨h.below_concat hbelow, eachAfter_concat.mpr ⟨h.inOrder, hinOrder⟩,
    fun m hm => ?_, fun c m hm => ?_⟩
  · exact (h.models m (mem_of_concat hm (hload m))).imp_left (List.mem_append_left _)
  · exact (h.contexts c m (mem_of_concat hm (hinit c m))).imp_left (List.mem_append_left _)

theorem freeModel (h : Ledger g) (hlive : LiveModel g.log m) :
    Ledger (g.access (.freeModel m)) :=
  h.access (by simp) (by simp) hlive

/-- The context is freed before its model. -/
theorem freeContext (h : Ledger g) (hctx : LiveContext g.log c m) (hmodel : LiveModel g.log m) :
    Ledger (g.access (.freeContext c)) :=
  h.access (by simp) (by simp) ⟨m, hctx, hmodel⟩

theorem readContext (h : Ledger g) {ctx : Option Nat}
    (hctx : ∃ c m, ctx = some c ∧ LiveContext g.log c m) :
    Ledger (g.access (.readContext ctx)) :=
  h.access (by simp) (by simp) hctx

/-- A new model, while no other one is held. -/
theorem loadModel (h : Ledger g) (hnone : g.model = none) :
    Ledger { g.access (.loadModel g.log.length) with model := some g.log.length } := by
  have hnew : .loadModel g.log.length ∉ g.log := fun hmem =>
    Nat.lt_irrefl _ (h.below (.loadModel g.log.length) hmem)
  refine ⟨h.below_concat (Nat.lt_succ_self _), eachAfter_concat.mpr ⟨h.inOrder, hnew⟩,
    fun m hm => ?_, fun c m hm => ?_⟩
  · by_cases hm' : m = g.log.length
    · exact Or.inr (congrArg some hm'.symm)
    · have hold := mem_of_concat hm fun heq => hm' (Access.loadModel.inj heq)
      have hfreed := (h.models m hold).resolve_right (by simp [hnone])
      exact Or.inl (List.mem_append_left _ hfreed)
  · exact (h.contexts c m (mem_of_concat hm (by simp))).imp_left (List.mem_append_left _)

/-- A new context, while no other one is held. -/
theorem initContext (h : Ledger g) (hnone : g.ctx = none) (hlive : LiveModel g.log m) :
    Ledger { g.access (.initContext g.log.length m) with ctx := some g.log.length } := by
  have hnew : ∀ m', .initContext g.log.length m' ∉ g.log := fun m' hmem =>
    Nat.lt_irrefl _ (h.below (.initContext g.log.length m') hmem)
  refine ⟨h.below_concat (Nat.lt_succ_self _), eachAfter_concat.mpr ⟨h.inOrder, hlive, hnew⟩,
    fun m' hm' => ?_, fun c m' hm' => ?_⟩
  · exact (h.models m' (mem_of_concat hm' (by simp))).imp_left (List.mem_append_left _)
  · by_cases hc : c = g.log.length
    · exact Or.inr (congrArg some hc.symm)
    · have hold := mem_of_concat hm' fun heq => hc (Access.initContext.inj heq).1
      have hfreed := (h.contexts c m' hold).resolve_right (by simp [hnone])
      exact Or.inl (List.mem_append_left _ hfreed)

theorem loaded_of_freed (h : Ledger g) (hm : .freeModel m ∈ g.log) : .loadModel m ∈ g.log := by
  obtain ⟨before, after, heq⟩ := List.append_of_mem hm
  rw [heq]
  exact List.mem_append_left _ (h.inOrder before _ after heq).1

theorem created_of_freed (h : Ledger g) (hc : .freeContext c ∈ g.log) :
    ∃ m, .initContext c m ∈ g.log := by
  obtain ⟨before, after, heq⟩ := List.append_of_mem hc
  obtain ⟨m, hlive, -⟩ := h.inOrder before _ after heq
  rw [heq]
  exact ⟨m, List.mem_append_left _ hlive.1⟩

/-- The model that has just been loaded is live. -/
theorem liveModel_new (h : Ledger g) :
    LiveModel (g.log ++ [.loadModel g.log.length]) g.log.length := by
  refine ⟨by simp, fun hfreed => ?_⟩
  have hloaded := h.loaded_of_freed (mem_of_concat hfreed (by simp))
  exact Nat.lt_irrefl _ (h.below _ hloaded)

/-- The context that has just been created is live. -/
theorem liveContext_new (h : Ledger g) :
    LiveContext (g.log ++ [.initContext g.log.length m]) g.log.length m := by
  refine ⟨by simp, fun hfreed => ?_⟩
  obtain ⟨m', hcreated⟩ := h.created_of_freed (mem_of_concat hfreed (by simp))
  exact Nat.lt_irrefl _ (h.below _ hcreated)

/-- The pointer to a model is dropped. -/
theorem nullModel (h : Ledger g) (hfreed : ∀ m, g.model = some m → .freeModel m ∈ g.log) :
    Ledger { g with model := none } where
  below := h.below
  inOrder := h.inOrder
  models := fun m hm => Or.inl ((h.models m hm).elim id (hfreed m))
  contexts := h.contexts

/-- The pointer to a context is dropped. -/
theorem nullCtx (h : Ledger g) (hfreed : ∀ c, g.ctx = some c → .freeContext c ∈ g.log) :
    Ledger { g with ctx := none } where
  below := h.below
  inOrder := h.inOrder
  models := h.models
  contexts := fun c m hm => Or.inl ((h.contexts c m hm).elim id (hfreed c))

end Ledger

/-! ## What the globals hold -/

namespace Globals

def Empty (g : Globals) : Prop := g.model = none ∧ g.ctx = none

/-- A live model and no context. -/
structure Loose (g : Globals) (m : Nat) : Prop where
  model : g.model = some m
  ctx : g.ctx = none
  live : LiveModel g.log m

/-- A live model and a live context that was created from it. -/
structure Full (g : Globals) (m c : Nat) : Prop where
  model : g.model = some m
  ctx : g.ctx = some c
  modelLive : LiveModel g.log m
  ctxLive : LiveContext g.log c m

/-- What the globals hold while nobody works on them. -/
def Settled (g : Globals) : Prop := g.Empty ∨ ∃ m c, g.Full m c

/-- A freed model that is still held, and no context. -/
def Dangling (g : Globals) : Prop := ∃ m, g.model = some m ∧ g.ctx = none ∧ .freeModel m ∈ g.log

/-- A live model, with a context that has just been freed. -/
def HalfReleased (g : Globals) : Prop :=
  ∃ m c, g.model = some m ∧ g.ctx = some c ∧ LiveModel g.log m ∧ .freeContext c ∈ g.log

/-- The handles are the same, and nothing was created or freed. -/
structure SameHandles (g g' : Globals) : Prop where
  model : g'.model = g.model
  ctx : g'.ctx = g.ctx
  mem : ∀ a, (∀ ctx, a ≠ .readContext ctx) → (a ∈ g'.log ↔ a ∈ g.log)

theorem sameHandles_of_eq (hmodel : g'.model = g.model) (hctx : g'.ctx = g.ctx)
    (hlog : g'.log = g.log) : g.SameHandles g' :=
  ⟨hmodel, hctx, fun a _ => by rw [hlog]⟩

theorem sameHandles_read (g : Globals) (ctx : Option Nat) :
    g.SameHandles (g.access (.readContext ctx)) := by
  refine ⟨rfl, rfl, fun a ha => ?_⟩
  have hne := ha ctx
  simp [access, hne]

namespace SameHandles

variable (h : g.SameHandles g')
include h

theorem freeModel_mem : .freeModel m ∈ g'.log ↔ .freeModel m ∈ g.log :=
  h.mem (.freeModel m) (by simp)

theorem freeContext_mem : .freeContext c ∈ g'.log ↔ .freeContext c ∈ g.log :=
  h.mem (.freeContext c) (by simp)

theorem liveModel (hlive : LiveModel g.log m) : LiveModel g'.log m :=
  ⟨(h.mem (.loadModel m) (by simp)).mpr hlive.1,
    fun hfreed => hlive.2 (h.freeModel_mem.mp hfreed)⟩

theorem liveContext (hlive : LiveContext g.log c m) : LiveContext g'.log c m :=
  ⟨(h.mem (.initContext c m) (by simp)).mpr hlive.1,
    fun hfreed => hlive.2 (h.freeContext_mem.mp hfreed)⟩

end SameHandles

theorem Loose.of_same (h : g.Loose m) (hsame : g.SameHandles g') : g'.Loose m where
  model := hsame.model.trans h.model
  ctx := hsame.ctx.trans h.ctx
  live := hsame.liveModel h.live

theorem Full.of_same (h : g.Full m c) (hsame : g.SameHandles g') : g'.Full m c where
  model := hsame.model.trans h.model
  ctx := hsame.ctx.trans h.ctx
  modelLive := hsame.liveModel h.modelLive
  ctxLive := hsame.liveContext h.ctxLive

theorem Empty.of_same (h : g.Empty) (hsame : g.SameHandles g') : g'.Empty :=
  ⟨hsame.model.trans h.1, hsame.ctx.trans h.2⟩

theorem Settled.of_same (h : g.Settled) (hsame : g.SameHandles g') : g'.Settled := by
  rcases h with hempty | ⟨m, c, hfull⟩
  · exact Or.inl (hempty.of_same hsame)
  · exact Or.inr ⟨m, c, hfull.of_same hsame⟩

theorem Dangling.of_same (h : g.Dangling) (hsame : g.SameHandles g') : g'.Dangling := by
  obtain ⟨m, hmodel, hctx, hfreed⟩ := h
  exact ⟨m, hsame.model.trans hmodel, hsame.ctx.trans hctx, hsame.freeModel_mem.mpr hfreed⟩

theorem HalfReleased.of_same (h : g.HalfReleased) (hsame : g.SameHandles g') :
    g'.HalfReleased := by
  obtain ⟨m, c, hmodel, hctx, hlive, hfreed⟩ := h
  exact ⟨m, c, hsame.model.trans hmodel, hsame.ctx.trans hctx, hsame.liveModel hlive,
    hsame.freeContext_mem.mpr hfreed⟩

theorem Settled.full (h : g.Settled) (hmodel : g.model ≠ none) : ∃ m c, g.Full m c :=
  h.resolve_left fun hempty => hmodel hempty.1

end Globals

end LlamaJni

end Kaede
