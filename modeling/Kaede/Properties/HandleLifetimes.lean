import Kaede.Infra.Mutex
import Kaede.Properties.HandleLedger

/-!
# The lifetimes of models and contexts

`nativeRelease` frees the context before its model. `nativeLoadModel` frees them the other way round,
and `nativeGetModelInfo` looks at both without the mutex.

* `NativeCall.Inside` — what the globals hold while a call is inside the mutex
* `Careful` — no load over another one, and no release under a call of `nativeGetModelInfo`
* `lifetimes_of_run` — the law of the handles, for every careful run
-/

namespace Kaede

open Infra

namespace LlamaJni

variable {g g' : Globals} {m c : Nat}

/-! ## Inside the mutex -/

/-- Between the acquisition of the mutex and its release. -/
def NativeCall.holdsLock : NativeCall → Bool
  | .load point =>
    match point with
    | .locking | .returned _ => false
    | _ => true
  | .generate _ point => point ≠ .locking && point ≠ .returned
  | .cancel _ => false
  | .info _ => false
  | .release point => point ≠ .locking && point ≠ .returned

/-- What the globals hold when a call is at this point inside the mutex, as long as no model is
loaded over another one. -/
def NativeCall.Inside (g : Globals) : NativeCall → Prop
  | .load .testingModel => g.Settled
  | .load .freeingModel => False
  | .load .nullingModel => False
  | .load .testingCtx => g.Empty
  | .load .freeingCtx => False
  | .load .nullingCtx => False
  | .load .loadingModel => g.Empty
  | .load .creatingCtx => ∃ m, g.Loose m
  | .load .droppingModel => ∃ m, g.Loose m
  | .load .nullingDropped => g.Dangling
  | .load (.unlocking _) => g.Settled
  | .generate _ point => g.Settled ∧ (point.ready = true → ∃ m c, g.Full m c)
  | .release .testingCtx => g.Settled
  | .release .freeingCtx => ∃ m c, g.Full m c
  | .release .nullingCtx => g.HalfReleased
  | .release .testingModel => g.Empty ∨ ∃ m, g.Loose m
  | .release .freeingModel => ∃ m, g.Loose m
  | .release .nullingModel => g.Dangling
  | .release .unlocking => g.Empty
  | _ => True

theorem inside_of_not_ready {n : Int} {point : GeneratePoint} (h : g.Settled)
    (hnot : point.ready = false) : (NativeCall.generate n point).Inside g := by
  refine ⟨h, fun hready => ?_⟩
  rw [hnot] at hready
  cases hready

theorem inside_of_same {call : NativeCall} (h : call.Inside g) (hsame : g.SameHandles g') :
    call.Inside g' := by
  cases call with
  | load point =>
    cases point with
    | testingModel => exact h.of_same hsame
    | freeingModel => exact h
    | nullingModel => exact h
    | testingCtx => exact h.of_same hsame
    | freeingCtx => exact h
    | nullingCtx => exact h
    | loadingModel => exact h.of_same hsame
    | creatingCtx => exact h.imp fun m hloose => hloose.of_same hsame
    | droppingModel => exact h.imp fun m hloose => hloose.of_same hsame
    | nullingDropped => exact h.of_same hsame
    | unlocking result => exact h.of_same hsame
    | locking => trivial
    | returned result => trivial
  | generate n point =>
    refine ⟨h.1.of_same hsame, fun hready => ?_⟩
    obtain ⟨m, c, hfull⟩ := h.2 hready
    exact ⟨m, c, hfull.of_same hsame⟩
  | release point =>
    cases point with
    | testingCtx => exact h.of_same hsame
    | freeingCtx =>
      obtain ⟨m, c, hfull⟩ := h
      exact ⟨m, c, hfull.of_same hsame⟩
    | nullingCtx => exact h.of_same hsame
    | testingModel => exact h.imp (·.of_same hsame) fun ⟨m, hloose⟩ => ⟨m, hloose.of_same hsame⟩
    | freeingModel => exact h.imp fun m hloose => hloose.of_same hsame
    | nullingModel => exact h.of_same hsame
    | unlocking => exact h.of_same hsame
    | locking => trivial
    | returned => trivial
  | cancel returned => trivial
  | info point => trivial

/-- A context that is held is live, except where `nativeRelease` has just freed it. -/
theorem live_of_inside {call : NativeCall} (h : call.Inside g) (hholds : call.holdsLock = true)
    (hne : call ≠ .release .nullingCtx) (hctx : g.ctx = some c) :
    ∃ m, LiveContext g.log c m := by
  have hsettled : g.Settled → ∃ m, LiveContext g.log c m := by
    rintro (hempty | ⟨m, c', hfull⟩)
    · rw [hempty.2] at hctx
      cases hctx
    · rw [hfull.ctx] at hctx
      cases hctx
      exact ⟨m, hfull.ctxLive⟩
  have hnone : g.ctx = none → ∃ m, LiveContext g.log c m := by
    intro hnone
    rw [hnone] at hctx
    cases hctx
  cases call with
  | load point =>
    cases point with
    | testingModel => exact hsettled h
    | testingCtx => exact hnone h.2
    | loadingModel => exact hnone h.2
    | creatingCtx =>
      obtain ⟨m, hloose⟩ := h
      exact hnone hloose.ctx
    | droppingModel =>
      obtain ⟨m, hloose⟩ := h
      exact hnone hloose.ctx
    | nullingDropped =>
      obtain ⟨m, -, hnull, -⟩ := h
      exact hnone hnull
    | unlocking result => exact hsettled h
    | freeingModel => exact h.elim
    | nullingModel => exact h.elim
    | freeingCtx => exact h.elim
    | nullingCtx => exact h.elim
    | locking => cases hholds
    | returned result => cases hholds
  | generate n point => exact hsettled h.1
  | release point =>
    cases point with
    | testingCtx => exact hsettled h
    | freeingCtx => exact hsettled (Or.inr h)
    | nullingCtx => exact absurd rfl hne
    | testingModel =>
      rcases h with hempty | ⟨m, hloose⟩
      · exact hnone hempty.2
      · exact hnone hloose.ctx
    | freeingModel =>
      obtain ⟨m, hloose⟩ := h
      exact hnone hloose.ctx
    | nullingModel =>
      obtain ⟨m, -, hnull, -⟩ := h
      exact hnone hnull
    | unlocking => exact hnone h.2
    | locking => cases hholds
    | returned => cases hholds
  | cancel returned => cases hholds
  | info point => cases hholds

/-! ## What one step of a call does -/

section Steps

variable {i : Nat} {call call' : NativeCall}

theorem holdsLock_of_ready {n : Int} {p : GeneratePoint} (hp : p.ready = true) :
    (NativeCall.generate n p).holdsLock = true := by
  cases p with
  | locking => cases hp
  | returned => cases hp
  | _ => simp [NativeCall.holdsLock]

theorem lockStep_of_transition (h : CallTransition i g call g' call') :
    LockStep NativeCall.holdsLock i g.holder call g'.holder call' := by
  cases h with
  | lockLoad hfree => exact .take hfree rfl rfl
  | lockGenerate n hfree => exact .take hfree rfl rfl
  | lockRelease hfree => exact .take hfree rfl rfl
  | unlockLoad result => exact .release rfl rfl rfl
  | unlockGenerate n => exact .release rfl rfl rfl
  | unlockRelease => exact .release rfl rfl rfl
  | setFlags n p p' hp hp' =>
    exact .keep rfl ((holdsLock_of_ready hp').trans (holdsLock_of_ready hp).symm)
  | useCtx n p p' hp hp' =>
    exact .keep rfl ((holdsLock_of_ready hp').trans (holdsLock_of_ready hp).symm)
  | freeModelLoad => exact .keep g.freeModel_holder rfl
  | freeCtxLoad => exact .keep g.freeCtx_holder rfl
  | dropModel => exact .keep g.freeModel_holder rfl
  | freeCtxRelease => exact .keep g.freeCtx_holder rfl
  | freeModelRelease => exact .keep g.freeModel_holder rfl
  | _ => exact .keep rfl rfl

/-- A call outside the mutex leaves the handles alone. -/
theorem sameHandles_of_outside (h : CallTransition i g call g' call')
    (hnot : call.holdsLock = false) : g.SameHandles g' := by
  cases h with
  | setFlags n p p' hp => rw [holdsLock_of_ready hp] at hnot; cases hnot
  | useCtx n p p' hp => rw [holdsLock_of_ready hp] at hnot; cases hnot
  | lockLoad => exact Globals.sameHandles_of_eq rfl rfl rfl
  | lockGenerate => exact Globals.sameHandles_of_eq rfl rfl rfl
  | lockRelease => exact Globals.sameHandles_of_eq rfl rfl rfl
  | cancel => exact Globals.sameHandles_of_eq rfl rfl rfl
  | infoNotLoaded => exact Globals.sameHandles_of_eq rfl rfl rfl
  | infoLoaded => exact Globals.sameHandles_of_eq rfl rfl rfl
  | fetch => exact Globals.sameHandles_of_eq rfl rfl rfl
  | readInfo ctx => exact Globals.sameHandles_read g ctx
  | _ => cases hnot

/-- A call that leaves the mutex leaves the globals settled. -/
theorem settled_of_release (h : CallTransition i g call g' call') (hin : call.Inside g)
    (hholds : call.holdsLock = true) (hnot : call'.holdsLock = false) : g'.Settled := by
  cases h with
  | unlockLoad result => exact hin.of_same (Globals.sameHandles_of_eq rfl rfl rfl)
  | unlockGenerate n => exact hin.1.of_same (Globals.sameHandles_of_eq rfl rfl rfl)
  | unlockRelease => exact Or.inl hin
  | setFlags n p p' hp hp' => rw [holdsLock_of_ready hp'] at hnot; cases hnot
  | useCtx n p p' hp hp' => rw [holdsLock_of_ready hp'] at hnot; cases hnot
  | cancel => cases hholds
  | infoNotLoaded => cases hholds
  | infoLoaded => cases hholds
  | fetch => cases hholds
  | readInfo => cases hholds
  | _ => cases hnot

theorem fetching_of_transition {ctx : Option Nat}
    (h : CallTransition i g call g' (.info (.reading ctx))) :
    call = .info .fetching ∧ ctx = g.ctx ∧ g' = g := by
  cases h
  exact ⟨rfl, rfl, rfl⟩

/-- A context stays live unless `nativeRelease` frees it. -/
theorem liveContext_of_transition (h : CallTransition i g call g' call')
    (hin : call.holdsLock = true → call.Inside g) (hlive : LiveContext g.log c m)
    (hkept : call = .release .freeingCtx → g.ctx ≠ some c) : LiveContext g'.log c m := by
  cases h with
  | freeModelLoad => exact (hin rfl).elim
  | freeCtxLoad => exact (hin rfl).elim
  | dropModel =>
    obtain ⟨m', hloose⟩ := hin rfl
    rw [Globals.freeModel_of_some hloose.model]
    exact hlive.concat (by simp)
  | freeCtxRelease =>
    obtain ⟨m', c', hfull⟩ := hin rfl
    rw [Globals.freeCtx_of_some hfull.ctx]
    refine hlive.concat fun heq => hkept rfl ?_
    rw [hfull.ctx, Access.freeContext.inj heq]
  | freeModelRelease =>
    obtain ⟨m', hloose⟩ := hin rfl
    rw [Globals.freeModel_of_some hloose.model]
    exact hlive.concat (by simp)
  | loaded => exact hlive.concat (by simp)
  | created => exact hlive.concat (by simp)
  | useCtx => exact hlive.concat (by simp)
  | readInfo => exact hlive.concat (by simp)
  | _ => exact hlive

variable (hledger : Ledger g) (hin : call.holdsLock = true → call.Inside g)
  (hcareful : call = .load .testingModel → g.model = none)
include hledger hin hcareful

/-- Inside the mutex, a step leads from what the globals hold at one point to what they hold at the
next. -/
theorem inside_of_transition (h : CallTransition i g call g' call')
    (hsettled : g.holder = none → g.Settled) (hholds' : call'.holdsLock = true) :
    call'.Inside g' := by
  cases h with
  | lockLoad hfree => exact (hsettled hfree).of_same (Globals.sameHandles_of_eq rfl rfl rfl)
  | lockGenerate n hfree =>
    refine inside_of_not_ready ((hsettled hfree).of_same ?_) rfl
    exact Globals.sameHandles_of_eq rfl rfl rfl
  | lockRelease hfree => exact (hsettled hfree).of_same (Globals.sameHandles_of_eq rfl rfl rfl)
  | modelLoad hmodel => exact absurd (hcareful rfl) hmodel
  | noModelLoad hmodel =>
    refine (hin rfl).resolve_right ?_
    rintro ⟨m, c, hfull⟩
    simp [hfull.model] at hmodel
  | freeModelLoad => exact (hin rfl).elim
  | nullModelLoad => exact (hin rfl).elim
  | ctxLoad hctx => exact absurd (hin rfl).2 hctx
  | noCtxLoad hctx => exact hin rfl
  | freeCtxLoad => exact (hin rfl).elim
  | nullCtxLoad => exact (hin rfl).elim
  | loaded => exact ⟨g.log.length, rfl, (hin rfl).2, hledger.liveModel_new⟩
  | notLoaded => exact Or.inl ⟨rfl, (hin rfl).2⟩
  | created m hmodel =>
    obtain ⟨m', hloose⟩ := hin rfl
    rw [hloose.model] at hmodel
    cases hmodel
    exact Or.inr ⟨m, g.log.length, hloose.model, rfl, hloose.live.concat (by simp),
      hledger.liveContext_new⟩
  | notCreated =>
    obtain ⟨m, hloose⟩ := hin rfl
    exact ⟨m, hloose.model, rfl, hloose.live⟩
  | dropModel =>
    obtain ⟨m, hloose⟩ := hin rfl
    rw [Globals.freeModel_of_some hloose.model]
    exact ⟨m, hloose.model, hloose.ctx, by simp [Globals.access]⟩
  | nullDropped =>
    obtain ⟨m, -, hctx, -⟩ := hin rfl
    exact Or.inl ⟨rfl, hctx⟩
  | unlockLoad result => cases hholds'
  | pass n hctx hmodel =>
    have hsettled := (hin rfl).1
    exact ⟨hsettled, fun _ => hsettled.full hmodel⟩
  | refuse n hnot => exact inside_of_not_ready (hin rfl).1 rfl
  | setFlags n p p' hp hp' isGenerating shouldCancel =>
    obtain ⟨m, c, hfull⟩ := (hin (holdsLock_of_ready hp)).2 hp
    have hfull' : Globals.Full
        { g with isGenerating := isGenerating, shouldCancel := shouldCancel } m c :=
      hfull.of_same (Globals.sameHandles_of_eq rfl rfl rfl)
    exact ⟨Or.inr ⟨m, c, hfull'⟩, fun _ => ⟨m, c, hfull'⟩⟩
  | useCtx n p p' hp hp' =>
    obtain ⟨m, c, hfull⟩ := (hin (holdsLock_of_ready hp)).2 hp
    have hfull' := hfull.of_same (Globals.sameHandles_read g g.ctx)
    exact ⟨Or.inr ⟨m, c, hfull'⟩, fun _ => ⟨m, c, hfull'⟩⟩
  | endGenerate n =>
    refine inside_of_not_ready ((hin rfl).1.of_same ?_) rfl
    exact Globals.sameHandles_of_eq rfl rfl rfl
  | unlockGenerate n => cases hholds'
  | ctxRelease hctx => exact (hin rfl).resolve_left fun hempty => hctx hempty.2
  | noCtxRelease hctx =>
    refine (hin rfl).imp_right ?_
    rintro ⟨m, c, hfull⟩
    simp [hfull.ctx] at hctx
  | freeCtxRelease =>
    obtain ⟨m, c, hfull⟩ := hin rfl
    rw [Globals.freeCtx_of_some hfull.ctx]
    exact ⟨m, c, hfull.model, hfull.ctx, hfull.modelLive.concat (by simp),
      by simp [Globals.access]⟩
  | nullCtxRelease =>
    obtain ⟨m, c, hmodel, -, hlive, -⟩ := hin rfl
    exact Or.inr ⟨m, hmodel, rfl, hlive⟩
  | modelRelease hmodel => exact (hin rfl).resolve_left fun hempty => hmodel hempty.1
  | noModelRelease hmodel =>
    refine (hin rfl).resolve_right ?_
    rintro ⟨m, hloose⟩
    simp [hloose.model] at hmodel
  | freeModelRelease =>
    obtain ⟨m, hloose⟩ := hin rfl
    rw [Globals.freeModel_of_some hloose.model]
    exact ⟨m, hloose.model, hloose.ctx, by simp [Globals.access]⟩
  | nullModelRelease =>
    obtain ⟨m, -, hctx, -⟩ := hin rfl
    exact ⟨rfl, hctx⟩
  | unlockRelease => cases hholds'
  | _ => cases hholds'

/-- What a step frees, reads or creates is in order. -/
theorem ledger_of_transition (h : CallTransition i g call g' call')
    (hread : ∀ ctx, call = .info (.reading ctx) → ∃ c m, ctx = some c ∧ LiveContext g.log c m) :
    Ledger g' := by
  cases h with
  | modelLoad => exact hledger
  | noModelLoad => exact hledger
  | freeModelLoad => exact (hin rfl).elim
  | nullModelLoad => exact (hin rfl).elim
  | ctxLoad => exact hledger
  | noCtxLoad => exact hledger
  | freeCtxLoad => exact (hin rfl).elim
  | nullCtxLoad => exact (hin rfl).elim
  | loaded => exact hledger.loadModel (hin rfl).1
  | notLoaded =>
    refine hledger.nullModel fun m hmodel => ?_
    rw [(hin rfl).1] at hmodel
    cases hmodel
  | created m hmodel =>
    obtain ⟨m', hloose⟩ := hin rfl
    rw [hloose.model] at hmodel
    cases hmodel
    exact hledger.initContext hloose.ctx hloose.live
  | notCreated =>
    obtain ⟨m, hloose⟩ := hin rfl
    refine hledger.nullCtx fun c hctx => ?_
    rw [hloose.ctx] at hctx
    cases hctx
  | dropModel =>
    obtain ⟨m, hloose⟩ := hin rfl
    rw [Globals.freeModel_of_some hloose.model]
    exact hledger.freeModel hloose.live
  | nullDropped =>
    obtain ⟨m, hmodel, -, hfreed⟩ := hin rfl
    exact hledger.nullModel fun m' hm' => Option.some.inj (hmodel.symm.trans hm') ▸ hfreed
  | useCtx n p p' hp =>
    obtain ⟨m, c, hfull⟩ := (hin (holdsLock_of_ready hp)).2 hp
    exact hledger.readContext ⟨c, m, hfull.ctx, hfull.ctxLive⟩
  | readInfo ctx => exact hledger.readContext (hread ctx rfl)
  | freeCtxRelease =>
    obtain ⟨m, c, hfull⟩ := hin rfl
    rw [Globals.freeCtx_of_some hfull.ctx]
    exact hledger.freeContext hfull.ctxLive hfull.modelLive
  | nullCtxRelease =>
    obtain ⟨m, c, -, hctx, -, hfreed⟩ := hin rfl
    exact hledger.nullCtx fun c' hc' => Option.some.inj (hctx.symm.trans hc') ▸ hfreed
  | freeModelRelease =>
    obtain ⟨m, hloose⟩ := hin rfl
    rw [Globals.freeModel_of_some hloose.model]
    exact hledger.freeModel hloose.live
  | nullModelRelease =>
    obtain ⟨m, hmodel, -, hfreed⟩ := hin rfl
    exact hledger.nullModel fun m' hm' => Option.some.inj (hmodel.symm.trans hm') ▸ hfreed
  | _ => exact hledger.congr rfl rfl rfl

end Steps

/-! ## Every run -/

/-- What the design of the handles asks of the callers. No model is loaded over another one,
`nativeGetModelInfo` finds a context that is not being released, and at the `llama_free` of
`nativeRelease` no such call is about to read the context. -/
def Careful (s : Native) : Event → Prop
  | .call _ => True
  | .advance i _ =>
    (s.calls[i]? = some (.load .testingModel) → s.globals.model = none) ∧
    (s.calls[i]? = some (.info .fetching) →
      s.globals.ctx ≠ none ∧ .release .nullingCtx ∉ s.calls) ∧
    (s.calls[i]? = some (.release .freeingCtx) →
      .info (.reading s.globals.ctx) ∉ s.calls)

instance (s : Native) : (e : Event) → Decidable (Careful s e)
  | .call _ => .isTrue trivial
  | .advance _ _ => inferInstanceAs (Decidable (_ ∧ _ ∧ _))

structure Safe (s : Native) : Prop where
  mutex : HeldBy NativeCall.holdsLock s.globals.holder s.calls
  ledger : Ledger s.globals
  settled : s.globals.holder = none → s.globals.Settled
  inside : ∀ (i : Nat) (call : NativeCall), s.calls[i]? = some call → call.holdsLock = true →
    call.Inside s.globals
  fetched : ∀ (i : Nat) (ctx : Option Nat), s.calls[i]? = some (.info (.reading ctx)) →
    ∃ c m, ctx = some c ∧ LiveContext s.globals.log c m

section Runs

variable {s t : Native} {i : Nat} {ok : Bool}

theorem safe_init : Safe init where
  mutex := .nil
  ledger :=
    { below := by simp [init]
      inOrder := eachAfter_nil
      models := by simp [init]
      contexts := by simp [init] }
  settled := fun _ => Or.inl ⟨rfl, rfl⟩
  inside := by simp [init]
  fetched := by simp [init]

/-- A new call is outside the mutex and has fetched nothing. -/
theorem safe_call (h : Safe s) (function : NativeFunction) :
    Safe { s with calls := s.calls ++ [function.call] } where
  mutex := h.mutex.concat (by cases function <;> rfl)
  ledger := h.ledger
  settled := h.settled
  inside := by
    intro i call hcall hholds
    rcases getElem?_concat_or hcall with hold | ⟨-, rfl⟩
    · exact h.inside i call hold hholds
    · cases function <;> cases hholds
  fetched := by
    intro i ctx hcall
    rcases getElem?_concat_or hcall with hold | ⟨-, hnew⟩
    · exact h.fetched i ctx hold
    · cases function <;> cases hnew

/-- What is fetched while nobody has just freed it is live. -/
theorem Safe.live (h : Safe s) (hnot : .release .nullingCtx ∉ s.calls)
    (hctx : s.globals.ctx = some c) : ∃ m, LiveContext s.globals.log c m := by
  cases hholder : s.globals.holder with
  | none =>
    rcases h.settled hholder with hempty | ⟨m, c', hfull⟩
    · simp [hempty.2] at hctx
    · rw [hfull.ctx] at hctx
      cases hctx
      exact ⟨m, hfull.ctxLive⟩
  | some j =>
    obtain ⟨call, hcall, hholds⟩ := (h.mutex j).mp hholder
    refine live_of_inside (h.inside j call hcall hholds) hholds ?_ hctx
    rintro rfl
    exact hnot (List.mem_of_getElem? hcall)

theorem safe_advance (h : Safe s) (hcareful : Careful s (.advance i ok))
    (hstep : step s (.advance i ok) = some t) : Safe t := by
  obtain ⟨call, call', hcall, htransition, hself, hothers⟩ := advance_cases hstep
  have hin := h.inside i call hcall
  have hload : call = .load .testingModel → s.globals.model = none := by
    rintro rfl
    exact hcareful.1 hcall
  have hlock := lockStep_of_transition htransition
  refine ⟨h.mutex.move hcall hself hothers hlock, ?_, ?_, ?_, ?_⟩
  · refine ledger_of_transition h.ledger hin hload htransition ?_
    rintro ctx rfl
    exact h.fetched i ctx hcall
  · intro hfree
    cases hlock with
    | take hwas htaken => simp [htaken] at hfree
    | release hheld hnow hnot => exact settled_of_release htransition (hin hheld) hheld hnot
    | keep hsame hsameHolds =>
      rw [hsame] at hfree
      have hnot : call.holdsLock = false := by
        by_contra hholds
        rw [Bool.not_eq_false] at hholds
        simp [h.mutex.holder_eq hcall hholds] at hfree
      exact (h.settled hfree).of_same (sameHandles_of_outside htransition hnot)
  · intro j callj hcallj hholds
    by_cases hj : j = i
    · subst hj
      rw [hself, Option.some.injEq] at hcallj
      subst hcallj
      exact inside_of_transition h.ledger hin hload htransition h.settled hholds
    · -- it holds the mutex, so the call that moves does not
      have hwas := (hothers j hj).symm.trans hcallj
      have hnot : call.holdsLock = false := by
        by_contra hheld
        rw [Bool.not_eq_false] at hheld
        exact hj (h.mutex.eq_of_holds hwas hholds hcall hheld)
      exact inside_of_same (h.inside j callj hwas hholds) (sameHandles_of_outside htransition hnot)
  · intro j ctx hcallj
    by_cases hj : j = i
    · subst hj
      rw [hself, Option.some.injEq] at hcallj
      subst hcallj
      obtain ⟨rfl, rfl, hglobals⟩ := fetching_of_transition htransition
      obtain ⟨hnonnull, hnotNulling⟩ := hcareful.2.1 hcall
      obtain ⟨c, hctx⟩ := Option.ne_none_iff_exists'.mp hnonnull
      obtain ⟨m, hlive⟩ := h.live hnotNulling hctx
      rw [hglobals]
      exact ⟨c, m, hctx, hlive⟩
    · have hwas := (hothers j hj).symm.trans hcallj
      obtain ⟨c, m, rfl, hlive⟩ := h.fetched j ctx hwas
      refine ⟨c, m, rfl, liveContext_of_transition htransition hin hlive ?_⟩
      rintro rfl hctx
      have hnotRead := hcareful.2.2 hcall
      rw [hctx] at hnotRead
      exact hnotRead (List.mem_of_getElem? hwas)

theorem safe_step {e : Event} (h : Safe s) (hcareful : Careful s e) (hstep : step s e = some t) :
    Safe t := by
  cases e with
  | call function =>
    cases hstep
    exact safe_call h function
  | advance i ok => exact safe_advance h hcareful hstep

theorem safe_of_run {es : List Event} (hrun : machine.run init es = some t)
    (hcareful : machine.Along Careful init es) : Safe t :=
  Machine.run_invariant_along (I := Safe) (G := Careful) (fun _ _ _ => safe_step) hcareful
    safe_init hrun

end Runs

/-! ## The law of the handles -/

structure Lifetimes (s : Native) : Prop where
  /-- A model has been freed once, or it has not been freed and is held. -/
  models : ∀ m, .loadModel m ∈ s.globals.log →
    s.globals.log.count (.freeModel m) = 1 ∨
      s.globals.log.count (.freeModel m) = 0 ∧ s.globals.model = some m
  contexts : ∀ c m, .initContext c m ∈ s.globals.log →
    s.globals.log.count (.freeContext c) = 1 ∨
      s.globals.log.count (.freeContext c) = 0 ∧ s.globals.ctx = some c
  /-- A context is not freed after the model it was created from. -/
  order : ∀ before c after m, s.globals.log = before ++ .freeContext c :: after →
    .initContext c m ∈ s.globals.log → .freeModel m ∉ before
  /-- While the mutex is free, `g_ctx` is held together with its model, and both are live. -/
  paired : s.globals.holder = none → ∀ c, s.globals.ctx = some c →
    ∃ m, s.globals.model = some m ∧ LiveContext s.globals.log c m ∧ LiveModel s.globals.log m
  /-- What a call reads is neither null nor freed. -/
  reads : ∀ before ctx after, s.globals.log = before ++ .readContext ctx :: after →
    ∃ c m, ctx = some c ∧ LiveContext before c m

/-- What is freed at most once has been freed once or not at all. -/
theorem count_eq_one_or {log : List Access} {a : Access} (hle : log.count a ≤ 1) {held : Prop}
    (h : a ∈ log ∨ held) : log.count a = 1 ∨ log.count a = 0 ∧ held := by
  by_cases hmem : a ∈ log
  · exact Or.inl (Nat.le_antisymm hle (List.count_pos_iff.mpr hmem))
  · exact Or.inr ⟨List.count_eq_zero.mpr hmem, h.resolve_left hmem⟩

theorem lifetimes_of_safe {s : Native} (h : Safe s) : Lifetimes s where
  models := fun m hm => by
    refine count_eq_one_or (h.ledger.inOrder.count_le_one ?_) (h.ledger.models m hm)
    intro before hlive
    exact hlive.2
  contexts := fun c m hm => by
    refine count_eq_one_or (h.ledger.inOrder.count_le_one ?_) (h.ledger.contexts c m hm)
    rintro before ⟨m', hlive, -⟩
    exact hlive.2
  order := by
    intro before c after m heq hcreated
    obtain ⟨m', hctx, hmodel⟩ := h.ledger.inOrder before _ after heq
    have hcreated' : .initContext c m' ∈ s.globals.log := by
      rw [heq]
      exact List.mem_append_left _ hctx.1
    rw [initContext_unique h.ledger.inOrder hcreated hcreated']
    exact hmodel.2
  paired := by
    intro hfree c hctx
    rcases h.settled hfree with hempty | ⟨m, c', hfull⟩
    · simp [hempty.2] at hctx
    · rw [hfull.ctx] at hctx
      cases hctx
      exact ⟨m, hfull.model, hfull.ctxLive, hfull.modelLive⟩
  reads := fun before ctx after heq => h.ledger.inOrder before _ after heq

/-- llama.cpp handles are used within their lifetime, in every state of every run that is careful. -/
theorem lifetimes_of_run {t : Native} {es : List Event} (hrun : machine.run init es = some t)
    (hcareful : machine.Along Careful init es) : Lifetimes t :=
  lifetimes_of_safe (safe_of_run hrun hcareful)

/-- A model is loaded, asked about while a reply is generated, and released. The release has tested
`g_ctx` when another call asks for it, and frees it when that call has read it. -/
def oneModel : List Event :=
  .call .nativeLoadModel :: List.replicate 6 (.advance 0 true) ++
    [.call (.nativeGenerate 1), .call .nativeGetModelInfo, .advance 1 true, .advance 1 true,
      .advance 2 true, .advance 2 true, .advance 1 true, .advance 1 true, .advance 2 true] ++
    List.replicate 13 (.advance 1 true) ++
    [.call .nativeRelease, .call .nativeGetModelInfo, .advance 3 true, .advance 3 true,
      .advance 4 true, .advance 4 true, .advance 4 true] ++
    List.replicate 6 (.advance 3 true)

theorem lifetimes_of_run_oneModel :
    ∃ t, machine.run init oneModel = some t ∧ machine.Along Careful init oneModel ∧
      t.globals.log.count (.freeModel 0) = 1 ∧ Lifetimes t := by
  have hcareful : machine.Along Careful init oneModel := by decide
  have hcount : (machine.run init oneModel).map (·.globals.log.count (.freeModel 0)) = some 1 := by
    decide
  obtain ⟨t, hrun, hfreed⟩ := Option.map_eq_some_iff.mp hcount
  exact ⟨t, hrun, hcareful, hfreed, lifetimes_of_run hrun hcareful⟩

/-- The second load frees the model before the context that was created from it. -/
def loadTwice : List Event :=
  .call .nativeLoadModel :: List.replicate 6 (.advance 0 true) ++
    .call .nativeLoadModel :: List.replicate 6 (.advance 1 true)

theorem load_twice_out_of_order :
    ∃ t, machine.run init loadTwice = some t ∧ ¬ Lifetimes t := by
  refine ⟨_, rfl, fun h => ?_⟩
  have horder := h.order [.loadModel 0, .initContext 1 0, .freeModel 0] 1 [] 0 rfl
  exact horder (by decide) (by decide)

end LlamaJni

end Kaede
