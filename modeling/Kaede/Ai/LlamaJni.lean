import Kaede.Infra.Machine

/-!
# `llama-jni`

The bridge to llama.cpp: two global handles, one mutex, and any number of calls that are under way at
the same time. A step is one operation on the mutex, one access to a global, or one call of llama.cpp
or of Java. What llama.cpp creates is stored by the step that creates it: until then no other call can
know of it. `CallTransition` lists the steps of a call.

Models and contexts are numbered. The log of what llama.cpp has been asked to do with them is ghost:
only the number of the next one is read off it. A C++ exception ends the process.
-/

namespace Kaede

open Infra

namespace LlamaJni

/-! ## Globals -/

/-- What llama.cpp is asked to do. -/
inductive Access where
  | loadModel (model : Nat)
  | initContext (ctx model : Nat)
  | freeModel (model : Nat)
  | freeContext (ctx : Nat)
  /-- A call that needs a live context is given this pointer. `none` is null. -/
  | readContext (ctx : Option Nat)
deriving DecidableEq, Repr

structure Globals where
  /-- The call that holds `g_mutex`. -/
  holder : Option Nat
  /-- `g_model`. -/
  model : Option Nat
  /-- `g_ctx`. -/
  ctx : Option Nat
  isGenerating : Bool
  shouldCancel : Bool
  /-- Ghost. -/
  log : List Access
deriving DecidableEq, Repr

namespace Globals

def access (a : Access) (g : Globals) : Globals := { g with log := g.log ++ [a] }

/-- A call of llama.cpp on `g_ctx`. -/
def readCtx (g : Globals) : Globals := g.access (.readContext g.ctx)

/-- `llama_free_model(g_model)`, which does nothing to null. -/
def freeModel (g : Globals) : Globals :=
  match g.model with
  | some m => g.access (.freeModel m)
  | none => g

/-- `llama_free(g_ctx)`, which does nothing to null. -/
def freeCtx (g : Globals) : Globals :=
  match g.ctx with
  | some c => g.access (.freeContext c)
  | none => g

theorem freeModel_holder (g : Globals) : g.freeModel.holder = g.holder := by
  unfold freeModel
  split <;> rfl

theorem freeCtx_holder (g : Globals) : g.freeCtx.holder = g.holder := by
  unfold freeCtx
  split <;> rfl

theorem freeModel_of_some {g : Globals} {m : Nat} (h : g.model = some m) :
    g.freeModel = g.access (.freeModel m) := by
  simp [freeModel, h]

theorem freeCtx_of_some {g : Globals} {c : Nat} (h : g.ctx = some c) :
    g.freeCtx = g.access (.freeContext c) := by
  simp [freeCtx, h]

end Globals

/-! ## Calls -/

/-- What a call of `nativeLoadModel` does next. -/
inductive LoadPoint where
  | locking
  /-- `if (g_model)`. -/
  | testingModel
  | freeingModel
  | nullingModel
  /-- `if (g_ctx)`. -/
  | testingCtx
  | freeingCtx
  | nullingCtx
  | loadingModel
  | creatingCtx
  /-- The context could not be created. -/
  | droppingModel
  | nullingDropped
  | unlocking (result : Bool)
  | returned (result : Bool)
deriving DecidableEq, Repr

/-- What a call of `nativeGenerate` does next. In the loop, `nPredict` tokens are left. -/
inductive GeneratePoint where
  | locking
  /-- `if (!g_ctx || !g_model)`. -/
  | checking
  | settingGenerating
  | resettingCancel
  | tokenizing
  /-- `GetMethodID`, which may find nothing. -/
  | lookingUp
  | decodingPrompt
  /-- In front of the loop condition. -/
  | testing (nPredict : Int)
  | gettingSampler (nPredict : Int)
  | sampling (nPredict : Int)
  | testingEnd (nPredict : Int)
  | gettingPiece (nPredict : Int)
  | calling (nPredict : Int)
  | decoding (nPredict : Int)
  | clearingGenerating
  | unlocking
  | returned
deriving DecidableEq, Repr

/-- What a call of `nativeGetModelInfo` does next. It takes no lock. -/
inductive InfoPoint where
  /-- `if (!g_model)`. -/
  | checking
  /-- `g_ctx` is the argument of `llama_n_ctx`. -/
  | fetching
  | reading (ctx : Option Nat)
  | returned
deriving DecidableEq, Repr

/-- What a call of `nativeRelease` does next. -/
inductive ReleasePoint where
  | locking
  /-- `if (g_ctx)`. -/
  | testingCtx
  | freeingCtx
  | nullingCtx
  /-- `if (g_model)`. -/
  | testingModel
  | freeingModel
  | nullingModel
  | unlocking
  | returned
deriving DecidableEq, Repr

/-- A call that has been made, by any thread. -/
inductive NativeCall where
  | load (point : LoadPoint)
  | generate (maxTokens : Int) (point : GeneratePoint)
  | cancel (returned : Bool)
  | info (point : InfoPoint)
  | release (point : ReleasePoint)
deriving DecidableEq, Repr

inductive NativeFunction where
  | nativeLoadModel
  | nativeGenerate (maxTokens : Int)
  | nativeCancel
  | nativeGetModelInfo
  | nativeRelease
deriving DecidableEq, Repr

/-- The call at its first operation. -/
def NativeFunction.call : NativeFunction → NativeCall
  | .nativeLoadModel => .load .locking
  | .nativeGenerate maxTokens => .generate maxTokens .locking
  | .nativeCancel => .cancel false
  | .nativeGetModelInfo => .info .checking
  | .nativeRelease => .release .locking

/-! ## Steps of one call -/

/-- The next step of call `i` of `nativeLoadModel`. `ok` is whether llama.cpp succeeds. -/
def loadStep (i : Nat) (ok : Bool) (g : Globals) : LoadPoint → Option (Globals × LoadPoint)
  | .locking =>
    if g.holder = none then some ({ g with holder := some i }, .testingModel) else none
  | .testingModel => some (g, if g.model = none then .testingCtx else .freeingModel)
  | .freeingModel => some (g.freeModel, .nullingModel)
  | .nullingModel => some ({ g with model := none }, .testingCtx)
  | .testingCtx => some (g, if g.ctx = none then .loadingModel else .freeingCtx)
  | .freeingCtx => some (g.freeCtx, .nullingCtx)
  | .nullingCtx => some ({ g with ctx := none }, .loadingModel)
  | .loadingModel =>
    if ok then
      some ({ g.access (.loadModel g.log.length) with model := some g.log.length }, .creatingCtx)
    else some ({ g with model := none }, .unlocking false)
  | .creatingCtx =>
    match ok, g.model with
    | true, some m =>
      some ({ g.access (.initContext g.log.length m) with ctx := some g.log.length },
        .unlocking true)
    | _, _ => some ({ g with ctx := none }, .droppingModel)
  | .droppingModel => some (g.freeModel, .nullingDropped)
  | .nullingDropped => some ({ g with model := none }, .unlocking false)
  | .unlocking result => some ({ g with holder := none }, .returned result)
  | .returned _ => none

/-- The next step of call `i` of `nativeGenerate`. `ok` is the answer of `GetMethodID` or of
llama.cpp: the callback is there, the decoding succeeds, the token is not the last one. -/
def generateStep (i : Nat) (ok : Bool) (maxTokens : Int) (g : Globals) :
    GeneratePoint → Option (Globals × GeneratePoint)
  | .locking => if g.holder = none then some ({ g with holder := some i }, .checking) else none
  | .checking =>
    some (g, if g.ctx = none ∨ g.model = none then .unlocking else .settingGenerating)
  | .settingGenerating => some ({ g with isGenerating := true }, .resettingCancel)
  | .resettingCancel => some ({ g with shouldCancel := false }, .tokenizing)
  | .tokenizing => some (g.readCtx, .lookingUp)
  | .lookingUp => some (g, if ok then .decodingPrompt else .clearingGenerating)
  | .decodingPrompt => some (g.readCtx, if ok then .testing maxTokens else .clearingGenerating)
  | .testing nPredict =>
    some (g, if 0 < nPredict ∧ g.shouldCancel = false then .gettingSampler nPredict
      else .clearingGenerating)
  | .gettingSampler nPredict => some (g.readCtx, .sampling nPredict)
  | .sampling nPredict => some (g.readCtx, .testingEnd nPredict)
  | .testingEnd nPredict =>
    some (g.readCtx, if ok then .gettingPiece nPredict else .clearingGenerating)
  | .gettingPiece nPredict => some (g.readCtx, .calling nPredict)
  | .calling nPredict => some (g, .decoding (nPredict - 1))
  | .decoding nPredict =>
    some (g.readCtx, if ok then .testing nPredict else .clearingGenerating)
  | .clearingGenerating => some ({ g with isGenerating := false }, .unlocking)
  | .unlocking => some ({ g with holder := none }, .returned)
  | .returned => none

/-- The next step of a call of `nativeGetModelInfo`. -/
def infoStep (g : Globals) : InfoPoint → Option (Globals × InfoPoint)
  | .checking => some (g, if g.model = none then .returned else .fetching)
  | .fetching => some (g, .reading g.ctx)
  | .reading ctx => some (g.access (.readContext ctx), .returned)
  | .returned => none

/-- The next step of call `i` of `nativeRelease`. -/
def releaseStep (i : Nat) (g : Globals) : ReleasePoint → Option (Globals × ReleasePoint)
  | .locking =>
    if g.holder = none then some ({ g with holder := some i }, .testingCtx) else none
  | .testingCtx => some (g, if g.ctx = none then .testingModel else .freeingCtx)
  | .freeingCtx => some (g.freeCtx, .nullingCtx)
  | .nullingCtx => some ({ g with ctx := none }, .testingModel)
  | .testingModel => some (g, if g.model = none then .unlocking else .freeingModel)
  | .freeingModel => some (g.freeModel, .nullingModel)
  | .nullingModel => some ({ g with model := none }, .unlocking)
  | .unlocking => some ({ g with holder := none }, .returned)
  | .returned => none

def callStep (i : Nat) (ok : Bool) (g : Globals) : NativeCall → Option (Globals × NativeCall)
  | .load point => (loadStep i ok g point).map fun next => (next.1, .load next.2)
  | .generate maxTokens point =>
    (generateStep i ok maxTokens g point).map fun next => (next.1, .generate maxTokens next.2)
  | .cancel false => some ({ g with shouldCancel := true }, .cancel true)
  | .cancel true => none
  | .info point => (infoStep g point).map fun next => (next.1, .info next.2)
  | .release point => (releaseStep i g point).map fun next => (next.1, .release next.2)

/-! ## What a step of a call can be -/

/-- Behind the check of the handles, and not yet at the end. -/
def GeneratePoint.ready : GeneratePoint → Bool
  | .locking | .checking | .unlocking | .returned => false
  | _ => true

/-- The steps of a call. Every invariant is proved by cases on it. The steps of `nativeGenerate` behind
its check differ in nothing that matters to the handles. -/
inductive CallTransition (i : Nat) (g : Globals) : NativeCall → Globals → NativeCall → Prop where
  | lockLoad (hfree : g.holder = none) :
    CallTransition i g (.load .locking) { g with holder := some i } (.load .testingModel)
  | modelLoad (hmodel : g.model ≠ none) :
    CallTransition i g (.load .testingModel) g (.load .freeingModel)
  | noModelLoad (hmodel : g.model = none) :
    CallTransition i g (.load .testingModel) g (.load .testingCtx)
  | freeModelLoad : CallTransition i g (.load .freeingModel) g.freeModel (.load .nullingModel)
  | nullModelLoad :
    CallTransition i g (.load .nullingModel) { g with model := none } (.load .testingCtx)
  | ctxLoad (hctx : g.ctx ≠ none) :
    CallTransition i g (.load .testingCtx) g (.load .freeingCtx)
  | noCtxLoad (hctx : g.ctx = none) :
    CallTransition i g (.load .testingCtx) g (.load .loadingModel)
  | freeCtxLoad : CallTransition i g (.load .freeingCtx) g.freeCtx (.load .nullingCtx)
  | nullCtxLoad :
    CallTransition i g (.load .nullingCtx) { g with ctx := none } (.load .loadingModel)
  | loaded :
    CallTransition i g (.load .loadingModel)
      { g.access (.loadModel g.log.length) with model := some g.log.length } (.load .creatingCtx)
  | notLoaded :
    CallTransition i g (.load .loadingModel) { g with model := none } (.load (.unlocking false))
  | created (m : Nat) (hmodel : g.model = some m) :
    CallTransition i g (.load .creatingCtx)
      { g.access (.initContext g.log.length m) with ctx := some g.log.length }
      (.load (.unlocking true))
  | notCreated :
    CallTransition i g (.load .creatingCtx) { g with ctx := none } (.load .droppingModel)
  | dropModel : CallTransition i g (.load .droppingModel) g.freeModel (.load .nullingDropped)
  | nullDropped :
    CallTransition i g (.load .nullingDropped) { g with model := none } (.load (.unlocking false))
  | unlockLoad (result : Bool) :
    CallTransition i g (.load (.unlocking result)) { g with holder := none }
      (.load (.returned result))
  | lockGenerate (n : Int) (hfree : g.holder = none) :
    CallTransition i g (.generate n .locking) { g with holder := some i } (.generate n .checking)
  | pass (n : Int) (hctx : g.ctx ≠ none) (hmodel : g.model ≠ none) :
    CallTransition i g (.generate n .checking) g (.generate n .settingGenerating)
  | refuse (n : Int) (hnot : g.ctx = none ∨ g.model = none) :
    CallTransition i g (.generate n .checking) g (.generate n .unlocking)
  | setFlags (n : Int) (p p' : GeneratePoint) (hp : p.ready = true) (hp' : p'.ready = true)
    (isGenerating shouldCancel : Bool) :
    CallTransition i g (.generate n p)
      { g with isGenerating := isGenerating, shouldCancel := shouldCancel } (.generate n p')
  | useCtx (n : Int) (p p' : GeneratePoint) (hp : p.ready = true) (hp' : p'.ready = true) :
    CallTransition i g (.generate n p) g.readCtx (.generate n p')
  | endGenerate (n : Int) :
    CallTransition i g (.generate n .clearingGenerating) { g with isGenerating := false }
      (.generate n .unlocking)
  | unlockGenerate (n : Int) :
    CallTransition i g (.generate n .unlocking) { g with holder := none } (.generate n .returned)
  | cancel : CallTransition i g (.cancel false) { g with shouldCancel := true } (.cancel true)
  | infoNotLoaded (hmodel : g.model = none) :
    CallTransition i g (.info .checking) g (.info .returned)
  | infoLoaded (hmodel : g.model ≠ none) :
    CallTransition i g (.info .checking) g (.info .fetching)
  | fetch : CallTransition i g (.info .fetching) g (.info (.reading g.ctx))
  | readInfo (ctx : Option Nat) :
    CallTransition i g (.info (.reading ctx)) (g.access (.readContext ctx)) (.info .returned)
  | lockRelease (hfree : g.holder = none) :
    CallTransition i g (.release .locking) { g with holder := some i } (.release .testingCtx)
  | ctxRelease (hctx : g.ctx ≠ none) :
    CallTransition i g (.release .testingCtx) g (.release .freeingCtx)
  | noCtxRelease (hctx : g.ctx = none) :
    CallTransition i g (.release .testingCtx) g (.release .testingModel)
  | freeCtxRelease : CallTransition i g (.release .freeingCtx) g.freeCtx (.release .nullingCtx)
  | nullCtxRelease :
    CallTransition i g (.release .nullingCtx) { g with ctx := none } (.release .testingModel)
  | modelRelease (hmodel : g.model ≠ none) :
    CallTransition i g (.release .testingModel) g (.release .freeingModel)
  | noModelRelease (hmodel : g.model = none) :
    CallTransition i g (.release .testingModel) g (.release .unlocking)
  | freeModelRelease :
    CallTransition i g (.release .freeingModel) g.freeModel (.release .nullingModel)
  | nullModelRelease :
    CallTransition i g (.release .nullingModel) { g with model := none } (.release .unlocking)
  | unlockRelease :
    CallTransition i g (.release .unlocking) { g with holder := none } (.release .returned)

section Transitions

variable {i : Nat} {ok : Bool} {g g' : Globals}

theorem callTransition_of_loadStep {point point' : LoadPoint}
    (h : loadStep i ok g point = some (g', point')) :
    CallTransition i g (.load point) g' (.load point') := by
  cases point with
  | locking =>
    simp only [loadStep] at h
    split at h
    · next hfree => cases h; exact .lockLoad hfree
    · cases h
  | testingModel =>
    simp only [loadStep] at h
    split at h
    · next hmodel => cases h; exact .noModelLoad hmodel
    · next hmodel => cases h; exact .modelLoad hmodel
  | freeingModel => cases h; exact .freeModelLoad
  | nullingModel => cases h; exact .nullModelLoad
  | testingCtx =>
    simp only [loadStep] at h
    split at h
    · next hctx => cases h; exact .noCtxLoad hctx
    · next hctx => cases h; exact .ctxLoad hctx
  | freeingCtx => cases h; exact .freeCtxLoad
  | nullingCtx => cases h; exact .nullCtxLoad
  | loadingModel =>
    cases ok with
    | true => cases h; exact .loaded
    | false => cases h; exact .notLoaded
  | creatingCtx =>
    simp only [loadStep] at h
    split at h
    · next m hmodel => cases h; exact .created m hmodel
    · cases h; exact .notCreated
  | droppingModel => cases h; exact .dropModel
  | nullingDropped => cases h; exact .nullDropped
  | unlocking result => cases h; exact .unlockLoad result
  | returned result => cases h

theorem callTransition_of_generateStep {n : Int} {point point' : GeneratePoint}
    (h : generateStep i ok n g point = some (g', point')) :
    CallTransition i g (.generate n point) g' (.generate n point') := by
  cases point with
  | locking =>
    simp only [generateStep] at h
    split at h
    · next hfree => cases h; exact .lockGenerate n hfree
    · cases h
  | checking =>
    simp only [generateStep] at h
    split at h
    · next hnot => cases h; exact .refuse n hnot
    · next hboth =>
      rw [not_or] at hboth
      cases h
      exact .pass n hboth.1 hboth.2
  | settingGenerating => cases h; exact .setFlags n _ _ rfl rfl true g.shouldCancel
  | resettingCancel => cases h; exact .setFlags n _ _ rfl rfl g.isGenerating false
  | tokenizing => cases h; exact .useCtx n _ _ rfl rfl
  | lookingUp =>
    cases h
    exact .setFlags n _ _ rfl (by cases ok <;> rfl) g.isGenerating g.shouldCancel
  | decodingPrompt => cases h; exact .useCtx n _ _ rfl (by cases ok <;> rfl)
  | testing nPredict =>
    cases h
    exact .setFlags n _ _ rfl (by split <;> rfl) g.isGenerating g.shouldCancel
  | gettingSampler nPredict => cases h; exact .useCtx n _ _ rfl rfl
  | sampling nPredict => cases h; exact .useCtx n _ _ rfl rfl
  | testingEnd nPredict => cases h; exact .useCtx n _ _ rfl (by cases ok <;> rfl)
  | gettingPiece nPredict => cases h; exact .useCtx n _ _ rfl rfl
  | calling nPredict => cases h; exact .setFlags n _ _ rfl rfl g.isGenerating g.shouldCancel
  | decoding nPredict => cases h; exact .useCtx n _ _ rfl (by cases ok <;> rfl)
  | clearingGenerating => cases h; exact .endGenerate n
  | unlocking => cases h; exact .unlockGenerate n
  | returned => cases h

theorem callTransition_of_infoStep {point point' : InfoPoint}
    (h : infoStep g point = some (g', point')) :
    CallTransition i g (.info point) g' (.info point') := by
  cases point with
  | checking =>
    simp only [infoStep] at h
    split at h
    · next hmodel => cases h; exact .infoNotLoaded hmodel
    · next hmodel => cases h; exact .infoLoaded hmodel
  | fetching => cases h; exact .fetch
  | reading ctx => cases h; exact .readInfo ctx
  | returned => cases h

theorem callTransition_of_releaseStep {point point' : ReleasePoint}
    (h : releaseStep i g point = some (g', point')) :
    CallTransition i g (.release point) g' (.release point') := by
  cases point with
  | locking =>
    simp only [releaseStep] at h
    split at h
    · next hfree => cases h; exact .lockRelease hfree
    · cases h
  | testingCtx =>
    simp only [releaseStep] at h
    split at h
    · next hctx => cases h; exact .noCtxRelease hctx
    · next hctx => cases h; exact .ctxRelease hctx
  | freeingCtx => cases h; exact .freeCtxRelease
  | nullingCtx => cases h; exact .nullCtxRelease
  | testingModel =>
    simp only [releaseStep] at h
    split at h
    · next hmodel => cases h; exact .noModelRelease hmodel
    · next hmodel => cases h; exact .modelRelease hmodel
  | freeingModel => cases h; exact .freeModelRelease
  | nullingModel => cases h; exact .nullModelRelease
  | unlocking => cases h; exact .unlockRelease
  | returned => cases h

theorem callTransition_of_step {call call' : NativeCall}
    (h : callStep i ok g call = some (g', call')) : CallTransition i g call g' call' := by
  cases call with
  | load point =>
    obtain ⟨⟨_, _⟩, hstep, heq⟩ := Option.map_eq_some_iff.mp h
    cases heq
    exact callTransition_of_loadStep hstep
  | generate n point =>
    obtain ⟨⟨_, _⟩, hstep, heq⟩ := Option.map_eq_some_iff.mp h
    cases heq
    exact callTransition_of_generateStep hstep
  | cancel returned =>
    cases returned with
    | false => cases h; exact .cancel
    | true => cases h
  | info point =>
    obtain ⟨⟨_, _⟩, hstep, heq⟩ := Option.map_eq_some_iff.mp h
    cases heq
    exact callTransition_of_infoStep hstep
  | release point =>
    obtain ⟨⟨_, _⟩, hstep, heq⟩ := Option.map_eq_some_iff.mp h
    cases heq
    exact callTransition_of_releaseStep hstep

end Transitions

/-! ## The machine -/

structure Native where
  globals : Globals
  calls : List NativeCall
deriving DecidableEq, Repr

/-- The library as it is loaded. No call has been made. -/
def init : Native :=
  { globals :=
      { holder := none, model := none, ctx := none, isGenerating := false, shouldCancel := false,
        log := [] },
    calls := [] }

inductive Event where
  /-- A thread calls a function. -/
  | call (function : NativeFunction)
  /-- The `i`-th call takes its next step. -/
  | advance (i : Nat) (ok : Bool)
deriving DecidableEq, Repr

def step (s : Native) : Event → Option Native
  | .call function => some { s with calls := s.calls ++ [function.call] }
  | .advance i ok =>
    (s.calls[i]?).bind fun call =>
      (callStep i ok s.globals call).map fun next =>
        { globals := next.1, calls := s.calls.set i next.2 }

def machine : Machine Native Event := ⟨step⟩

/-- A step of a call changes that call and the globals. -/
theorem advance_cases {s t : Native} {i : Nat} {ok : Bool} (h : step s (.advance i ok) = some t) :
    ∃ call call', s.calls[i]? = some call ∧ CallTransition i s.globals call t.globals call' ∧
      t.calls[i]? = some call' ∧ ∀ j, j ≠ i → t.calls[j]? = s.calls[j]? := by
  obtain ⟨call, hcall, hnext⟩ := Option.bind_eq_some_iff.mp h
  obtain ⟨⟨g, call'⟩, hstep, rfl⟩ := Option.map_eq_some_iff.mp hnext
  have hlt := (List.getElem?_eq_some_iff.mp hcall).1
  refine ⟨call, call', hcall, callTransition_of_step hstep, ?_, ?_⟩
  · exact List.getElem?_set_self hlt
  · intro j hj
    exact List.getElem?_set_ne (Ne.symm hj)

end LlamaJni

end Kaede
