import Kaede.Text
import Kaede.Infra.Machine

/-!
# `mlc-jni`

The native layer: one mutex, three atomic flags, and any number of calls that are under way at the
same time. A step is one operation on the mutex, one access to a flag, or one callback.
`CallTransition` lists the steps of a call.

A `std::string` is a list of bytes. A C++ exception ends no call here: the only handler is around
the token loop, and an exception anywhere else ends the process.
-/

namespace Kaede

open Infra

namespace MlcJni

/-- `std::string`. -/
abbrev Bytes := List UInt8

/-- A string literal of the source in UTF-8. -/
def utf8 (s : String) : Bytes := s.toList.flatMap String.utf8EncodeChar

/-! ## Replies -/

/-- `SMART_RESPONSES`. -/
def smartResponses : List String :=
  ["Hello my babe! 💜 What's our day? I'm here for you!",
    "Hmm, that's interesting! Tell me more~",
    "Really? I want to hear every detail! ✨",
    "Aww, you're so cute! 😊",
    "I'm listening! What else is on your mind?",
    "That's such a cute thought! You're amazing! 💕",
    "Oh? Do tell me more! I'm fascinated! 👂",
    "You know what? I love talking with you like this~"]

/-- The reply to a prompt, with and without `g_mlc_ready`. -/
def response (mlcReady : Bool) (prompt : Bytes) : Bytes :=
  if mlcReady then utf8 "MLC-LLM ready! Your message: " ++ prompt
  else utf8 (smartResponses.getD (prompt.length % smartResponses.length) "")

/-- `std::string(1, c).c_str()`: the string that is passed to `NewStringUTF`. It ends at a null
byte. -/
def chunk (c : UInt8) : Bytes := if c = 0 then [] else [c]

/-! ## Calls -/

/-- The global state. Calls are numbered, and `holder` is the one that holds `g_mutex`. -/
structure Globals where
  holder : Option Nat
  isGenerating : Bool
  shouldCancel : Bool
  mlcReady : Bool
deriving DecidableEq, Repr

/-- What a call of `nativeGenerate` does next. -/
inductive GeneratePoint where
  | locking
  | settingGenerating
  | resettingCancel
  /-- `GetMethodID`, which may find nothing. -/
  | lookingUp
  | readingReady
  /-- In front of the next character, with what is left of the response. -/
  | checking (rest : Bytes)
  /-- The callback for one character. -/
  | calling (c : UInt8) (rest : Bytes)
  | clearingGenerating
  | unlocking
  | returned
deriving DecidableEq, Repr

structure GenerateCall where
  prompt : Bytes
  point : GeneratePoint
  /-- What the callback has been given, in order. -/
  delivered : List Bytes
  /-- Ghost: the response, once it is chosen. -/
  response : Option Bytes
deriving DecidableEq, Repr

/-- What a call of `nativeRelease` does next. -/
inductive ReleasePoint where
  | locking
  | clearingGenerating
  | resettingCancel
  | resettingReady
  | unlocking
  | returned
deriving DecidableEq, Repr

/-- A call that has been made, by any thread. -/
inductive NativeCall where
  | generate (call : GenerateCall)
  | cancel (returned : Bool)
  | release (point : ReleasePoint)
deriving DecidableEq, Repr

/-- The three functions. -/
inductive NativeFunction where
  | nativeGenerate (prompt : Bytes)
  | nativeCancel
  | nativeRelease
deriving DecidableEq, Repr

/-- The call at its first operation. -/
def NativeFunction.call : NativeFunction → NativeCall
  | .nativeGenerate prompt =>
    .generate { prompt := prompt, point := .locking, delivered := [], response := none }
  | .nativeCancel => .cancel false
  | .nativeRelease => .release .locking

/-! ## Steps of one call -/

/-- The next step of call `i` of `nativeGenerate`. `found` is what `GetMethodID` answers. -/
def generateStep (i : Nat) (found : Bool) (g : Globals) (call : GenerateCall) :
    Option (Globals × GenerateCall) :=
  match call.point with
  | .locking =>
    if g.holder = none then
      some ({ g with holder := some i }, { call with point := .settingGenerating })
    else none
  | .settingGenerating =>
    some ({ g with isGenerating := true }, { call with point := .resettingCancel })
  | .resettingCancel => some ({ g with shouldCancel := false }, { call with point := .lookingUp })
  | .lookingUp =>
    some (g, { call with point := if found then .readingReady else .clearingGenerating })
  | .readingReady =>
    let chosen := MlcJni.response g.mlcReady call.prompt
    some (g, { call with point := .checking chosen, response := some chosen })
  | .checking [] => some (g, { call with point := .clearingGenerating })
  | .checking (c :: rest) =>
    some (g, { call with point := if g.shouldCancel then .clearingGenerating else .calling c rest })
  | .calling c rest =>
    some (g, { call with point := .checking rest, delivered := call.delivered ++ [chunk c] })
  | .clearingGenerating =>
    some ({ g with isGenerating := false }, { call with point := .unlocking })
  | .unlocking => some ({ g with holder := none }, { call with point := .returned })
  | .returned => none

/-- The next step of call `i` of `nativeRelease`. -/
def releaseStep (i : Nat) (g : Globals) : ReleasePoint → Option (Globals × ReleasePoint)
  | .locking =>
    if g.holder = none then some ({ g with holder := some i }, .clearingGenerating) else none
  | .clearingGenerating => some ({ g with isGenerating := false }, .resettingCancel)
  | .resettingCancel => some ({ g with shouldCancel := false }, .resettingReady)
  | .resettingReady => some ({ g with mlcReady := false }, .unlocking)
  | .unlocking => some ({ g with holder := none }, .returned)
  | .returned => none

def callStep (i : Nat) (found : Bool) (g : Globals) : NativeCall → Option (Globals × NativeCall)
  | .generate call => (generateStep i found g call).map fun next => (next.1, .generate next.2)
  | .cancel false => some ({ g with shouldCancel := true }, .cancel true)
  | .cancel true => none
  | .release point => (releaseStep i g point).map fun next => (next.1, .release next.2)

/-! ## What a step of a call can be -/

/-- The steps of a call, one constructor for each. Every invariant is proved by cases on it. -/
inductive CallTransition (i : Nat) (g : Globals) : NativeCall → Globals → NativeCall → Prop where
  | lock (call : GenerateCall) (hfree : g.holder = none) :
    CallTransition i g (.generate { call with point := .locking }) { g with holder := some i }
      (.generate { call with point := .settingGenerating })
  | setGenerating (call : GenerateCall) :
    CallTransition i g (.generate { call with point := .settingGenerating })
      { g with isGenerating := true } (.generate { call with point := .resettingCancel })
  | resetCancel (call : GenerateCall) :
    CallTransition i g (.generate { call with point := .resettingCancel })
      { g with shouldCancel := false } (.generate { call with point := .lookingUp })
  | foundCallback (call : GenerateCall) :
    CallTransition i g (.generate { call with point := .lookingUp }) g
      (.generate { call with point := .readingReady })
  | noCallback (call : GenerateCall) :
    CallTransition i g (.generate { call with point := .lookingUp }) g
      (.generate { call with point := .clearingGenerating })
  | readReady (call : GenerateCall) :
    CallTransition i g (.generate { call with point := .readingReady }) g
      (.generate
        { call with
          point := .checking (MlcJni.response g.mlcReady call.prompt),
          response := some (MlcJni.response g.mlcReady call.prompt) })
  | endResponse (call : GenerateCall) :
    CallTransition i g (.generate { call with point := .checking [] }) g
      (.generate { call with point := .clearingGenerating })
  | breakLoop (call : GenerateCall) (c : UInt8) (rest : Bytes) (hset : g.shouldCancel = true) :
    CallTransition i g (.generate { call with point := .checking (c :: rest) }) g
      (.generate { call with point := .clearingGenerating })
  | check (call : GenerateCall) (c : UInt8) (rest : Bytes) (hclear : g.shouldCancel = false) :
    CallTransition i g (.generate { call with point := .checking (c :: rest) }) g
      (.generate { call with point := .calling c rest })
  | onToken (call : GenerateCall) (c : UInt8) (rest : Bytes) :
    CallTransition i g (.generate { call with point := .calling c rest }) g
      (.generate
        { call with point := .checking rest, delivered := call.delivered ++ [chunk c] })
  | clearGenerating (call : GenerateCall) :
    CallTransition i g (.generate { call with point := .clearingGenerating })
      { g with isGenerating := false } (.generate { call with point := .unlocking })
  | unlock (call : GenerateCall) :
    CallTransition i g (.generate { call with point := .unlocking }) { g with holder := none }
      (.generate { call with point := .returned })
  | cancel : CallTransition i g (.cancel false) { g with shouldCancel := true } (.cancel true)
  | lockRelease (hfree : g.holder = none) :
    CallTransition i g (.release .locking) { g with holder := some i }
      (.release .clearingGenerating)
  | clearRelease :
    CallTransition i g (.release .clearingGenerating) { g with isGenerating := false }
      (.release .resettingCancel)
  | resetRelease :
    CallTransition i g (.release .resettingCancel) { g with shouldCancel := false }
      (.release .resettingReady)
  | readyRelease :
    CallTransition i g (.release .resettingReady) { g with mlcReady := false }
      (.release .unlocking)
  | unlockRelease :
    CallTransition i g (.release .unlocking) { g with holder := none } (.release .returned)

theorem callTransition_of_generateStep {i : Nat} {found : Bool} {g g' : Globals}
    {call call' : GenerateCall} (h : generateStep i found g call = some (g', call')) :
    CallTransition i g (.generate call) g' (.generate call') := by
  obtain ⟨prompt, point, delivered, response⟩ := call
  -- the constructors ignore the point of the call that they are given
  cases point with
  | locking =>
    simp only [generateStep] at h
    split at h
    · next hfree =>
      cases h
      exact .lock ⟨prompt, .locking, delivered, response⟩ hfree
    · cases h
  | settingGenerating => cases h; exact .setGenerating ⟨prompt, .locking, delivered, response⟩
  | resettingCancel => cases h; exact .resetCancel ⟨prompt, .locking, delivered, response⟩
  | lookingUp =>
    cases found with
    | true => cases h; exact .foundCallback ⟨prompt, .locking, delivered, response⟩
    | false => cases h; exact .noCallback ⟨prompt, .locking, delivered, response⟩
  | readingReady => cases h; exact .readReady ⟨prompt, .locking, delivered, response⟩
  | checking rest =>
    cases rest with
    | nil => cases h; exact .endResponse ⟨prompt, .locking, delivered, response⟩
    | cons c rest =>
      rw [generateStep] at h
      cases hcancel : g.shouldCancel with
      | true =>
        rw [hcancel] at h
        cases h
        exact .breakLoop ⟨prompt, .locking, delivered, response⟩ c rest hcancel
      | false =>
        rw [hcancel] at h
        cases h
        exact .check ⟨prompt, .locking, delivered, response⟩ c rest hcancel
  | calling c rest => cases h; exact .onToken ⟨prompt, .locking, delivered, response⟩ c rest
  | clearingGenerating => cases h; exact .clearGenerating ⟨prompt, .locking, delivered, response⟩
  | unlocking => cases h; exact .unlock ⟨prompt, .locking, delivered, response⟩
  | returned => cases h

theorem callTransition_of_step {i : Nat} {found : Bool} {g g' : Globals} {call call' : NativeCall}
    (h : callStep i found g call = some (g', call')) : CallTransition i g call g' call' := by
  cases call with
  | generate call =>
    obtain ⟨⟨_, _⟩, hstep, heq⟩ := Option.map_eq_some_iff.mp h
    cases heq
    exact callTransition_of_generateStep hstep
  | cancel returned =>
    cases returned with
    | false => cases h; exact .cancel
    | true => cases h
  | release point =>
    obtain ⟨⟨_, _⟩, hstep, heq⟩ := Option.map_eq_some_iff.mp h
    cases heq
    cases point with
    | locking =>
      rw [releaseStep] at hstep
      split at hstep
      · next hfree =>
        cases hstep
        exact .lockRelease hfree
      · cases hstep
    | clearingGenerating => cases hstep; exact .clearRelease
    | resettingCancel => cases hstep; exact .resetRelease
    | resettingReady => cases hstep; exact .readyRelease
    | unlocking => cases hstep; exact .unlockRelease
    | returned => cases hstep

/-! ## The machine -/

structure Native where
  globals : Globals
  calls : List NativeCall
deriving DecidableEq, Repr

/-- The library as it is loaded. No call has been made. -/
def init : Native :=
  { globals :=
      { holder := none, isGenerating := false, shouldCancel := false, mlcReady := false },
    calls := [] }

inductive Event where
  /-- A thread calls a function. -/
  | call (function : NativeFunction)
  /-- The `i`-th call takes its next step. -/
  | advance (i : Nat) (found : Bool)
deriving DecidableEq, Repr

def step (s : Native) : Event → Option Native
  | .call function => some { s with calls := s.calls ++ [function.call] }
  | .advance i found =>
    (s.calls[i]?).bind fun call =>
      (callStep i found s.globals call).map fun next =>
        { globals := next.1, calls := s.calls.set i next.2 }

def machine : Machine Native Event := ⟨step⟩

variable {s t : Native} {i : Nat} {found : Bool}

/-- A step of a call changes that call and the globals. -/
theorem advance_cases (h : step s (.advance i found) = some t) :
    ∃ call call', s.calls[i]? = some call ∧ CallTransition i s.globals call t.globals call' ∧
      t.calls[i]? = some call' ∧ ∀ j, j ≠ i → t.calls[j]? = s.calls[j]? := by
  obtain ⟨call, hcall, hnext⟩ := Option.bind_eq_some_iff.mp h
  obtain ⟨⟨g, call'⟩, hstep, rfl⟩ := Option.map_eq_some_iff.mp hnext
  have hlt := (List.getElem?_eq_some_iff.mp hcall).1
  refine ⟨call, call', hcall, callTransition_of_step hstep, ?_, ?_⟩
  · exact List.getElem?_set_self hlt
  · intro j hj
    exact List.getElem?_set_ne (Ne.symm hj)

/-- A new call changes nothing but the list of calls, at its end. -/
theorem call_cases {function : NativeFunction} (h : step s (.call function) = some t) :
    t.globals = s.globals ∧ t.calls = s.calls ++ [function.call] := by
  cases h
  exact ⟨rfl, rfl⟩

end MlcJni

end Kaede
