import Kaede.Text
import Kaede.Infra.FlowOperator

/-!
# `TokenBuffer`

The two flow operators that thin out a stream of tokens. An arrival is a token together with the
value that `System.currentTimeMillis()` has when the token is handled. Times are `Long`s and
subtract as such.
-/

namespace Kaede

open Infra

/-- A token and the clock reading at which it is handled. -/
structure Arrival where
  token : Text
  now : Int64
deriving DecidableEq, Repr

/-- The concatenation of the tokens. -/
def received (arrivals : List Arrival) : Text := arrivals.flatMap (·.token)

@[simp] theorem received_nil : received [] = [] := rfl

@[simp] theorem received_append (a b : List Arrival) :
    received (a ++ b) = received a ++ received b := List.flatMap_append ..

@[simp] theorem received_singleton (arrival : Arrival) : received [arrival] = arrival.token :=
  List.flatMap_singleton ..

/-! ## `smoothBuffer` -/

/-- The local variables of `smoothBuffer`. Between two tokens the buffer is short. -/
structure Smoothing where
  buffer : Text
  lastEmitTime : Int64
  buffer_lt : buffer.length < 20

/-- The body of `collect`: sends the buffer if enough time has passed or if it is large. -/
def Smoothing.onToken (targetDelayMs : Int64) (s : Smoothing) (arrival : Arrival) :
    Smoothing × Option Text :=
  let buffer := s.buffer ++ arrival.token
  if h : targetDelayMs ≤ arrival.now - s.lastEmitTime ∨ 20 ≤ buffer.length then
    ({ buffer := [], lastEmitTime := arrival.now, buffer_lt := Nat.succ_pos 19 }, some buffer)
  else
    ({ s with buffer := buffer, buffer_lt := Nat.lt_of_not_le fun hlarge => h (Or.inr hlarge) },
      none)

/-- `smoothBuffer` on a flow whose collection starts at time `start`. -/
def smoothOperator (targetDelayMs start : Int64) : FlowOperator Smoothing Arrival Text where
  start := { buffer := [], lastEmitTime := start, buffer_lt := Nat.succ_pos 19 }
  onEach := Smoothing.onToken targetDelayMs
  onCompletion s := if s.buffer.isEmpty then none else some s.buffer

/-- What `smoothBuffer` emits. -/
def smoothBuffer (targetDelayMs start : Int64) (arrivals : List Arrival) : List Text :=
  (smoothOperator targetDelayMs start).transform arrivals

/-! ## `debounceTokens` -/

/-- The local variables of `debounceTokens`. -/
structure Debouncing where
  lastText : Text
  lastEmitTime : Int64
deriving DecidableEq, Repr

/-- A text that is sent. -/
structure Sent where
  text : Text
  /-- Ghost: the reading at which it is sent. The last send reads no clock. -/
  time : Option Int64
deriving DecidableEq, Repr

def Debouncing.onToken (delayMs : Int64) (d : Debouncing) (arrival : Arrival) :
    Debouncing × Option Sent :=
  let lastText := d.lastText ++ arrival.token
  if delayMs ≤ arrival.now - d.lastEmitTime then
    ({ lastText := lastText, lastEmitTime := arrival.now }, some ⟨lastText, some arrival.now⟩)
  else ({ d with lastText := lastText }, none)

def debounceOperator (delayMs : Int64) : FlowOperator Debouncing Arrival Sent where
  start := { lastText := [], lastEmitTime := 0 }
  onEach := Debouncing.onToken delayMs
  onCompletion d := if d.lastText.isEmpty then none else some ⟨d.lastText, none⟩

/-- What `debounceTokens` emits. -/
def debounceTokens (delayMs : Int64) (arrivals : List Arrival) : List Sent :=
  (debounceOperator delayMs).transform arrivals

end Kaede
