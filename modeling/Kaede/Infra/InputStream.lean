import Mathlib.Data.List.Basic

/-!
# Input streams

A Java `InputStream` may hand out fewer bytes than it is asked for, and its reads and skips may
fail. What it does at each call is given by its answers. A reader that loops until it has its bytes
does not notice the short answers, and a reader that checks the number of bytes throws instead. A
skip may also go on beyond the end of the file, as that of a `FileInputStream` does, and a reader that
trusts it takes bytes for read that are not there.

* `Refines` — a reader does to every stream what a function does to its bytes, or throws an exception
  that a stream is allowed to cause
* `Completes` — a reader does to every stream what a function does to its bytes and those that were
  skipped beyond the end, whatever they are taken to be
* `Steady.apply` — so the answers of a stream do not change what is read from it in any other way
* `readFully_refines`, `skipFully_completes` — the loops take and drop exactly what they are asked for
-/

namespace Kaede.Infra

/-- What a stream does at one call. -/
inductive Answer where
  /-- It gives what it is asked for, or all it has left. -/
  | full
  /-- It gives what it is asked for, or all it has left. A `skip` goes on beyond the end. -/
  | past
  /-- It gives no more than this. A `skip` can even return a negative number. -/
  | upTo (n : Int)
  | fails
deriving DecidableEq, Repr

structure InputStream where
  /-- The bytes that are left. -/
  bytes : List UInt8
  /-- What it does at the calls to come. -/
  answers : Nat → Answer

namespace InputStream

/-- A stream that always answers in full. -/
def plain (bytes : List UInt8) : InputStream := { bytes, answers := fun _ => .full }

/-- After a call that took `n` bytes. -/
def advance (s : InputStream) (n : Nat) : InputStream :=
  { bytes := s.bytes.drop n, answers := fun i => s.answers (i + 1) }

@[simp] theorem bytes_plain (bytes : List UInt8) : (plain bytes).bytes = bytes := rfl

@[simp] theorem bytes_advance (s : InputStream) (n : Nat) :
    (s.advance n).bytes = s.bytes.drop n := rfl

@[simp] theorem answers_plain (bytes : List UInt8) (i : Nat) :
    (plain bytes).answers i = .full := rfl

@[simp] theorem advance_plain (bytes : List UInt8) (n : Nat) :
    (plain bytes).advance n = plain (bytes.drop n) := rfl

end InputStream

open InputStream

/-! ## Readers -/

/-- A computation that reads from a stream, or throws. -/
def Reader (ε α : Type) : Type := InputStream → Except ε (α × InputStream)

namespace Reader

variable {ε α β : Type}

instance : Monad (Reader ε) where
  pure a := fun s => .ok (a, s)
  bind x f := fun s =>
    match x s with
    | .ok (a, s') => f a s'
    | .error e => .error e

protected def throw (e : ε) : Reader ε α := fun _ => .error e

@[simp] theorem pure_apply (a : α) (s : InputStream) : (pure a : Reader ε α) s = .ok (a, s) := rfl

@[simp] theorem throw_apply (e : ε) (s : InputStream) :
    (Reader.throw e : Reader ε α) s = .error e := rfl

theorem bind_of_ok {x : Reader ε α} {f : α → Reader ε β} {s s' : InputStream} {a : α}
    (h : x s = .ok (a, s')) : (x >>= f) s = f a s' := by
  show (match x s with
    | .ok (a, s') => f a s'
    | .error e => .error e) = _
  rw [h]

theorem bind_of_error {x : Reader ε α} {f : α → Reader ε β} {s : InputStream} {e : ε}
    (h : x s = .error e) : (x >>= f) s = .error e := by
  show (match x s with
    | .ok (a, s') => f a s'
    | .error e => .error e) = _
  rw [h]

theorem bind_eq_ok {x : Reader ε α} {f : α → Reader ε β} {s t : InputStream} {b : β} :
    (x >>= f) s = .ok (b, t) ↔ ∃ a s', x s = .ok (a, s') ∧ f a s' = .ok (b, t) := by
  rcases hx : x s with e | ⟨a, s'⟩
  · rw [bind_of_error hx]
    constructor
    · intro h
      cases h
    · rintro ⟨_, _, h, -⟩
      cases h
  · rw [bind_of_ok hx]
    constructor
    · exact fun h => ⟨a, s', rfl, h⟩
    · rintro ⟨_, _, h, hf⟩
      cases h
      exact hf

/-- `repeat(n) { list += x }`. -/
def times (x : Reader ε α) : Nat → Reader ε (List α)
  | 0 => pure []
  | n + 1 => do
    let a ← x
    let as ← times x n
    pure (a :: as)

/-! ## The calls of a stream -/

/-- How many bytes a `read` gets that asks for `len > 0` bytes: at least one. -/
def amount (len : Nat) : Answer → Nat
  | .full => len
  | .past => len
  | .upTo n => min len (max 1 n.toNat)
  | .fails => 0

/-- `read(buf, off, len)`. `none` is `-1`, the end of the stream. -/
def read (broken : ε) (len : Nat) : Reader ε (Option (List UInt8)) := fun s =>
  if s.answers 0 = .fails then .error broken
  else if s.bytes = [] then .ok (none, s.advance 0)
  else
    let n := amount len (s.answers 0)
    .ok (some (s.bytes.take n), s.advance n)

/-- `read()`. `none` is `-1`, the end of the stream. -/
def readOne (broken : ε) : Reader ε (Option UInt8) := fun s =>
  if s.answers 0 = .fails then .error broken else .ok (s.bytes.head?, s.advance 1)

/-- `skip(n)`. It can return fewer than `n`, also `0`, and more than there are bytes left. -/
def skip (broken : ε) (n : Nat) : Reader ε Int := fun s =>
  match s.answers 0 with
  | .fails => .error broken
  | .full => .ok ((min n s.bytes.length : Nat), s.advance n)
  | .past => .ok (n, s.advance n)
  | .upTo m =>
    if m < 0 then .ok (m, s.advance 0)
    else
      let k := min (min n m.toNat) s.bytes.length
      .ok (k, s.advance k)

/-! ## What is built from them -/

/-- `read()`, and `throw …` at the end of the stream. -/
def readByte (broken eof : ε) : Reader ε UInt8 := do
  match ← readOne broken with
  | none => Reader.throw eof
  | some b => pure b

/-- `if (read(buf) != n) throw …`, with a buffer of `n > 0` bytes. -/
def readExactly (broken eof : ε) (n : Nat) : Reader ε (List UInt8) := do
  match ← read broken n with
  | none => Reader.throw eof
  | some bytes => if bytes.length = n then pure bytes else Reader.throw eof

/-- Reads go on until `len` bytes are there. Each brings at least one, so `fuel = len` is enough. -/
def readFullyLoop (broken : ε) (eof : Nat → ε) (len : Nat) : Nat → Nat → Reader ε (List UInt8)
  | 0, _ => pure []
  | fuel + 1, off =>
    if off < len then do
      match ← read broken (len - off) with
      | none => Reader.throw (eof off)
      | some chunk =>
        let more ← readFullyLoop broken eof len fuel (off + chunk.length)
        pure (chunk ++ more)
    else pure []

/-- `eof` is told how many bytes there were. -/
def readFully (broken : ε) (eof : Nat → ε) (len : Nat) : Reader ε (List UInt8) :=
  readFullyLoop broken eof len len 0

/-- Where nothing is skipped, up to 8192 bytes are read and dropped. -/
def skipFullyLoop (broken eof negative : ε) : Nat → Nat → Reader ε Unit
  | 0, _ => pure ()
  | fuel + 1, remaining =>
    if 0 < remaining then do
      let skipped ← skip broken remaining
      if 0 < skipped then skipFullyLoop broken eof negative fuel (remaining - skipped.toNat)
      else if skipped = 0 then
        match ← read broken (min remaining 8192) with
        | none => Reader.throw eof
        | some chunk => skipFullyLoop broken eof negative fuel (remaining - chunk.length)
      else Reader.throw negative
    else pure ()

def skipFully (broken eof negative : ε) (n : Nat) : Reader ε Unit :=
  skipFullyLoop broken eof negative n n

/-! ## Refinement of a function on the bytes -/

/-- What `p` does to the bytes, `x` does to the stream. -/
structure Follows (x : Reader ε α) (p : List UInt8 → Except ε (α × List UInt8))
    (s : InputStream) (bytes : List UInt8) : Prop where
  error : ∀ e, p bytes = .error e → x s = .error e
  ok : ∀ a rest, p bytes = .ok (a, rest) →
    ∃ k, x s = .ok (a, { bytes := rest, answers := fun i => s.answers (i + k) })

section Follows

variable {x : Reader ε α} {p : List UInt8 → Except ε (α × List UInt8)} {s : InputStream}
  {bytes : List UInt8}

theorem Follows.of_error {e : ε} (hp : p bytes = .error e) (hx : x s = .error e) :
    Follows x p s bytes := by
  refine ⟨fun e' h => ?_, fun a rest h => ?_⟩
  · rw [hp] at h
    cases h
    exact hx
  · rw [hp] at h
    cases h

theorem Follows.of_ok {a : α} {rest : List UInt8} {k : Nat} (hp : p bytes = .ok (a, rest))
    (hx : x s = .ok (a, { bytes := rest, answers := fun i => s.answers (i + k) })) :
    Follows x p s bytes := by
  refine ⟨fun e h => ?_, fun b rest' h => ?_⟩
  · rw [hp] at h
    cases h
  · rw [hp] at h
    cases h
    exact ⟨k, hx⟩

/-- What `x` does, seen from the stream. -/
theorem Follows.map_bytes (h : Follows x p s bytes) :
    (x s).map (fun r => (r.1, r.2.bytes)) = p bytes := by
  rcases hp : p bytes with e | ⟨a, rest⟩
  · rw [h.error e hp]
    rfl
  · obtain ⟨k, hk⟩ := h.ok a rest hp
    rw [hk]
    rfl

theorem Follows.bind {f : α → Reader ε β} {q : α → List UInt8 → Except ε (β × List UInt8)}
    {a : α} {rest : List UInt8} {k : Nat} {more : List UInt8}
    (hx : x s = .ok (a, { bytes := rest, answers := fun i => s.answers (i + k) }))
    (hp : p bytes = .ok (a, more))
    (hf : Follows (f a) (q a) { bytes := rest, answers := fun i => s.answers (i + k) } more) :
    Follows (x >>= f) (fun bytes => (p bytes).bind fun r => q r.1 r.2) s bytes := by
  have hrun : ((p bytes).bind fun r => q r.1 r.2) = q a more := by
    rw [hp]
    rfl
  rcases hb : q a more with e | ⟨b, left⟩
  · exact Follows.of_error (hrun.trans hb) (by rw [bind_of_ok hx, hf.error e hb])
  · obtain ⟨j, hj⟩ := hf.ok b left hb
    refine Follows.of_ok (k := j + k) (hrun.trans hb) ?_
    rw [bind_of_ok hx, hj]
    simp only [Nat.add_assoc]

end Follows

/-- Only a stream that does not always answer in full can make a difference, and then `x` throws
an exception of `io`. -/
def Refines (io : ε → Prop) (x : Reader ε α) (p : List UInt8 → Except ε (α × List UInt8)) : Prop :=
  ∀ s : InputStream,
    (¬ (∀ i, s.answers i = .full) ∧ ∃ e, io e ∧ x s = .error e) ∨ Follows x p s s.bytes

variable {io : ε → Prop}

theorem Refines.congr {x : Reader ε α} {p q : List UInt8 → Except ε (α × List UInt8)}
    (h : Refines io x p) (hpq : ∀ bytes, p bytes = q bytes) : Refines io x q := by
  rw [← funext hpq]
  exact h

theorem refines_bind {x : Reader ε α} {f : α → Reader ε β}
    {p : List UInt8 → Except ε (α × List UInt8)}
    {q : α → List UInt8 → Except ε (β × List UInt8)} (hx : Refines io x p)
    (hf : ∀ a, Refines io (f a) (q a)) :
    Refines io (x >>= f) fun bytes => (p bytes).bind fun r => q r.1 r.2 := by
  intro s
  rcases hx s with ⟨hne, e, he, hx⟩ | hfollows
  · exact Or.inl ⟨hne, e, he, bind_of_error hx⟩
  rcases hbytes : p s.bytes with e | ⟨a, rest⟩
  · right
    apply Follows.of_error (e := e)
    · rw [hbytes]
      rfl
    · exact bind_of_error (hfollows.error e hbytes)
  obtain ⟨k, hk⟩ := hfollows.ok a rest hbytes
  rcases hf a { bytes := rest, answers := fun i => s.answers (i + k) } with
    ⟨hne, e, he, hx⟩ | hrest
  · refine Or.inl ⟨fun hfull => hne fun i => hfull (i + k), e, he, ?_⟩
    rw [bind_of_ok hk, hx]
  · exact Or.inr (Follows.bind hk hbytes hrest)

/-! ## Bytes beyond the end -/

/-- What `p` makes of the bytes that it uses does not depend on those that follow. -/
def Local (p : List UInt8 → Except ε (α × List UInt8)) : Prop :=
  ∀ bytes a rest, p bytes = .ok (a, rest) → ∀ more, p (bytes ++ more) = .ok (a, rest ++ more)

/-- What `p` does to the bytes of the stream and to those that are skipped beyond its end, `x` does
to the stream, whatever bytes these are taken to be. -/
def CompletesAt (io : ε → Prop) (x : Reader ε α) (p : List UInt8 → Except ε (α × List UInt8))
    (s : InputStream) : Prop :=
  (¬ (∀ i, s.answers i = .full) ∧ ∃ e, io e ∧ x s = .error e) ∨
    ∃ n, (0 < n → ∃ i, s.answers i = .past) ∧
      ∀ missing : List UInt8, missing.length = n → Follows x p s (s.bytes ++ missing)

def Completes (io : ε → Prop) (x : Reader ε α) (p : List UInt8 → Except ε (α × List UInt8)) :
    Prop :=
  Local p ∧ ∀ s, CompletesAt io x p s

def Steady (io : ε → Prop) (x : Reader ε α) : Prop := ∃ p, Completes io x p

/-- Where nothing is skipped beyond the end. -/
theorem Follows.completesAt {x : Reader ε α} {p : List UInt8 → Except ε (α × List UInt8)}
    {s : InputStream} (h : Follows x p s s.bytes) : CompletesAt io x p s := by
  refine Or.inr ⟨0, fun hlt => absurd hlt (Nat.lt_irrefl 0), fun missing hmissing => ?_⟩
  rw [List.length_eq_zero_iff.mp hmissing, List.append_nil]
  exact h

theorem Refines.completes {x : Reader ε α} {p : List UInt8 → Except ε (α × List UInt8)}
    (h : Refines io x p) (hp : Local p) : Completes io x p := by
  refine ⟨hp, fun s => ?_⟩
  rcases h s with herror | hfollows
  · exact Or.inl herror
  · exact hfollows.completesAt

theorem Completes.apply_plain {x : Reader ε α} {p : List UInt8 → Except ε (α × List UInt8)}
    (h : Completes io x p) (bytes : List UInt8) :
    x (plain bytes) = (p bytes).map fun r => (r.1, plain r.2) := by
  rcases h.2 (plain bytes) with ⟨hne, -⟩ | ⟨n, hn, hfollows⟩
  · exact absurd (answers_plain bytes) hne
  have hzero : n = 0 := by
    rcases Nat.eq_zero_or_pos n with hzero | hpos
    · exact hzero
    · obtain ⟨i, hi⟩ := hn hpos
      cases hi
  have hplain := hfollows [] hzero.symm
  rw [List.append_nil, bytes_plain] at hplain
  rcases hp : p bytes with e | ⟨a, rest⟩
  · exact hplain.error e hp
  · obtain ⟨k, hk⟩ := hplain.ok a rest hp
    exact hk

/-- **The answers of a stream do not change what is read.** The reader throws an exception of `io`,
or it does what it does with the same bytes, and with whatever bytes for those that were skipped
beyond the end, on a stream that always answers in full. -/
theorem Steady.apply {x : Reader ε α} (h : Steady io x) (s : InputStream) :
    (¬ (∀ i, s.answers i = .full) ∧ ∃ e, io e ∧ x s = .error e) ∨
      ∃ n, (0 < n → ∃ i, s.answers i = .past) ∧ ∀ missing : List UInt8, missing.length = n →
        (x s).map (fun r => (r.1, r.2.bytes)) =
          (x (plain (s.bytes ++ missing))).map fun r => (r.1, r.2.bytes) := by
  obtain ⟨p, hp⟩ := h
  refine (hp.2 s).imp_right fun ⟨n, hn, hfollows⟩ => ⟨n, hn, fun missing hmissing => ?_⟩
  rw [(hfollows missing hmissing).map_bytes, hp.apply_plain]
  cases p (s.bytes ++ missing) <;> rfl

theorem steady_pure (a : α) : Steady io (pure a : Reader ε α) := by
  have hpure : Refines io (pure a : Reader ε α) fun bytes => .ok (a, bytes) :=
    fun s => Or.inr (Follows.of_ok (k := 0) rfl rfl)
  refine ⟨_, hpure.completes fun bytes b rest h more => ?_⟩
  cases h
  rfl

theorem steady_throw (e : ε) : Steady io (Reader.throw e : Reader ε α) := by
  have hthrow : Refines io (Reader.throw e : Reader ε α) fun _ => .error e :=
    fun s => Or.inr (Follows.of_error rfl rfl)
  refine ⟨_, hthrow.completes fun bytes b rest h more => ?_⟩
  cases h

theorem local_bind {p : List UInt8 → Except ε (α × List UInt8)}
    {q : α → List UInt8 → Except ε (β × List UInt8)} (hp : Local p) (hq : ∀ a, Local (q a)) :
    Local fun bytes => (p bytes).bind fun r => q r.1 r.2 := by
  intro bytes b rest h more
  rcases hbytes : p bytes with e | ⟨a, left⟩
  · simp only [hbytes] at h
    cases h
  · simp only [hbytes] at h
    simp only [hp bytes a left hbytes more]
    exact hq a left b rest h more

/-- The bytes that are missing to `x` come before those that are missing to `f`. -/
theorem steady_bind {x : Reader ε α} {f : α → Reader ε β} (hx : Steady io x)
    (hf : ∀ a, Steady io (f a)) : Steady io (x >>= f) := by
  obtain ⟨p, hlocal, hp⟩ := hx
  choose q hq using hf
  refine ⟨_, local_bind hlocal fun a => (hq a).1, fun s => ?_⟩
  rcases hp s with ⟨hne, e, he, hx⟩ | ⟨n, hn, hfollows⟩
  · exact Or.inl ⟨hne, e, he, bind_of_error hx⟩
  rcases hrun : x s with e | ⟨a, t⟩
  · refine Or.inr ⟨n, hn, fun missing hmissing => ?_⟩
    have hbytes := (hfollows missing hmissing).map_bytes
    rw [hrun] at hbytes
    refine Follows.of_error (e := e) ?_ (bind_of_error hrun)
    rw [← hbytes]
    rfl
  -- where `x` ends does not depend on the bytes that are missing to it
  have hends : ∀ missing : List UInt8, missing.length = n →
      p (s.bytes ++ missing) = .ok (a, t.bytes) := by
    intro missing hmissing
    rw [← (hfollows missing hmissing).map_bytes, hrun]
    rfl
  obtain ⟨k, hk⟩ := (hfollows (List.replicate n 0) List.length_replicate).ok a t.bytes
    (hends _ List.length_replicate)
  rcases (hq a).2 { bytes := t.bytes, answers := fun i => s.answers (i + k) } with
    ⟨hne, e, he, hfx⟩ | ⟨m, hm, hrest⟩
  · refine Or.inl ⟨fun hfull => hne fun i => hfull (i + k), e, he, ?_⟩
    rw [bind_of_ok hk, hfx]
  · refine Or.inr ⟨n + m, fun hpos => ?_, fun missing hmissing => ?_⟩
    · rcases Nat.eq_zero_or_pos n with hzero | hpos'
      · obtain ⟨i, hi⟩ := hm (by omega)
        exact ⟨i + k, hi⟩
      · exact hn hpos'
    · have htake : (missing.take n).length = n := List.length_take_of_le (by omega)
      have hdrop : (missing.drop n).length = m := by
        rw [List.length_drop]
        omega
      have hall := hlocal _ _ _ (hends _ htake) (missing.drop n)
      rw [List.append_assoc, List.take_append_drop] at hall
      exact Follows.bind hk hall (hrest _ hdrop)

theorem steady_ite {c : Prop} [Decidable c] {x y : Reader ε α} (hx : Steady io x)
    (hy : Steady io y) : Steady io (if c then x else y) := by
  split
  · exact hx
  · exact hy

theorem steady_times {x : Reader ε α} (hx : Steady io x) (n : Nat) : Steady io (times x n) := by
  induction n with
  | zero => exact steady_pure []
  | succ n ih => exact steady_bind hx fun a => steady_bind ih fun as => steady_pure (a :: as)

/-! ## What the calls refine -/

section Calls

variable {broken eof negative : ε}

/-- Taking `n` bytes, with an exception that is told how many there were. -/
def takeBytes (eof : Nat → ε) (n : Nat) (bytes : List UInt8) :
    Except ε (List UInt8 × List UInt8) :=
  if n ≤ bytes.length then .ok (bytes.take n, bytes.drop n) else .error (eof bytes.length)

theorem takeBytes_of_le {eof : Nat → ε} {n : Nat} {bytes : List UInt8} (h : n ≤ bytes.length) :
    takeBytes eof n bytes = .ok (bytes.take n, bytes.drop n) := if_pos h

theorem takeBytes_of_lt {eof : Nat → ε} {n : Nat} {bytes : List UInt8} (h : bytes.length < n) :
    takeBytes eof n bytes = .error (eof bytes.length) := if_neg (by omega)

/-- Bytes may be taken in two steps. -/
theorem takeBytes_take_append (eof : Nat → ε) {n m : Nat} (h : n ≤ m) (bytes : List UInt8) :
    takeBytes eof m bytes =
      (takeBytes (fun k => eof ((bytes.take n).length + k)) (m - (bytes.take n).length)
        (bytes.drop n)).map fun r => (bytes.take n ++ r.1, r.2) := by
  have hlength : (bytes.take n).length + (bytes.drop n).length = bytes.length := by
    rw [← List.length_append, List.take_append_drop]
  have htake := List.length_take (i := n) (l := bytes)
  by_cases hm : m ≤ bytes.length
  · have hn : (bytes.take n).length = n := by omega
    rw [takeBytes_of_le hm, takeBytes_of_le (by omega), hn]
    show _ = Except.ok (bytes.take n ++ (bytes.drop n).take (m - n), (bytes.drop n).drop (m - n))
    rw [← List.take_add, List.drop_drop, Nat.add_sub_cancel' h]
  · rw [takeBytes_of_lt (by omega), takeBytes_of_lt (by omega), hlength]
    rfl

theorem read_cases (broken : ε) (s : InputStream) {len : Nat} (hlen : 0 < len) :
    (s.answers 0 = .fails ∧ read broken len s = .error broken) ∨
    (s.bytes = [] ∧ read broken len s = .ok (none, s.advance 0)) ∨
    ∃ n, 0 < n ∧ n ≤ len ∧ s.bytes ≠ [] ∧ (s.answers 0 = .full → n = len) ∧
      read broken len s = .ok (some (s.bytes.take n), s.advance n) := by
  by_cases hfails : s.answers 0 = .fails
  · exact Or.inl ⟨hfails, if_pos hfails⟩
  by_cases hnil : s.bytes = []
  · exact Or.inr (Or.inl ⟨hnil, by rw [read, if_neg hfails, if_pos hnil]⟩)
  refine Or.inr (Or.inr ⟨amount len (s.answers 0), ?_, ?_, hnil, ?_, ?_⟩)
  · cases h : s.answers 0 with
    | full => exact hlen
    | past => exact hlen
    | upTo n => rw [amount]; omega
    | fails => exact absurd h hfails
  · cases h : s.answers 0 with
    | full => exact Nat.le_refl len
    | past => exact Nat.le_refl len
    | upTo n => exact Nat.min_le_left ..
    | fails => exact absurd h hfails
  · intro h
    rw [h]
    rfl
  · rw [read, if_neg hfails, if_neg hnil]

theorem skip_cases (broken : ε) (s : InputStream) (n : Nat) :
    (s.answers 0 = .fails ∧ skip broken n s = .error broken) ∨
    (s.answers 0 ≠ .full ∧ ∃ m < 0, skip broken n s = .ok (m, s.advance 0)) ∨
    (s.answers 0 = .past ∧ skip broken n s = .ok ((n : Int), s.advance n)) ∨
    ∃ k : Nat, k ≤ n ∧ k ≤ s.bytes.length ∧ skip broken n s = .ok ((k : Int), s.advance k) := by
  cases h : s.answers 0 with
  | fails => exact Or.inl ⟨rfl, by rw [skip, h]⟩
  | past => exact Or.inr (Or.inr (Or.inl ⟨rfl, by rw [skip, h]⟩))
  | full =>
    refine Or.inr (Or.inr (Or.inr ⟨min n s.bytes.length, Nat.min_le_left .., Nat.min_le_right .., ?_⟩))
    have hdrop : s.bytes.drop n = s.bytes.drop (min n s.bytes.length) := by
      by_cases hn : n ≤ s.bytes.length
      · rw [Nat.min_eq_left hn]
      · rw [List.drop_eq_nil_of_le (by omega), List.drop_eq_nil_of_le (by omega)]
    rw [skip, h]
    simp only [advance, hdrop]
  | upTo m =>
    by_cases hneg : m < 0
    · exact Or.inr (Or.inl ⟨by simp, m, hneg, by simp only [skip, h, if_pos hneg]⟩)
    · refine Or.inr (Or.inr (Or.inr ⟨min (min n m.toNat) s.bytes.length, by omega, by omega, ?_⟩))
      simp only [skip, h, if_neg hneg]

theorem not_full_of_fails {s : InputStream} (h : s.answers 0 = .fails) :
    ¬ ∀ i, s.answers i = .full := by
  intro hfull
  rw [hfull 0] at h
  cases h

theorem readOne_refines (hbroken : io broken) :
    Refines io (readOne broken) fun bytes => .ok (bytes.head?, bytes.drop 1) := by
  intro s
  by_cases hfails : s.answers 0 = .fails
  · exact Or.inl ⟨not_full_of_fails hfails, broken, hbroken, if_pos hfails⟩
  · exact Or.inr (Follows.of_ok (k := 1) rfl (if_neg hfails))

/-- Taking one byte. -/
def takeByte (eof : ε) : List UInt8 → Except ε (UInt8 × List UInt8)
  | [] => .error eof
  | b :: rest => .ok (b, rest)

theorem local_takeByte : Local (takeByte eof) := by
  intro bytes b rest h more
  cases bytes with
  | nil => cases h
  | cons c bytes =>
    cases h
    rfl

theorem readByte_refines (hbroken : io broken) :
    Refines io (readByte broken eof) (takeByte eof) := by
  intro s
  refine (readOne_refines hbroken s).imp ?_ fun hone => ?_
  · rintro ⟨hne, e, he, hread⟩
    exact ⟨hne, e, he, bind_of_error hread⟩
  · obtain ⟨k, hread⟩ := hone.ok _ _ rfl
    have hrun := bind_of_ok (f := fun
      | none => Reader.throw eof
      | some b => pure b) hread
    cases hbytes : s.bytes with
    | nil =>
      rw [hbytes] at hrun
      exact Follows.of_error rfl hrun
    | cons b rest =>
      rw [hbytes] at hrun
      exact Follows.of_ok (k := k) rfl hrun

theorem steady_readByte (hbroken : io broken) : Steady io (readByte broken eof) :=
  ⟨_, (readByte_refines hbroken).completes local_takeByte⟩

theorem local_takeBytes (eof : Nat → ε) (n : Nat) : Local (takeBytes eof n) := by
  intro bytes bs rest h more
  by_cases hle : n ≤ bytes.length
  · rw [takeBytes_of_le hle] at h
    cases h
    rw [takeBytes_of_le (by rw [List.length_append]; omega), List.take_append_of_le_length hle,
      List.drop_append_of_le_length hle]
  · rw [takeBytes_of_lt (by omega)] at h
    cases h

theorem readExactly_refines (hbroken : io broken) (heof : io eof) {n : Nat} (hn : 0 < n) :
    Refines io (readExactly broken eof n) (takeBytes (fun _ => eof) n) := by
  intro s
  rcases read_cases broken s hn with
    ⟨hfails, hread⟩ | ⟨hnil, hread⟩ | ⟨k, hpos, hle, -, hfull, hread⟩
  · exact Or.inl ⟨not_full_of_fails hfails, broken, hbroken, bind_of_error hread⟩
  · right
    apply Follows.of_error
    · exact takeBytes_of_lt (by rw [hnil]; exact hn)
    · exact bind_of_ok hread
  have hrun : readExactly broken eof n s =
      if (s.bytes.take k).length = n then .ok (s.bytes.take k, s.advance k) else .error eof := by
    refine (bind_of_ok hread).trans ?_
    split
    · next heq => simp only [if_pos heq, pure_apply]
    · next hne => simp only [if_neg hne, throw_apply]
  have hlength := List.length_take (i := k) (l := s.bytes)
  by_cases hk : (s.bytes.take k).length = n
  · have hkn : k = n := by omega
    subst hkn
    rw [if_pos hk] at hrun
    exact Or.inr (Follows.of_ok (takeBytes_of_le (by omega)) hrun)
  · rw [if_neg hk] at hrun
    by_cases hshort : s.bytes.length < n
    · exact Or.inr (Follows.of_error (takeBytes_of_lt hshort) hrun)
    · refine Or.inl ⟨fun hall => ?_, eof, heof, hrun⟩
      have hkn := hfull (hall 0)
      omega

/-- The loop leaves no byte out and takes none twice. -/
theorem readFullyLoop_refines (hbroken : io broken) (eof : Nat → ε) (len : Nat) :
    ∀ fuel off, len - off ≤ fuel →
      Refines io (readFullyLoop broken eof len fuel off)
        (takeBytes (fun k => eof (off + k)) (len - off)) := by
  intro fuel
  induction fuel with
  | zero =>
    intro off hoff s
    rw [Nat.le_zero.mp hoff]
    exact Or.inr (Follows.of_ok (k := 0) (takeBytes_of_le (Nat.zero_le _)) rfl)
  | succ fuel ih =>
    intro off hoff s
    by_cases hlt : off < len
    · have hloop : ∀ s, readFullyLoop broken eof len (fuel + 1) off s =
          (read broken (len - off) >>= fun
            | none => Reader.throw (eof off)
            | some chunk => do
              let more ← readFullyLoop broken eof len fuel (off + chunk.length)
              pure (chunk ++ more)) s := by
        intro s
        rw [readFullyLoop, if_pos hlt]
      rcases read_cases broken s (Nat.sub_pos_of_lt hlt) with
        ⟨hfails, hread⟩ | ⟨hnil, hread⟩ | ⟨n, hpos, hle, hne, -, hread⟩
      · refine Or.inl ⟨not_full_of_fails hfails, broken, hbroken, ?_⟩
        rw [hloop, bind_of_error hread]
      · right
        apply Follows.of_error (e := eof off)
        · rw [takeBytes_of_lt (by rw [hnil]; exact Nat.sub_pos_of_lt hlt), hnil]
          rfl
        · rw [hloop, bind_of_ok hread]
          rfl
      · have hchunk : 0 < (s.bytes.take n).length := by
          rw [List.length_take]
          have := List.length_pos_of_ne_nil hne
          omega
        have hmore : readFullyLoop broken eof len (fuel + 1) off s =
            (readFullyLoop broken eof len fuel (off + (s.bytes.take n).length) >>= fun more =>
              pure (s.bytes.take n ++ more)) (s.advance n) :=
          (hloop s).trans (bind_of_ok hread)
        have hsplit := takeBytes_take_append (fun k => eof (off + k)) hle s.bytes
        simp only [← Nat.add_assoc] at hsplit
        rw [Nat.sub_sub] at hsplit
        rcases ih (off + (s.bytes.take n).length) (by omega) (s.advance n) with
          ⟨hnf, e, he, hx⟩ | hrest
        · refine Or.inl ⟨fun hfull => hnf fun i => hfull (i + 1), e, he, ?_⟩
          rw [hmore, bind_of_error hx]
        · right
          rcases htake : takeBytes (fun k => eof (off + (s.bytes.take n).length + k))
              (len - (off + (s.bytes.take n).length)) (s.bytes.drop n) with e | ⟨more, rest⟩
          · rw [htake] at hsplit
            apply Follows.of_error hsplit
            rw [hmore, bind_of_error (hrest.error e htake)]
          · rw [htake] at hsplit
            obtain ⟨k, hk⟩ := hrest.ok more rest htake
            apply Follows.of_ok (k := k + 1) hsplit
            rw [hmore, bind_of_ok hk]
            simp only [advance, Nat.add_assoc, pure_apply]
    · have hloop : readFullyLoop broken eof len (fuel + 1) off = pure [] := by
        rw [readFullyLoop, if_neg hlt]
      rw [hloop, Nat.sub_eq_zero_of_le (Nat.le_of_not_lt hlt)]
      exact Or.inr (Follows.of_ok (k := 0) (takeBytes_of_le (Nat.zero_le _)) rfl)

theorem readFully_refines (hbroken : io broken) (eof : Nat → ε) (len : Nat) :
    Refines io (readFully broken eof len) (takeBytes eof len) := by
  have h := readFullyLoop_refines hbroken eof len len 0 (Nat.sub_le len 0)
  simp only [Nat.zero_add, Nat.sub_zero] at h
  exact h

/-- Dropping `n` bytes. -/
def dropBytes (eof : ε) (n : Nat) (bytes : List UInt8) : Except ε (Unit × List UInt8) :=
  if n ≤ bytes.length then .ok ((), bytes.drop n) else .error eof

/-- Bytes may be dropped in two steps. -/
theorem dropBytes_drop (eof : ε) {n m k : Nat} {bytes : List UInt8} (hk : k ≤ bytes.length)
    (hm : k + m = n) : dropBytes eof m (bytes.drop k) = dropBytes eof n bytes := by
  have hiff : m ≤ (bytes.drop k).length ↔ n ≤ bytes.length := by
    rw [List.length_drop]
    omega
  rw [dropBytes, dropBytes, List.drop_drop, hm]
  simp only [hiff]

theorem local_dropBytes (eof : ε) (n : Nat) : Local (dropBytes eof n) := by
  intro bytes a rest h more
  rw [dropBytes] at h
  split at h
  · next hle =>
    cases h
    rw [dropBytes, if_pos (by rw [List.length_append]; omega), List.drop_append_of_le_length hle]
  · cases h

/-- Where `x` drops `k` bytes and goes on as `y`. -/
theorem completes_dropBytes_of_step {x y : Reader ε Unit} {remaining k : Nat} (calls : Nat)
    {s : InputStream} (hkr : k ≤ remaining) (hks : k ≤ s.bytes.length)
    (hy : Completes io y (dropBytes eof (remaining - k)))
    (hrun : x s = y { bytes := s.bytes.drop k, answers := fun i => s.answers (i + calls) }) :
    CompletesAt io x (dropBytes eof remaining) s := by
  rcases hy.2 { bytes := s.bytes.drop k, answers := fun i => s.answers (i + calls) } with
    ⟨hnf, e, he, hx⟩ | ⟨n, hn, hrest⟩
  · exact Or.inl ⟨fun hfull => hnf fun i => hfull (i + calls), e, he, hrun.trans hx⟩
  refine Or.inr ⟨n, fun hpos => ?_, fun missing hmissing => ?_⟩
  · obtain ⟨i, hi⟩ := hn hpos
    exact ⟨i + calls, hi⟩
  have hdrop := dropBytes_drop eof (show k ≤ (s.bytes ++ missing).length by
    rw [List.length_append]
    omega) (Nat.add_sub_cancel' hkr)
  rw [List.drop_append_of_le_length hks] at hdrop
  rcases hp : dropBytes eof (remaining - k) (s.bytes.drop k ++ missing) with e | ⟨⟨⟩, rest⟩
  · exact Follows.of_error (hdrop ▸ hp) (hrun.trans ((hrest missing hmissing).error e hp))
  · obtain ⟨j, hj⟩ := (hrest missing hmissing).ok () rest hp
    apply Follows.of_ok (k := j + calls) (hdrop ▸ hp)
    rw [hrun, hj]
    simp only [Nat.add_assoc]

/-- Where a skip goes beyond the end, nothing is left, whatever the bytes there are. -/
theorem drop_append_missing {n : Nat} {bytes missing : List UInt8}
    (h : missing.length = n - bytes.length) : (bytes ++ missing).drop n = bytes.drop n := by
  have hnil : missing.drop (n - bytes.length) = [] := List.drop_eq_nil_of_le (by omega)
  rw [List.drop_append, hnil, List.append_nil]

/-- What is read and dropped takes the place of a skip. -/
theorem readAndDrop_completes (hbroken : io broken) {fuel remaining : Nat} (hpos : 0 < remaining)
    (hle : remaining ≤ fuel + 1)
    (hloop : ∀ left ≤ fuel, Completes io (skipFullyLoop broken eof negative fuel left)
      (dropBytes eof left)) :
    Completes io
      (read broken (min remaining 8192) >>= fun
        | none => Reader.throw eof
        | some chunk => skipFullyLoop broken eof negative fuel (remaining - chunk.length))
      (dropBytes eof remaining) := by
  refine ⟨local_dropBytes eof remaining, fun s => ?_⟩
  rcases read_cases broken s (show 0 < min remaining 8192 by omega) with
    ⟨hfails, hread⟩ | ⟨hnil, hread⟩ | ⟨n, hn, hle', hne, -, hread⟩
  · exact Or.inl ⟨not_full_of_fails hfails, broken, hbroken, bind_of_error hread⟩
  · apply Follows.completesAt
    refine Follows.of_error (e := eof) ?_ (bind_of_ok hread)
    rw [dropBytes, hnil, if_neg]
    rw [List.length_nil]
    exact Nat.not_le.mpr hpos
  · have hlen : (s.bytes.take n).length = min n s.bytes.length := List.length_take
    have hspos := List.length_pos_of_ne_nil hne
    have hdrop : s.bytes.drop n = s.bytes.drop (s.bytes.take n).length := by
      by_cases hns : n ≤ s.bytes.length
      · rw [hlen, Nat.min_eq_left hns]
      · rw [List.drop_eq_nil_of_le (by omega), List.drop_eq_nil_of_le (by omega)]
    apply completes_dropBytes_of_step (k := (s.bytes.take n).length) 1 (by omega) (by omega)
      (hloop _ (by omega))
    rw [bind_of_ok hread, ← hdrop]
    rfl

theorem skipFullyLoop_completes (hbroken : io broken) (hnegative : io negative) :
    ∀ fuel remaining, remaining ≤ fuel →
      Completes io (skipFullyLoop broken eof negative fuel remaining)
        (dropBytes eof remaining) := by
  intro fuel
  induction fuel with
  | zero =>
    intro remaining hle
    rw [Nat.le_zero.mp hle]
    refine Refines.completes (fun s => ?_) (local_dropBytes eof 0)
    exact Or.inr (Follows.of_ok (k := 0) (if_pos (Nat.zero_le _)) rfl)
  | succ fuel ih =>
    intro remaining hle
    refine ⟨local_dropBytes eof remaining, fun s => ?_⟩
    by_cases hpos : 0 < remaining
    · have hloop : skipFullyLoop broken eof negative (fuel + 1) remaining s =
          (skip broken remaining >>= fun skipped =>
            if 0 < skipped then skipFullyLoop broken eof negative fuel (remaining - skipped.toNat)
            else if skipped = 0 then
              read broken (min remaining 8192) >>= fun
                | none => Reader.throw eof
                | some chunk => skipFullyLoop broken eof negative fuel (remaining - chunk.length)
            else Reader.throw negative) s := by
        rw [skipFullyLoop, if_pos hpos]
      rcases skip_cases broken s remaining with
        ⟨hfails, hskip⟩ | ⟨hnf, m, hm, hskip⟩ | ⟨hpast, hskip⟩ | ⟨k, hkr, hks, hskip⟩
      · refine Or.inl ⟨not_full_of_fails hfails, broken, hbroken, ?_⟩
        rw [hloop, bind_of_error hskip]
      · refine Or.inl ⟨fun hfull => hnf (hfull 0), negative, hnegative, ?_⟩
        rw [hloop, bind_of_ok hskip, if_neg (by omega), if_neg (by omega)]
        rfl
      -- the whole of it was skipped at once, and more than there was
      · refine Or.inr ⟨remaining - s.bytes.length, fun _ => ⟨0, hpast⟩, fun missing hmissing => ?_⟩
        have hdone : skipFullyLoop broken eof negative fuel 0 = pure () := by
          cases fuel <;> rfl
        have hdrop : dropBytes eof remaining (s.bytes ++ missing) =
            .ok ((), s.bytes.drop remaining) := by
          rw [dropBytes, if_pos (by rw [List.length_append]; omega), drop_append_missing hmissing]
        refine Follows.of_ok (k := 1) hdrop ?_
        rw [hloop, bind_of_ok hskip, if_pos (by omega), Int.toNat_natCast, Nat.sub_self, hdone]
        rfl
      · by_cases hk : 0 < k
        · apply completes_dropBytes_of_step 1 hkr hks (ih (remaining - k) (by omega))
          rw [hloop, bind_of_ok hskip, if_pos (by omega)]
          rfl
        · have hk0 : k = 0 := Nat.eq_zero_of_not_pos hk
          subst hk0
          apply completes_dropBytes_of_step 1 hkr hks (readAndDrop_completes hbroken hpos hle ih)
          rw [hloop, bind_of_ok hskip, if_neg (by omega), if_pos (by omega)]
          rfl
    · have hloop : skipFullyLoop broken eof negative (fuel + 1) remaining = pure () := by
        rw [skipFullyLoop, if_neg hpos]
      apply Follows.completesAt
      rw [hloop, Nat.eq_zero_of_not_pos hpos]
      exact Follows.of_ok (k := 0) (if_pos (Nat.zero_le _)) rfl

theorem skipFully_completes (hbroken : io broken) (hnegative : io negative) (n : Nat) :
    Completes io (skipFully broken eof negative n) (dropBytes eof n) :=
  skipFullyLoop_completes hbroken hnegative n n (Nat.le_refl n)

end Calls

end Reader

end Kaede.Infra
