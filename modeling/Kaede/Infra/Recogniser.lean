import Kaede.Infra.InputStream

/-!
# Which bytes a reader accepts

* `Recognises` — the bytes that a reader takes from a stream that always answers in full, and what
  it makes of them
* `Steady.sound`, `Steady.complete` — what that says about the other streams
* `Shrinks` — what a reader leaves of a stream of bounded length, and what it can throw there
-/

namespace Kaede.Infra

open InputStream

namespace Reader

variable {ε α β : Type} {io : ε → Prop}

/-! ## Recognising -/

/-- `x` accepts exactly the `used` with `L a used`, whatever follows them, and returns `a`. -/
def Recognises (x : Reader ε α) (L : α → List UInt8 → Prop) : Prop :=
  ∀ bytes a s, x (plain bytes) = .ok (a, s) ↔
    ∃ used rest, bytes = used ++ rest ∧ s = plain rest ∧ L a used

/-- Bytes that are read as a sequence of values. -/
inductive Each (L : α → List UInt8 → Prop) : List α → List UInt8 → Prop
  | nil : Each L [] []
  | cons {a : α} {as : List α} {u v : List UInt8} :
      L a u → Each L as v → Each L (a :: as) (u ++ v)

theorem Each.map {L : α → List UInt8 → Prop} {M : β → List UInt8 → Prop} {f : α → β}
    (hf : ∀ a u, L a u → M (f a) u) {as : List α} {bytes : List UInt8} (h : Each L as bytes) :
    Each M (as.map f) bytes := by
  induction h with
  | nil => exact Each.nil
  | cons hu _ ih => exact Each.cons (hf _ _ hu) ih

theorem recognises_congr {x : Reader ε α} {L L' : α → List UInt8 → Prop} (h : Recognises x L)
    (hL : ∀ a used, L a used ↔ L' a used) : Recognises x L' := by
  intro bytes a s
  simp only [h bytes a s, hL]

theorem recognises_pure (a : α) :
    Recognises (pure a : Reader ε α) fun b used => b = a ∧ used = [] := by
  intro bytes b s
  rw [pure_apply]
  constructor
  · intro h
    cases h
    exact ⟨[], bytes, rfl, rfl, rfl, rfl⟩
  · rintro ⟨used, rest, rfl, rfl, rfl, rfl⟩
    rfl

theorem recognises_throw (e : ε) : Recognises (Reader.throw e : Reader ε α) fun _ _ => False := by
  intro bytes a s
  rw [throw_apply]
  constructor
  · intro h
    cases h
  · rintro ⟨_, _, _, _, h⟩
    exact h.elim

theorem recognises_bind {x : Reader ε α} {f : α → Reader ε β} {L : α → List UInt8 → Prop}
    {M : α → β → List UInt8 → Prop} (hx : Recognises x L) (hf : ∀ a, Recognises (f a) (M a)) :
    Recognises (x >>= f) fun b used => ∃ a u v, used = u ++ v ∧ L a u ∧ M a b v := by
  intro bytes b t
  rw [bind_eq_ok]
  constructor
  · rintro ⟨a, s, hxs, hfs⟩
    obtain ⟨u, rest, rfl, rfl, hu⟩ := (hx _ a s).mp hxs
    obtain ⟨v, rest', rfl, rfl, hv⟩ := (hf a _ b t).mp hfs
    exact ⟨u ++ v, rest', by rw [List.append_assoc], rfl, a, u, v, rfl, hu, hv⟩
  · rintro ⟨_, rest, rfl, rfl, a, u, v, rfl, hu, hv⟩
    refine ⟨a, plain (v ++ rest), ?_, ?_⟩
    · exact (hx _ _ _).mpr ⟨u, v ++ rest, List.append_assoc .., rfl, hu⟩
    · exact (hf a _ _ _).mpr ⟨v, rest, rfl, rfl, hv⟩

/-- What is read is returned after a function is applied to it. -/
theorem recognises_bind_pure {x : Reader ε α} {L : α → List UInt8 → Prop} (hx : Recognises x L)
    (f : α → β) :
    Recognises (do let a ← x; pure (f a)) fun b used => ∃ a, b = f a ∧ L a used := by
  refine recognises_congr (recognises_bind hx fun a => recognises_pure (f a)) fun b used => ?_
  constructor
  · rintro ⟨a, u, _, rfl, h, rfl, rfl⟩
    rw [List.append_nil]
    exact ⟨a, rfl, h⟩
  · rintro ⟨a, rfl, h⟩
    exact ⟨a, used, [], (List.append_nil _).symm, h, rfl, rfl⟩

theorem recognises_ite {c : Prop} [Decidable c] {x y : Reader ε α} {L M : α → List UInt8 → Prop}
    (hx : Recognises x L) (hy : Recognises y M) :
    Recognises (if c then x else y) fun a used => if c then L a used else M a used := by
  by_cases hc : c
  · simp only [if_pos hc]
    exact hx
  · simp only [if_neg hc]
    exact hy

/-- `if (c) throw …`, and then `y`. -/
theorem recognises_guard {c : Prop} [Decidable c] {e : ε} {y : Reader ε α}
    {M : α → List UInt8 → Prop} (hy : Recognises y M) :
    Recognises (if c then Reader.throw e else y) fun a used => ¬ c ∧ M a used := by
  refine recognises_congr (recognises_ite (recognises_throw e) hy) fun a used => ?_
  split <;> simp_all

theorem recognises_times {x : Reader ε α} {L : α → List UInt8 → Prop} (hx : Recognises x L)
    (n : Nat) : Recognises (times x n) fun as used => as.length = n ∧ Each L as used := by
  induction n with
  | zero =>
    refine recognises_congr (recognises_pure []) fun as used => ?_
    constructor
    · rintro ⟨rfl, rfl⟩
      exact ⟨rfl, Each.nil⟩
    · rintro ⟨hlength, hall⟩
      cases hall with
      | nil => exact ⟨rfl, rfl⟩
      | cons _ _ => cases hlength
  | succ n ih =>
    refine recognises_congr (recognises_bind hx fun a =>
      recognises_bind ih fun as => recognises_pure (a :: as)) fun as used => ?_
    constructor
    · rintro ⟨a, u, v, rfl, hu, bs, v', w, rfl, ⟨hlength, hall⟩, rfl, rfl⟩
      rw [List.append_nil]
      exact ⟨congrArg (· + 1) hlength, Each.cons hu hall⟩
    · rintro ⟨hlength, hall⟩
      cases hall with
      | nil => cases hlength
      | cons hu hall =>
        exact ⟨_, _, _, rfl, hu, _, _, [], (List.append_nil _).symm,
          ⟨Nat.succ.inj hlength, hall⟩, rfl, rfl⟩

theorem recognises_of_completes {x : Reader ε α} {p : List UInt8 → Except ε (α × List UInt8)}
    {L : α → List UInt8 → Prop} (hx : Completes io x p)
    (hp : ∀ bytes a rest, p bytes = .ok (a, rest) ↔ ∃ used, bytes = used ++ rest ∧ L a used) :
    Recognises x L := by
  intro bytes a s
  rw [hx.apply_plain]
  constructor
  · intro h
    rcases hbytes : p bytes with e | ⟨b, rest⟩
    · rw [hbytes] at h
      cases h
    · rw [hbytes] at h
      cases h
      obtain ⟨used, heq, hused⟩ := (hp bytes _ rest).mp hbytes
      exact ⟨used, rest, heq, rfl, hused⟩
  · rintro ⟨used, rest, heq, rfl, hused⟩
    rw [(hp bytes a rest).mpr ⟨used, heq, hused⟩]
    rfl

theorem takeBytes_eq_ok {eof : Nat → ε} {n : Nat} {bytes bs rest : List UInt8} :
    takeBytes eof n bytes = .ok (bs, rest) ↔ ∃ used, bytes = used ++ rest ∧ used = bs ∧
      bs.length = n := by
  constructor
  · intro h
    rw [takeBytes] at h
    split at h
    · next hle =>
      cases h
      exact ⟨_, (List.take_append_drop n bytes).symm, rfl, List.length_take_of_le hle⟩
    · cases h
  · rintro ⟨_, rfl, rfl, rfl⟩
    rw [takeBytes_of_le (by simp), List.take_left, List.drop_left]

theorem dropBytes_eq_ok {eof : ε} {n : Nat} {bytes rest : List UInt8} {a : Unit} :
    dropBytes eof n bytes = .ok (a, rest) ↔ ∃ used, bytes = used ++ rest ∧ used.length = n := by
  constructor
  · intro h
    rw [dropBytes] at h
    split at h
    · next hle =>
      cases h
      exact ⟨_, (List.take_append_drop n bytes).symm, List.length_take_of_le hle⟩
    · cases h
  · rintro ⟨_, rfl, rfl⟩
    rw [dropBytes, if_pos (by simp), List.drop_left]

section Calls

variable {broken eof negative : ε}

theorem readByte_plain (bytes : List UInt8) :
    readByte broken eof (plain bytes) =
      match bytes with
      | [] => .error eof
      | b :: rest => .ok (b, plain rest) := by
  cases bytes with
  | nil => rfl
  | cons b rest => rfl

theorem recognises_readByte : Recognises (readByte broken eof) fun b used => used = [b] := by
  intro bytes b s
  rw [readByte_plain]
  cases bytes with
  | nil => simp
  | cons c rest =>
    simp only [Except.ok.injEq, Prod.mk.injEq]
    constructor
    · rintro ⟨rfl, rfl⟩
      exact ⟨[c], rest, rfl, rfl, rfl⟩
    · rintro ⟨_, rest', heq, rfl, rfl⟩
      cases heq
      exact ⟨rfl, rfl⟩

theorem recognises_readExactly {n : Nat} (hn : 0 < n) :
    Recognises (readExactly broken eof n) fun bs used => used = bs ∧ bs.length = n := by
  have hrefines : Refines (fun _ => True) (readExactly broken eof n) _ :=
    readExactly_refines trivial trivial hn
  exact recognises_of_completes (hrefines.completes (local_takeBytes _ n)) fun _ _ _ =>
    takeBytes_eq_ok

theorem recognises_readFully (eof : Nat → ε) (n : Nat) :
    Recognises (readFully broken eof n) fun bs used => used = bs ∧ bs.length = n := by
  have hrefines : Refines (fun _ => True) (readFully broken eof n) _ :=
    readFully_refines trivial eof n
  exact recognises_of_completes (hrefines.completes (local_takeBytes eof n)) fun _ _ _ =>
    takeBytes_eq_ok

theorem recognises_skipFully (n : Nat) :
    Recognises (skipFully broken eof negative n) fun _ used => used.length = n := by
  have hcompletes : Completes (fun _ => True) (skipFully broken eof negative n) _ :=
    skipFully_completes trivial trivial n
  exact recognises_of_completes hcompletes fun _ _ _ => dropBytes_eq_ok

end Calls

/-! ## Other streams -/

section Steady

variable {x : Reader ε α} {L : α → List UInt8 → Prop} {s t : InputStream} {a : α}

/-- What is accepted is recognised, whatever bytes stand for those that were skipped beyond the end. -/
theorem Steady.sound (hsteady : Steady io x) (hx : Recognises x L) (hread : x s = .ok (a, t)) :
    ∃ n, (0 < n → ∃ i, s.answers i = .past) ∧ ∀ missing : List UInt8, missing.length = n →
      ∃ used, s.bytes ++ missing = used ++ t.bytes ∧ L a used := by
  rcases hsteady.apply s with ⟨-, e, -, herror⟩ | ⟨n, hn, hsame⟩
  · rw [hread] at herror
    cases herror
  refine ⟨n, hn, fun missing hmissing => ?_⟩
  have heq := hsame missing hmissing
  rw [hread] at heq
  rcases hplain : x (plain (s.bytes ++ missing)) with e | ⟨a', t'⟩
  · rw [hplain] at heq
    cases heq
  rw [hplain] at heq
  obtain ⟨used, rest, hbytes, rfl, hused⟩ := (hx _ _ _).mp hplain
  simp only [Except.map, Except.ok.injEq, Prod.mk.injEq, bytes_plain] at heq
  obtain ⟨rfl, hrest⟩ := heq
  exact ⟨used, by rw [hrest]; exact hbytes, hused⟩

/-- What is recognised is accepted, unless the stream fails or hands out too few bytes. -/
theorem Steady.complete (hsteady : Steady io x) (hx : Recognises x L) {used rest : List UInt8}
    (hbytes : s.bytes = used ++ rest) (hused : L a used) :
    (∃ t, t.bytes = rest ∧ x s = .ok (a, t)) ∨
      ¬ (∀ i, s.answers i = .full) ∧ ∃ e, io e ∧ x s = .error e := by
  rcases hsteady.apply s with herror | ⟨n, -, hsame⟩
  · exact Or.inr herror
  left
  have hends : ∀ missing : List UInt8, missing.length = n →
      (x s).map (fun r => (r.1, r.2.bytes)) = .ok (a, rest ++ missing) := by
    intro missing hmissing
    have hplain : x (plain (s.bytes ++ missing)) = .ok (a, plain (rest ++ missing)) :=
      (hx _ _ _).mpr ⟨used, rest ++ missing, by rw [hbytes, List.append_assoc], rfl, hused⟩
    rw [hsame missing hmissing, hplain]
    rfl
  rcases hread : x s with e | ⟨a', t⟩
  · have hok := hends (List.replicate n 0) List.length_replicate
    rw [hread] at hok
    cases hok
  rw [hread] at hends
  -- nothing can be missing: where the reader ends would depend on it
  have hzero : n = 0 := by
    by_contra hpos
    have hzeros := hends (List.replicate n 0) List.length_replicate
    rw [hends (List.replicate n 1) List.length_replicate] at hzeros
    simp only [Except.ok.injEq, Prod.mk.injEq, true_and] at hzeros
    rcases (List.replicate_inj.mp (List.append_cancel_left hzeros)).2 with hnone | hbyte
    · exact hpos hnone
    · exact absurd hbyte (by decide)
  have hlast := hends [] hzero.symm
  rw [List.append_nil] at hlast
  simp only [Except.map, Except.ok.injEq, Prod.mk.injEq] at hlast
  obtain ⟨rfl, hrest⟩ := hlast
  exact ⟨t, hrest, rfl⟩

end Steady

/-! ## What can be thrown -/

/-- From a stream of fewer than `n` bytes, `x` leaves fewer than `m`, or throws an exception
of `P`. -/
def Shrinks (n m : Nat) (P : ε → Prop) (x : Reader ε α) : Prop :=
  ∀ s : InputStream, s.bytes.length < n →
    (∀ a t, x s = .ok (a, t) → t.bytes.length < m) ∧ ∀ e, x s = .error e → P e

variable {n m k : Nat} {P : ε → Prop}

theorem shrinks_pure (a : α) : Shrinks n n P (pure a : Reader ε α) := by
  intro s hs
  constructor
  · intro b t h
    cases h
    exact hs
  · intro e h
    cases h

theorem shrinks_throw {e : ε} (he : P e) : Shrinks n m P (Reader.throw e : Reader ε α) := by
  intro s hs
  constructor
  · intro a t h
    cases h
  · intro e' h
    cases h
    exact he

theorem shrinks_bind {x : Reader ε α} {f : α → Reader ε β} (hx : Shrinks n m P x)
    (hf : ∀ a, Shrinks m k P (f a)) : Shrinks n k P (x >>= f) := by
  intro s hs
  obtain ⟨hok, herror⟩ := hx s hs
  rcases hrun : x s with e | ⟨a, t⟩
  · rw [bind_of_error hrun]
    refine ⟨fun b u h => ?_, fun e' h => ?_⟩
    · cases h
    · cases h
      exact herror e hrun
  · rw [bind_of_ok hrun]
    exact hf a t (hok a t hrun)

theorem shrinks_ite {c : Prop} [Decidable c] {x y : Reader ε α} (hx : c → Shrinks n m P x)
    (hy : ¬ c → Shrinks n m P y) : Shrinks n m P (if c then x else y) := by
  split
  · next hc => exact hx hc
  · next hc => exact hy hc

theorem shrinks_mono {x : Reader ε α} (h : Shrinks n m P x) (hmk : m ≤ k) : Shrinks n k P x :=
  fun s hs => ⟨fun a t hrun => Nat.lt_of_lt_of_le ((h s hs).1 a t hrun) hmk, (h s hs).2⟩

theorem shrinks_times {x : Reader ε α} (hx : Shrinks n n P x) (count : Nat) :
    Shrinks n n P (times x count) := by
  induction count with
  | zero => exact shrinks_pure []
  | succ count ih =>
    exact shrinks_bind hx fun a => shrinks_bind ih fun as => shrinks_pure (a :: as)

theorem shrinks_of_refines {x : Reader ε α} {p : List UInt8 → Except ε (α × List UInt8)}
    (hx : Refines io x p) (hio : ∀ e, io e → P e)
    (hok : ∀ bytes a rest, bytes.length < n → p bytes = .ok (a, rest) → rest.length < m)
    (herror : ∀ bytes e, p bytes = .error e → P e) : Shrinks n m P x := by
  intro s hs
  rcases hx s with ⟨-, e, he, hrun⟩ | hfollows
  · refine ⟨fun a t h => ?_, fun e' h => ?_⟩
    · rw [hrun] at h
      cases h
    · rw [hrun] at h
      cases h
      exact hio e he
  · rcases hp : p s.bytes with e | ⟨a, rest⟩
    · have hrun := hfollows.error e hp
      refine ⟨fun a t h => ?_, fun e' h => ?_⟩
      · rw [hrun] at h
        cases h
      · rw [hrun] at h
        cases h
        exact herror s.bytes e hp
    · obtain ⟨j, hrun⟩ := hfollows.ok a rest hp
      refine ⟨fun b t h => ?_, fun e' h => ?_⟩
      · rw [hrun] at h
        cases h
        exact hok s.bytes a rest hs hp
      · rw [hrun] at h
        cases h

theorem shrinks_takeBytes {x : Reader ε (List UInt8)} {eof : Nat → ε}
    (hx : Refines io x (takeBytes eof k)) (hio : ∀ e, io e → P e) (heof : ∀ i, P (eof i)) :
    Shrinks n (n - k) P x := by
  refine shrinks_of_refines hx hio (fun bytes a rest hlt h => ?_) fun bytes e h => ?_
  · obtain ⟨used, rfl, rfl, hlength⟩ := takeBytes_eq_ok.mp h
    rw [List.length_append] at hlt
    omega
  · rw [takeBytes] at h
    split at h
    · cases h
    · cases h
      exact heof _

section Calls

variable {broken eof negative : ε}

theorem shrinks_readByte (hbroken : P broken) (heof : P eof) :
    Shrinks n n P (readByte broken eof) := by
  refine shrinks_of_refines (readByte_refines hbroken) (fun _ he => he) (fun bytes b rest hlt h => ?_)
    fun bytes e h => ?_
  · cases bytes with
    | nil => cases h
    | cons c bytes =>
      cases h
      exact Nat.lt_of_succ_lt hlt
  · cases bytes with
    | nil =>
      cases h
      exact heof
    | cons c bytes => cases h

theorem length_advance_lt {s : InputStream} (hs : s.bytes.length < n) (j : Nat) :
    (s.advance j).bytes.length < n := by
  rw [bytes_advance, List.length_drop]
  omega

theorem shrinks_read (hbroken : P broken) (len : Nat) : Shrinks n n P (read broken len) := by
  intro s hs
  rw [read]
  refine ⟨fun a t h => ?_, fun e h => ?_⟩
  · split at h
    · cases h
    · split at h <;> cases h <;> exact length_advance_lt hs _
  · split at h
    · cases h
      exact hbroken
    · split at h <;> cases h

theorem shrinks_skip (hbroken : P broken) (k : Nat) : Shrinks n n P (skip broken k) := by
  intro s hs
  refine ⟨fun a t h => ?_, fun e h => ?_⟩ <;> rcases skip_cases broken s k with
    ⟨-, hskip⟩ | ⟨-, m, -, hskip⟩ | ⟨-, hskip⟩ | ⟨j, -, -, hskip⟩ <;> rw [hskip] at h <;> cases h
  · exact length_advance_lt hs 0
  · exact length_advance_lt hs k
  · exact length_advance_lt hs j
  · exact hbroken

theorem shrinks_skipFully (hbroken : P broken) (heof : P eof) (hnegative : P negative) (k : Nat) :
    Shrinks n n P (skipFully broken eof negative k) := by
  have hloop : ∀ fuel remaining, Shrinks n n P (skipFullyLoop broken eof negative fuel remaining) := by
    intro fuel
    induction fuel with
    | zero => exact fun _ => shrinks_pure ()
    | succ fuel ih =>
      intro remaining
      refine shrinks_ite (fun _ => ?_) fun _ => shrinks_pure ()
      refine shrinks_bind (shrinks_skip hbroken remaining) fun skipped => ?_
      refine shrinks_ite (fun _ => ih _) fun _ => shrinks_ite (fun _ => ?_) fun _ =>
        shrinks_throw hnegative
      refine shrinks_bind (shrinks_read hbroken _) fun chunk => ?_
      cases chunk with
      | none => exact shrinks_throw heof
      | some chunk => exact ih _
  exact hloop k k

end Calls

end Reader

end Kaede.Infra
