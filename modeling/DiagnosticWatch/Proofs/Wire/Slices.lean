/-
# The slices that reads take from a payload

A reader keeps only the bytes it has not consumed. Beside it runs a cursor,
which keeps the whole payload, how far it has come, and every slice that was
taken on the way, also by a read that failed in the end. The cursor reads what
the reader reads (`Mirrors`), so that it tells where each read of a reader took
its bytes from. After reads of any kind, failed ones among them, the slices
lie one behind the other and are the consumed part of the payload, and the
next read takes exactly what it should.

Key definitions: `Read`, `Cursor`, `Cursor.Sound`, `Read.Exact`.
Key theorems: `Mirrors.bind`, `Read.mirrors_follow`, `Cursor.sound_after`,
`Read.exact_after`.
-/
import DiagnosticWatch.Proofs.Wire.Format

namespace DiagnosticWatch

/-- A slice of a payload: where it starts, and its bytes. -/
structure Slice where
  start : Nat
  bytes : List UInt8
deriving DecidableEq, Repr

/-- A payload, how many of its bytes are consumed, and the slices that were taken. -/
structure Cursor where
  payload : List UInt8
  consumed : Nat := 0
  slices : List Slice := []
deriving DecidableEq, Repr

/-- What reads from a cursor. -/
abbrev Tracker (α : Type) := EStateM WireError Cursor α

namespace Cursor

/-- How many bytes are not consumed; negative, were more consumed than there are. -/
def remaining (c : Cursor) : Int := c.payload.length - c.consumed

/-- The bytes that are not consumed. -/
def rest (c : Cursor) : List UInt8 := c.payload.drop c.consumed

/-- The cursor after a slice of `n` bytes. -/
def advance (n : Nat) (c : Cursor) : Cursor :=
  { c with
    consumed := c.consumed + n
    slices := c.slices ++ [⟨c.consumed, c.rest.take n⟩] }

/-- The next `wanted` bytes, as a slice. -/
def take (wanted : Nat) : Tracker (List UInt8) := fun c =>
  if c.remaining < wanted then .error (.truncated wanted c.remaining.toNat) c
  else .ok (c.rest.take wanted) (c.advance wanted)

/-- The integer that four bytes stand for. -/
def unpack (bytes : List UInt8) : Int :=
  Int32Wire.decode (bytes.getD 0 0) (bytes.getD 1 0) (bytes.getD 2 0) (bytes.getD 3 0)

/-- The next four bytes as an integer. -/
def int32 : Tracker Int := do
  return unpack (← take 4)

/-- The next integer as a truth value. -/
def flag : Tracker Bool := do
  return (← int32) != 0

/-- The next text: a count and as many bytes. -/
def text : Tracker String := do
  let count ← int32
  if count < 0 then throw (.negativeText count)
  let bytes ← take count.toNat
  return String.ofList (Utf8.decode bytes).dropLast

/-- The slices lie one behind the other and are what is consumed of `payload`. -/
structure Sound (payload : List UInt8) (c : Cursor) : Prop where
  payload_eq : c.payload = payload
  /-- Each slice starts where those before it end. -/
  consecutive : ∀ earlier slice later, c.slices = earlier ++ slice :: later →
    slice.start = (earlier.flatMap Slice.bytes).length
  /-- The slices are the consumed part. -/
  together : c.slices.flatMap Slice.bytes = payload.take c.consumed
  /-- No more is consumed than there is. -/
  within : 0 ≤ c.remaining

variable {payload : List UInt8} {c : Cursor} {n : Nat}

theorem Sound.length_rest (h : c.Sound payload) : (c.rest.length : Int) = c.remaining := by
  have := h.within
  unfold remaining at *
  rw [rest, List.length_drop]
  omega

@[simp] theorem rest_advance (c : Cursor) (n : Nat) : (c.advance n).rest = c.rest.drop n := by
  simp [rest, advance, List.drop_drop]

@[simp] theorem remaining_advance (c : Cursor) (n : Nat) :
    (c.advance n).remaining = c.remaining - n := by
  simp only [remaining, advance, Int.natCast_add]
  omega

theorem sound_start (payload : List UInt8) : Sound payload { payload } where
  payload_eq := rfl
  consecutive earlier slice later h := by cases earlier <;> cases h
  together := by simp
  within := by simp [remaining]

/-- A slice of bytes that are there keeps the slices in order. -/
theorem Sound.advance (h : c.Sound payload) (hn : (n : Int) ≤ c.remaining) :
    (c.advance n).Sound payload where
  payload_eq := h.payload_eq
  consecutive earlier slice later hs := by
    -- The slice in question is the last, or one of those before.
    rcases List.eq_nil_or_concat later with rfl | ⟨later, last, rfl⟩
    · obtain ⟨rfl, hlast⟩ := List.append_inj' hs rfl
      cases hlast
      have := h.within
      unfold remaining at this
      rw [h.together, List.length_take, ← h.payload_eq]
      change c.consumed = _
      omega
    · rw [List.concat_eq_append, ← List.cons_append, ← List.append_assoc] at hs
      exact h.consecutive earlier slice later (List.append_inj' hs rfl).1
  together := by
    rw [show (c.advance n).slices = c.slices ++ [⟨c.consumed, c.rest.take n⟩] from rfl,
      List.flatMap_append, h.together, ← h.payload_eq]
    simp [Cursor.advance, rest, List.take_add]
  within := by
    rw [remaining_advance]
    omega

end Cursor

/-! ### A cursor reads what the reader reads -/

/-- From a cursor with its slices in order the tracker reads what the reader reads from the
bytes that are left, and it leaves the slices in order, whether it reads or fails. -/
def Mirrors {α : Type} (t : Tracker α) (r : Reader α) : Prop :=
  ∀ payload (c : Cursor), c.Sound payload →
    (∃ a c', t c = .ok a c' ∧ r c.rest = .ok a c'.rest ∧ c'.Sound payload) ∨
    (∃ e c', t c = .error e c' ∧ r c.rest = .error e c'.rest ∧ c'.Sound payload)

section Mirrors

variable {α β : Type} {t : Tracker α} {r : Reader α}

theorem mirrors_pure (a : α) : Mirrors (pure a) (pure a) := fun _ c h =>
  .inl ⟨a, c, rfl, rfl, h⟩

theorem mirrors_throw (e : WireError) : Mirrors (throw e : Tracker α) (throw e) := fun _ c h =>
  .inr ⟨e, c, rfl, rfl, h⟩

theorem Tracker.bind_of_ok {f : α → Tracker β} {c c' : Cursor} {a : α} (h : t c = .ok a c') :
    (t >>= f) c = f a c' := by
  simp only [Bind.bind, EStateM.bind, h]

theorem Tracker.bind_of_error {f : α → Tracker β} {c c' : Cursor} {e : WireError}
    (h : t c = .error e c') : (t >>= f) c = .error e c' := by
  simp only [Bind.bind, EStateM.bind, h]

theorem Mirrors.bind {f : α → Tracker β} {g : α → Reader β} (h : Mirrors t r)
    (hf : ∀ a, Mirrors (f a) (g a)) : Mirrors (t >>= f) (r >>= g) := by
  intro payload c hc
  rcases h payload c hc with ⟨a, c', ht, hr, hs⟩ | ⟨e, c', ht, hr, hs⟩
  · rw [Tracker.bind_of_ok ht, Reader.bind_of_ok hr]
    exact hf a payload c' hs
  · exact .inr ⟨e, c', Tracker.bind_of_error ht, Reader.bind_of_error hr, hs⟩

theorem Mirrors.ite {t' : Tracker α} {r' : Reader α} {p : Prop} [Decidable p] (h : Mirrors t r)
    (h' : Mirrors t' r') : Mirrors (if p then t else t') (if p then r else r') := by
  split
  · exact h
  · exact h'

theorem Cursor.take_of_few {c : Cursor} {n available : Nat} (h : c.remaining = available)
    (few : available < n) : Cursor.take n c = .error (.truncated n available) c := by
  have hn : c.remaining < n := by omega
  rw [Cursor.take, if_pos hn, h, Int.toNat_natCast]

theorem Cursor.take_of_enough {c : Cursor} {n : Nat} (h : (n : Int) ≤ c.remaining) :
    Cursor.take n c = .ok (c.rest.take n) (c.advance n) :=
  if_neg (by omega)

theorem mirrors_take (n : Nat) : Mirrors (Cursor.take n) (Reader.take n) := by
  intro payload c hc
  have hlen := hc.length_rest
  by_cases hn : c.rest.length < n
  · exact .inr ⟨_, c, Cursor.take_of_few hlen.symm hn, Reader.take_of_short hn, hc⟩
  · refine .inl ⟨c.rest.take n, c.advance n, Cursor.take_of_enough (by omega), ?_,
      hc.advance (by omega)⟩
    rw [Reader.take_of_le (by omega), Cursor.rest_advance]

/-- An integer is read by taking its four bytes. -/
theorem Reader.int32_eq :
    Reader.int32 = Reader.take 4 >>= fun bytes => pure (Cursor.unpack bytes) := by
  funext bytes
  match bytes with
  | [] | [_] | [_, _] | [_, _, _] => rfl
  | a :: b :: c :: d :: rest => rfl

theorem mirrors_int32 : Mirrors Cursor.int32 Reader.int32 := by
  rw [Reader.int32_eq]
  exact (mirrors_take 4).bind fun bytes => mirrors_pure _

theorem mirrors_flag : Mirrors Cursor.flag Reader.flag :=
  mirrors_int32.bind fun value => mirrors_pure (value != 0)

theorem mirrors_text : Mirrors Cursor.text Reader.text := by
  refine mirrors_int32.bind fun count => ?_
  refine Mirrors.ite ((mirrors_throw _).bind fun _ => ?_) ?_
  · exact (mirrors_take _).bind fun bytes => mirrors_pure _
  · exact (mirrors_take _).bind fun bytes => mirrors_pure _

end Mirrors

/-! ### Reads one after the other -/

/-- A read of a payload. -/
inductive Read where
  | int32
  | flag
  | text
deriving DecidableEq, Repr

namespace Read

/-- What a read gives. -/
inductive Value where
  | int32 (value : Int)
  | flag (value : Bool)
  | text (value : String)
deriving DecidableEq, Repr

/-- The reader of a read. -/
def perform : Read → Reader Value
  | .int32 => Reader.int32 >>= fun value => pure (.int32 value)
  | .flag => Reader.flag >>= fun value => pure (.flag value)
  | .text => Reader.text >>= fun value => pure (.text value)

/-- The tracker of a read. -/
def follow : Read → Tracker Value
  | .int32 => Cursor.int32 >>= fun value => pure (.int32 value)
  | .flag => Cursor.flag >>= fun value => pure (.flag value)
  | .text => Cursor.text >>= fun value => pure (.text value)

theorem mirrors_follow : ∀ read : Read, Mirrors read.follow read.perform
  | .int32 => mirrors_int32.bind fun _ => mirrors_pure _
  | .flag => mirrors_flag.bind fun _ => mirrors_pure _
  | .text => mirrors_text.bind fun _ => mirrors_pure _

end Read

/-- Where a read stops, whether it gave a value or failed. -/
def stopped {ε σ α : Type} : EStateM.Result ε σ α → σ
  | .ok _ s | .error _ s => s

/-- The bytes that reads leave of a payload, each one going on where the one before
stopped. -/
def Read.left (payload : List UInt8) (reads : List Read) : List UInt8 :=
  reads.foldl (fun bytes read => stopped (read.perform bytes)) payload

/-- The cursor after reads of a payload. -/
def Cursor.after (payload : List UInt8) (reads : List Read) : Cursor :=
  reads.foldl (fun c read => stopped (read.follow c)) { payload }

/-- After any reads the slices are in order, and the cursor is where the readers are. -/
theorem Cursor.sound_after (payload : List UInt8) (reads : List Read) :
    (after payload reads).Sound payload ∧ (after payload reads).rest = Read.left payload reads := by
  suffices h : ∀ c : Cursor, c.Sound payload →
      (reads.foldl (fun c read => stopped (read.follow c)) c).Sound payload ∧
      (reads.foldl (fun c read => stopped (read.follow c)) c).rest = Read.left c.rest reads from
    h { payload } (sound_start payload)
  induction reads with
  | nil => exact fun c h => ⟨h, rfl⟩
  | cons read reads ih =>
    intro c hc
    rcases read.mirrors_follow payload c hc with ⟨a, c', ht, hr, hs⟩ | ⟨e, c', ht, hr, hs⟩ <;>
      simpa only [List.foldl_cons, Read.left, ht, hr, stopped] using ih c' hs

/-! ### What one read takes -/

namespace Read

/-- The integer that the next four bytes stand for. -/
def count (c : Cursor) : Int := Cursor.unpack (c.rest.take 4)

/-- What a read at `c` gives and where it stops. -/
inductive Exact (c : Cursor) : Read → EStateM.Result WireError Cursor Value → Prop
  /-- An integer takes four bytes. -/
  | int32 (enough : 4 ≤ c.remaining) : Exact c .int32 (.ok (.int32 (count c)) (c.advance 4))
  /-- So does a truth value. -/
  | flag (enough : 4 ≤ c.remaining) : Exact c .flag (.ok (.flag (count c != 0)) (c.advance 4))
  /-- A text takes its count and that many bytes. -/
  | text (enough : 4 ≤ c.remaining) (natural : 0 ≤ count c)
      (whole : count c ≤ (c.advance 4).remaining) :
      Exact c .text (.ok
        (.text (String.ofList (Utf8.decode ((c.advance 4).rest.take (count c).toNat)).dropLast))
        ((c.advance 4).advance (count c).toNat))
  /-- Fewer than four bytes are not touched, by no read. -/
  | short (read : Read) (available : Nat) (left : c.remaining = available) (few : available < 4) :
      Exact c read (.error (.truncated 4 available) c)
  /-- A negative count is consumed. -/
  | negative (enough : 4 ≤ c.remaining) (negative : count c < 0) :
      Exact c .text (.error (.negativeText (count c)) (c.advance 4))
  /-- A count is consumed whose bytes are not there. -/
  | cut (wanted available : Nat) (enough : 4 ≤ c.remaining) (asked : count c = wanted)
      (left : (c.advance 4).remaining = available) (few : available < wanted) :
      Exact c .text (.error (.truncated wanted available) (c.advance 4))

section

variable {c : Cursor} {payload : List UInt8}

theorem int32_of_enough (h : 4 ≤ c.remaining) : Cursor.int32 c = .ok (count c) (c.advance 4) :=
  Tracker.bind_of_ok (Cursor.take_of_enough h)

theorem int32_of_few {available : Nat} (h : c.remaining = available) (few : available < 4) :
    Cursor.int32 c = .error (.truncated 4 available) c :=
  Tracker.bind_of_error (Cursor.take_of_few h few)

theorem exact_text (h : c.Sound payload) (enough : 4 ≤ c.remaining) :
    Exact c .text (Read.text.follow c) := by
  have hcount : Cursor.text c = _ := Tracker.bind_of_ok (int32_of_enough enough)
  by_cases hneg : count c < 0
  · have hfollow : Read.text.follow c = .error (.negativeText (count c)) (c.advance 4) := by
      rw [if_pos hneg] at hcount
      exact Tracker.bind_of_error (hcount.trans (Tracker.bind_of_error rfl))
    rw [hfollow]
    exact .negative enough hneg
  rw [if_neg hneg] at hcount
  obtain ⟨wanted, hwanted⟩ := Int.eq_ofNat_of_zero_le (Int.not_lt.mp hneg)
  obtain ⟨available, hleft⟩ := Int.eq_ofNat_of_zero_le (h.advance (n := 4) enough).within
  have hnat : (count c).toNat = wanted := by omega
  by_cases hcut : available < wanted
  · have hfollow : Read.text.follow c = .error (.truncated wanted available) (c.advance 4) := by
      refine Tracker.bind_of_error (hcount.trans ?_)
      rw [hnat]
      exact Tracker.bind_of_error (Cursor.take_of_few hleft hcut)
    rw [hfollow]
    exact .cut wanted available enough hwanted hleft hcut
  · have hfollow : Read.text.follow c = .ok
        (.text (String.ofList (Utf8.decode ((c.advance 4).rest.take (count c).toNat)).dropLast))
        ((c.advance 4).advance (count c).toNat) :=
      Tracker.bind_of_ok (hcount.trans (Tracker.bind_of_ok (Cursor.take_of_enough (by omega))))
    rw [hfollow]
    exact .text enough (by omega) (by omega)

/-- Every read gives what it should, and takes what it should. -/
theorem exact_follow (h : c.Sound payload) (read : Read) : Exact c read (read.follow c) := by
  by_cases enough : 4 ≤ c.remaining
  · have hnumber := int32_of_enough enough
    cases read with
    | int32 =>
      rw [show Read.int32.follow c = .ok (.int32 (count c)) (c.advance 4) from
        Tracker.bind_of_ok hnumber]
      exact .int32 enough
    | flag =>
      rw [show Read.flag.follow c = .ok (.flag (count c != 0)) (c.advance 4) from
        Tracker.bind_of_ok (Tracker.bind_of_ok hnumber)]
      exact .flag enough
    | text => exact exact_text h enough
  · obtain ⟨available, hleft⟩ := Int.eq_ofNat_of_zero_le h.within
    have few : available < 4 := by omega
    have hshort := int32_of_few hleft few
    have hfollow : read.follow c = .error (.truncated 4 available) c := by
      cases read with
      | int32 => exact Tracker.bind_of_error hshort
      | flag => exact Tracker.bind_of_error (Tracker.bind_of_error hshort)
      | text => exact Tracker.bind_of_error (Tracker.bind_of_error hshort)
    exact hfollow ▸ .short read available hleft few

/-- The bytes that an exact read says were missing are those that are not there. -/
theorem Exact.missing {read : Read} {wanted available : Nat} {c' : Cursor}
    (h : Exact c read (.error (.truncated wanted available) c')) :
    c'.remaining = available ∧ available < wanted := by
  cases h with
  | short _ _ left few => exact ⟨left, few⟩
  | cut _ _ _ _ left few => exact ⟨left, few⟩

end

end Read

/-- After any reads of a payload, failed ones among them, what is consumed and what remains are
the payload, and the slices that were taken follow on one another and are what is consumed. The
next read then gives what it should, of exactly the bytes it should take: none if it fails for
fewer than four bytes, the four of its count if it is a text that fails later. What it
misses it reports as it is. -/
theorem Read.exact_after (payload : List UInt8) (reads : List Read) (next : Read) :
    let c := Cursor.after payload reads
    c.Sound payload ∧ c.rest = Read.left payload reads ∧
      c.consumed + c.remaining = payload.length ∧
      Exact c next (next.follow c) ∧
      (∀ value c', next.follow c = .ok value c' →
        next.perform (Read.left payload reads) = .ok value c'.rest) ∧
      (∀ e c', next.follow c = .error e c' →
        next.perform (Read.left payload reads) = .error e c'.rest) ∧
      ∀ wanted available c', next.follow c = .error (.truncated wanted available) c' →
        c'.remaining = available ∧ available < wanted := by
  obtain ⟨hsound, hrest⟩ := Cursor.sound_after payload reads
  have hexact := exact_follow hsound next
  refine ⟨hsound, hrest, ?_, hexact, ?_, ?_, fun wanted available c' h => ?_⟩
  · rw [Cursor.remaining, hsound.payload_eq]
    omega
  · intro value c' h
    rcases next.mirrors_follow payload _ hsound with ⟨a, d, ht, hr, -⟩ | ⟨e, d, ht, -⟩
    · cases ht.symm.trans h
      rw [← hrest, hr]
    · cases ht.symm.trans h
  · intro e c' h
    rcases next.mirrors_follow payload _ hsound with ⟨a, d, ht, -⟩ | ⟨e', d, ht, hr, -⟩
    · cases ht.symm.trans h
    · cases ht.symm.trans h
      rw [← hrest, hr]
  · rw [h] at hexact
    exact hexact.missing

end DiagnosticWatch
