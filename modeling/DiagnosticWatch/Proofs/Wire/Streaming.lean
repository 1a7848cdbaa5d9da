/-
# Frames out of chunks

However received bytes are cut into chunks, and whenever frames are taken out
between them, the same frames come out in the same order: taking all whole
frames out of an inbox, then feeding more and taking out again, is the same as
feeding first (`Inbox.drain_feed`). From this one equation follows, for every
sequence of calls, that what has been taken out so far, with what is still to
come, is what the bytes give at once (`Inbox.drain_fed`).

Key definitions: `Inbox.drain`, `Inbox.Call`, `Inbox.after`.
Key theorems: `Inbox.drain_feed`, `Inbox.drain_fed`, `Inbox.streaming`.
-/
import DiagnosticWatch.Proofs.Wire.FirstFrame
import DiagnosticWatch.Wire.Inbox
import Mathlib.Data.List.Induction

namespace DiagnosticWatch
namespace Inbox

variable {inbox rest : Inbox} {f : Frame} {e : WireError}

/-! ### One call -/

/-- What a call for the next frame does, in each of the cases of what the bytes begin
with. -/
theorem next_cases (inbox : Inbox) :
    (∃ (f : Frame) (rest : Inbox), f.Fits ∧ inbox.bytes = f.bytes ++ rest.bytes ∧
      inbox.next = (.ok (some f), rest)) ∨
    (Frame.IsPartial inbox.bytes ∧ inbox.next = (.ok none, inbox)) ∨
    ∃ e, Frame.IsGarbled inbox.bytes e ∧ inbox.next = (.error e, inbox) := by
  obtain ⟨f, rest, hf, hb, hn⟩ | ⟨hp, hn⟩ | ⟨e, hg, hn⟩ := Frame.next?_cases inbox.bytes
  · exact .inl ⟨f, ⟨rest⟩, hf, hb, by simp [next, hn]⟩
  · exact .inr (.inl ⟨hp, by simp [next, hn]⟩)
  · exact .inr (.inr ⟨e, hg, by simp [next, hn]⟩)

theorem eq_append_of_next (h : inbox.next = (.ok (some f), rest)) :
    f.Fits ∧ inbox.bytes = f.bytes ++ rest.bytes := by
  obtain ⟨f', rest', hf, hb, hn⟩ | ⟨-, hn⟩ | ⟨e, -, hn⟩ := next_cases inbox <;> rw [hn] at h <;>
    cases h
  exact ⟨hf, hb⟩

theorem partial_of_next (h : inbox.next = (.ok none, rest)) :
    Frame.IsPartial inbox.bytes ∧ rest = inbox := by
  obtain ⟨f', rest', -, -, hn⟩ | ⟨hp, hn⟩ | ⟨e, -, hn⟩ := next_cases inbox <;> rw [hn] at h <;>
    cases h
  exact ⟨hp, rfl⟩

theorem garbled_of_next (h : inbox.next = (.error e, rest)) :
    Frame.IsGarbled inbox.bytes e ∧ rest = inbox := by
  obtain ⟨f', rest', -, -, hn⟩ | ⟨-, hn⟩ | ⟨e', hg, hn⟩ := next_cases inbox <;> rw [hn] at h <;>
    cases h
  exact ⟨hg, rfl⟩

theorem next_of_garbled (h : Frame.IsGarbled inbox.bytes e) : inbox.next = (.error e, inbox) := by
  simp [next, Frame.next?_of_garbled h]

theorem next_feed_of_frame (h : inbox.next = (.ok (some f), rest)) (chunk : List UInt8) :
    (inbox.feed chunk).next = (.ok (some f), rest.feed chunk) := by
  obtain ⟨hf, hb⟩ := eq_append_of_next h
  simp [next, feed, hb, Frame.next?_bytes_append hf]

/-- A prefix that no frame has stays in front. -/
theorem next_feed_of_error (h : inbox.next = (.error e, rest)) (chunk : List UInt8) :
    (inbox.feed chunk).next = (.error e, inbox.feed chunk) := by
  obtain ⟨hg, -⟩ := garbled_of_next h
  exact next_of_garbled (hg.append chunk)

/-- A frame is there exactly if a call for the next one takes it out. -/
theorem hasFrame_iff : inbox.hasFrame = true ↔ ∃ f rest, inbox.next = (.ok (some f), rest) := by
  obtain ⟨f, rest, hf, hb, hn⟩ | ⟨hp, hn⟩ | ⟨e, hg, hn⟩ := next_cases inbox
  · obtain ⟨a, b, c, d, hbytes, ha⟩ := Frame.announced_of_fits hf
    refine iff_of_true ?_ ⟨f, rest, hn⟩
    simp [hasFrame, size, hb, hbytes, Frame.decodeLength, ha]
    omega
  · refine iff_of_false ?_ (by simp [hn])
    obtain hshort | ⟨a, b, c, d, behind, length, hb, ha, hlen⟩ := hp
    · simp [hasFrame, size, hshort]
    · simp [hasFrame, size, hb, Frame.decodeLength, ha]
      omega
  · obtain ⟨a, b, c, d, behind, hb, ha⟩ := hg
    refine iff_of_false ?_ (by simp [hn])
    simp [hasFrame, size, hb, Frame.decodeLength, ha]

theorem hasFrame_of_next (h : inbox.next = (.ok none, rest)) : inbox.hasFrame = false := by
  rw [Bool.eq_false_iff, ne_eq, hasFrame_iff]
  simp [h]

theorem size_lt_of_next (h : inbox.next = (.ok (some f), rest)) : rest.size < inbox.size := by
  obtain ⟨-, hb⟩ := eq_append_of_next h
  unfold size
  rw [hb, List.length_append, Frame.length_bytes]
  omega

/-! ### Taking out all whole frames -/

/-- What comes of taking frames out until none is left as a whole. -/
structure Drained where
  frames : List Frame
  /-- What is wrong with the bytes left, if anything. -/
  error : Option WireError
  rest : Inbox
deriving DecidableEq

/-- The same with frames taken out before. -/
def Drained.after (frames : List Frame) (d : Drained) : Drained :=
  { d with frames := frames ++ d.frames }

@[simp] theorem Drained.after_nil (d : Drained) : d.after [] = d := rfl

@[simp] theorem Drained.after_after (frames more : List Frame) (d : Drained) :
    (d.after more).after frames = d.after (frames ++ more) := by
  simp [Drained.after]

/-- Takes frames out until none is left as a whole, or the bytes left begin none. -/
def drain (inbox : Inbox) : Drained :=
  match _h : inbox.next with
  | (.ok (some f), rest) => rest.drain.after [f]
  | (.ok none, rest) => ⟨[], none, rest⟩
  | (.error e, rest) => ⟨[], some e, rest⟩
termination_by inbox.size
decreasing_by exact size_lt_of_next ‹_›

theorem drain_of_frame (h : inbox.next = (.ok (some f), rest)) :
    inbox.drain = rest.drain.after [f] := by
  rw [drain]
  split <;> simp_all

theorem drain_of_none (h : inbox.next = (.ok none, rest)) : inbox.drain = ⟨[], none, rest⟩ := by
  rw [drain]
  split <;> simp_all

theorem drain_of_error (h : inbox.next = (.error e, rest)) : inbox.drain = ⟨[], some e, rest⟩ := by
  rw [drain]
  split <;> simp_all

/-- What is wrong with the bytes left stands in front of them. -/
theorem next_of_drain_error (h : inbox.drain.error = some e) :
    inbox.drain.rest.next = (.error e, inbox.drain.rest) := by
  fun_induction drain inbox with
  | case1 inbox f rest _ ih => exact ih h
  | case2 => cases h
  | case3 inbox e' rest hn =>
    obtain ⟨-, rfl⟩ := garbled_of_next hn
    cases h
    exact hn

/-- Whether frames are taken out before more bytes arrive makes no difference. -/
theorem drain_feed (inbox : Inbox) (chunk : List UInt8) :
    (inbox.feed chunk).drain = (inbox.drain.rest.feed chunk).drain.after inbox.drain.frames := by
  fun_induction drain inbox with
  | case1 inbox f rest h ih =>
    rw [drain_of_frame (next_feed_of_frame h chunk), ih]
    simp [Drained.after]
  | case2 inbox rest h =>
    obtain ⟨-, rfl⟩ := partial_of_next h
    simp
  | case3 inbox e rest h =>
    obtain ⟨-, rfl⟩ := garbled_of_next h
    simp

/-! ### Sequences of calls -/

/-- What is asked of an inbox. -/
inductive Call where
  /-- A chunk is fed. -/
  | feed (chunk : List UInt8)
  /-- The next frame is asked for. -/
  | next

/-- The frames taken out of an inbox so far, in order, and the inbox. -/
structure Progress where
  taken : List Frame
  inbox : Inbox

/-- Answers a call. -/
def Progress.answer (p : Progress) : Call → Progress
  | .feed chunk => ⟨p.taken, p.inbox.feed chunk⟩
  | .next =>
    match p.inbox.next with
    | (.ok (some f), rest) => ⟨p.taken ++ [f], rest⟩
    | (_, rest) => ⟨p.taken, rest⟩

/-- What calls on an inbox come to. -/
def after (inbox : Inbox) (calls : List Call) : Progress :=
  calls.foldl Progress.answer ⟨[], inbox⟩

/-- All that was fed, in order. -/
def fed (calls : List Call) : List UInt8 :=
  calls.flatMap fun
    | .feed chunk => chunk
    | .next => []

theorem after_append_singleton (inbox : Inbox) (calls : List Call) (call : Call) :
    inbox.after (calls ++ [call]) = (inbox.after calls).answer call := by
  simp [after]

@[simp] theorem fed_append_feed (calls : List Call) (chunk : List UInt8) :
    fed (calls ++ [.feed chunk]) = fed calls ++ chunk := by
  simp [fed]

@[simp] theorem fed_append_next (calls : List Call) : fed (calls ++ [.next]) = fed calls := by
  simp [fed]

/-- A call for the next frame moves it from what is still to come to what has been
taken out. -/
theorem answer_next_drain (p : Progress) :
    (p.answer .next).inbox.drain.after (p.answer .next).taken = p.inbox.drain.after p.taken := by
  obtain ⟨f, rest, -, -, hn⟩ | ⟨-, hn⟩ | ⟨e, -, hn⟩ := next_cases p.inbox
  · simp [Progress.answer, hn, drain_of_frame hn]
  · simp [Progress.answer, hn]
  · simp [Progress.answer, hn]

/-- What has been taken out, with what is still to come, is what all the bytes give at
once. -/
theorem drain_fed (calls : List Call) :
    (empty.feed (fed calls)).drain =
      (empty.after calls).inbox.drain.after (empty.after calls).taken := by
  induction calls using List.reverseRecOn with
  | nil => rfl
  | append_singleton calls call ih =>
    rw [after_append_singleton]
    cases call with
    | next => rw [fed_append_next, ih, answer_next_drain]
    | feed chunk =>
      have hsplit : empty.feed (fed (calls ++ [.feed chunk])) = (empty.feed (fed calls)).feed chunk := by
        simp [feed]
      rw [hsplit, drain_feed, ih]
      simp only [Progress.answer]
      rw [drain_feed (empty.after calls).inbox]
      simp [Drained.after]

/-- The frames taken out, written one after the other, and the bytes left are the bytes
that were fed. -/
theorem taken_append_inbox (calls : List Call) :
    (∀ f ∈ (empty.after calls).taken, f.Fits) ∧
      (empty.after calls).taken.flatMap Frame.bytes ++ (empty.after calls).inbox.bytes = fed calls := by
  induction calls using List.reverseRecOn with
  | nil => exact ⟨nofun, rfl⟩
  | append_singleton calls call ih =>
    obtain ⟨hfits, hbytes⟩ := ih
    rw [after_append_singleton]
    cases call with
    | feed chunk =>
      refine ⟨hfits, ?_⟩
      rw [fed_append_feed, ← hbytes]
      simp [Progress.answer, feed]
    | next =>
      rw [fed_append_next, ← hbytes]
      obtain ⟨f, rest, hf, hb, hn⟩ | ⟨-, hn⟩ | ⟨e, -, hn⟩ := next_cases (empty.after calls).inbox
      · simp only [Progress.answer, hn]
        refine ⟨fun g hg => ?_, by simp [hb]⟩
        rcases List.mem_append.mp hg with hg | hg
        · exact hfits g hg
        · rw [List.mem_singleton.mp hg]
          exact hf
      · simp only [Progress.answer, hn]
        exact ⟨hfits, trivial⟩
      · simp only [Progress.answer, hn]
        exact ⟨hfits, trivial⟩

/-- Frames that fit are written as their bytes. -/
theorem mapM_encode {frames : List Frame} (h : ∀ f ∈ frames, f.Fits) :
    frames.mapM (fun f => Frame.encode f.code.toNat f.body) = .ok (frames.map Frame.bytes) := by
  induction frames with
  | nil => rfl
  | cons f frames ih =>
    rw [List.mapM_cons, Frame.encode_of_fits (h f List.mem_cons_self),
      ih fun g hg => h g (List.mem_cons_of_mem _ hg)]
    rfl

/-- After an error every call finds the same error, and only what is fed changes. -/
theorem after_of_error (h : inbox.next = (.error e, rest)) (calls : List Call) :
    inbox.after calls = ⟨[], inbox.feed (fed calls)⟩ ∧
      (inbox.after calls).inbox.next = (.error e, (inbox.after calls).inbox) := by
  have hall : inbox.after calls = ⟨[], inbox.feed (fed calls)⟩ := by
    induction calls using List.reverseRecOn with
    | nil => simp [after, feed, fed]
    | append_singleton calls call ih =>
      rw [after_append_singleton, ih]
      cases call with
      | feed chunk => simp [Progress.answer, feed]
      | next => simp [Progress.answer, next_feed_of_error h]
  exact ⟨hall, by rw [hall, next_feed_of_error h]⟩

/-- For every sequence of chunks fed to a new inbox and frames asked for in between:
the frames taken out, written again, and the bytes left are what was fed; to go on until
no whole frame is left gives the same frames, the same error and the same rest as to
feed everything first; bytes in which no whole frame is left are a part of one, hence
shorter than a prefix and the longest frame; and an error takes nothing out and stays for
good, whatever is fed after it. -/
theorem streaming (calls : List Call) :
    let p := empty.after calls
    (p.taken.mapM fun f => Frame.encode f.code.toNat f.body).map
        (fun parts => parts.flatten ++ p.inbox.bytes) = .ok (fed calls) ∧
    p.inbox.drain.after p.taken = (empty.feed (fed calls)).drain ∧
    (∀ rest, p.inbox.next = (.ok none, rest) →
      rest = p.inbox ∧ Frame.IsPartial rest.bytes ∧ rest.size < 4 + Frame.maxLength) ∧
    (∀ e rest, p.inbox.next = (.error e, rest) →
      rest = p.inbox ∧
      (∃ length : Int, e = .frameLength length ∧ ¬(1 ≤ length ∧ length ≤ Frame.maxLength)) ∧
      ∀ later, rest.after later = ⟨[], rest.feed (fed later)⟩ ∧
        (rest.after later).inbox.next = (.error e, (rest.after later).inbox)) := by
  intro p
  obtain ⟨hfits, hbytes⟩ := taken_append_inbox calls
  refine ⟨?_, (drain_fed calls).symm, fun rest h => ?_, fun e rest h => ?_⟩
  · rw [mapM_encode hfits, ← hbytes, List.flatMap_def]
    rfl
  · obtain ⟨hp, rfl⟩ := partial_of_next h
    exact ⟨rfl, hp, Frame.length_lt_of_partial hp⟩
  · obtain ⟨hg, rfl⟩ := garbled_of_next h
    exact ⟨rfl, Frame.eq_frameLength_of_garbled hg, fun later => after_of_error h later⟩

theorem streaming_of_garbled :
    let p := empty.after [.feed [0, 0], .next, .feed [0, 0, 32], .next, .feed [255, 255, 255, 127]]
    p.taken = [⟨32, []⟩] ∧ p.inbox.next = (.error (.frameLength 2147483648), p.inbox) ∧
      ∀ later, (p.inbox.after later).inbox.next =
        (.error (.frameLength 2147483648), (p.inbox.after later).inbox) := by
  intro p
  have herror : p.inbox.next = (.error (.frameLength 2147483648), p.inbox) := by rfl
  obtain ⟨-, -, -, hstays⟩ := streaming
    [.feed [0, 0], .next, .feed [0, 0, 32], .next, .feed [255, 255, 255, 127]]
  obtain ⟨-, -, hlater⟩ := hstays _ _ herror
  exact ⟨by rfl, herror, fun later => (hlater later).2⟩

end Inbox
end DiagnosticWatch
