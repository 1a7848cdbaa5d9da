/-
# What a tick does first

A tick looks at the connection before it handles a frame, and where it finds a
silence, it sends a sign of life first (`Session.lookedAt`). It leaves alone what
was received: the first frame that it handles is the one that the inbox began
with. So a peer that has left cleanly counts as there exactly as long as the
next tick has a frame to handle, and all that tells frames apart agrees on that.

Key definitions: `Session.lookedAt`.
Key theorems: `Session.tick_of_up`, `Session.tick_of_next`, `Session.recognizers_agree`.
-/
import DiagnosticWatch.Proofs.Session.Forsaken
import DiagnosticWatch.Proofs.Wire.Recognizers

namespace DiagnosticWatch
namespace Session

open Act

variable {s : Session} {i : Nat} {f : Frame} {rest : Inbox} {r : Receiver} {silent : Bool}
  (ask : Request → Act Session Answer)

/-- A tick has looked at connection `i`, and has sent a sign of life if it found a silence. -/
def lookedAt (i : Nat) (silent : Bool) (s : Session) : Session :=
  if silent then
    telling (.write i (Frame.bare .pingAlive))
      { s.telling (.looked i .silent) with link := { s.link with lastTraffic := s.loop.now } }
  else s.telling (.looked i .calm)

theorem lookedAt_readsFrom (i : Nat) (silent : Bool) (s : Session) :
    (s.lookedAt i silent).link.readsFrom = s.link.readsFrom := by
  cases silent <;> rfl

theorem lookedAt_receiver (i : Nat) (silent : Bool) (s : Session) :
    (s.lookedAt i silent).receiver? = s.receiver? := by
  cases silent <;> rfl

theorem finding_of_up (hup : s.isUp = true) : s.finding =
    if s.link.settings.keepAliveInterval.below (s.loop.now - s.link.lastTraffic) then .silent
    else .calm := by
  rw [finding, if_neg (by simp [hup])]

/-- A tick of a connection that is up handles what is there, after a sign of life if there was a
silence. -/
theorem tick_of_up (hup : s.isUp = true) (hi : s.link.writesTo = some i)
    (hw : s.finding = .silent → s.writeFault? = none) :
    tick ask s = drainAll ask (s.lookedAt i (s.finding = .silent)) := by
  have hp : s.phase = .connected := (receiver_of_isUp hup).1
  cases hs : s.finding with
  | gone =>
    rw [finding_of_up hup] at hs
    split at hs <;> cases hs
  | calm => exact tick_of_calm ask hp hi hs
  | silent =>
    let v : Session :=
      { s.telling (.looked i .silent) with link := { s.link with lastTraffic := s.loop.now } }
    have hsent : sendAlive ask v = .ok true (s.lookedAt i true) :=
      send_of_willing ask (s := v) hp hi (hw hs) (Frame.encode_bare .pingAlive)
    rw [tick_of_silent ask hp hi hs]
    exact bind_of_ok hsent

/-- The first frame that a tick handles is the one that the inbox begins with. -/
theorem tick_of_next (hup : s.isUp = true) (hi : s.link.writesTo = some i)
    (hw : s.finding = .silent → s.writeFault? = none) (hreads : s.link.readsFrom = some i)
    (hr : s.receiver? = some r) (hn : r.inbox.next = (.ok (some f), rest)) :
    tick ask s = hear ask f (drain ask r.inbox.size)
      ((s.lookedAt i (s.finding = .silent)).tookOut i f rest) := by
  have hr' := (lookedAt_receiver i (s.finding = .silent) s).trans hr
  have hreads' := (lookedAt_readsFrom i (s.finding = .silent) s).trans hreads
  rw [tick_of_up ask hup hi hw, drainAll, get_bind_apply, hr']
  simp only [drain_succ ask hreads' hr', hn]

/-- Bytes are told to begin with a frame in three ways, which agree. A frame is taken out of an
inbox exactly if the bytes before those left are read as that frame, in which there is no choice.
An inbox has a frame in exactly these cases: to ask for that neither fails nor takes anything out.
In the others nothing is taken out, whether or not the length that it begins with is an error. So a
peer that has left cleanly counts as there exactly if a frame can be taken out: then it is the first
that the next tick handles, unless that fails to send a sign of life before, and otherwise the next
tick drops the connection. -/
theorem recognizers_agree :
    (∀ (inbox rest : Inbox) (f : Frame), inbox.next = (.ok (some f), rest) ↔
      ∃ data, inbox.bytes = data ++ rest.bytes ∧ Frame.decode data = .ok f) ∧
    (∀ (bytes data left data' left' : List UInt8) (f f' : Frame),
      bytes = data ++ left → Frame.decode data = .ok f →
      bytes = data' ++ left' → Frame.decode data' = .ok f' →
      data = data' ∧ left = left' ∧ f = f') ∧
    (∀ inbox : Inbox, inbox.hasFrame = true ↔
      ∃ data left f, inbox.bytes = data ++ left ∧ Frame.decode data = .ok f) ∧
    (∀ inbox : Inbox, inbox.hasFrame = false → inbox.next = (.ok none, inbox) ∨
      ∃ length, inbox.next = (.error (.frameLength length), inbox)) ∧
    ∀ (s : Session) (i : Nat) (r : Receiver), s.phase = .connected → s.link.writesTo = some i →
      s.link.readsFrom = some i → s.receiver? = some r → r.peerClosed = true → r.error = none →
      (r.isAlive = true ↔ ∃ f rest, r.inbox.next = (.ok (some f), rest)) ∧
      (∀ f rest, r.inbox.next = (.ok (some f), rest) →
        (s.finding = .silent → s.writeFault? = none) →
        tick ask s = hear ask f (drain ask r.inbox.size)
          ((s.lookedAt i (s.finding = .silent)).tookOut i f rest)) ∧
      (r.isAlive = false → tick ask s = disconnect ask false (s.tellingAll
        [.looked i .gone, .log .info "Debug server closed the connection"])) := by
  refine ⟨fun _ _ _ => Inbox.next_eq_ok_iff, fun _ _ _ _ _ _ _ => Inbox.split_unique,
    fun _ => Inbox.hasFrame_iff_decode, fun _ => Inbox.next_of_not_hasFrame, ?_⟩
  intro s i r hp hi hreads hr hclosed herror
  have halive := Receiver.isAlive_iff_next hclosed herror
  have hup : s.isUp = r.isAlive := by simp [isUp, hp, hr]
  refine ⟨halive, fun f rest hn hw => ?_, fun hgone => ?_⟩
  · exact tick_of_next ask (hup.trans (halive.mpr ⟨f, rest, hn⟩)) hi hw hreads hr hn
  · rw [tick_of_gone ask hp (hup.trans hgone), held, hi]
    simp [goneText, hr, herror]

/-- The peer has sent a frame and a part of another when it leaves. -/
theorem recognizers_agree_of_end :
    let s := (start {} {} .empty [⟨.opens, .int 0, .none, [0, 0, 0, 0, 32, 1, 0], false, []⟩] none).after
      [.ask (.connect "127.0.0.1" (.int 27099)), .pass (.int 0), .ask (.endOfInput none)]
    let r : Receiver := ⟨⟨[0, 0, 0, 0, 32, 1, 0]⟩, true, true, none⟩
    Frame.decode [0, 0, 0, 0, 32] = .ok ⟨32, []⟩ ∧
    r.inbox.next = (.ok (some ⟨32, []⟩), ⟨[1, 0]⟩) ∧ r.isAlive = true ∧
    tick (perform maxDepth) s = hear (perform maxDepth) ⟨32, []⟩ (drain (perform maxDepth) 7)
      ((s.lookedAt 0 false).tookOut 0 ⟨32, []⟩ ⟨[1, 0]⟩) := by
  intro s r
  obtain ⟨hnext, -, -, -, halive⟩ := recognizers_agree (perform maxDepth)
  have hdecode : Frame.decode [0, 0, 0, 0, 32] = .ok ⟨32, []⟩ := by decide
  have hn : r.inbox.next = (.ok (some ⟨32, []⟩), ⟨[1, 0]⟩) :=
    (hnext _ _ _).mpr ⟨[0, 0, 0, 0, 32], rfl, hdecode⟩
  have hr : s.receiver? = some r := by decide +kernel
  have hcalm : s.finding = .calm := by decide +kernel
  obtain ⟨hiff, htick, -⟩ := halive s 0 r (by decide +kernel) (by decide +kernel)
    (by decide +kernel) hr rfl rfl
  refine ⟨hdecode, hn, hiff.mpr ⟨_, _, hn⟩, ?_⟩
  have hfirst := htick _ _ hn fun hs => nomatch hcalm.symm.trans hs
  rw [hcalm] at hfirst
  exact hfirst

end Session
end DiagnosticWatch
