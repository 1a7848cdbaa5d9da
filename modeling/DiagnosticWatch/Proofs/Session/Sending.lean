/-
# A frame is sent as a whole, or the connection is dropped

Where the listeners ask for nothing, a frame that is sent either is written
with all its bytes, and nothing else changes, or the transport does not take
it, and the link drops the connection (`Session.Downed`): it closes it once,
tells the peer nothing, and forgets what it knew. Where there is no connection,
nothing happens. This holds between two moves of a run and in the midst of
them (`Session.Amid`), so also for the sign of life in a tick, for the answer
to one while frames are handled, and for a peer that has left unnoticed.

Key definitions: `Session.Amid`.
Key theorems: `Session.Downed.of_fault`, `Session.sends_whole_or_drops`.
-/
import DiagnosticWatch.Proofs.Session.Bystanders
import DiagnosticWatch.Proofs.Session.Clearance

namespace DiagnosticWatch
namespace Session

open Act

variable {A : Request → Prop} {link : Settings} {s t u : Session}

/-! ### In the midst of a move -/

/-- The session `u` is in the midst of what a request has begun at `s`, or a script or the ticker
that the loop runs there. -/
def Amid (s u : Session) : Prop :=
  Work (fun _ => True) s u ∨ ∃ job ready, s.loop.ready = job :: ready ∧
    (∀ d errand, job ≠ Errand.job d errand) ∧ Work (fun _ => True) (s.popped ready) u

theorem Sound.amid (hs : s.Sound link) (h : s.Amid u) : u.Sound link := by
  rcases h with work | ⟨job, ready, hr, other, work⟩
  · exact (hs.work work).sound
  · exact ((hs.popped hr other).sound.work work).sound

/-! ### Dropping the connection -/

theorem answersIdly_of_none (ask : Request → Act Session Answer) :
    AnswersIdly (fun _ => False) (fun _ => True) ask :=
  fun _ ⟨hnone, _⟩ => hnone.elim

/-- A write that fails drops the connection. -/
theorem Downed.of_fault (ask : Request → Act Session Answer) (h : u.Mute)
    (hp : u.phase = .connected) {fault : WriteFault} (hf : u.writeFault? = some fault)
    (hr : fault ≠ .refused) (kind : Kind) :
    ∃ t, send ask kind.code u = .ok false t ∧ Downed u t := by
  let words := u.held (.unsent · fault) ++ [.log .info
    s!"Sending {codeName kind.code} failed, dropping connection: {(Fault.write fault).message}"]
  have htallies : Tallies u (u.tellingAll words) := by
    refine tallies_tellingAll u fun e he => ?_
    rcases List.mem_append.mp he with he | he
    · obtain ⟨j, -, rfl⟩ := List.mem_map.mp he
      exact ⟨rfl, rfl, fun _ => rfl⟩
    · cases List.mem_singleton.mp he
      exact ⟨rfl, rfl, fun _ => rfl⟩
  have hattended : (u.tellingAll words).Attended fun _ => False := h.attended.congr_link rfl
  obtain ⟨t, ht, hdowned⟩ := downed_disconnect (answersIdly_of_none ask) hattended trivial
  refine ⟨t, ?_, hdowned.of_tallies htallies rfl rfl rfl⟩
  rw [send_of_fault ask hp (Frame.encode_bare kind) hf hr]
  exact bind_of_ok ht

/-- Whatever has happened to a session, and whatever it is in the midst of, as long as its
listeners ask for nothing and the transport does not refuse the bytes as such: to send a frame
answers. It answers yes if and only if the link is connected and the transport takes what is
written; then the five bytes of the frame are written to the connection of the link, and nothing
else has changed. If it answers no, nothing is written and the link is not connected; either it was
not connected before, and nothing at all has changed, or it has dropped its connection, which was
never closed before. -/
theorem sends_whole_or_drops {pacer : Settings} {store : Store} {outcomes : List Outcome}
    {probe : Option (List (Option Json))}
    (h : Run (fun _ => True) (start link pacer store outcomes probe) s) (amid : s.Amid u)
    (mute : u.Mute) (usual : u.writeFault? ≠ some .refused) (ask : Request → Act Session Answer)
    (kind : Kind) :
    ∃ sent t, send ask kind.code u = .ok sent t ∧
      (sent = true ↔ u.phase = .connected ∧ u.writeFault? = none) ∧
      (sent = true → ∃ i bytes, u.link.writesTo = some i ∧
        Frame.encode kind.code [] = .ok bytes ∧ bytes.length = 5 ∧ t = u.telling (.write i bytes)) ∧
      (sent = false → t.written = u.written ∧ t.phase ≠ .connected ∧
        (u.phase ≠ .connected ∧ t = u ∨
          ∃ i, u.link.writesTo = some i ∧ u.closes i = 0 ∧ Downed u t)) := by
  have hs : u.Sound link :=
    (sound_of_run (fun o _ => script_within_of_all (fun _ => trivial) o.race) h).amid amid
  by_cases hp : u.phase = .connected
  · obtain ⟨i, hi, -⟩ := hs.held.2 hp
    cases hf : u.writeFault? with
    | none =>
      have hsend := send_of_willing ask hp hi hf (Frame.encode_bare kind)
      refine ⟨true, _, hsend, by simp [hp], fun _ => ?_, by simp⟩
      exact ⟨i, _, hi, Frame.encode_bare kind, rfl, rfl⟩
    | some fault =>
      have hr : fault ≠ .refused := fun hr => usual (by rw [hf, hr])
      obtain ⟨t, ht, hdown⟩ := Downed.of_fault ask mute hp hf hr kind
      have hphase : t.phase ≠ .connected := by simp [hdown.phase]
      refine ⟨false, t, ht, by simp, by simp, fun _ => ⟨hdown.written, hphase, .inr ?_⟩⟩
      exact ⟨i, hi, hs.closes_of_held hi, hdown⟩
  · exact ⟨false, u, send_of_apart hp _, by simp [hp], by simp, fun _ => ⟨rfl, hp, .inl ⟨hp, rfl⟩⟩⟩

/-- A report is stored and a listener fails, and the peer resets the connection. -/
theorem drops_of_reset :
    let s := (start {} {} .empty [⟨.opens, .int 0, .none, [], false, []⟩] none).after
      [.ask (.subscribe "view" fun _ => [.fail "closed"]), .ask (.connect "127.0.0.1" (.int 27099)),
        .pass (.int 0),
        .ask (.data [11, 0, 0, 0, 0, 3, 0, 0, 0, 47, 97, 0, 0, 0, 0, 0, 0, 0, 0] none), .ask .tick,
        .ask (.setWrites (some .reset) none)]
    ∃ t, send (perform maxDepth) Kind.pingAlive.code s = .ok false t ∧ t.phase = .disconnected ∧
      t.closes 0 = 1 ∧ t.signals = s.signals ++ [[]] := by
  intro s
  have hrun := run_of_steps (A := fun _ => True)
    (s := start {} {} .empty [⟨.opens, .int 0, .none, [], false, []⟩] none)
    [.ask (.subscribe "view" fun _ => [.fail "closed"]), .ask (.connect "127.0.0.1" (.int 27099)),
      .pass (.int 0),
      .ask (.data [11, 0, 0, 0, 0, 3, 0, 0, 0, 47, 97, 0, 0, 0, 0, 0, 0, 0, 0] none), .ask .tick,
      .ask (.setWrites (some .reset) none)]
    (fun step _ => stepWithin_of_all (fun _ => trivial) step) (by decide +kernel)
  have hall : s.link.life.listeners ++ s.link.signal.listeners =
      [⟨0, "view", fun _ => [.fail "closed"], none⟩] := rfl
  have hmute : s.Mute := mute_of_listeners hall (List.forall_mem_singleton.mpr fun _ => rfl)
  have hreset : s.writeFault? = some .reset := by decide +kernel
  have hphase : s.phase = .connected := by decide +kernel
  obtain ⟨sent, t, ht, hiff, -, hno⟩ := sends_whole_or_drops hrun (.inl (.refl s)) hmute
    (by rw [hreset]; nofun) (perform maxDepth) .pingAlive
  have hsent : sent = false := by simpa [hreset] using hiff
  subst hsent
  obtain ⟨-, -, ⟨hp, -⟩ | ⟨i, hi, hclosed, hdown⟩⟩ := hno rfl
  · exact absurd hphase hp
  have hwrites : s.link.writesTo = some 0 := by decide +kernel
  obtain rfl : i = 0 := Option.some.inj (hi.symm.trans hwrites)
  refine ⟨t, ht, hdown.phase, by rw [hdown.closes, hclosed, if_pos hi], ?_⟩
  rw [hdown.signals, show s.link.store.isEmpty = false by decide +kernel]
  rfl

end Session
end DiagnosticWatch
