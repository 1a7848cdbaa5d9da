/-
# Signs of life after a silence

The link notes when there was traffic last: when it connects, when a frame is
handled, and when it sends a sign of life since nothing happened for too long.
It does so in three places, and in the middle of handling what was received,
while listeners run. Yet what it has noted can always be read off what was told
with the readings of the clock (`Session.beats_of_chronicle`), so that every
tick, whoever makes it, finds a silence exactly if there was none of that for
longer than the interval.

Key definitions: `Event.isTrafficOn`, `Session.Chronicle`, `Session.lastTrafficOn`,
`Session.KeptAlive`.
Key theorems: `Session.inTime_of_moves`, `Session.beats_of_chronicle`,
`Session.kept_alive`.
-/
import DiagnosticWatch.Proofs.Number.Elapsed
import DiagnosticWatch.Proofs.Session.Cadence
import DiagnosticWatch.Proofs.Session.Looks

namespace DiagnosticWatch

/-- Whether an event is traffic on connection `i`: the link connects, a frame is handled, or a
sign of life is due since there was a silence. -/
def Event.isTrafficOn (i : Nat) : Event → Bool
  | .moved _ .connected => true
  | .handled j _ | .looked j .silent => j = i
  | _ => false

namespace Pulse

variable {interval : Number} {now : Float} {p q : Pulse} {e : Event} {i : Nat}

/-- A tick that finds the connection there finds a silence exactly if there was no traffic for
longer than the interval, and notes it then. -/
theorem looked_of_next {finding : Finding} (hf : finding ≠ .gone)
    (hn : p.next? interval now (.looked i finding) = some q) :
    p.isOf i = true ∧ (finding = .silent ↔ interval.below (now - p.since) = true) ∧
      q = ⟨if finding = .silent then now else p.since, i⟩ := by
  cases finding with
  | gone => exact absurd rfl hf
  | silent =>
    simp only [next?, Bool.and_eq_true] at hn
    split at hn <;> cases hn
    rename_i hsilent
    exact ⟨hsilent.1, iff_of_true rfl hsilent.2, rfl⟩
  | calm =>
    simp only [next?, Bool.and_eq_true, Bool.not_eq_true'] at hn
    split at hn <;> cases hn
    rename_i hcalm
    exact ⟨hcalm.1, by simp [hcalm.2], rfl⟩

/-- What is noted about connection `i` after an event is the reading if the event is traffic on it,
and what was noted before otherwise. -/
theorem since_of_next (hn : p.next? interval now e = some q) (hi : q.isOf i = true) :
    (e.isTrafficOn i = true ∧ q.since = now) ∨
      (e.isTrafficOn i = false ∧ q.since = p.since ∧ p.isOf i = true) := by
  have hkept (h : p.next? interval now e = some p) (ht : e.isTrafficOn i = false) :
      e.isTrafficOn i = false ∧ q.since = p.since ∧ p.isOf i = true := by
    cases h.symm.trans hn
    exact ⟨ht, rfl, hi⟩
  cases e with
  | moved old new =>
    cases new with
    | connected =>
      cases hn
      exact .inl ⟨rfl, rfl⟩
    | disconnected | connecting => exact .inr (hkept rfl rfl)
  | handled j f =>
    simp only [next?] at hn
    split at hn <;> cases hn
    exact .inl ⟨hi, rfl⟩
  | looked j finding =>
    by_cases hf : finding = .gone
    · subst hf
      exact .inr (hkept rfl rfl)
    · obtain ⟨hof, -, rfl⟩ := looked_of_next hf hn
      obtain rfl : j = i := of_decide_eq_true hi
      cases finding with
      | gone => exact absurd rfl hf
      | silent => exact .inl ⟨decide_eq_true rfl, rfl⟩
      | calm => exact .inr ⟨rfl, rfl, hof⟩
  | _ => exact .inr (hkept rfl rfl)

/-- There was traffic no longer ago than the interval. -/
def Rested (interval : Number) (now : Float) (p : Pulse) : Prop :=
  interval.below (now - p.since) = false

theorem Rested.next (h : p.Rested interval now) (hnow : interval.below (now - now) = false)
    (hn : p.next? interval now e = some q) : q.Rested interval now := by
  unfold next? at hn
  split at hn
  · cases hn
    exact hnow
  · split at hn <;> cases hn
    exact hnow
  · split at hn <;> cases hn
    exact hnow
  · split at hn <;> cases hn
    exact h
  · cases hn
    exact h

/-- After a look at a connection that is up there was traffic no longer ago than that. -/
theorem rested_of_look {finding : Finding} (hf : finding ≠ .gone)
    (hnow : interval.below (now - now) = false)
    (hn : p.next? interval now (.looked i finding) = some q) : q.Rested interval now := by
  obtain ⟨-, hiff, rfl⟩ := looked_of_next hf hn
  unfold Rested
  by_cases hs : finding = .silent
  · simpa only [hs, if_pos] using hnow
  · simpa only [hs, if_false] using Bool.eq_false_iff.mpr (mt hiff.mpr hs)

theorem rested_of_foldlM {more : List Event} (h : p.Rested interval now)
    (hnow : interval.below (now - now) = false)
    (hn : more.foldlM (next? interval now) p = some q) : q.Rested interval now := by
  induction more generalizing p with
  | nil =>
    cases hn
    exact h
  | cons e more ih =>
    rw [List.foldlM_cons] at hn
    obtain ⟨r, hr, hrest⟩ := Option.bind_eq_some_iff.mp hn
    exact ih (h.next hnow hr) hrest

/-- What is noted after some events, each told at a reading of the clock. -/
def past? (interval : Number) (p : Pulse) (told : List (Float × Event)) : Option Pulse :=
  told.foldlM (fun p x => p.next? interval x.1 x.2) p

theorem past?_append {told more : List (Float × Event)} : p.past? interval (told ++ more) = some q ↔
    ∃ r, p.past? interval told = some r ∧ r.past? interval more = some q := by
  unfold past?
  rw [List.foldlM_append]
  exact Option.bind_eq_some_iff

theorem past?_cons {x : Float × Event} {more : List (Float × Event)} :
    p.past? interval (x :: more) = some q ↔
      ∃ r, p.next? interval x.1 x.2 = some r ∧ r.past? interval more = some q := by
  unfold past?
  rw [List.foldlM_cons]
  exact Option.bind_eq_some_iff

/-- Events that are all told at one reading. -/
theorem past?_map (more : List Event) :
    p.past? interval (more.map (now, ·)) = more.foldlM (next? interval now) p :=
  List.foldlM_map

end Pulse

namespace Session

open Act Pulse

variable {A : Request → Prop} {s t u : Session} {told : List (Float × Event)} {i : Nat}
  {p q : Pulse} {limit : Number}

/-! ### Every move is in time -/

theorem overlooks_inTime : Overlooks A InTime :=
  overlooks_of_apart Apart.inTime

theorem overlooksSetOut_inTime : OverlooksSetOut InTime where
  sets s _ := (apart_movedTo .connecting nofun s).inTime
  refuses s := .of_idle [.refused s.phase .connecting] rfl rfl rfl (by simp [Event.isPulse])
  dials _ _ _ := .of_idle [] rfl rfl rfl nofun

theorem lax_inTime : Lax InTime :=
  fun _ _ => Casual.inTime

theorem inTime_of_arms {x : Float} (h : Arms x s t) : InTime s t := by
  have htrace : t.trace.latestFirst = [.wait s.interval s.loop.now] ++ s.trace.latestFirst := by
    rw [h.trace]
    rfl
  exact .of_idle _ h.now (by rw [h.link]) htrace (by simp [Event.isPulse])

theorem inTime_perform (depth : Nat) (q : Request) (h : Request.Within A q) :
    Keeps A InTime (perform depth q) := by
  induction depth generalizing q with
  | zero => exact Keeps.throw _
  | succ depth ih =>
    have dial := keeps_connect overlooks_inTime ih overlooksSetOut_inTime
    refine keeps_answer overlooks_inTime ih h.script_within dial (fun hpeer s => ?_)
      (keeps_paceTick lax_inTime overlooks_inTime ih dial)
      (keeps_startTicker lax_inTime) (keeps_cancelTicker lax_inTime)
    exact leads_ofPeer (R := Under A InTime)
      (fun v i f hv => ⟨{ hv with }, .of_idle [] rfl rfl rfl nofun⟩)
      (fun v level text hv => ⟨{ hv with }, .of_idle [.log level text] rfl rfl rfl
        (by simp [Event.isPulse])⟩) hpeer s

/-- Whatever happens, but that the clock is set. -/
theorem inTime_of_moves (hs : s.Fit A) {move : Move} (hc : ∀ now, move ≠ .clock now)
    (h : Moves A move s t) : InTime s t := by
  refine (under_of_moves Apart.inTime lax_inTime inTime_perform inTime_perform (fun depth => ?_)
    (fun now hm => absurd hm (hc now)) hs h hs.scripted.attended).2
  have dial := keeps_connect overlooks_inTime (inTime_perform (A := A) depth) overlooksSetOut_inTime
  exact keeps_runTicker lax_inTime overlooks_inTime (inTime_perform depth) dial inTime_of_arms

/-! ### Chronicles -/

/-- Some moves take `s` to `t`, and this is told meanwhile, each event with the reading of the
clock. -/
inductive Chronicle (A : Request → Prop) (s : Session) : List (Float × Event) → Session → Prop
  | nil : Chronicle A s [] s
  | snoc {told : List (Float × Event)} {t u : Session} (before : Chronicle A s told t) (move : Move)
      (moves : Moves A move t u) (more : List Event)
      (tells : u.trace.events = t.trace.events ++ more) :
      Chronicle A s (told ++ more.map (t.loop.now, ·)) u

theorem Chronicle.run (h : Chronicle A s told t) : Run A s t := by
  induction h with
  | nil => exact refl_of (Run A) s
  | snoc _ move moves _ _ ih => exact ih.tail ⟨move, moves⟩

theorem events_of_moves (hs : s.Fit A) {move : Move} (h : Moves A move s t) :
    ∃ more, t.trace.events = s.trace.events ++ more := by
  by_cases hc : ∃ now, move = .clock now
  · obtain ⟨now, rfl⟩ := hc
    cases h
    exact ⟨[], (List.append_nil _).symm⟩
  · obtain ⟨more, hm, -⟩ := (inTime_of_moves hs (fun now hm => hc ⟨now, hm⟩) h).told
    exact ⟨more, hm⟩

/-- There is a chronicle of every run. -/
theorem exists_chronicle (hs : s.Fit A) (h : Run A s t) : ∃ told, Chronicle A s told t := by
  induction h with
  | refl => exact ⟨[], .nil⟩
  | tail hrun hm ih =>
    obtain ⟨told, before⟩ := ih
    obtain ⟨move, hm⟩ := hm
    obtain ⟨more, tells⟩ := events_of_moves (hs.run hrun) hm
    exact ⟨_, before.snoc move hm more tells⟩

/-- What is noted of the traffic can be read off a chronicle. -/
theorem beats_of_chronicle (hs : s.Fit A) (hp : s.Beats p) (h : Chronicle A s told t) :
    t.link.settings = s.link.settings ∧
      ∃ q, p.past? s.link.settings.keepAliveInterval told = some q ∧ t.Beats q := by
  induction h with
  | nil => exact ⟨rfl, p, rfl, hp⟩
  | @snoc told t u before move moves more tells ih =>
    obtain ⟨hsettings, q, hq, ht⟩ := ih
    by_cases hc : ∃ now, move = .clock now
    · -- Nothing is told when the clock is set, and the link stays as it is.
      obtain ⟨now, rfl⟩ := hc
      cases moves
      obtain rfl : more = [] := List.self_eq_append_right.mp tells
      exact ⟨hsettings, q, by simpa using hq, ht.congr rfl⟩
    · have hmove := inTime_of_moves (hs.run before.run) (fun now hm => hc ⟨now, hm⟩) moves
      obtain ⟨more', hm, hbeats⟩ := hmove.told
      obtain rfl : more = more' := List.append_cancel_left (tells.symm.trans hm)
      obtain ⟨r, hr, hu⟩ := hbeats q ht
      refine ⟨hmove.settings.trans hsettings, r, past?_append.mpr ⟨q, hq, ?_⟩, hu⟩
      rw [past?_map, ← hsettings, hr]

/-- When there was traffic on connection `i` last, as it was told; the first reading of all if
there was none. -/
def lastTrafficOn (i : Nat) (told : List (Float × Event)) : Float :=
  told.foldl (fun last x => if x.2.isTrafficOn i then x.1 else last) epoch

theorem lastTrafficOn_snoc (i : Nat) (told : List (Float × Event)) (x : Float × Event) :
    lastTrafficOn i (told ++ [x]) = if x.2.isTrafficOn i then x.1 else lastTrafficOn i told := by
  simp [lastTrafficOn]

/-- If what is noted is about connection `i`, it is the latest traffic on that. The induction is on
what was told, from the end. -/
theorem since_of_past (h : past? limit ⟨epoch, none⟩ told = some p) (hi : p.isOf i = true) :
    p.since = lastTrafficOn i told := by
  induction told using List.reverseRecOn generalizing p with
  | nil =>
    cases h
    rfl
  | append_singleton told x ih =>
    obtain ⟨q, hq, hx⟩ := past?_append.mp h
    obtain ⟨r, hn, hr⟩ := past?_cons.mp hx
    cases hr
    rw [lastTrafficOn_snoc]
    rcases since_of_next hn hi with ⟨ht, hsince⟩ | ⟨ht, hsince, hof⟩
    · rw [if_pos ht, hsince]
    · rw [if_neg (by simp [ht]), hsince, ih hq hof]

theorem lastTrafficOn_append (i : Nat) (told more : List (Float × Event)) :
    lastTrafficOn i (told ++ more) = lastTrafficOn i told ∨
      ∃ x ∈ more, lastTrafficOn i (told ++ more) = x.1 := by
  induction more using List.reverseRecOn with
  | nil => exact .inl (by rw [List.append_nil])
  | append_singleton more x ih =>
    rw [← List.append_assoc, lastTrafficOn_snoc]
    split
    · exact .inr ⟨x, List.mem_append_right _ List.mem_cons_self, rfl⟩
    · exact ih.imp_right fun ⟨y, hy, he⟩ => ⟨y, List.mem_append_left _ hy, he⟩

theorem Chronicle.events (h : Chronicle A s told t) :
    t.trace.events = s.trace.events ++ told.map Prod.snd := by
  induction h with
  | nil => simp
  | snoc _ _ _ _ tells ih =>
    rw [tells, ih, List.map_append, List.map_map, List.append_assoc]
    simp

/-- Signs of life on connection `i` come after a silence longer than `limit` and only then, as far
as the session `s` goes, up to which this was told. -/
structure KeptAlive (limit : Number) (i : Nat) (told : List (Float × Event)) (s : Session) :
    Prop where
  /-- Nothing is left out of what was told. -/
  complete : told.map Prod.snd = s.trace.events
  /-- The link has noted the latest traffic. -/
  noted : s.link.writesTo = some i → s.link.lastTraffic = lastTrafficOn i told
  /-- Every tick that finds the connection there finds a silence exactly if the latest traffic is
  longer ago than the limit. -/
  due : ∀ before x finding after, told = before ++ (x, Event.looked i finding) :: after →
    finding ≠ .gone → (finding = .silent ↔ limit.below (x - lastTrafficOn i before) = true)
  /-- The sign of life is what comes next on the connection, or it fails to be sent. -/
  sent : ∀ before after, s.talk i = before ++ Event.looked i .silent :: after →
    ∃ rest, after = .write i (Frame.bare .pingAlive) :: rest ∨
      ∃ fault, after = .unsent i fault :: rest
  /-- Where the transport takes writes, a tick sends it before it handles any frame, if it is
  due. -/
  first : s.isUp = true → s.link.writesTo = some i → s.writeFault? = none → ∀ ask,
    tick ask s = drainAll ask (s.lookedAt i (limit.below (s.loop.now - lastTrafficOn i told)))
  /-- So it does with nothing but a part of a frame to handle, which leaves it at that. -/
  unfinished : s.isUp = true → s.link.writesTo = some i → s.writeFault? = none → ∀ r,
    s.receiver? = some r → r.inbox.next = (.ok none, r.inbox) → ∀ ask,
    tick ask s = .ok () (s.lookedAt i (limit.below (s.loop.now - lastTrafficOn i told)))
  /-- What is received is not traffic as long as it is not handled. -/
  received : ∀ bytes c depth t, (perform depth (.data bytes c)).Ends s t →
    t.trace = s.trace ∧ t.link = s.link
  /-- Nor is a sign of life that the peer asks for, whenever that is. -/
  echoed : ∀ ask (u : Session) (f : Frame), f.kind? = some .pingAlive → u.phase = .connected →
    u.link.writesTo = some i → u.writeFault? = none →
    handle ask f u = .ok (.ok ()) (u.telling (.write i (Frame.bare .pingAlive)))
  /-- Two silences are longer apart than the limit, if the clock does not go back between them. -/
  spaced : ∀ before x between y after,
    told = before ++ (x, Event.looked i .silent) ::
      (between ++ (y, Event.looked i .silent) :: after) →
    (∀ z ∈ between, x ≤ z.1) → limit.below (y - x) = true
  /-- When a tick that has found the connection there is done, the latest traffic is no longer ago
  than the limit, by the reading of that tick. -/
  rested : limit.atMost 0 = false → ∀ before x finding after rest,
    told = before ++ (x, Event.looked i finding) :: (after ++ rest) → finding ≠ .gone →
    (∀ z ∈ after, z.1 = x) →
    limit.below (x - lastTrafficOn i (before ++ (x, Event.looked i finding) :: after)) = false
  /-- So it is after a tick that leaves the link connected. -/
  left : limit.atMost 0 = false → ∀ depth t more, (tick (perform depth)).Ends s t →
    t.trace.events = s.trace.events ++ more → t.phase = .connected → t.link.writesTo = some i →
    limit.below (s.loop.now - lastTrafficOn i (told ++ more.map (s.loop.now, ·))) = false

section Past

variable {before after between rest : List (Float × Event)} {x y : Float} {finding : Finding}

theorem silent_iff_of_past (h : past? limit ⟨epoch, none⟩ told = some p)
    (ht : told = before ++ (x, Event.looked i finding) :: after) (hf : finding ≠ .gone) :
    finding = .silent ↔ limit.below (x - lastTrafficOn i before) = true := by
  subst ht
  obtain ⟨q, hq, hx⟩ := past?_append.mp h
  obtain ⟨r, hn, -⟩ := past?_cons.mp hx
  obtain ⟨hof, hiff, -⟩ := looked_of_next hf hn
  rwa [since_of_past hq hof] at hiff

/-- The second silence began no earlier than the first was found. -/
theorem spaced_of_past (h : past? limit ⟨epoch, none⟩ told = some p)
    (ht : told = before ++ (x, Event.looked i .silent) ::
      (between ++ (y, Event.looked i .silent) :: after))
    (hle : ∀ z ∈ between, x ≤ z.1) : limit.below (y - x) = true := by
  have hsplit : told = (before ++ [(x, Event.looked i .silent)] ++ between) ++
      (y, Event.looked i .silent) :: after := by
    simp [ht]
  have hbelow := (silent_iff_of_past h hsplit nofun).mp rfl
  have hfirst : lastTrafficOn i (before ++ [(x, Event.looked i .silent)]) = x := by
    rw [lastTrafficOn_snoc, if_pos (by simp [Event.isTrafficOn])]
  rcases lastTrafficOn_append i (before ++ [(x, Event.looked i .silent)]) between
    with hl | ⟨z, hz, hl⟩
  · rwa [hl, hfirst] at hbelow
  · rw [hl] at hbelow
    exact Number.below_sub_of_le (hle z hz) hbelow

/-- There was traffic at the reading of the tick, or the tick has found no silence. -/
theorem rested_of_past (h : past? limit ⟨epoch, none⟩ told = some p) (hl : limit.atMost 0 = false)
    (ht : told = before ++ (x, Event.looked i finding) :: (after ++ rest)) (hf : finding ≠ .gone)
    (hx : ∀ z ∈ after, z.1 = x) :
    limit.below (x - lastTrafficOn i (before ++ (x, Event.looked i finding) :: after)) = false := by
  have hnow := Number.not_below_sub_self hl x
  rw [List.append_cons]
  rcases lastTrafficOn_append i (before ++ [(x, Event.looked i finding)]) after
    with he | ⟨z, hz, he⟩
  · have hiff := silent_iff_of_past h ht hf
    rw [he, lastTrafficOn_snoc]
    cases finding with
    | gone => exact absurd rfl hf
    | silent => rwa [if_pos (by simp [Event.isTrafficOn])]
    | calm =>
      rw [if_neg (by simp [Event.isTrafficOn])]
      exact Bool.eq_false_iff.mpr (mt hiff.mpr (by simp))
  · rwa [he, hx z hz]

end Past

/-! ### Ticks -/

variable {ask : Request → Act Session Answer}

/-- A tick that finds the peer gone leaves no connection. -/
theorem apart_of_gone (ha : Asks A ask) (hs : s.Fit A) (hp : s.phase = .connected)
    (hup : s.isUp = false) (h : (tick ask).Ends s t) : t.phase ≠ .connected := by
  obtain ⟨i, hi, -⟩ := hs.held.2 hp
  have hword : Tells s [.looked i .gone] (s.telling (.looked i .gone)) := .of_word s rfl
  have hfit := hs.tells (hword.log .info s.goneText)
  unfold Ends at h
  rw [tick_of_gone ask hp hup, held, hi] at h
  exact (apart_of_hangUp ha hfit h).2

/-- A tick that leaves the link connected has found the connection there. -/
theorem look_of_tick (ha : Asks A ask) (hs : s.Fit A) (h : (tick ask).Ends s t)
    (hp : t.phase = .connected) {more : List Event}
    (tells : t.trace.events = s.trace.events ++ more) :
    ∃ j, .looked j s.finding ∈ more ∧ s.finding ≠ .gone := by
  have hconnected : s.phase = .connected := by
    by_contra hapart
    rw [(ends_ok_iff (tick_of_apart hapart)).mp h] at hp
    exact hapart hp
  have hup : s.isUp = true := by
    by_contra hdown
    exact apart_of_gone ha hs hconnected (Bool.eq_false_iff.mpr hdown) h hp
  obtain ⟨j, hj, -⟩ := hs.held.2 hconnected
  obtain ⟨rest, hrest, -⟩ := lands_look ha hs t h j
  rw [if_pos hj, talk, tells, List.filter_append, ← talk, List.append_assoc,
    List.append_cancel_left_eq] at hrest
  have hmem : .looked j s.finding ∈ more.filter (·.connection? = some j) := by simp [hrest]
  refine ⟨j, List.mem_of_mem_filter hmem, ?_⟩
  rw [finding_of_up hup]
  split <;> rintro ⟨⟩

theorem rested_of_tick (hs : s.Fit A) (hb : s.Beats p) {depth : Nat}
    (hl : s.link.settings.keepAliveInterval.atMost 0 = false) {more : List Event}
    (h : (tick (perform depth)).Ends s t) (tells : t.trace.events = s.trace.events ++ more)
    (hp : t.phase = .connected) : ∃ q,
      p.past? s.link.settings.keepAliveInterval (more.map (s.loop.now, ·)) = some q ∧
      t.Beats q ∧ q.Rested s.link.settings.keepAliveInterval s.loop.now := by
  have hnow := Number.not_below_sub_self hl s.loop.now
  obtain ⟨more', hm, hbeats⟩ := ((keeps_tick overlooks_inTime (inTime_perform (A := A) depth) s t h
    hs.scripted.attended).2).told
  obtain rfl : more = more' := List.append_cancel_left (tells.symm.trans hm)
  obtain ⟨q, hq, ht⟩ := hbeats p hb
  obtain ⟨j, hlook, hf⟩ := look_of_tick (works_perform depth) hs h hp tells
  refine ⟨q, past?_map more ▸ hq, ht, ?_⟩
  obtain ⟨pre, post, rfl⟩ := List.append_of_mem hlook
  rw [← past?_map, List.map_append, List.map_cons] at hq
  obtain ⟨r, -, hr⟩ := past?_append.mp hq
  obtain ⟨r', hn, hr'⟩ := past?_cons.mp hr
  rw [past?_map] at hr'
  exact rested_of_foldlM (rested_of_look hf hnow hn) hnow hr'

theorem received_data {bytes : List UInt8} {c : Option Nat} {depth : Nat}
    (h : (perform depth (.data bytes c)).Ends s t) : t.trace = s.trace ∧ t.link = s.link := by
  cases depth with
  | zero =>
    rcases h with ⟨a, h⟩ | ⟨e, he, h⟩
    · cases h
    · cases h
      cases he
  | succ depth =>
    rw [(ends_ok_iff (answer_data (perform depth) c bytes s)).mp h]
    split <;> exact ⟨rfl, rfl⟩

theorem handle_of_ping {f : Frame} (hk : f.kind? = some .pingAlive) (hp : s.phase = .connected)
    (hi : s.link.writesTo = some i) (hw : s.writeFault? = none) :
    handle ask f s = .ok (.ok ()) (s.telling (.write i (Frame.bare .pingAlive))) := by
  unfold handle
  simp only [hk]
  exact bind_of_ok (send_of_willing ask hp hi hw (Frame.encode_bare .pingAlive))

/-- What a tick does first depends on what is noted. -/
theorem tick_of_beats (hb : s.Beats p) (hup : s.isUp = true) (hi : s.link.writesTo = some i)
    (hw : s.writeFault? = none) : tick ask s = drainAll ask (s.lookedAt i
      (s.link.settings.keepAliveInterval.below (s.loop.now - p.since))) := by
  rw [tick_of_up ask hup hi fun _ => hw, finding_of_up hup, hb.since]
  cases s.link.settings.keepAliveInterval.below (s.loop.now - p.since) <;> rfl

theorem drainAll_of_unfinished {r : Receiver} (hr : s.receiver? = some r)
    (hn : r.inbox.next = (.ok none, r.inbox)) : drainAll ask s = .ok () s := by
  obtain ⟨i, c, hi, -, -⟩ := receiver?_eq_some.mp hr
  rw [drainAll, get_bind_apply, hr]
  simp only [drain_succ ask hi hr, hn]

theorem Beats.isOf_of_writes (h : s.Beats p) (hi : s.link.writesTo = some i) : p.isOf i = true :=
  h.source i (h.paired ▸ hi)

/-- In every run, with whatever listeners do, let there be traffic on a connection when the link
connects, when it handles a frame, and when it sends a sign of life after a silence. A tick that
finds the connection there sends a sign of life, before it handles any frame, if and only if the
latest traffic is longer ago than the interval. So two silences are always longer apart than the
interval, what is received in part and what the peer asks for postpones none, and after a tick that
leaves the link connected the latest traffic is no longer ago than the interval. -/
theorem kept_alive (link pacer : Settings) (store : Store) (outcomes : List Outcome)
    (probe : Option (List (Option Json)))
    (h : Chronicle (fun _ => True) (start link pacer store outcomes probe) told s) (i : Nat) :
    s.KeptAlive link.keepAliveInterval i told := by
  have hrace : ∀ o ∈ outcomes, Script.Within (fun _ => True) o.race :=
    fun o _ => script_within_of_all (fun _ => trivial) o.race
  have hstart : (start link pacer store outcomes probe).Beats ⟨epoch, none⟩ :=
    ⟨rfl, rfl, fun _ _ => rfl⟩
  have hfirst : (start link pacer store outcomes probe).Fit fun _ => True :=
    fit_start link pacer store probe hrace
  obtain ⟨hsettings, p, hpast, hb⟩ := beats_of_chronicle hfirst hstart h
  have hlink : s.link.settings = link := hsettings
  have hsince (hi : s.link.writesTo = some i) : p.since = lastTrafficOn i told :=
    since_of_past hpast (hb.isOf_of_writes hi)
  have htick (hup : s.isUp = true) (hi : s.link.writesTo = some i) (hw : s.writeFault? = none)
      (ask : Request → Act Session Answer) : tick ask s = drainAll ask
        (s.lookedAt i (link.keepAliveInterval.below (s.loop.now - lastTrafficOn i told))) := by
    rw [tick_of_beats hb hup hi hw, hlink, hsince hi]
  exact {
    complete := h.events.symm
    noted := fun hi => hb.since.trans (hsince hi)
    due := fun before x finding after ht hf => silent_iff_of_past hpast ht hf
    sent := fun before after split => by
      obtain ⟨-, hrec⟩ := recorded_of_run hrace h.run
      by_cases hc : s.closes i = 0
      · exact ((hrec.going i hc).placed.inPlace split).answered _ rfl
      · exact ((hrec.gone i hc).placed.inPlace split).answered _ rfl
    first := htick
    unfinished := fun hup hi hw r hr hn ask => by
      rw [htick hup hi hw ask]
      exact drainAll_of_unfinished ((lookedAt_receiver i _ s).trans hr) hn
    received := fun bytes c depth t => received_data
    echoed := fun ask u f hk hp hi hw => handle_of_ping hk hp hi hw
    spaced := fun before x between y after ht hle => spaced_of_past hpast ht hle
    rested := fun hl before x finding after rest ht hf hx => rested_of_past hpast hl ht hf hx
    left := fun hl depth t more he tells hp hi => by
      obtain ⟨q, hq, ht, hrested⟩ :=
        rested_of_tick (hfirst.run h.run) hb (hlink ▸ hl) he tells hp
      rw [hlink] at hq hrested
      rw [← since_of_past (past?_append.mpr ⟨p, hpast, hq⟩) (ht.isOf_of_writes hi)]
      exact hrested }

/-- Nothing is told when the clock is set. -/
theorem Chronicle.clocked (h : Chronicle A u told s) (now : Float) :
    Chronicle A u told (s.clocked now) := by
  simpa using h.snoc (u := s.clocked now) (.clock now) rfl [] (List.append_nil s.trace.events).symm

/-- Nor when something is received. -/
theorem Chronicle.data (h : Chronicle A u told s) {bytes : List UInt8} {c : Option Nat}
    {depth : Nat} (hA : A (.data bytes c)) (he : (perform depth (.data bytes c)).Ends s t) :
    Chronicle A u told t := by
  simpa using h.snoc (.ask (.data bytes c)) ⟨Request.within_plain hA rfl, depth, he⟩ []
    (by rw [(received_data he).1, List.append_nil])

/-- A tick that sends a sign of life, with no frame to handle, tells of that. -/
theorem Chronicle.tick (h : Chronicle A u told s) (hA : A .tick) {depth : Nat}
    (he : Session.tick (perform depth) s = .ok () (s.lookedAt i true)) :
    Chronicle A u (told ++
        [Event.looked i .silent, .write i (Frame.bare .pingAlive)].map (s.loop.now, ·))
      (s.lookedAt i true) := by
  have hends : (perform (depth + 1) .tick).Ends s (s.lookedAt i true) :=
    ends_of_ok (a := .nothing) (bind_of_ok he)
  refine h.snoc (.ask .tick) ⟨Request.within_plain hA rfl, depth + 1, hends⟩ _ ?_
  simp [lookedAt, telling, Trace.events_record]

/-- The peer sends a part of a frame only, and a tick comes every six seconds. -/
theorem kept_alive_twice :
    let begun := start {} {} .empty [⟨.opens, .int 0, .none, [], false, []⟩] none
    let s₁ := begun.after [.ask (.connect "127.0.0.1" (.int 27099)), .pass (.int 0)]
    let s₂ := ((perform maxDepth (.data [1, 0, 0] none)).leaves s₁).clocked 1006
    let s₃ := (s₂.lookedAt 0 true).clocked 1012
    let s₄ := s₃.lookedAt 0 true
    let limit := Settings.keepAliveInterval {}
    let signOfLife := [Event.looked 0 .silent, .write 0 (Frame.bare .pingAlive)]
    ∃ told, Chronicle (fun _ => True) begun
        (told ++ signOfLife.map (1006, ·) ++ signOfLife.map (1012, ·)) s₄ ∧
      tick (perform maxDepth) s₂ = .ok () (s₂.lookedAt 0 true) ∧
      tick (perform maxDepth) s₃ = .ok () s₄ ∧ limit.below (1012 - 1006) = true ∧
      limit.below (1012 - lastTrafficOn 0
        (told ++ signOfLife.map (1006, ·) ++ signOfLife.map (1012, ·))) = false := by
  intro begun s₁ s₂ s₃ s₄ limit signOfLife
  have hwithin : ∀ q, Request.Within (fun _ => True) q := within_of_all fun _ => trivial
  have hrun : Run (fun _ => True) begun s₁ :=
    run_of_steps _ (fun step _ => stepWithin_of_all (fun _ => trivial) step) (by decide +kernel)
  have hfirst : begun.Fit fun _ => True := fit_start {} {} .empty none fun o _ q _ => hwithin q
  obtain ⟨told, h₁⟩ := exists_chronicle hfirst hrun
  have htick {told : List (Float × Event)} {v : Session}
      (h : Chronicle (fun _ => True) begun told v) (hup : v.isUp = true)
      (hi : v.link.writesTo = some 0) (hw : v.writeFault? = none)
      (hr : v.receiver? = some ⟨⟨[1, 0, 0]⟩, true, false, none⟩)
      (hs : limit.below (v.loop.now - v.link.lastTraffic) = true) :
      tick (perform maxDepth) v = .ok () (v.lookedAt 0 true) := by
    have hkept := kept_alive {} {} .empty _ none h 0
    rw [hkept.unfinished hup hi hw _ hr (by decide) (perform maxDepth), ← hkept.noted hi]
    rw [show Settings.keepAliveInterval {} = limit from rfl, hs]
  have h₂ : Chronicle (fun _ => True) begun told s₂ :=
    (h₁.data trivial (ends_leaves (by decide +kernel))).clocked 1006
  have htick₂ := htick h₂ (by decide +kernel) (by decide +kernel) (by decide +kernel)
    (by decide +kernel) (by decide +kernel)
  have h₃ : Chronicle (fun _ => True) begun (told ++ signOfLife.map (1006, ·)) s₃ :=
    (h₂.tick trivial htick₂).clocked 1012
  have htick₃ := htick h₃ (by decide +kernel) (by decide +kernel) (by decide +kernel)
    (by decide +kernel) (by decide +kernel)
  have h₄ : Chronicle (fun _ => True) begun
      (told ++ signOfLife.map (1006, ·) ++ signOfLife.map (1012, ·)) s₄ := h₃.tick trivial htick₃
  have htold : s₄.trace.events = s₃.trace.events ++ signOfLife := by
    simp [s₄, lookedAt, telling, Trace.events_record, signOfLife]
  refine ⟨told, h₄, htick₂, htick₃, ?_, ?_⟩
  · exact (kept_alive {} {} .empty _ none h₄ 0).spaced told 1006
      [(1006, .write 0 (Frame.bare .pingAlive))] 1012 [(1012, .write 0 (Frame.bare .pingAlive))]
      (by simp [signOfLife]) (by decide +kernel)
  · exact (kept_alive {} {} .empty _ none h₃ 0).left (by decide +kernel) maxDepth s₄ signOfLife
      (ends_of_ok htick₃) htold (by decide +kernel) (by decide +kernel)

end Session
end DiagnosticWatch
