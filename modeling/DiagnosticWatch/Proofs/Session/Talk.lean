/-
# The talk on a connection

What the link does on one connection, from the moment it takes it to the
moment it closes it, is a talk: one phrase after the other, then last words
and the closing, after which nothing is said any more. This holds of every
connection at every point of a run, also while listeners run.

Key definitions: `Session.talk`, `Going`, `Over`, `Session.Recorded`.
Key theorems: `Session.Recorded.work`, `Session.recorded_of_run`.
-/
import DiagnosticWatch.Proofs.Session.ClosedOnce

namespace DiagnosticWatch

/-- The connection that an event is about: it is looked at, read, written to or closed. -/
def Event.connection? : Event → Option Nat
  | .write i _ | .close i | .asked i _ | .looked i _ | .handled i _ | .unsent i _ => some i
  | _ => none

/-- A talk that goes on. -/
inductive Going (A : Request → Prop) (i : Nat) : List Event → Prop
  | nil : Going A i []
  | say {talk words : List Event} (before : Going A i talk) (phrase : Phrase A i words) :
      Going A i (talk ++ words)

/-- A talk that is over. -/
inductive Over (A : Request → Prop) (i : Nat) : List Event → Prop
  | close {talk words : List Event} (before : Going A i talk) (last : LastWords A i words) :
      Over A i (talk ++ words ++ [.close i])

variable {A : Request → Prop} {i : Nat} {words : List Event} {bytes : List UInt8}

/-! ### What is about a connection -/

theorem Cue.about (h : Cue A i bytes words) : ∀ e ∈ words, e.connection? = some i := by
  cases h <;> simp [Event.connection?]

theorem Trouble.about (h : Trouble i words) : ∀ e ∈ words, e.connection? = some i := by
  cases h <;> simp [Event.connection?]

theorem about_snoc {e : Event} (h : ∀ e ∈ words, e.connection? = some i)
    (he : e.connection? = some i) : ∀ e' ∈ words ++ [e], e'.connection? = some i := by
  intro e' hm
  rcases List.mem_append.mp hm with hm | hm
  · exact h e' hm
  · rw [List.mem_singleton.mp hm]
    exact he

theorem Phrase.about (h : Phrase A i words) : ∀ e ∈ words, e.connection? = some i := by
  cases h with
  | calm | heard | senseless => simp [Event.connection?]
  | wrote h | refused h => exact about_snoc h.about rfl
  | unable h => exact about_snoc h.about rfl

theorem LastWords.about (h : LastWords A i words) : ∀ e ∈ words, e.connection? = some i := by
  cases h with
  | gone | asked => simp [Event.connection?]
  | failed h => exact about_snoc h.about rfl
  | silent h => exact h.about
  | farewell h | unheard h => exact about_snoc h.about rfl

namespace Session

open Act

variable {s t u : Session} {link : Settings} {d : Nat} {dial : Dial}

/-- What happened on connection `i` so far, in order. -/
def talk (s : Session) (i : Nat) : List Event :=
  s.trace.events.filter (·.connection? = some i)

theorem talk_eq_told (s : Session) (i : Nat) :
    s.talk i = (s.told.filter (·.connection? = some i)).reverse := by
  unfold talk told Trace.events
  rw [List.filter_filter, List.filter_reverse]
  congr 2
  funext e
  cases e <;> simp [Event.connection?, Event.isPlain, Event.isWord]

/-- What is told besides, the latest first, comes behind. -/
theorem talk_of_told (h : t.told = words ++ s.told) (i : Nat) :
    t.talk i = s.talk i ++ (words.filter (·.connection? = some i)).reverse := by
  rw [talk_eq_told, talk_eq_told, h, List.filter_append, List.reverse_append]

/-- What is told besides of other things is not part of a talk. -/
theorem talk_of_aside {e : Event} (h : t.told = e :: s.told) (he : e.connection? = none) (i : Nat) :
    t.talk i = s.talk i := by
  rw [talk_eq_told, talk_eq_told, h, List.filter_cons, if_neg (by simp [he])]

theorem told_of_tells (h : Tells s words t) : t.told = words.reverse ++ s.told := by
  induction h with
  | refl => rfl
  | alike h _ ih => rw [ih, h.told]
  | @word s _ _ e h _ ih =>
    have he : (s.telling e).told = e :: s.told := by
      simp only [told, telling, Trace.record]
      rw [List.filter_cons, if_pos]
      cases e <;> first | rfl | cases h
    rw [ih, he]
    simp
  | @cancel _ v _ _ _ _ h _ ih =>
    rw [ih, told, told]
    congr 2
    exact congrArg Trace.latestFirst (cancelDial_keeps h).2.1

/-- Words about connection `i` go into its talk, and into no other. -/
theorem talk_of_tells (h : Tells s words t) (about : ∀ e ∈ words, e.connection? = some i)
    (j : Nat) : t.talk j = s.talk j ++ if j = i then words else [] := by
  rw [talk_of_told (told_of_tells h), List.filter_reverse, List.reverse_reverse]
  congr 1
  split
  · rename_i hj
    subst hj
    exact List.filter_eq_self.mpr fun e he => by simp [about e he]
  · rename_i hj
    refine List.filter_eq_nil_iff.mpr fun e he => ?_
    simp [about e he, Ne.symm hj]

/-- Who leaves a connection closes it. -/
theorem talk_left (s : Session) (j : Nat) :
    s.left.talk j = s.talk j ++ if s.link.writesTo = some j then [.close j] else [] := by
  have hparted : s.parted.talk j =
      s.talk j ++ if s.link.writesTo = some j then [.close j] else [] := by
    unfold parted closedHeld
    cases hw : s.link.writesTo with
    | none => simp [talk]
    | some i =>
      show (s.closed i).talk j = _
      have htold : (s.closed i).told = [.close i] ++ s.told := rfl
      rw [talk_of_told htold]
      congr 1
      by_cases hj : i = j
      · simp [hj, Event.connection?]
      · simp [hj, Event.connection?]
  rw [← hparted]
  unfold left
  split
  · exact talk_of_aside (e := .moved s.parted.phase .disconnected) rfl rfl j
  · rfl

theorem talk_forgotten (s : Session) (j : Nat) : s.forgotten.talk j = s.talk j := by
  unfold forgotten
  split
  · rfl
  · exact talk_of_aside (e := .signal []) rfl rfl j

theorem talk_movedTo (target : Phase) (s : Session) (j : Nat) :
    (s.movedTo target).talk j = s.talk j :=
  talk_of_aside (e := .moved s.phase target) rfl rfl j

theorem talk_of_change (h : Change A s t) (j : Nat) : t.talk j = s.talk j := by
  cases h with
  | plain alike => rw [talk_eq_told, alike.told, ← talk_eq_told]
  | listen | put | mark | report => rfl
  | signal => exact talk_of_aside (e := .signal s.link.store.reports) rfl rfl j

/-! ### Every talk is recorded -/

/-- The talk on every connection goes on until it is closed, and is over then. -/
structure Recorded (A : Request → Prop) (s : Session) : Prop where
  going : ∀ i, s.closes i = 0 → Going A i (s.talk i)
  gone : ∀ i, s.closes i ≠ 0 → Over A i (s.talk i)

theorem Recorded.congr (h : s.Recorded A) (talk : ∀ i, t.talk i = s.talk i)
    (closes : ∀ i, t.closes i = s.closes i) : t.Recorded A where
  going i hi := talk i ▸ h.going i (closes i ▸ hi)
  gone i hi := talk i ▸ h.gone i (closes i ▸ hi)

/-- What is said on one connection leaves the other talks as they are. -/
theorem Recorded.apart (h : s.Recorded A) (i : Nat) (talk : ∀ j, j ≠ i → t.talk j = s.talk j)
    (closes : ∀ j, j ≠ i → t.closes j = s.closes j)
    (going : t.closes i = 0 → Going A i (t.talk i))
    (gone : t.closes i ≠ 0 → Over A i (t.talk i)) : t.Recorded A where
  going j hj := by
    by_cases hji : j = i
    · subst hji
      exact going hj
    · rw [closes j hji] at hj
      rw [talk j hji]
      exact h.going j hj
  gone j hj := by
    by_cases hji : j = i
    · subst hji
      exact gone hj
    · rw [closes j hji] at hj
      rw [talk j hji]
      exact h.gone j hj

theorem closes_of_told (h : t.told = words ++ s.told) (i : Nat) :
    t.closes i = s.closes i + words.countP (Event.closes i) := by
  rw [closes_eq_told, closes_eq_told, h, List.countP_append, Nat.add_comm]

theorem closes_of_tells (h : Tells s words t) (i : Nat) : t.closes i = s.closes i := by
  refine h.keeps (P := fun t => t.closes i = s.closes i) ?_ rfl
  intro u v hp hu
  cases hp with
  | alike h => rw [h.closes, hu]
  | @word e he => cases e <;> first | exact hu | cases he
  | setOut | dial => exact hu
  | @cancel v _ _ h =>
    have hv : v.closes i = u.closes i := by
      rw [closes, (cancelDial_keeps h).2.1]
      rfl
    exact hv.trans hu

theorem closes_left (s : Session) (j : Nat) :
    s.left.closes j = s.closes j + if s.link.writesTo = some j then 1 else 0 := by
  obtain ⟨-, -, -, -, hw, -, hspent⟩ := left_keeps s
  have h := congrFun (hspent.trans (spent_parted s)) j
  unfold spent at h
  rw [hw] at h
  simpa using h

/-- What the link has is not closed. -/
theorem Sound.closes_of_held (hs : s.Sound link) (h : s.link.writesTo = some i) :
    s.closes i = 0 := by
  have hle := Nat.le_trans (hs.spent_le i) (fee_le_one link)
  unfold spent at hle
  rw [if_pos h] at hle
  omega

/-- A phrase is said on a connection that the link has. -/
theorem Recorded.say (h : s.Recorded A) (hs : s.Sound link) (held : s.link.writesTo = some i)
    (phrase : Phrase A i words) (tells : Tells s words t) : t.Recorded A := by
  have htalk := talk_of_tells tells phrase.about
  have hcloses := closes_of_tells tells
  have hfree := hs.closes_of_held held
  refine h.apart i (fun j hji => ?_) (fun j _ => hcloses j) (fun _ => ?_) fun hclosed => ?_
  · rw [htalk, if_neg hji, List.append_nil]
  · rw [htalk, if_pos rfl]
    exact .say (h.going i hfree) phrase
  · rw [hcloses] at hclosed
    exact absurd hfree hclosed

/-- The link leaves a connection after last words, and the talk is over. -/
theorem Recorded.leave (h : s.Recorded A) (hs : s.Sound link) (last : s.Parting A words)
    (tells : Tells s words t) : t.left.Recorded A := by
  have hwrites := writesTo_of_tells tells
  cases hw : s.link.writesTo with
  | none =>
    unfold Parting at last
    rw [hw] at last
    subst last
    rw [hw] at hwrites
    refine h.congr (fun j => ?_) fun j => ?_
    · rw [talk_left, hwrites, talk_of_tells (i := j) tells nofun]
      simp
    · rw [closes_left, hwrites, closes_of_tells tells]
      simp
  | some i =>
    unfold Parting at last
    rw [hw] at last hwrites
    have hfree := hs.closes_of_held hw
    have htalk : ∀ j, t.left.talk j = s.talk j ++ if j = i then words ++ [.close i] else [] := by
      intro j
      rw [talk_left, hwrites, talk_of_tells tells last.about, List.append_assoc]
      congr 1
      by_cases hji : j = i
      · simp [hji]
      · simp [hji, Ne.symm hji]
    have hcloses : ∀ j, t.left.closes j = s.closes j + if j = i then 1 else 0 := by
      intro j
      rw [closes_left, hwrites, closes_of_tells tells]
      simp [eq_comm]
    refine h.apart i (fun j hji => ?_) (fun j hji => ?_) (fun hopen => ?_) fun _ => ?_
    · rw [htalk, if_neg hji, List.append_nil]
    · rw [hcloses, if_neg hji, Nat.add_zero]
    · rw [hcloses, if_pos rfl] at hopen
      cases hopen
    · rw [htalk, if_pos rfl, ← List.append_assoc]
      exact .close (h.going i hfree) last

/-- The induction is on the work; what listeners do in the middle of leaving or of setting
out is recorded like anything else. -/
theorem Recorded.work (h : s.Recorded A) (hs : s.Sound link) (hw : Work A s t) : t.Recorded A := by
  induction hw with
  | refl => exact h
  | @change s v _ first _ ih =>
    have hkept := hs.change first
    refine ih (h.congr (talk_of_change first) fun i => ?_) hkept.sound
    cases first with
    | plain alike => exact alike.closes i
    | listen | put | mark | report | signal => rfl
  | speak held phrase tells _ ih => exact ih (h.say hs held phrase tells) (hs.tells tells).sound
  | @drop _ _ u _ _ last tells listeners _ ih ih' =>
    have hleft := (hs.tells tells).sound.left.sound
    have hu := hleft.work listeners
    refine ih' ((ih (h.leave hs last tells) hleft).congr (talk_forgotten u) fun i => ?_)
      hu.sound.forgotten.sound
    unfold Session.forgotten
    split <;> rfl
  | connect host port down listeners apart _ ih ih' =>
    have hout := (hs.part (.setOut down)).sound
    have hlistened := ih (h.congr (talk_movedTo _ _) fun _ => rfl) hout
    exact ih' (hlistened.congr (fun _ => rfl) fun _ => rfl)
      ((hout.work listeners).sound.part (.dial host port apart)).sound

/-- A connection that the link never had may be closed as well. -/
theorem Recorded.closing (h : s.Recorded A) (ht : t.Sound link) (closed : List Nat)
    (told : t.told = closed.map Event.close ++ s.told) : t.Recorded A := by
  have hcount : ∀ i, t.closes i = s.closes i + closed.count i := by
    intro i
    rw [closes_of_told told, List.countP_map, List.count_eq_countP]
    rfl
  have htalk : ∀ i, t.talk i = s.talk i ++ List.replicate (closed.count i) (.close i) := by
    intro i
    rw [talk_of_told told]
    congr 1
    rw [List.filter_map, ← List.map_reverse, ← List.filter_reverse]
    have hfilter : closed.reverse.filter
        ((fun e : Event => decide (e.connection? = some i)) ∘ Event.close) =
          List.replicate (closed.count i) i := by
      rw [← List.count_reverse, ← List.filter_beq]
      refine List.filter_congr fun j _ => ?_
      simp [Event.connection?, Bool.beq_eq_decide_eq]
    rw [hfilter, List.map_replicate]
  refine ⟨fun i hi => ?_, fun i hi => ?_⟩
  · rw [hcount] at hi
    have hzero : closed.count i = 0 := by omega
    rw [htalk, hzero, List.replicate_zero, List.append_nil]
    exact h.going i (by omega)
  · have hle : t.closes i ≤ 1 := by
      have := Nat.le_trans (ht.spent_le i) (fee_le_one link)
      unfold spent at this
      omega
    rw [hcount] at hi hle
    rw [htalk]
    by_cases hs : s.closes i = 0
    · have hone : closed.count i = 1 := by omega
      rw [hone]
      simpa using Over.close (h.going i hs) (.silent .none)
    · have hzero : closed.count i = 0 := by omega
      rw [hzero, List.replicate_zero, List.append_nil]
      exact h.gone i hs

/-! ### Turns and runs -/

theorem talk_failing (d : Nat) (dial : Dial) (text : String) (s : Session) (j : Nat) :
    (s.failing d dial text).talk j = s.talk j := by
  rw [talk_eq_told, talk_eq_told]
  rfl

theorem Recorded.turns (h : s.Recorded A) (hs : s.Sound link) (hsc : s.Scripted A)
    (ht : Turns A s t) : t.Recorded A := by
  have hk := hs.turns ht
  cases ht with
  | idle => exact h
  | absent hr => exact h.congr (fun _ => rfl) fun _ => rfl
  | errand hr present other ends =>
    obtain ⟨closed, told⟩ := (tidy_of_errand hsc hr present other ends).told
    exact h.closing hk.sound closed told
  | works hr other work =>
    refine Recorded.work ?_ (hs.popped hr other).sound work
    exact h.congr (fun _ => rfl) fun _ => rfl
  | resumes hr present resumes =>
    cases resumes with
    | late | settles | dies | givesUp => exact h.congr (fun _ => rfl) fun _ => rfl
    | @refused i => exact h.closing hk.sound [i] rfl
    | ignored => exact h.congr (fun j => talk_failing _ _ _ _ j) fun _ => rfl
    | connects stage shield phase listeners =>
      refine Recorded.work ?_ (hs.connected hr present stage shield phase).sound listeners
      exact h.congr (fun j => talk_movedTo _ _ j) fun _ => rfl
    | disconnects word text phase listeners =>
      refine Recorded.work ?_ (hs.disconnected hr present word text phase).sound listeners
      exact h.congr (fun j => (talk_movedTo _ _ j).trans (talk_failing ..)) fun _ => rfl

theorem recorded_of_run {pacer : Settings} {store : Store} {outcomes : List Outcome}
    {probe : Option (List (Option Json))} (ho : ∀ o ∈ outcomes, Script.Within A o.race)
    (h : Run A (start link pacer store outcomes probe) s) : s.Sound link ∧ s.Recorded A := by
  refine (h.keeps (P := fun s => s.Sound link ∧ s.Recorded A) ?_ ?_ ?_
    (fit_start link pacer store probe ho) ⟨sound_start link pacer store outcomes probe, ?_⟩).2
  · exact fun _ hw ⟨hs, h⟩ => ⟨(hs.work hw).sound, h.work hs hw⟩
  · exact fun hf ht ⟨hs, h⟩ => ⟨(hs.turns ht).sound, h.turns hs hf.scripted ht⟩
  · intro s t timer hf hm hg ⟨hs, h⟩
    have hk := hs.alarm hm hg
    obtain ⟨closed, told⟩ := (tidy_of_alarm hf.scripted hg).told
    exact ⟨hk.sound, h.closing hk.sound closed told⟩
  · exact ⟨fun _ _ => .nil, fun _ hi => absurd rfl hi⟩

end Session
end DiagnosticWatch
