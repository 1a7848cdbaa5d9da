/-
# Every write has its reason

What is written on a connection, and why, is read off its talk. Whatever calls
for bytes is followed by them at once, or by the failure to write them, and
bytes are written upon nothing else but the word of farewell, which comes right
before the connection is closed. An event that ends the connection is followed
by its closing, so that there is no word of farewell then.

Key definitions: `Event.callsFor?`, `Event.isEnd`, `InPlace`, `Written`.
Key theorems: `Going.placed`, `Over.placed`, `called_for_of_end`,
`Going.written`, `Over.written`.
-/
import DiagnosticWatch.Proofs.Session.Talk

namespace DiagnosticWatch

/-- Whether an event is seen at the other end of a connection. -/
def Event.isOutgoing : Event → Bool
  | .write .. | .close _ => true
  | _ => false

/-- The bytes that an event calls for: the frame that somebody asks to send, or a sign of
life after a silence or upon one of the peer. -/
def Event.callsFor? : Event → Option (List UInt8)
  | .asked _ code => (Frame.encode code []).toOption
  | .looked _ .silent => some (Frame.bare .pingAlive)
  | .handled _ f => if f.kind? = some .pingAlive then some (Frame.bare .pingAlive) else none
  | _ => none

/-- Whether an event is the end of a connection: the peer asks to disconnect, the stream
has failed or was closed, or a write fails. -/
def Event.isEnd : Event → Bool
  | .handled _ f => f.kind? = some .disconnect
  | .looked _ finding => finding = .gone
  | .unsent _ fault => fault ≠ .refused
  | _ => false

/-- The request sends no frame but one of the catalog. -/
def Request.Cataloged : Request → Prop
  | .send code => ∃ kind : Kind, code = kind.code
  | _ => True

/-- An event on connection `i` is in its place between what comes before and after it. -/
structure InPlace (i : Nat) (before : List Event) (e : Event) (after : List Event) : Prop where
  /-- What is called for is written at once, or cannot be written. -/
  answered : ∀ bytes, e.callsFor? = some bytes →
    ∃ rest, after = .write i bytes :: rest ∨ ∃ fault, after = .unsent i fault :: rest
  /-- Nothing is written but what was called for just before, and a word of farewell just
  before the closing. -/
  prompted : ∀ bytes, e = .write i bytes →
    (∃ earlier cue, before = earlier ++ [cue] ∧ cue.callsFor? = some bytes) ∨
      (bytes = Frame.bare .disconnect ∧ after = [.close i])
  ended : e.isEnd = true → after = [.close i]
  closed : e = .close i → after = []

/-- The events are in their places one after the other, with these before and after them
all. -/
def Placed (i : Nat) : (before events after : List Event) → Prop
  | _, [], _ => True
  | before, e :: events, after =>
    InPlace i before e (events ++ after) ∧ Placed i (before ++ [e]) events after

variable {A : Request → Prop} {i : Nat} {words talk before after : List Event}
  {bytes : List UInt8} {e : Event}

theorem placed_append {more : List Event} :
    Placed i before (words ++ more) after ↔
      Placed i before words (more ++ after) ∧ Placed i (before ++ words) more after := by
  induction words generalizing before with
  | nil => simp [Placed]
  | cons e words ih => simp [Placed, ih, and_assoc]

theorem Placed.inPlace (h : Placed i [] talk []) (split : talk = before ++ e :: after) :
    InPlace i before e after := by
  subst split
  have he := (placed_append.mp h).2
  simpa using he.1

/-- What calls for nothing, writes nothing and is no end may be in any place. -/
theorem inPlace_of_idle (hc : e.callsFor? = none) (hw : e.isOutgoing = false)
    (hend : e.isEnd = false) : InPlace i before e after where
  answered bytes h := by rw [hc] at h; cases h
  prompted bytes h := by subst h; cases hw
  ended h := by rw [hend] at h; cases h
  closed h := by subst h; cases hw

theorem inPlace_of_cue (hc : e.callsFor? = some bytes) (hw : e.isOutgoing = false)
    (hend : e.isEnd = false)
    (ha : ∃ rest, after = .write i bytes :: rest ∨ ∃ fault, after = .unsent i fault :: rest) :
    InPlace i before e after where
  answered bytes' h := by rw [hc] at h; cases h; exact ha
  prompted bytes h := by subst h; cases hw
  ended h := by rw [hend] at h; cases h
  closed h := by subst h; cases hw

theorem inPlace_write (hb : before = words ++ [e]) (hc : e.callsFor? = some bytes) :
    InPlace i before (.write i bytes) after where
  answered _ h := nomatch h
  prompted bytes' h := by cases h; exact .inl ⟨words, e, hb, hc⟩
  ended h := nomatch h
  closed h := nomatch h

theorem inPlace_farewell : InPlace i before (.write i (Frame.bare .disconnect)) [.close i] where
  answered _ h := nomatch h
  prompted bytes' h := by cases h; exact .inr ⟨rfl, rfl⟩
  ended h := nomatch h
  closed h := nomatch h

theorem inPlace_end (hc : e.callsFor? = none) (hw : e.isOutgoing = false) :
    InPlace i before e [.close i] where
  answered bytes h := by rw [hc] at h; cases h
  prompted bytes h := by subst h; cases hw
  ended _ := rfl
  closed h := by subst h; cases hw

theorem inPlace_close : InPlace i before (.close i) [] where
  answered _ h := nomatch h
  prompted _ h := nomatch h
  ended h := nomatch h
  closed _ := rfl

/-- A cue is one event, which calls for the bytes. -/
theorem Cue.single (h : Cue A i bytes words) :
    ∃ cue, words = [cue] ∧ cue.callsFor? = some bytes ∧ cue.isOutgoing = false ∧
      cue.isEnd = false := by
  cases h with
  | @request code _ _ encodes =>
    refine ⟨.asked i code, rfl, ?_, rfl, rfl⟩
    simp only [Event.callsFor?, encodes]
    rfl
  | silence => exact ⟨.looked i .silent, rfl, rfl, rfl, rfl⟩
  | @ping f kind =>
    exact ⟨.handled i f, rfl, by simp [Event.callsFor?, kind], rfl, by simp [Event.isEnd, kind]⟩

theorem Cue.placed (h : Cue A i bytes words)
    (ha : ∃ rest, after = .write i bytes :: rest ∨ ∃ fault, after = .unsent i fault :: rest) :
    Placed i before words after := by
  obtain ⟨cue, rfl, hc, hw, hend⟩ := h.single
  exact ⟨inPlace_of_cue hc hw hend (by simpa using ha), trivial⟩

theorem Trouble.placed (h : Trouble i words) : Placed i before words after := by
  cases h with
  | none => trivial
  | unreadable kind =>
    exact ⟨inPlace_of_idle (by simp [Event.callsFor?, kind]) rfl (by simp [Event.isEnd, kind]),
      trivial⟩

theorem Phrase.placed (h : Phrase A i words) : Placed i before words after := by
  cases h with
  | calm => exact ⟨inPlace_of_idle rfl rfl rfl, trivial⟩
  | heard ping leave =>
    exact ⟨inPlace_of_idle (by simp [Event.callsFor?, ping]) rfl (by simp [Event.isEnd, leave]),
      trivial⟩
  | senseless fails =>
    refine ⟨inPlace_of_idle ?_ rfl rfl, trivial⟩
    simp only [Event.callsFor?, fails]
    rfl
  | wrote h =>
    refine placed_append.mpr ⟨h.placed ⟨after, .inl rfl⟩, ?_, trivial⟩
    obtain ⟨cue, rfl, hc, -⟩ := h.single
    exact inPlace_write rfl hc
  | refused h =>
    exact placed_append.mpr
      ⟨h.placed ⟨after, .inr ⟨.refused, rfl⟩⟩, inPlace_of_idle rfl rfl rfl, trivial⟩
  | unable h => exact placed_append.mpr ⟨h.placed, inPlace_of_idle rfl rfl rfl, trivial⟩

/-- Last words are in place right before the closing. -/
theorem LastWords.placed (h : LastWords A i words) : Placed i before (words ++ [.close i]) [] := by
  refine placed_append.mpr ⟨?_, inPlace_close, trivial⟩
  cases h with
  | gone => exact ⟨inPlace_end rfl rfl, trivial⟩
  | asked kind => exact ⟨inPlace_end (by simp [Event.callsFor?, kind]) rfl, trivial⟩
  | silent h => exact h.placed
  | @failed _ _ fault h =>
    exact placed_append.mpr ⟨h.placed ⟨[.close i], .inr ⟨fault, rfl⟩⟩, inPlace_end rfl rfl, trivial⟩
  | farewell h => exact placed_append.mpr ⟨h.placed, inPlace_farewell, trivial⟩
  | unheard h => exact placed_append.mpr ⟨h.placed, inPlace_end rfl rfl, trivial⟩

/-- In a talk that goes on all is in place, whatever comes behind. -/
theorem Going.placed (h : Going A i talk) : Placed i [] talk after := by
  induction h generalizing after with
  | nil => trivial
  | say _ phrase ih => exact placed_append.mpr ⟨ih, phrase.placed⟩

theorem Over.placed (h : Over A i talk) : Placed i [] talk [] := by
  cases h with
  | close before last =>
    rw [List.append_assoc]
    exact placed_append.mpr ⟨before.placed, last.placed⟩

/-- There is no word of farewell on a connection that has come to an end: whatever is
written there was called for. -/
theorem called_for_of_end
    (h : ∀ before e after, talk = before ++ e :: after → InPlace i before e after)
    (he : e ∈ talk) (hend : e.isEnd = true) (split : talk = before ++ .write i bytes :: after) :
    ∃ earlier cue, before = earlier ++ [cue] ∧ cue.callsFor? = some bytes := by
  rcases (h _ _ _ split).prompted bytes rfl with hcue | ⟨-, rfl⟩
  · exact hcue
  · obtain ⟨earlier, rest, hsplit⟩ := List.append_of_mem he
    have hrest : rest = [.close i] := (h _ _ _ hsplit).ended hend
    subst hrest
    have hlast : before ++ [.write i bytes] ++ [.close i] = earlier ++ [e] ++ [.close i] := by
      simpa using split.symm.trans hsplit
    obtain ⟨-, he⟩ := List.append_inj' (List.append_cancel_right hlast) rfl
    cases he
    cases hend

/-! ### What is seen at the other end -/

/-- The frame of every cue is one of the catalog, if whatever is asked to be sent is. -/
theorem Cue.cataloged (hA : ∀ q, A q → q.Cataloged) (h : Cue A i bytes words) :
    ∃ kind, bytes = Frame.bare kind := by
  cases h with
  | request asked encodes =>
    obtain ⟨kind, rfl⟩ := hA _ asked
    rw [Frame.encode_bare] at encodes
    cases encodes
    exact ⟨kind, rfl⟩
  | silence | ping => exact ⟨.pingAlive, rfl⟩

/-- Frames without a body are written, and then the connection is closed if `closed` says
so. -/
def Written (i : Nat) (closed : Bool) (talk : List Event) : Prop :=
  ∃ kinds : List Kind, talk.filter Event.isOutgoing =
    (kinds.map fun kind => Event.write i (Frame.bare kind)) ++ if closed then [.close i] else []

theorem Written.append {closed : Bool} (h : Written i false talk) (h' : Written i closed words) :
    Written i closed (talk ++ words) := by
  obtain ⟨kinds, h⟩ := h
  obtain ⟨more, h'⟩ := h'
  refine ⟨kinds ++ more, ?_⟩
  simp [h, h']

theorem written_nil : Written i false [] := ⟨[], rfl⟩

theorem written_of_idle (he : e.isOutgoing = false) : Written i false [e] :=
  ⟨[], by simp [he]⟩

theorem written_write (kind : Kind) : Written i false [.write i (Frame.bare kind)] :=
  ⟨[kind], rfl⟩

theorem written_close : Written i true [.close i] :=
  ⟨[], rfl⟩

theorem Cue.written (h : Cue A i bytes words) : Written i false words := by
  obtain ⟨cue, rfl, -, hw, -⟩ := h.single
  exact written_of_idle hw

theorem Trouble.written (h : Trouble i words) : Written i false words := by
  cases h with
  | none => exact written_nil
  | unreadable => exact written_of_idle rfl

theorem Phrase.written (hA : ∀ q, A q → q.Cataloged) (h : Phrase A i words) :
    Written i false words := by
  cases h with
  | calm | heard | senseless => exact written_of_idle rfl
  | wrote h =>
    obtain ⟨kind, rfl⟩ := h.cataloged hA
    exact h.written.append (written_write kind)
  | refused h => exact h.written.append (written_of_idle rfl)
  | unable h => exact h.written.append (written_of_idle rfl)

theorem LastWords.written (h : LastWords A i words) : Written i false words := by
  cases h with
  | gone | asked => exact written_of_idle rfl
  | silent h => exact h.written
  | failed h => exact h.written.append (written_of_idle rfl)
  | farewell h => exact h.written.append (written_write .disconnect)
  | unheard h => exact h.written.append (written_of_idle rfl)

theorem Going.written (hA : ∀ q, A q → q.Cataloged) (h : Going A i talk) :
    Written i false talk := by
  induction h with
  | nil => exact written_nil
  | say _ phrase ih => exact ih.append (phrase.written hA)

theorem Over.written (hA : ∀ q, A q → q.Cataloged) (h : Over A i talk) : Written i true talk := by
  cases h with
  | close before last => exact ((before.written hA).append last.written).append written_close

end DiagnosticWatch
