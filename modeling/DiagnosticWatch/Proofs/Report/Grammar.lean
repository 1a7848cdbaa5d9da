/-
# What reports are accepted

The body of a diagnostics frame is read as a report exactly if it begins with
a path, a count that is not negative and as many entries; what comes behind
does not matter. A body cut short before that is always refused for being too
short, and one in which a length or the count is negative is refused for that
however it goes on (`Report.read_grammar`).

Key definitions: `Format.entry`, `Format.entries`, `Format.payload`.
Key theorems: `Report.follows_reader`, `Report.read_grammar`.
-/
import DiagnosticWatch.Proofs.Wire.Format
import DiagnosticWatch.Report.Payload

namespace DiagnosticWatch

/-! ### The formats -/

namespace Format

/-- An entry: its message, line, column, error flag and information flag. -/
def entry : Format Entry := fun bytes e =>
  ∃ message line column errorFlag informationFlag,
    bytes = message ++ (line ++ (column ++ (errorFlag ++ informationFlag))) ∧
    text message e.message ∧ int32 line e.line ∧ int32 column e.column ∧
    int32 errorFlag e.errorFlag ∧ int32 informationFlag e.informationFlag

/-- Entries, one after the other. -/
inductive entries : Format (List Entry)
  | nil : entries [] []
  | cons {front back : List UInt8} {e : Entry} {es : List Entry} (first : entry front e)
      (later : entries back es) : entries (front ++ back) (e :: es)

/-- A path, the number of entries, and the entries. -/
def payload : Format (String × List Entry) := fun bytes content =>
  ∃ path count list, bytes = path ++ (count ++ list) ∧ text path content.1 ∧
    int32 count content.2.length ∧ entries list content.2

variable {bytes : List UInt8}

theorem length_entry {e : Entry} (h : entry bytes e) : 20 ≤ bytes.length := by
  obtain ⟨message, line, column, errorFlag, informationFlag, rfl, hm, hl, hc, he, hi⟩ := h
  have hmessage := length_text hm
  simp only [List.length_append, length_int32 hl, length_int32 hc, length_int32 he, length_int32 hi]
  omega

theorem length_entries {es : List Entry} (h : entries bytes es) : 20 * es.length ≤ bytes.length := by
  induction h with
  | nil => simp
  | cons first _ ih =>
    have hfirst := length_entry first
    simp only [List.length_append, List.length_cons]
    omega

theorem length_payload {content : String × List Entry} (h : payload bytes content) :
    8 + 20 * content.2.length ≤ bytes.length := by
  obtain ⟨path, count, list, rfl, hp, hc, hl⟩ := h
  have hpath := length_text hp
  have hlist := length_entries hl
  simp only [List.length_append, length_int32 hc]
  omega

end Format

/-! ### The readers -/

open Reader

theorem Entry.follows_read : Entry.read.Follows Format.entry := by
  have hread := follows_text.bind fun message => follows_int32.bind fun line =>
    follows_int32.bind fun column => follows_int32.bind fun errorFlag =>
      follows_int32.bind fun informationFlag =>
        follows_pure (⟨message, line, column, errorFlag, informationFlag⟩ : Entry)
  refine hread.congr fun bytes e => ?_
  constructor
  · rintro ⟨m, _, _, rfl, hm, l, _, _, rfl, hl, c, _, _, rfl, hc, ef, _, _, rfl, he, i, _, _, rfl,
      hi, rfl, rfl⟩
    exact ⟨m, l, c, ef, i, by simp, hm, hl, hc, he, hi⟩
  · rintro ⟨m, l, c, ef, i, rfl, hm, hl, hc, he, hi⟩
    exact ⟨m, _, _, rfl, hm, l, _, _, rfl, hl, c, _, _, rfl, hc, ef, _, _, rfl, he, i, [], _, by simp,
      hi, rfl, rfl⟩

/-- The induction is on the entries still to be read. -/
theorem Entry.follows_readMany (n : Nat) : ∀ before : List Entry,
    (Entry.readMany n before).Follows fun bytes es =>
      ∃ read, Format.entries bytes read ∧ read.length = n ∧ es = before.reverse ++ read := by
  induction n with
  | zero =>
    intro before
    refine (follows_pure before.reverse).congr fun bytes es => ?_
    constructor
    · rintro ⟨rfl, rfl⟩
      exact ⟨[], .nil, rfl, by simp⟩
    · rintro ⟨read, hread, hlen, rfl⟩
      obtain rfl := List.eq_nil_of_length_eq_zero hlen
      cases hread
      exact ⟨rfl, by simp⟩
  | succ n ih =>
    intro before
    refine (Entry.follows_read.bind fun e => ih (e :: before)).congr fun bytes es => ?_
    constructor
    · rintro ⟨front, back, e, rfl, he, read, hread, rfl, rfl⟩
      exact ⟨e :: read, .cons he hread, rfl, by simp⟩
    · rintro ⟨read, hread, hlen, rfl⟩
      cases hread with
      | nil => cases hlen
      | @cons front back e read first later =>
        exact ⟨front, back, e, rfl, first, read, later, by simpa using hlen, by simp⟩

namespace Report

theorem reader_eq : reader = text >>= fun path => int32 >>= fun count =>
    if count < 0 then throw (.negativeCount count path)
    else Entry.readMany count.toNat [] >>= fun entries =>
      pure (.of path (entries.map Entry.diagnostic)) := rfl

/-- A body is read as the report on its path, with what its entries mean in order. -/
theorem follows_reader : reader.Follows fun bytes report => ∃ path entries,
    Format.payload bytes (path, entries) ∧ report = .of path (entries.map Entry.diagnostic) := by
  have hentries : ∀ (path : String) (count : Int), Follows _ _ := fun path count =>
    Follows.unless (p := count < 0) (e := .negativeCount count path)
      (fun _ => (Entry.follows_readMany count.toNat []).bind fun entries =>
        follows_pure (Report.of path (entries.map Entry.diagnostic))) fun h => h
  rw [reader_eq]
  refine (follows_text.bind fun path => follows_int32.bind (hentries path)).congr
    fun bytes report => ?_
  constructor
  · rintro ⟨p, _, path, rfl, hp, c, _, count, rfl, hc, hneg, list, _, entries, rfl,
      ⟨_, hlist, hlen, rfl⟩, rfl, rfl⟩
    have hcount : (entries.length : Int) = count := by omega
    exact ⟨path, entries, ⟨p, c, list, by simp, hp, hcount ▸ hc, hlist⟩, by simp⟩
  · rintro ⟨path, entries, ⟨p, c, list, rfl, hp, hc, hlist⟩, rfl⟩
    exact ⟨p, _, path, rfl, hp, c, _, entries.length, rfl, hc, by omega, list, [], entries, by simp,
      ⟨entries, hlist, by simp, by simp⟩, rfl, rfl⟩

variable {payload : List UInt8} {report : Report} {e : WireError}

theorem read_eq_ok_iff_reader : read payload = .ok report ↔ ∃ rest, reader payload = .ok report rest := by
  unfold read
  cases reader payload <;> simp

theorem read_eq_error_iff_reader : read payload = .error e ↔ ∃ rest, reader payload = .error e rest := by
  unfold read
  cases reader payload <;> simp

/-- A body that begins with what a payload spells is read, whatever comes behind. -/
theorem read_append {path : String} {entries : List Entry} {front : List UInt8}
    (h : Format.payload front (path, entries)) (rest : List UInt8) :
    read (front ++ rest) = .ok (.of path (entries.map Entry.diagnostic)) :=
  read_eq_ok_iff_reader.mpr ⟨rest, follows_reader.reads ⟨path, entries, h, rfl⟩ rest⟩

/-- Which bodies are accepted, with what they mean and how long they are at least; that
what comes behind does not matter, and that no part of them is accepted; and for what
the others are refused. -/
theorem read_grammar (payload : List UInt8) :
    (∀ report, read payload = .ok report ↔ ∃ path entries front rest,
      payload = front ++ rest ∧ Format.payload front (path, entries) ∧
        report = .of path (entries.map Entry.diagnostic)) ∧
    (∀ path entries front rest, payload = front ++ rest → Format.payload front (path, entries) →
      8 + 20 * entries.length ≤ payload.length ∧
      (∀ other, read (front ++ other) = read payload) ∧
      ∀ cut < front.length, ∃ e, read (payload.take cut) = .error e ∧ e.IsShortage) ∧
    (∀ e, read payload = .error e →
      e.IsShortage ∨ (e.IsNegative ∧ ∀ more, read (payload ++ more) = .error e)) := by
  refine ⟨fun report => ?_, fun path entries front rest hpayload h => ⟨?_, fun other => ?_, ?_⟩,
    fun e h => ?_⟩
  · rw [read_eq_ok_iff_reader]
    constructor
    · rintro ⟨rest, hr⟩
      obtain ⟨front, hb, path, entries, hp, hreport⟩ := follows_reader.spelled hr
      exact ⟨path, entries, front, rest, hb, hp, hreport⟩
    · rintro ⟨path, entries, front, rest, rfl, hp, rfl⟩
      exact ⟨rest, follows_reader.reads ⟨path, entries, hp, rfl⟩ rest⟩
  · have hlen := Format.length_payload h
    rw [hpayload, List.length_append]
    exact Nat.le_add_right_of_le hlen
  · rw [hpayload, read_append h other, read_append h rest]
  · intro cut hcut
    obtain ⟨e, left, he, hs⟩ := follows_reader.cut ⟨path, entries, h, rfl⟩ cut hcut
    rw [hpayload, List.take_append_of_le_length (Nat.le_of_lt hcut)]
    exact ⟨e, read_eq_error_iff_reader.mpr ⟨left, he⟩, hs⟩
  · obtain ⟨rest, hr⟩ := read_eq_error_iff_reader.mp h
    refine (follows_reader.refuses hr).imp_right fun ⟨hn, hmore⟩ => ⟨hn, fun more => ?_⟩
    exact read_eq_error_iff_reader.mpr (hmore more)

theorem read_grammar_of_entry :
    let front : List UInt8 := [3, 0, 0, 0, 47, 97, 0, 1, 0, 0, 0, 2, 0, 0, 0, 104, 0,
      5, 0, 0, 0, 0, 0, 0, 0, 1, 0, 0, 0, 0, 0, 0, 0]
    Format.payload front ("/a", [⟨"h", 5, 0, 1, 0⟩]) ∧ 28 ≤ (front ++ [7]).length ∧
      ∀ cut < front.length, ∃ e, read ((front ++ [7]).take cut) = .error e ∧ e.IsShortage := by
  intro front
  have hspelled : Format.payload front ("/a", [⟨"h", 5, 0, 1, 0⟩]) := by
    refine ⟨[3, 0, 0, 0, 47, 97, 0], [1, 0, 0, 0], _, rfl, ?_, ⟨1, 0, 0, 0, rfl, by decide⟩, ?_⟩
    · exact ⟨[3, 0, 0, 0], [47, 97, 0], rfl, ⟨3, 0, 0, 0, rfl, by decide⟩, by decide +kernel⟩
    · refine .cons ⟨[2, 0, 0, 0, 104, 0], [5, 0, 0, 0], [0, 0, 0, 0], [1, 0, 0, 0], [0, 0, 0, 0], rfl, ?_,
        ⟨5, 0, 0, 0, rfl, by decide⟩, ⟨0, 0, 0, 0, rfl, by decide⟩, ⟨1, 0, 0, 0, rfl, by decide⟩,
        ⟨0, 0, 0, 0, rfl, by decide⟩⟩ .nil
      exact ⟨[2, 0, 0, 0], [104, 0], rfl, ⟨2, 0, 0, 0, rfl, by decide⟩, by decide +kernel⟩
  obtain ⟨hlen, -, hcut⟩ := (read_grammar (front ++ [7])).2.1 _ _ front [7] rfl hspelled
  exact ⟨hspelled, hlen, hcut⟩

end Report
end DiagnosticWatch
