/-
# How acts end

An act ends with an answer or with a fault that somebody deals with; one that
nests its calls beyond the bound does not end at all. `Act.Preserves P Q act w`
says that `P` holds where `act` answers if it holds of the world `w` where it
begins, and that `Q` holds where it fails. This passes from the parts of an act
to the whole, and so on to listeners that make requests in the middle of it.

`Act.Leads R act w` says that wherever `act` ends from `w`, `R` holds between
`w` and the world then; for a relation that is reflexive and transitive that is
a case of the former. Where only the end matters, `Act.Lands Q act w` says that
`Q` holds of the world there.

Key definitions: `Act.Ends`, `Act.Preserves`, `Act.Leads`, `Act.Lands`.
Key theorems: `Act.Preserves.bind`, `Act.Preserves.rescue`,
`Act.preserves_script`, `Act.preserves_announce`, `Act.leads_of_preserves`.
-/
import DiagnosticWatch.Listener
import Mathlib.Logic.Relation
import Mathlib.Order.Defs.Unbundled

namespace DiagnosticWatch

theorem Trace.events_record (e : Event) (trace : Trace) :
    (trace.record e).events = trace.events ++ [e] := by
  simp [Trace.events, Trace.record]

namespace Act

variable {σ ρ α β : Type}

/-! ### What the operations on acts do -/

@[simp] theorem pure_apply (a : α) (w : σ) : (pure a : Act σ α) w = .ok a w := rfl

@[simp] theorem get_apply (w : σ) : (get : Act σ σ) w = .ok w w := rfl

@[simp] theorem modify_apply (f : σ → σ) (w : σ) : (modify f : Act σ Unit) w = .ok () (f w) := rfl

@[simp] theorem get_bind_apply (f : σ → Act σ β) (w : σ) : ((get : Act σ σ) >>= f) w = f w w := rfl

theorem bind_apply (x : Act σ α) (f : α → Act σ β) (w : σ) :
    (x >>= f) w = match x w with
      | .ok a v => f a v
      | .error e v => .error e v := by
  cases h : x w <;> simp only [bind, EStateM.bind, h]

theorem bind_of_ok {x : Act σ α} {f : α → Act σ β} {w v : σ} {a : α} (h : x w = .ok a v) :
    (x >>= f) w = f a v := by
  rw [bind_apply, h]

theorem bind_of_error {x : Act σ α} {f : α → Act σ β} {w v : σ} {e : Fault} (h : x w = .error e v) :
    (x >>= f) w = .error e v := by
  rw [bind_apply, h]

@[simp] theorem tell_apply [Holds Trace σ] (e : Event) (w : σ) :
    (tell e : Act σ Unit) w = .ok () (Holds.update (Trace.record e) w) := rfl

/-! ### Ends -/

/-- The act ends in `w'` when it begins in `w`. -/
def Ends (act : Act σ α) (w w' : σ) : Prop :=
  (∃ a, act w = .ok a w') ∨ ∃ e, e.isOrdinary = true ∧ act w = .error e w'

theorem ends_of_ok {act : Act σ α} {w w' : σ} {a : α} (h : act w = .ok a w') : act.Ends w w' :=
  .inl ⟨a, h⟩

/-- An act that answers ends where it answers, and nowhere else. -/
theorem ends_ok_iff {act : Act σ α} {w v w' : σ} {a : α} (h : act w = .ok a v) :
    act.Ends w w' ↔ w' = v := by
  constructor
  · rintro (⟨b, hb⟩ | ⟨e, -, he⟩)
    · rw [h] at hb
      cases hb; rfl
    · rw [h] at he
      cases he
  · rintro rfl
    exact ends_of_ok h

theorem ends_get_bind {f : σ → Act σ β} {w w' : σ} :
    ((get : Act σ σ) >>= f).Ends w w' ↔ (f w).Ends w w' :=
  Iff.rfl

theorem ends_tell_bind [Holds Trace σ] {e : Event} {f : Unit → Act σ β} {w w' : σ} :
    ((tell e : Act σ Unit) >>= f).Ends w w' ↔
      (f ()).Ends (Holds.update (Trace.record e) w) w' :=
  Iff.rfl

/-- Where the act leaves the world `w`, however it ends. -/
def leaves (act : Act σ α) (w : σ) : σ :=
  match act w with
  | .ok _ v => v
  | .error _ v => v

/-- Whether the act answers, or fails with an ordinary fault. -/
def isFine (act : Act σ α) (w : σ) : Bool :=
  match act w with
  | .ok _ _ => true
  | .error e _ => e.isOrdinary

theorem ends_leaves {act : Act σ α} {w : σ} (h : act.isFine w = true) : act.Ends w (act.leaves w) := by
  unfold isFine at h
  unfold leaves
  cases hw : act w with
  | ok a v => exact ends_of_ok hw
  | error e v =>
    rw [hw] at h
    exact .inr ⟨e, h, hw⟩

/-- Where the requests leave the world, one after the other. -/
def leavesAll (perform : ρ → Act σ α) (requests : List ρ) (w : σ) : σ :=
  requests.foldl (fun w q => (perform q).leaves w) w

/-- Whether each of the requests is answered or fails with an ordinary fault. -/
def isFineAll (perform : ρ → Act σ α) : List ρ → σ → Bool
  | [], _ => true
  | q :: requests, w =>
    (perform q).isFine w && isFineAll perform requests ((perform q).leaves w)

theorem ends_leavesAll {perform : ρ → Act σ α} {requests : List ρ} {w : σ}
    (h : isFineAll perform requests w = true) :
    Relation.ReflTransGen (fun v v' => ∃ q, (perform q).Ends v v') w
      (leavesAll perform requests w) := by
  induction requests generalizing w with
  | nil => exact .refl
  | cons q requests ih =>
    simp only [isFineAll, Bool.and_eq_true] at h
    exact .head ⟨q, ends_leaves h.1⟩ (ih h.2)

/-- Whether the act answers. -/
def isOk (act : Act σ α) (w : σ) : Bool :=
  match act w with
  | .ok _ _ => true
  | .error _ _ => false

theorem ok_leaves {act : Act σ Unit} {w : σ} (h : act.isOk w = true) :
    act w = .ok () (act.leaves w) := by
  unfold isOk at h
  unfold leaves
  cases hw : act w with
  | ok a v => rfl
  | error e v =>
    rw [hw] at h
    cases h

/-- Two acts end where the second ends, or where the first fails. -/
theorem ends_bind_cases {x : Act σ α} {f : α → Act σ β} {w w' : σ} (h : (x >>= f).Ends w w') :
    (∃ a v, x w = .ok a v ∧ (f a).Ends v w') ∨ ∃ e, e.isOrdinary = true ∧ x w = .error e w' := by
  unfold Ends at h
  rw [bind_apply] at h
  cases hx : x w with
  | ok a v =>
    rw [hx] at h
    exact .inl ⟨a, v, rfl, h⟩
  | error e v =>
    rw [hx] at h
    rcases h with ⟨b, h⟩ | ⟨e', he, h⟩ <;> cases h
    exact .inr ⟨e, he, rfl⟩

theorem ends_of_bind_pure {x : Act σ α} {f : α → β} {w w' : σ}
    (h : (x >>= fun a => Pure.pure (f a)).Ends w w') : x.Ends w w' := by
  rcases ends_bind_cases h with ⟨a, v, hx, hf⟩ | hx
  · rw [(ends_ok_iff (pure_apply (f a) v)).mp hf]
    exact ends_of_ok hx
  · exact .inr hx

/-- Two acts answer where the second answers after the first. -/
theorem ok_bind {x : Act σ α} {f : α → Act σ β} {w w' : σ} {b : β} (h : (x >>= f) w = .ok b w') :
    ∃ a v, x w = .ok a v ∧ f a v = .ok b w' := by
  rw [bind_apply] at h
  cases hx : x w with
  | ok a v =>
    rw [hx] at h
    exact ⟨a, v, rfl, h⟩
  | error e v =>
    rw [hx] at h
    cases h

/-- Two acts fail where the first fails, or the second after it. -/
theorem error_bind {x : Act σ α} {f : α → Act σ β} {w w' : σ} {e : Fault}
    (h : (x >>= f) w = .error e w') :
    x w = .error e w' ∨ ∃ a v, x w = .ok a v ∧ f a v = .error e w' := by
  rw [bind_apply] at h
  cases hx : x w with
  | ok a v =>
    rw [hx] at h
    exact .inr ⟨a, v, rfl, h⟩
  | error e' v =>
    rw [hx] at h
    cases h
    exact .inl rfl

/-- An act with a rescue answers as the act does, or as what follows its fault does. -/
theorem ok_rescue {catches : Fault → Bool} {act : Act σ α} {handle : Fault → Act σ α} {w w' : σ}
    {a : α} (h : act.rescue catches handle w = .ok a w') :
    act w = .ok a w' ∨ ∃ e v, catches e = true ∧ act w = .error e v ∧ handle e v = .ok a w' := by
  unfold Act.rescue at h
  cases hw : act w with
  | ok b v =>
    rw [hw] at h
    exact .inl h
  | error e v =>
    rw [hw] at h
    cases hc : catches e with
    | true =>
      simp only [hc, ↓reduceIte] at h
      exact .inr ⟨e, v, hc, rfl, h⟩
    | false =>
      simp only [hc, Bool.false_eq_true, ↓reduceIte] at h
      cases h

/-- An act with a rescue ends where the act does, or where what follows its fault does. -/
theorem ends_rescue_cases {catches : Fault → Bool} {act : Act σ α} {handle : Fault → Act σ α}
    {w w' : σ} (h : (act.rescue catches handle).Ends w w') :
    (∃ a, act w = .ok a w') ∨
    (∃ e v, catches e = true ∧ act w = .error e v ∧ (handle e).Ends v w') ∨
    ∃ e, e.isOrdinary = true ∧ catches e = false ∧ act w = .error e w' := by
  unfold Ends Act.rescue at h
  cases hw : act w with
  | ok a v =>
    rw [hw] at h
    rcases h with ⟨b, h⟩ | ⟨e, -, h⟩ <;> cases h
    exact .inl ⟨a, rfl⟩
  | error e v =>
    rw [hw] at h
    cases hc : catches e with
    | true =>
      simp only [hc, ↓reduceIte] at h
      exact .inr (.inl ⟨e, v, hc, rfl, h⟩)
    | false =>
      simp only [hc, Bool.false_eq_true, ↓reduceIte] at h
      rcases h with ⟨b, h⟩ | ⟨e', he, h⟩ <;> cases h
      exact .inr (.inr ⟨e, he, hc, rfl⟩)

/-- Wherever the act ends from `w`, `R` holds between `w` and the world then. -/
def Leads (R : σ → σ → Prop) (act : Act σ α) (w : σ) : Prop :=
  ∀ w', act.Ends w w' → R w w'

variable {R : σ → σ → Prop}

theorem leads_of_ok {act : Act σ α} {w v : σ} {a : α} (h : act w = .ok a v) (hR : R w v) :
    Leads R act w := by
  intro w' hw
  rw [(ends_ok_iff h).mp hw]
  exact hR

theorem leads_congr {x : Act σ α} {y : Act σ α} {w : σ} (h : x w = y w) (hy : Leads R y w) :
    Leads R x w := by
  intro w' hw
  apply hy
  unfold Ends at hw ⊢
  rwa [h] at hw

theorem leads_get_bind {f : σ → Act σ β} {w : σ} :
    Leads R ((get : Act σ σ) >>= f) w ↔ Leads R (f w) w :=
  Iff.rfl

/-- Wherever the act ends from `w`, `Q` holds of the world then. -/
def Lands (Q : σ → Prop) (act : Act σ α) (w : σ) : Prop :=
  ∀ w', act.Ends w w' → Q w'

variable {Q : σ → Prop}

theorem lands_of_ok {act : Act σ α} {w v : σ} {a : α} (h : act w = .ok a v) (hQ : Q v) :
    Lands Q act w := by
  intro w' hw
  rw [(ends_ok_iff h).mp hw]
  exact hQ

theorem lands_of_error {act : Act σ α} {w v : σ} {e : Fault} (h : act w = .error e v) (hQ : Q v) :
    Lands Q act w := by
  rintro w' (⟨a, hw⟩ | ⟨e', -, hw⟩)
  · rw [h] at hw
    cases hw
  · rw [h] at hw
    cases hw
    exact hQ

theorem lands_congr {x y : Act σ α} {w v : σ} (h : x w = y v) (hy : Lands Q y v) : Lands Q x w := by
  intro w' hw
  unfold Ends at hw
  rw [h] at hw
  exact hy w' hw

theorem Lands.bind {x : Act σ α} {f : α → Act σ β} {w : σ} (hx : Lands Q x w)
    (hf : ∀ a v, x w = .ok a v → Q v → Lands Q (f a) v) : Lands Q (x >>= f) w := by
  intro w' hw
  rcases ends_bind_cases hw with ⟨a, v, h, hv⟩ | h
  · exact hf a v h (hx v (ends_of_ok h)) w' hv
  · exact hx w' (.inr h)

theorem Lands.rescue {catches : Fault → Bool} (hc : ∀ e, catches e = true → e.isOrdinary = true)
    {act : Act σ α} {handle : Fault → Act σ α} {w : σ} (hx : Lands Q act w)
    (hh : ∀ e v, act w = .error e v → Q v → Lands Q (handle e) v) :
    Lands Q (act.rescue catches handle) w := by
  intro w' hw
  rcases ends_rescue_cases hw with h | ⟨e, v, hcatch, h, hhandle⟩ | ⟨e, he, -, h⟩
  · exact hx w' (.inl h)
  · exact hh e v h (hx v (.inr ⟨e, hc e hcatch, h⟩)) w' hhandle
  · exact hx w' (.inr ⟨e, he, h⟩)

theorem ends_ensuring {act : Act σ α} {last : σ → σ} {w w' : σ}
    (h : (act.ensuring last).Ends w w') : ∃ v, act.Ends w v ∧ w' = last v := by
  unfold Ends ensuring at h
  cases hw : act w with
  | ok a v =>
    rw [hw] at h
    rcases h with ⟨b, h⟩ | ⟨e, -, h⟩ <;> cases h
    exact ⟨v, ends_of_ok hw, rfl⟩
  | error e v =>
    rw [hw] at h
    rcases h with ⟨b, h⟩ | ⟨e', he, h⟩ <;> cases h
    exact ⟨v, .inr ⟨e, he, hw⟩, rfl⟩

/-! ### What an act preserves -/

/-- If `P` holds where the act begins, it holds where the act answers, and `Q` holds of the fault
and the world where it fails. -/
def Preserves (P : σ → Prop) (Q : Fault → σ → Prop) (act : Act σ α) (w : σ) : Prop :=
  P w → (∀ a v, act w = .ok a v → P v) ∧ ∀ e v, act w = .error e v → Q e v

/-- `P` holds of the world, if the fault can be dealt with. -/
def Ordinarily (P : σ → Prop) (e : Fault) (w : σ) : Prop :=
  e.isOrdinary = true → P w

section Preserves

variable {P : σ → Prop} {Q : Fault → σ → Prop} {w v : σ}

theorem preserves_of_ok {act : Act σ α} {a : α} (h : act w = .ok a v) (hv : P w → P v) :
    Preserves P Q act w := by
  refine fun hw => ⟨fun b u hu => ?_, fun e u hu => ?_⟩
  · cases h.symm.trans hu
    exact hv hw
  · cases h.symm.trans hu

theorem preserves_of_error {act : Act σ α} {e : Fault} (h : act w = .error e v)
    (hv : P w → Q e v) : Preserves P Q act w := by
  refine fun hw => ⟨fun a u hu => ?_, fun e' u hu => ?_⟩
  · cases h.symm.trans hu
  · cases h.symm.trans hu
    exact hv hw

/-- An act that first goes to `v` and then does what another does there. -/
theorem Preserves.after {x y : Act σ α} (hv : P w → P v) (hy : Preserves P Q y v) (h : x w = y v) :
    Preserves P Q x w := by
  unfold Preserves at hy ⊢
  rw [h]
  exact fun hw => hy (hv hw)

theorem Preserves.of_holds {act : Act σ α} (h : P w → Preserves P Q act w) : Preserves P Q act w :=
  fun hw => h hw hw

/-- It is preserved wherever the act ends, if it is where the fault can be dealt with. -/
theorem Preserves.ends {act : Act σ α} (h : Preserves P Q act w)
    (hq : ∀ e v, e.isOrdinary = true → Q e v → P v) (hw : P w) (hv : act.Ends w v) : P v := by
  obtain ⟨hok, herror⟩ := h hw
  rcases hv with ⟨a, ha⟩ | ⟨e, ho, he⟩
  · exact hok a v ha
  · exact hq e v ho (herror e v he)

theorem Preserves.pure (a : α) (w : σ) : Preserves P Q (Pure.pure a : Act σ α) w :=
  preserves_of_ok rfl id

theorem Preserves.throw {e : Fault} (h : P w → Q e w) :
    Preserves P Q (MonadExcept.throw e : Act σ α) w :=
  preserves_of_error rfl h

/-- What follows begins where the first act answers. -/
theorem Preserves.bind_ok {x : Act σ α} {f : α → Act σ β} (hx : Preserves P Q x w)
    (hf : ∀ a v, x w = .ok a v → Preserves P Q (f a) v) : Preserves P Q (x >>= f) w := by
  intro hw
  obtain ⟨hok, herror⟩ := hx hw
  cases h : x w with
  | ok a v =>
    rw [bind_of_ok h]
    exact hf a v h (hok a v h)
  | error e v => exact preserves_of_error (bind_of_error h) (fun _ => herror e v h) hw

theorem Preserves.bind {x : Act σ α} {f : α → Act σ β} (hx : Preserves P Q x w)
    (hf : ∀ a v, Preserves P Q (f a) v) : Preserves P Q (x >>= f) w :=
  hx.bind_ok fun a v _ => hf a v

theorem Preserves.get {f : σ → Act σ β} (h : Preserves P Q (f w) w) :
    Preserves P Q ((MonadState.get : Act σ σ) >>= f) w :=
  .after id h (get_bind_apply f w)

theorem Preserves.ite {p : Prop} [Decidable p] {x y : Act σ α} (hx : Preserves P Q x w)
    (hy : Preserves P Q y w) : Preserves P Q (if p then x else y) w := by
  split
  · exact hx
  · exact hy

theorem Preserves.rescue {catches : Fault → Bool} {act : Act σ α} {handle : Fault → Act σ α}
    (hc : ∀ e v, catches e = true → Q e v → P v) (hx : Preserves P Q act w)
    (hh : ∀ e v, Preserves P Q (handle e) v) : Preserves P Q (act.rescue catches handle) w := by
  intro hw
  obtain ⟨hok, herror⟩ := hx hw
  cases h : act w with
  | ok a v =>
    have hrescue : act.rescue catches handle w = .ok a v := by simp only [Act.rescue, h]
    exact preserves_of_ok hrescue (fun _ => hok a v h) hw
  | error e v =>
    by_cases hcatch : catches e = true
    · have hrescue : act.rescue catches handle w = handle e v := by
        simp only [Act.rescue, h, hcatch, ↓reduceIte]
      exact Preserves.after (fun _ => hc e v hcatch (herror e v h)) (hh e v) hrescue hw
    · have hrescue : act.rescue catches handle w = .error e v := by
        simp only [Act.rescue, h, hcatch, Bool.false_eq_true, ↓reduceIte]
      exact preserves_of_error hrescue (fun _ => herror e v h) hw

theorem Preserves.ensuring {act : Act σ α} {last : σ → σ} (hx : Preserves P Q act w)
    (hl : ∀ v, P v → P (last v)) (hq : ∀ e v, Q e v → Q e (last v)) :
    Preserves P Q (act.ensuring last) w := by
  intro hw
  obtain ⟨hok, herror⟩ := hx hw
  cases h : act w with
  | ok a v =>
    have hensuring : act.ensuring last w = .ok a (last v) := by simp only [Act.ensuring, h]
    exact preserves_of_ok hensuring (fun _ => hl v (hok a v h)) hw
  | error e v =>
    have hensuring : act.ensuring last w = .error e (last v) := by simp only [Act.ensuring, h]
    exact preserves_of_error hensuring (fun _ => hq e v (herror e v h)) hw

theorem preserves_forM {f : β → Act σ Unit} :
    ∀ {l : List β}, (∀ b ∈ l, ∀ v, Preserves P Q (f b) v) → ∀ w, Preserves P Q (l.forM f) w
  | [], _, w => .pure () w
  | b :: _, h, w => .bind (h b List.mem_cons_self w) fun _ v =>
      preserves_forM (fun b' hb => h b' (List.mem_cons_of_mem b hb)) v

variable [Holds Trace σ]

/-- A script preserves what its requests preserve, if to tell of them does. -/
theorem preserves_script {name : ρ → String} {ask : ρ → Act σ Answer}
    (raised : ∀ text v, P v → Q (.listener text) v)
    (caught : ∀ e v, e.isOrdinary = true → Q e v → P v)
    (tells : ∀ q a v, P v → P (Holds.update (Trace.record (.nested (name q) a)) v)) :
    ∀ (script : List (Reaction ρ)) (w : σ),
      (∀ q, .ask q ∈ script → ∀ v, Preserves P Q (ask q) v) →
      Preserves P Q (Script.run name ask script) w
  | [], w, _ => .pure () w
  | .fail text :: _, w, _ => .throw (raised text w)
  | .ask q :: script, w, h => by
    refine .bind (.rescue caught (h q List.mem_cons_self w) fun e v => .pure _ v) fun a v => ?_
    refine .bind (preserves_of_ok (tell_apply _ v) (tells q a v)) fun _ u => ?_
    exact preserves_script raised caught tells script u fun q' hq =>
      h q' (List.mem_cons_of_mem _ hq)

/-- What a listener does now preserves what its script preserves. -/
theorem preserves_listener {name : ρ → String} {ask : ρ → Act σ Answer} {l : Listener ρ} {w : σ}
    (h : Preserves P Q (Script.run name ask (l.script (Holds.part w))) w) :
    Preserves P Q (l.perform name ask) w := h

/-- A round of calls preserves what the calls preserve, if to log those that fail does. -/
theorem preserves_announce {call : Listener ρ → Act σ Unit} {complaint : String}
    (caught : ∀ e v, e.isOrdinary = true → Q e v → P v)
    (logs : ∀ v, P v → P (Holds.update (Trace.record (.log .error complaint)) v)) :
    ∀ (ls : List (Listener ρ)) (w : σ), (∀ l ∈ ls, ∀ v, Preserves P Q (call l) v) →
      Preserves P Q (announce call complaint ls) w
  | [], w, _ => .pure () w
  | l :: ls, w, h => by
    refine .bind (.rescue caught (h l List.mem_cons_self w) fun e v => ?_) fun _ v => ?_
    · exact preserves_of_ok (tell_apply _ v) (logs v)
    · exact preserves_announce caught logs ls v fun l' hl => h l' (List.mem_cons_of_mem _ hl)

end Preserves

section Preorder

variable [IsPreorder σ R]

theorem Leads.pure (a : α) (w : σ) : Leads R (Pure.pure a : Act σ α) w :=
  leads_of_ok rfl (refl_of R w)

theorem Leads.throw (e : Fault) (w : σ) : Leads R (MonadExcept.throw e : Act σ α) w := by
  rintro w' (⟨a, h⟩ | ⟨e', -, h⟩)
  · cases h
  · cases h
    exact refl_of R w

/-- What a first act does and what the rest does from there. -/
theorem Leads.bind {x : Act σ α} {f : α → Act σ β} {w : σ} (hx : Leads R x w)
    (hf : ∀ a v, x w = .ok a v → R w v → Leads R (f a) v) : Leads R (x >>= f) w := by
  intro w' hw
  rcases ends_bind_cases hw with ⟨a, v, h, hv⟩ | h
  · have hwv : R w v := hx v (ends_of_ok h)
    exact trans_of R hwv (hf a v h hwv w' hv)
  · exact hx w' (.inr h)

/-- An act that first goes from `w` to `v` and then does what another does there. -/
theorem Leads.after {x y : Act σ α} {w v : σ} (hR : R w v) (hy : Leads R y v) (h : x w = y v) :
    Leads R x w := by
  intro w' hw
  unfold Ends at hw
  rw [h] at hw
  exact trans_of R hR (hy w' hw)

/-- A first act that surely answers. -/
theorem Leads.step {x : Act σ α} {f : α → Act σ β} {w v : σ} {a : α} (h : x w = .ok a v)
    (hR : R w v) (hf : Leads R (f a) v) : Leads R (x >>= f) w := by
  intro w' hw
  unfold Ends at hw
  rw [bind_of_ok h] at hw
  exact trans_of R hR (hf w' hw)

theorem Leads.rescue {catches : Fault → Bool} (hc : ∀ e, catches e = true → e.isOrdinary = true)
    {act : Act σ α} {handle : Fault → Act σ α} {w : σ} (hx : Leads R act w)
    (hh : ∀ e v, catches e = true → act w = .error e v → R w v → Leads R (handle e) v) :
    Leads R (act.rescue catches handle) w := by
  intro w' hw
  rcases ends_rescue_cases hw with h | ⟨e, v, hcatch, h, hhandle⟩ | ⟨e, he, -, h⟩
  · exact hx w' (.inl h)
  · have hv : R w v := hx v (.inr ⟨e, hc e hcatch, h⟩)
    exact trans_of R hv (hh e v hcatch h hv w' hhandle)
  · exact hx w' (.inr ⟨e, he, h⟩)

theorem Leads.ensuring {act : Act σ α} {last : σ → σ} {w : σ} (hx : Leads R act w)
    (hl : ∀ v, R v (last v)) : Leads R (act.ensuring last) w := by
  intro w' hw
  obtain ⟨v, hv, rfl⟩ := ends_ensuring hw
  exact trans_of R (hx v hv) (hl v)

/-- What an act leads to from `v` it leads to from wherever one comes to `v`. -/
theorem Leads.preserves {act : Act σ α} {v : σ} (h : Leads R act v) (w : σ) :
    Preserves (R w) (Ordinarily (R w)) act v := fun hw =>
  ⟨fun _ u hu => trans_of R hw (h u (ends_of_ok hu)),
    fun e u hu he => trans_of R hw (h u (.inr ⟨e, he, hu⟩))⟩

theorem leads_of_preserves {act : Act σ α} {w : σ}
    (h : Preserves (R w) (Ordinarily (R w)) act w) : Leads R act w :=
  fun _ hw => h.ends (fun _ _ he hq => hq he) (refl_of R w) hw

variable [Holds Trace σ]

theorem leads_script {name : ρ → String} {ask : ρ → Act σ Answer}
    (ht : ∀ q a w, R w (Holds.update (Trace.record (.nested (name q) a)) w))
    (script : List (Reaction ρ)) (w : σ) (h : ∀ q, .ask q ∈ script → ∀ w, Leads R (ask q) w) :
    Leads R (Script.run name ask script) w :=
  leads_of_preserves (preserves_script (fun _ _ hv _ => hv) (fun _ _ he hq => hq he)
    (fun q a v hv => trans_of R hv (ht q a v)) script w fun q hq v => (h q hq v).preserves w)

theorem leads_listener {name : ρ → String} {ask : ρ → Act σ Answer}
    (ht : ∀ q a w, R w (Holds.update (Trace.record (.nested (name q) a)) w))
    (l : Listener ρ) (w : σ) (h : ∀ q w, Leads R (ask q) w) : Leads R (l.perform name ask) w :=
  leads_script ht (l.script (Holds.part w)) w fun q _ => h q

theorem leads_announce {call : Listener ρ → Act σ Unit} {complaint : String}
    (ht : ∀ w, R w (Holds.update (Trace.record (.log .error complaint)) w))
    (ls : List (Listener ρ)) (w : σ) (h : ∀ l ∈ ls, ∀ w, Leads R (call l) w) :
    Leads R (announce call complaint ls) w :=
  leads_of_preserves (preserves_announce (fun _ _ he hq => hq he)
    (fun v hv => trans_of R hv (ht v)) ls w fun l hl v => (h l hl v).preserves w)

end Preorder

/-- A round of calls does not fail, however its calls end. -/
theorem announce_error [Holds Trace σ] {call : Listener ρ → Act σ Unit} {complaint : String}
    {e : Fault} {v : σ} : ∀ (ls : List (Listener ρ)) (w : σ),
      announce call complaint ls w = .error e v → e.isOrdinary = false
  | [], w, h => nomatch h
  | l :: ls, w, h => by
    unfold announce at h
    rw [bind_apply] at h
    unfold Act.rescue at h
    cases hl : call l w with
    | ok a u =>
      rw [hl] at h
      exact announce_error ls u h
    | error e' u =>
      rw [hl] at h
      by_cases ho : e'.isOrdinary = true
      · simp only [ho, ↓reduceIte, log, tell_apply] at h
        exact announce_error ls _ h
      · simp only [ho, Bool.false_eq_true, ↓reduceIte] at h
        cases h
        simpa using ho

end Act
end DiagnosticWatch
