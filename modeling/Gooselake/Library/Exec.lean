import Mathlib.Logic.Basic

/-!
Fallible computations over a state that survives their errors: the writes made before an error
stay made. `After m s Q` says that running `m` from `s` ends in an outcome and a state related
by `Q`; its rules follow the computation bind by bind.
-/

namespace Gooselake.Library

set_option autoImplicit false

/-- A computation over states `σ` that may fail with an error `ε`. -/
abbrev Exec (σ ε : Type) : Type → Type := ExceptT ε (StateM σ)

namespace Exec

variable {σ ε α β : Type}

/-- Outcome and final state of a computation. -/
def result (m : Exec σ ε α) (s : σ) : Except ε α × σ := StateT.run (ExceptT.run m) s

/-- Running `m` from `s` ends in an outcome and a state related by `Q`. -/
structure After (m : Exec σ ε α) (s : σ) (Q : Except ε α → σ → Prop) : Prop where
  out : Q (m.result s).1 (m.result s).2

theorem after_iff {m : Exec σ ε α} {s : σ} {Q : Except ε α → σ → Prop} :
    After m s Q ↔ Q (m.result s).1 (m.result s).2 :=
  ⟨After.out, After.mk⟩

theorem After.mono {m : Exec σ ε α} {s : σ} {Q R : Except ε α → σ → Prop}
    (h : After m s Q) (hQR : ∀ r s', Q r s' → R r s') : After m s R :=
  ⟨hQR _ _ h.out⟩

/-- By cases on how the computation ends. -/
theorem After.elim {m : Exec σ ε α} {s : σ} {R Q : Except ε α → σ → Prop} (h : After m s R)
    (hok : ∀ a s', R (.ok a) s' → Q (.ok a) s') (herr : ∀ e s', R (.error e) s' → Q (.error e) s') :
    After m s Q := by
  refine h.mono fun r s' h => ?_
  cases r with
  | ok a => exact hok a s' h
  | error e => exact herr e s' h

theorem After.and {m : Exec σ ε α} {s : σ} {Q R : Except ε α → σ → Prop}
    (hQ : After m s Q) (hR : After m s R) : After m s (fun r s' => Q r s' ∧ R r s') :=
  ⟨hQ.out, hR.out⟩

/-! ## Rules -/

@[simp] theorem after_pure (a : α) (s : σ) (Q : Except ε α → σ → Prop) :
    After (pure a) s Q ↔ Q (.ok a) s := after_iff

@[simp] theorem after_throw (e : ε) (s : σ) (Q : Except ε α → σ → Prop) :
    After (throw e) s Q ↔ Q (.error e) s := after_iff

@[simp] theorem after_get (s : σ) (Q : Except ε σ → σ → Prop) :
    After (get : Exec σ ε σ) s Q ↔ Q (.ok s) s := after_iff

@[simp] theorem after_modify (f : σ → σ) (s : σ) (Q : Except ε Unit → σ → Prop) :
    After (modify f : Exec σ ε Unit) s Q ↔ Q (.ok ()) (f s) := after_iff

theorem after_bind_iff (m : Exec σ ε α) (f : α → Exec σ ε β) (s : σ) (Q : Except ε β → σ → Prop) :
    After (m >>= f) s Q ↔ After m s fun r s' =>
      match r with
      | .ok a => After (f a) s' Q
      | .error e => Q (.error e) s' := by
  have h : (m >>= f).result s = match m.result s with
      | (.ok a, s') => (f a).result s'
      | (.error e, s') => (.error e, s') := by
    change (ExceptT.bindCont f (m.result s).1).run (m.result s).2 = _
    rcases m.result s with ⟨_ | _, _⟩ <;> rfl
  rw [after_iff, after_iff, h]
  rcases m.result s with ⟨_ | _, _⟩
  · rfl
  · exact after_iff.symm

/-- The bind rule: what `m` does on success is continued, what it does on failure is the end. -/
theorem after_bind {m : Exec σ ε α} {f : α → Exec σ ε β} {s : σ} {R : Except ε α → σ → Prop}
    {Q : Except ε β → σ → Prop} (hm : After m s R) (hok : ∀ a s', R (.ok a) s' → After (f a) s' Q)
    (herr : ∀ e s', R (.error e) s' → Q (.error e) s') : After (m >>= f) s Q := by
  rw [after_bind_iff]
  exact hm.elim hok herr

/-- What holds of the state at the end holds whatever is returned. -/
theorem after_return {m : Exec σ ε α} {f : α → β} {s : σ} {p : σ → Prop} (h : After m s fun _ s' => p s') :
    After (do return f (← m)) s fun _ s' => p s' :=
  after_bind h (fun _ _ h => (after_pure _ _ _).mpr h) fun _ _ h => h

/-! ## Lookups that fail when nothing is there -/

/-- The value, or the error when there is none. -/
def orThrow (o : Option α) (e : ε) : Exec σ ε α :=
  match o with
  | some a => pure a
  | none => throw e

@[simp] theorem after_orThrow (o : Option α) (e : ε) (s : σ) (Q : Except ε α → σ → Prop) :
    After (orThrow o e) s Q ↔ (∀ a, o = some a → Q (.ok a) s) ∧ (o = none → Q (.error e) s) := by
  cases o <;> simp [orThrow]

@[simp] theorem after_ofExcept (r : Except ε α) (s : σ) (Q : Except ε α → σ → Prop) :
    After (ofExcept r) s Q ↔ Q r s := by
  cases r <;> exact after_iff

/-- The bind rule for a value that is there already or an error. -/
theorem after_checked {r : Except ε α} {f : α → Exec σ ε β} {s : σ} {Q : Except ε β → σ → Prop}
    (hok : ∀ a, r = .ok a → After (f a) s Q) (herr : ∀ e, r = .error e → Q (.error e) s) :
    After (ofExcept r >>= f) s Q :=
  after_bind ((after_ofExcept r s fun r' s' => r' = r ∧ s' = s).mpr ⟨rfl, rfl⟩)
    (fun a _ ⟨ha, hs⟩ => hs ▸ hok a ha.symm) fun e _ ⟨he, hs⟩ => hs ▸ herr e he.symm

theorem bind_eq_ok {x : Except ε α} {f : α → Except ε β} {b : β} (h : (x >>= f) = .ok b) :
    ∃ a, x = .ok a ∧ f a = .ok b := by
  cases x with
  | error e => cases h
  | ok a => exact ⟨a, rfl, h⟩

theorem toOption_ok (a : α) : (Except.ok a : Except ε α).toOption = some a := rfl

/-! ## Computations inside others -/

/-- Run `m` and go on with its outcome, also when it is an error. -/
def attempt (m : Exec σ ε α) : Exec σ ε (Except ε α) := do
  let s ← get
  modify fun _ => (m.result s).2
  return (m.result s).1

@[simp] theorem after_attempt (m : Exec σ ε α) (s : σ) (Q : Except ε (Except ε α) → σ → Prop) :
    After (attempt m) s Q ↔ After m s fun r s' => Q (.ok r) s' := by
  rw [after_iff, after_iff]
  rfl

/-- Run `m` on a part of the state. -/
def zoom {τ : Type} (part : σ → τ) (put : τ → σ → σ) (m : Exec τ ε α) : Exec σ ε α := do
  let s ← get
  modify (put (m.result (part s)).2)
  ofExcept (m.result (part s)).1

@[simp] theorem after_zoom {τ : Type} (part : σ → τ) (put : τ → σ → σ) (m : Exec τ ε α) (s : σ)
    (Q : Except ε α → σ → Prop) :
    After (zoom part put m) s Q ↔ After m (part s) fun r t => Q r (put t s) := by
  rw [after_iff (m := m)]
  simp [zoom, after_bind_iff]

/-! ## Computations that only read -/

/-- `m` leaves every state as it is. -/
def ReadOnly (m : Exec σ ε α) : Prop := ∀ s, After m s fun _ s' => s' = s

theorem ReadOnly.pure (a : α) : ReadOnly (pure a : Exec σ ε α) := fun _ => ⟨rfl⟩

theorem ReadOnly.throw (e : ε) : ReadOnly (throw e : Exec σ ε α) := fun _ => ⟨rfl⟩

theorem ReadOnly.get : ReadOnly (get : Exec σ ε σ) := fun _ => ⟨rfl⟩

theorem ReadOnly.ofExcept (r : Except ε α) : ReadOnly (ofExcept r : Exec σ ε α) :=
  fun s => (after_ofExcept r s _).mpr rfl

theorem ReadOnly.orThrow (o : Option α) (e : ε) : ReadOnly (orThrow o e : Exec σ ε α) :=
  fun s => (after_orThrow o e s _).mpr ⟨fun _ _ => rfl, fun _ => rfl⟩

theorem ReadOnly.bind {m : Exec σ ε α} {f : α → Exec σ ε β} (hm : ReadOnly m) (hf : ∀ a, ReadOnly (f a)) :
    ReadOnly (m >>= f) := fun s => by
  refine after_bind (hm s) (fun a s' hs => ?_) (fun _ _ hs => hs)
  subst hs
  exact hf a s'

theorem ReadOnly.ite {p : Prop} [Decidable p] {m m' : Exec σ ε α} (hm : ReadOnly m) (hm' : ReadOnly m') :
    ReadOnly (if p then m else m') := by
  split
  · exact hm
  · exact hm'

theorem ReadOnly.forM {γ : Type} {f : γ → Exec σ ε Unit} (l : List γ) (h : ∀ x, ReadOnly (f x)) :
    ReadOnly (l.forM f) := by
  induction l with
  | nil => exact .pure ()
  | cons x l ih => exact .bind (h x) fun _ => ih

theorem ReadOnly.foldlM {γ : Type} {f : α → γ → Exec σ ε α} (l : List γ) (a : α) (h : ∀ a x, ReadOnly (f a x)) :
    ReadOnly (l.foldlM f a) := by
  induction l generalizing a with
  | nil => exact .pure a
  | cons x l ih => exact .bind (h a x) fun b => ih b

/-- The bind rule after a computation that only reads. -/
theorem ReadOnly.after_bind {m : Exec σ ε α} {f : α → Exec σ ε β} {s : σ} {Q : Except ε β → σ → Prop}
    (hm : ReadOnly m) (hok : ∀ a, After (f a) s Q) (herr : ∀ e, Q (.error e) s) : After (m >>= f) s Q := by
  refine Exec.after_bind (hm s) (fun a s' hs => ?_) (fun e s' hs => ?_)
  · subst hs
    exact hok a
  · subst hs
    exact herr e

/-- What a computation that only reads returns, its state being known. -/
theorem ReadOnly.after {m : Exec σ ε α} (h : ReadOnly m) {s : σ} {Q : Except ε α → σ → Prop}
    (hQ : After m s Q) : After m s fun r s' => s' = s ∧ Q r s :=
  ((h s).and hQ).mono fun _ _ ⟨he, hq⟩ => ⟨he, he ▸ hq⟩

theorem ReadOnly.after_return {m : Exec σ ε α} (hm : ReadOnly m) {f : α → β} {s : σ} {p : σ → Prop} (h : p s) :
    After (do return f (← m)) s fun _ s' => p s' :=
  Exec.after_return ((hm s).mono fun _ _ hs => hs ▸ h)

/-! ## Computations that keep a part of the state -/

/-- `m` leaves `g` of every state as it is. -/
def Preserves {β : Type} (g : σ → β) (m : Exec σ ε α) : Prop := ∀ s, After m s fun _ s' => g s' = g s

section

variable {γ : Type} {g : σ → γ}

theorem ReadOnly.preserves {m : Exec σ ε α} (h : ReadOnly m) : Preserves g m := fun s =>
  (h s).mono fun _ _ hs => congrArg g hs

theorem Preserves.pure (a : α) : Preserves g (pure a : Exec σ ε α) := (ReadOnly.pure a).preserves

theorem Preserves.throw (e : ε) : Preserves g (throw e : Exec σ ε α) := (ReadOnly.throw e).preserves

theorem Preserves.get : Preserves g (get : Exec σ ε σ) := ReadOnly.get.preserves

theorem Preserves.orThrow (o : Option α) (e : ε) : Preserves g (orThrow o e : Exec σ ε α) :=
  (ReadOnly.orThrow o e).preserves

theorem Preserves.ofExcept (r : Except ε α) : Preserves g (ofExcept r : Exec σ ε α) := (ReadOnly.ofExcept r).preserves

theorem Preserves.modify {f : σ → σ} (h : ∀ s, g (f s) = g s) : Preserves g (modify f : Exec σ ε Unit) :=
  fun s => (after_modify f s _).mpr (h s)

theorem Preserves.bind {m : Exec σ ε α} {f : α → Exec σ ε β} (hm : Preserves g m) (hf : ∀ a, Preserves g (f a)) :
    Preserves g (m >>= f) := fun s => by
  refine Exec.after_bind (hm s) (fun a s' hs => ?_) (fun _ _ hs => hs)
  exact (hf a s').mono fun _ _ h => h.trans hs

theorem Preserves.attempt {m : Exec σ ε α} (h : Preserves g m) : Preserves g (attempt m) := fun s =>
  (after_attempt m s _).mpr ((h s).mono fun _ _ hs => hs)

theorem Preserves.ite {p : Prop} [Decidable p] {m m' : Exec σ ε α} (hm : Preserves g m) (hm' : Preserves g m') :
    Preserves g (if p then m else m') := by
  split
  · exact hm
  · exact hm'

end

/-! ## Computations whose states are related -/

/-- `R` relates the state `m` starts from to the one it ends in. -/
def Within (R : σ → σ → Prop) (m : Exec σ ε α) : Prop := ∀ s, After m s fun _ s' => R s s'

section

variable {R : σ → σ → Prop} [Std.Refl R] [Trans R R R]

omit [Trans R R R] in
theorem ReadOnly.within {m : Exec σ ε α} (h : ReadOnly m) : Within R m := fun s =>
  (h s).mono fun _ s' hs => (by rw [hs]; exact Std.Refl.refl s)

omit [Std.Refl R] [Trans R R R] in
theorem Within.modify {f : σ → σ} (h : ∀ s, R s (f s)) : Within R (modify f : Exec σ ε Unit) :=
  fun s => (after_modify f s _).mpr (h s)

omit [Std.Refl R] in
theorem Within.bind {m : Exec σ ε α} {f : α → Exec σ ε β} (hm : Within R m) (hf : ∀ a, Within R (f a)) :
    Within R (m >>= f) := fun s => by
  refine Exec.after_bind (hm s) (fun a s' hs => ?_) (fun _ _ hs => hs)
  exact (hf a s').mono fun _ _ h => Trans.trans hs h

omit [Std.Refl R] [Trans R R R] in
theorem Within.ite {p : Prop} [Decidable p] {m m' : Exec σ ε α} (hm : Within R m) (hm' : Within R m') :
    Within R (if p then m else m') := by
  split
  · exact hm
  · exact hm'

omit [Std.Refl R] [Trans R R R] in
theorem Within.attempt {m : Exec σ ε α} (h : Within R m) : Within R (attempt m) := fun s =>
  (after_attempt m s _).mpr ((h s).mono fun _ _ hs => hs)

theorem Within.forM {γ : Type} {f : γ → Exec σ ε Unit} (l : List γ) (h : ∀ x, Within R (f x)) :
    Within R (l.forM f) := by
  induction l with
  | nil => exact (ReadOnly.pure ()).within
  | cons x l ih => exact .bind (h x) fun _ => ih

end

/-! ## Loops -/

/-- The loop rule for a loop that carries a value: what every round keeps, the loop keeps. -/
theorem after_foldlM {γ : Type} {I : σ → Prop} (f : α → γ → Exec σ ε α) (l : List γ) {a : α} {s : σ}
    (h : ∀ a, ∀ x ∈ l, ∀ s, I s → After (f a x) s (fun _ s' => I s')) (hs : I s) :
    After (l.foldlM f a) s (fun _ s' => I s') := by
  induction l generalizing a s with
  | nil => exact ⟨hs⟩
  | cons x l ih =>
    refine after_bind (h a x (by simp) s hs) (fun b s' h' => ?_) (fun _ _ h' => h')
    exact ih (fun b y hy => h b y (by simp [hy])) h'

/-- The loop rule for an invariant that knows the value carried and which elements are done; after a failure `J`
holds. -/
theorem after_foldlM_value {γ : Type} {I : List γ → α → σ → Prop} {J : σ → Prop} (f : α → γ → Exec σ ε α) (l : List γ)
    {a : α} {s : σ} (h : ∀ done x rest, l = done ++ x :: rest → ∀ a s, I done a s →
      After (f a x) s (fun r s' => (∀ b, r = .ok b → I (done ++ [x]) b s') ∧ ∀ e, r = .error e → J s'))
    (hs : I [] a s) :
    After (l.foldlM f a) s (fun r s' => (∀ b, r = .ok b → I l b s') ∧ ∀ e, r = .error e → J s') := by
  have hrest : ∀ rest done : List γ, l = done ++ rest → ∀ a s, I done a s →
      After (rest.foldlM f a) s (fun r s' => (∀ b, r = .ok b → I l b s') ∧ ∀ e, r = .error e → J s') := by
    intro rest
    induction rest with
    | nil =>
      intro done hl a s hI
      rw [List.append_nil] at hl
      refine ⟨fun b hb => ?_, fun e he => by cases he⟩
      obtain rfl : a = b := Except.ok.inj hb
      exact hl ▸ hI
    | cons x rest ih =>
      intro done hl a s hI
      refine after_bind (h done x rest hl a s hI) (fun b s' h' => ?_) (fun e s' h' => ?_)
      · exact ih (done ++ [x]) (by simp [hl]) b s' (h'.1 b rfl)
      · exact ⟨fun c hc => (by cases hc), fun e' he => h'.2 e' (Except.error.inj he ▸ rfl)⟩
  exact hrest l [] rfl a s hs

theorem after_foldlM_done {γ : Type} {I : List γ → σ → Prop} {J : σ → Prop} (f : α → γ → Exec σ ε α) (l : List γ)
    {a : α} {s : σ} (h : ∀ done x rest, l = done ++ x :: rest → ∀ a s, I done s →
      After (f a x) s (fun r s' => (∀ b, r = .ok b → I (done ++ [x]) s') ∧ ∀ e, r = .error e → J s'))
    (hs : I [] s) :
    After (l.foldlM f a) s (fun r s' => (∀ b, r = .ok b → I l s') ∧ ∀ e, r = .error e → J s') :=
  after_foldlM_value (I := fun done _ s => I done s) f l h hs

/-- The loop rule: what every round keeps, the loop keeps, and when no round fails, the loop does not. -/
theorem after_forM_ok {γ : Type} {I : σ → Prop} {p : Prop} (f : γ → Exec σ ε Unit) (l : List γ) {s : σ}
    (h : ∀ x ∈ l, ∀ s, I s → After (f x) s (fun r s' => I s' ∧ (p → r = .ok ()))) (hs : I s) :
    After (l.forM f) s (fun r s' => I s' ∧ (p → r = .ok ())) := by
  induction l generalizing s with
  | nil => exact ⟨hs, fun _ => rfl⟩
  | cons x l ih =>
    refine after_bind (h x (by simp) s hs) (fun _ s' h' => ?_) (fun e s' h' => ⟨h'.1, fun hp => by cases h'.2 hp⟩)
    exact ih (fun y hy => h y (by simp [hy])) h'.1

theorem after_forM {γ : Type} {I : σ → Prop} (f : γ → Exec σ ε Unit) (l : List γ) {s : σ}
    (h : ∀ x ∈ l, ∀ s, I s → After (f x) s (fun _ s' => I s')) (hs : I s) :
    After (l.forM f) s (fun _ s' => I s') := by
  refine (after_forM_ok (p := False) f l (fun x hx s hs => ?_) hs).mono fun _ _ h => h.1
  exact (h x hx s hs).mono fun _ _ h => ⟨h, False.elim⟩

end Exec

end Gooselake.Library
