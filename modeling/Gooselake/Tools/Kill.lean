import Gooselake.Tools.ProcessMoves

/-!
Whether a kill reaches the child. `Sound` says of one process how the flag of a kill, the slot of the
child and the lifecycle task stand to each other; a kill that meets the child in its slot, or finds it
signalled or gone, keeps it.
-/

namespace Gooselake.Tools

open Gooselake.Core Data Library Library.Exec

set_option autoImplicit false

/-! ## The state of one process -/

def signalled (o : ManagedProcess) : Bool := o.child.any Child.killed

def decided (o : ManagedProcess) : Bool :=
  match o.lifecycle with
  | .recording _ _ _ | .ended => true
  | _ => false

def exitStatus (code : Option ℤ) : ProcessStatus := if code = some 0 then .completed else .failed

def killable (o : ManagedProcess) : Bool :=
  signalled o || (decided o && !running o) || (o.childHeld && running o)

/-- `kill`: a kill of the process has set its flag and not looked for the child yet. -/
structure Sound (kill : Prop) (o : ManagedProcess) : Prop where
  held : o.childHeld = true ↔ o.lifecycle = .spawned
  pending : kill → killable o = true
  requested : o.killRequested = true →
    signalled o = true ∨ (decided o = true ∧ running o = false) ∨ (kill ∧ o.childHeld = true)
  timedOut : o.timedOut = true → signalled o = true
  gone : ∀ r, o.lifecycle = .draining (.ok r) → running o = false
  recording : ∀ status code signal, o.lifecycle = .recording status code signal →
    signalled o = true ∨ status = exitStatus code
  live : o.lifecycle ≠ .ended → o.child.isSome = true
  ended : o.child.isSome = true → o.lifecycle = .ended →
    signalled o = true ∨ o.record.status = exitStatus o.record.exitCode

theorem Sound.hydrated (kill : Prop) (record : ProcessRecord) : Sound kill (.hydrated record) where
  held := by simp [ManagedProcess.hydrated]
  pending _ := rfl
  requested h := by cases h
  timedOut h := by cases h
  gone _ h := by cases h
  recording _ _ _ h := by cases h
  live h := absurd rfl h
  ended h := by cases h

theorem Sound.spawned (kill : Prop) (record : ProcessRecord) : Sound kill (.spawned record) where
  held := by simp [ManagedProcess.spawned]
  pending _ := rfl
  requested h := by cases h
  timedOut h := by cases h
  gone _ h := by cases h
  recording _ _ _ h := by cases h
  live _ := rfl
  ended _ h := by cases h

theorem killable_of_signalled {o : ManagedProcess} (h : signalled o = true) : killable o = true := by
  simp [killable, h]

theorem killable_of_gone {o : ManagedProcess} (hd : decided o = true) (hr : running o = false) : killable o = true := by
  simp [killable, hd, hr]

theorem Sound.of_signalled {kill : Prop} {o : ManagedProcess} (hs : signalled o = true)
    (held : o.childHeld = true ↔ o.lifecycle = .spawned)
    (gone : ∀ r, o.lifecycle = .draining (.ok r) → running o = false)
    (live : o.lifecycle ≠ .ended → o.child.isSome = true) : Sound kill o where
  held := held
  pending _ := killable_of_signalled hs
  requested _ := .inl hs
  timedOut _ := hs
  gone := gone
  recording _ _ _ _ := .inl hs
  live := live
  ended _ _ := .inl hs

def Reached (o : ManagedProcess) : Prop := running o = true → signalled o = true

theorem signalled_startKill (o : ManagedProcess) (f : ManagedProcess → ManagedProcess)
    (hf : (f o).child = o.child.map Child.startKill) : signalled (f o) = (signalled o || running o) := by
  unfold signalled running
  rw [hf]
  cases o.child <;> rfl

theorem running_startKill (o : ManagedProcess) (f : ManagedProcess → ManagedProcess)
    (hf : (f o).child = o.child.map Child.startKill) : running (f o) = running o := by
  unfold running
  rw [hf]
  cases o.child <;> rfl

theorem exitStatus_ne_killed (code : Option ℤ) : exitStatus code ≠ .killed := by
  unfold exitStatus
  split <;> simp

/-! ## What the tasks keep -/

/-- What a task must find: the child exits, and leaves its slot, with no kill between its flag and its
signal; the timer fires for a child that runs. -/
def Task.meets (kill : Bool) (o : ManagedProcess) : Task → Bool
  | .exit _ _ | .take => signalled o || !kill
  | .timer => running o
  | _ => true

section

variable {kill : Prop} {o : ManagedProcess}

theorem Sound.signalled_of_requested (h : Sound kill o) (hd : decided o = false) (hh : o.childHeld = false)
    (hk : o.killRequested = true) : signalled o = true := by
  rcases h.requested hk with hs | ⟨hd', -⟩ | ⟨-, hh'⟩
  · exact hs
  · rw [hd] at hd'
    cases hd'
  · rw [hh] at hh'
    cases hh'

theorem Sound.signalled_of_pending (h : Sound kill o) (hd : decided o = false) (hh : o.childHeld = false)
    (hk : kill) : signalled o = true := by
  have := h.pending hk
  simpa [killable, hd, hh] using this

theorem Sound.finalStatus {result : WaitResult} (h : Sound kill o) (was : o.lifecycle = .draining result) :
    signalled o = true ∨ (finalStatus o result).1 = exitStatus (finalStatus o result).2.1 := by
  cases result with
  | error errno => exact .inr rfl
  | ok r =>
    obtain ⟨code, signal⟩ := r
    have hd : decided o = false := by simp [decided, was]
    have hh : o.childHeld = false := by
      rw [Bool.eq_false_iff, ne_eq, h.held, was]
      exact nofun
    by_cases ht : o.timedOut = true
    · exact .inl (h.timedOut ht)
    · by_cases hk : o.killRequested = true
      · exact .inl (h.signalled_of_requested hd hh hk)
      · right
        by_cases hc : code = some 0 <;> simp [Tools.finalStatus, ht, hk, hc, exitStatus]

theorem Sound.toAwait {lifecycle : Lifecycle} (h : Sound kill o) (hd : decided o = false) (hh : o.childHeld = false)
    (hl : decided { o with lifecycle := lifecycle } = false) (hs : lifecycle ≠ .spawned)
    (gone : ∀ r, lifecycle = .draining (.ok r) → running o = false) (hc : o.child.isSome = true) :
    Sound kill { o with lifecycle := lifecycle } where
  held := by simp [hh, hs]
  pending hk := killable_of_signalled (h.signalled_of_pending hd hh hk)
  requested hk := .inl (h.signalled_of_requested hd hh hk)
  timedOut := h.timedOut
  gone := gone
  recording := by
    intro status code signal hr
    obtain rfl : lifecycle = .recording status code signal := hr
    cases hl
  live _ := hc
  ended := by
    intro _ he
    obtain rfl : lifecycle = .ended := he
    cases hl

theorem Sound.task {flag : Bool} {o' : ManagedProcess} {task : Task} (hf : kill → flag = true)
    (h : Sound kill o) (hm : TaskMove task o o') (hmeets : task.meets flag o = true) : Sound kill o' := by
  have hheld : ∀ l, o.lifecycle = l → l ≠ .spawned → o.childHeld = false := by
    intro l hl hne
    rw [Bool.eq_false_iff, ne_eq, h.held, hl]
    exact hne
  cases hm with
  | @exited _ c code signal child runs =>
    have hrun : running o = true := by simp [running, child, runs]
    have hkeep : signalled { o with child := some (c.exited code signal) } = signalled o := by
      simp [signalled, child, Child.exited]
    have hsig : kill → signalled o = true := by
      intro hk
      simpa [Task.meets, hf hk] using hmeets
    have hreq : o.killRequested = true → signalled o = true := by
      intro hk
      rcases h.requested hk with hs | ⟨-, hr⟩ | ⟨hp, -⟩
      · exact hs
      · rw [hrun] at hr
        cases hr
      · exact hsig hp
    exact {
      held := h.held
      pending := fun hk => killable_of_signalled (hkeep.trans (hsig hk))
      requested := fun hk => .inl (hkeep.trans (hreq hk))
      timedOut := fun ht => hkeep.trans (h.timedOut ht)
      gone := fun _ _ => rfl
      recording := fun status code signal hl => (h.recording status code signal hl).imp_left hkeep.trans
      live := fun _ => rfl
      ended := fun _ hl => (h.ended (by simp [child]) hl).imp_left hkeep.trans }
  | taken was held =>
    have hd : decided o = false := by simp [decided, was]
    have hc := h.live (by simp [was])
    have hsig : kill → signalled o = true := by
      intro hk
      simpa [Task.meets, hf hk] using hmeets
    exact {
      held := by simp
      pending := fun hk => killable_of_signalled (hsig hk)
      requested := fun hk => by
        rcases h.requested hk with hs | ⟨hd', -⟩ | ⟨hp, -⟩
        · exact .inl hs
        · rw [hd] at hd'
          cases hd'
        · exact .inl (hsig hp)
      timedOut := h.timedOut
      gone := fun _ hl => by cases hl
      recording := fun _ _ _ hl => by cases hl
      live := fun _ => hc
      ended := fun _ hl => by cases hl }
  | nothingToTake was empty =>
    have := h.held.mpr was
    rw [empty] at this
    cases this
  | timedOut was =>
    have hh := hheld _ was (by simp)
    have hc := h.live (by simp [was])
    refine .of_signalled ?_ (by simp [hh]) (fun _ hl => by cases hl) (fun _ => by simpa using hc)
    rw [signalled_startKill o
      (fun o => { o with timedOut := true, child := o.child.map Child.startKill, lifecycle := .reaping }) rfl]
    simp [show running o = true from hmeets]
  | @waited _ c was child gone =>
    have hh : o.childHeld = false := by rcases was with was | was <;> exact hheld _ was (by simp)
    have hd : decided o = false := by rcases was with was | was <;> simp [decided, was]
    exact h.toAwait hd hh rfl nofun (fun _ _ => by simp [running, child, gone]) (by simp [child])
  | waitFailed was =>
    have hh : o.childHeld = false := by rcases was with was | was <;> exact hheld _ was (by simp)
    have hd : decided o = false := by rcases was with was | was <;> simp [decided, was]
    have hc := h.live (by rcases was with was | was <;> simp [was])
    exact h.toAwait hd hh rfl nofun (fun _ hl => by cases hl) hc
  | drained was =>
    have hh := hheld _ was (by simp)
    have hd : decided o = false := by simp [decided, was]
    have hc := h.live (by simp [was])
    exact {
      held := by simp [hh]
      pending := fun hk => killable_of_signalled (h.signalled_of_pending hd hh hk)
      requested := fun hk => .inl (h.signalled_of_requested hd hh hk)
      timedOut := h.timedOut
      gone := fun _ hl => by cases hl
      recording := by
        intro status code signal hl
        cases hl
        exact h.finalStatus was
      live := fun _ => hc
      ended := fun _ hl => by cases hl }
  | @recorded _ status exitCode signal now was =>
    have hh := hheld _ was (by simp)
    have hs' : signalled (recordedProcess now status exitCode signal o) = (signalled o || running o) :=
      signalled_startKill o (recordedProcess now status exitCode signal) rfl
    have hr' : running (recordedProcess now status exitCode signal o) = running o :=
      running_startKill o (recordedProcess now status exitCode signal) rfl
    by_cases hs : (signalled o || running o) = true
    · refine .of_signalled (hs'.trans hs) ?_ (fun _ hl => by cases hl) (fun hl => absurd rfl hl)
      simp [recordedProcess, hh]
    · simp only [Bool.or_eq_true, not_or, Bool.not_eq_true] at hs
      obtain ⟨hs, hr⟩ := hs
      exact {
        held := by simp [recordedProcess, hh]
        pending := fun _ => killable_of_gone rfl (hr'.trans hr)
        requested := fun _ => .inr (.inl ⟨rfl, hr'.trans hr⟩)
        timedOut := fun ht => absurd (h.timedOut ht) (by simp [hs])
        gone := fun _ hl => by cases hl
        recording := fun _ _ _ hl => by cases hl
        live := fun hl => absurd rfl hl
        ended := fun _ _ => .inr ((h.recording _ _ _ was).resolve_left (by simp [hs])) }
  | @read _ stream bytes c =>
    cases stream <;> exact ⟨h.held, h.pending, h.requested, h.timedOut, h.gone, h.recording, h.live, h.ended⟩
  | @eof _ stream c =>
    cases stream <;> exact ⟨h.held, h.pending, h.requested, h.timedOut, h.gone, h.recording, h.live, h.ended⟩

theorem Reached.task {o' : ManagedProcess} {task : Task} (h : Reached o) (hm : TaskMove task o o') : Reached o' := by
  have hstart : ∀ f : ManagedProcess → ManagedProcess, (f o).child = o.child.map Child.startKill → Reached (f o) := by
    intro f hf hr
    rw [running_startKill o f hf] at hr
    rw [signalled_startKill o f hf, hr, Bool.or_true]
  cases hm with
  | exited child runs => exact fun hr => by cases hr
  | taken was held => exact h
  | nothingToTake was empty => exact h
  | timedOut was =>
    exact hstart (fun o => { o with timedOut := true, child := o.child.map Child.startKill, lifecycle := .reaping }) rfl
  | waited was child gone => exact h
  | waitFailed was => exact h
  | drained was => exact h
  | @recorded _ status exitCode signal now was => exact hstart (recordedProcess now status exitCode signal) rfl
  | @read _ stream bytes c => cases stream <;> exact h
  | @eof _ stream c => cases stream <;> exact h

/-! ## What the calls keep -/

theorem Sound.killFlag (h : Sound kill o) (hk : killable o = true) : Sound True { o with killRequested := true } :=
  { h with
    pending _ := hk
    requested _ := by
      simp only [killable, Bool.or_eq_true, Bool.and_eq_true, Bool.not_eq_true'] at hk
      rcases hk with (hs | hd) | hr
      · exact .inl hs
      · exact .inr (.inl hd)
      · exact .inr (.inr ⟨trivial, hr.1⟩) }

theorem Sound.mono {kill' : Prop} (h : Sound kill o) (hp : kill' → killable o = true)
    (hk : kill → kill' ∨ o.childHeld = false) :
    Sound kill' o :=
  { h with
    pending := hp
    requested hr := by
      rcases h.requested hr with hs | hd | ⟨hkill, hh⟩
      · exact .inl hs
      · exact .inr (.inl hd)
      · rcases hk hkill with hk' | hh'
        · exact .inr (.inr ⟨hk', hh⟩)
        · rw [hh] at hh'
          cases hh' }

end

/-! ## Runs -/

namespace ProcessServer

/-- A kill of process `h` has set its flag and not looked for the child yet. -/
def flagged (s : ProcessServer) (h : ℕ) : Bool := s.calls.values.any fun c => c.flagging h

theorem flagged_iff {s : ProcessServer} {h : ℕ} :
    s.flagged h = true ↔ ∃ i c, s.calls.lookup i = some c ∧ c.flagging h = true := by
  simp only [flagged, List.any_eq_true, Table.mem_values]
  constructor
  · rintro ⟨c, ⟨i, hi⟩, hf⟩
    exact ⟨i, c, hi, hf⟩
  · rintro ⟨i, c, hi, hf⟩
    exact ⟨c, ⟨i, hi⟩, hf⟩

theorem lookup_put (calls : Table ℕ ProcessCall) (i j : ℕ) (after : Option ProcessCall) :
    (put calls i after).lookup j = if j = i then after else calls.lookup j := by
  cases after with
  | none => exact Table.lookup_erase calls i j
  | some c => exact Table.lookup_insert calls i j c

/-- Between the flag and the kill the child stays where the kill can reach it. -/
def killMeets (l : ProcessLabel) (s : ProcessServer) : Bool :=
  match l with
  | .goOn i _ =>
    match s.calls.lookup i with
    | some (.killFlag h _) => (s.manager.objects.lookup h).all killable
    | _ => true
  | .task h task => (s.manager.objects.lookup h).all fun o => task.meets (s.flagged h) o
  | _ => true

structure KillsSound (s : ProcessServer) : Prop where
  below : ∀ h o, s.manager.objects.lookup h = some o → h < s.manager.nextObject
  sound : ∀ h o, s.manager.objects.lookup h = some o → Sound (s.flagged h = true) o
  reached : ∀ i c h, s.calls.lookup i = some c → c.returning h = true →
    ∃ o, s.manager.objects.lookup h = some o ∧ Reached o

theorem flagged_put (p' : Processes) (h : ℕ) (after : Option ProcessCall) {s : ProcessServer} {i : ℕ}
    {before : Option ProcessCall} (hi : s.calls.lookup i = before) :
    (flagged ⟨p', put s.calls i after⟩ h = true → s.flagged h = true ∨ ∃ c, after = some c ∧ c.flagging h = true) ∧
      (s.flagged h = true → flagged ⟨p', put s.calls i after⟩ h = true ∨ ∃ c, before = some c ∧
      c.flagging h = true) := by
  simp only [flagged_iff, lookup_put]
  constructor
  · rintro ⟨j, c, hj, hf⟩
    split at hj
    · exact .inr ⟨c, hj, hf⟩
    · exact .inl ⟨j, c, hj, hf⟩
  · rintro ⟨j, c, hj, hf⟩
    by_cases e : j = i
    · subst e
      exact .inr ⟨c, hi.symm.trans hj, hf⟩
    · exact .inl ⟨j, c, by simp [e, hj], hf⟩

theorem KillsSound.quiet {s : ProcessServer} {i : ℕ} {before after : Option ProcessCall} {p' : Processes}
    (hs : KillsSound s) (hi : s.calls.lookup i = before) (keeps : Keeps s.manager p' s.manager.objects)
    (was : ∀ c h, before = some c → c.flagging h = true → s.manager.objects.lookup h = none)
    (flagging : ∀ c h, after = some c → c.flagging h = true → s.manager.objects.lookup h = none)
    (returning : ∀ c h, after = some c → c.returning h = true → ∃ o, s.manager.objects.lookup h = some o ∧ Reached o) :
    KillsSound ⟨p', put s.calls i after⟩ where
  below h o ho := by
    rw [keeps.nextObject]
    exact hs.below h o (keeps.objects ▸ ho)
  sound h o ho := by
    replace ho : s.manager.objects.lookup h = some o := keeps.objects ▸ ho
    obtain ⟨hto, hfrom⟩ := flagged_put p' h after hi
    refine (hs.sound h o ho).mono (fun hf => ?_) (fun hf => ?_)
    · rcases hto hf with hf | ⟨c, hc, hf⟩
      · exact (hs.sound h o ho).pending hf
      · rw [flagging c h hc hf] at ho
        cases ho
    · rcases hfrom hf with hf | ⟨c, hc, hf⟩
      · exact .inl hf
      · rw [was c h hc hf] at ho
        cases ho
  reached j c h hj hr := by
    simp only [lookup_put] at hj
    simp only [keeps.objects]
    split at hj
    · exact returning c h hj hr
    · exact hs.reached j c h hj hr

theorem KillsSound.kill {s : ProcessServer} {i h : ℕ} {o o' : ManagedProcess} {before after : ProcessCall}
    {p' : Processes}
    (hs : KillsSound s) (hi : s.calls.lookup i = some before) (found : s.manager.objects.lookup h = some o)
    (objects : ∀ h', p'.objects.lookup h' = if h' = h then some o' else s.manager.objects.lookup h')
    (nextObject : p'.nextObject = s.manager.nextObject)
    (was : ∀ h', before.flagging h' = true → h' = h) (will : ∀ h', after.flagging h' = true → h' = h)
    (sound : Sound (flagged ⟨p', put s.calls i (some after)⟩ h = true) o') (kept : Reached o → Reached o')
    (returning : ∀ h', after.returning h' = true → h' = h ∧ Reached o') :
    KillsSound ⟨p', put s.calls i (some after)⟩ where
  below h' x hx := by
    simp only [objects] at hx
    rw [nextObject]
    split at hx
    · next e => exact e ▸ hs.below h o found
    · exact hs.below h' x hx
  sound h' x hx := by
    simp only [objects] at hx
    obtain ⟨hto, hfrom⟩ := flagged_put p' h' (some after) hi
    split at hx
    · next e =>
      subst e
      obtain rfl := Option.some.inj hx
      exact sound
    · next e =>
      refine (hs.sound h' x hx).mono (fun hf => ?_) (fun hf => ?_)
      · rcases hto hf with hf | ⟨c, hc, hf⟩
        · exact (hs.sound h' x hx).pending hf
        · obtain rfl := Option.some.inj hc
          exact absurd (will h' hf) e
      · rcases hfrom hf with hf | ⟨c, hc, hf⟩
        · exact .inl hf
        · obtain rfl := Option.some.inj hc
          exact absurd (was h' hf) e
  reached j c h' hj hr := by
    simp only [lookup_put] at hj
    simp only [objects]
    split at hj
    · obtain rfl := Option.some.inj hj
      obtain ⟨rfl, hr⟩ := returning h' hr
      exact ⟨o', by simp, hr⟩
    · obtain ⟨x, hx, hxr⟩ := hs.reached j c h' hj hr
      by_cases e : h' = h
      · subst e
        rw [found] at hx
        obtain rfl := Option.some.inj hx
        exact ⟨o', by simp, kept hxr⟩
      · exact ⟨x, by simp [e, hx], hxr⟩

theorem KillsSound.call {s : ProcessServer} {i : ℕ} {before after : Option ProcessCall} {p' : Processes}
    (hs : KillsSound s) (hi : s.calls.lookup i = before) (hm : CallMove s.manager before after p')
    (hmeets : ∀ h request o, before = some (.killFlag h request) → s.manager.objects.lookup h = some o →
      killable o = true) : KillsSound ⟨p', put s.calls i after⟩ := by
  cases hm with
  | stopped keeps was => exact hs.quiet hi keeps was (fun _ _ hc => by cases hc) (fun _ _ hc => by cases hc)
  | went keeps was flagging returning =>
    refine hs.quiet hi keeps (fun c h hc hf => ?_) (fun c h hc hf => ?_) (fun c h hc hr => ?_)
    · rw [was c h hc] at hf
      cases hf
    · obtain rfl := Option.some.inj hc
      rw [flagging h] at hf
      cases hf
    · obtain rfl := Option.some.inj hc
      rw [returning h] at hr
      cases hr
  | @killFlagged request h p' keeps =>
    cases found : s.manager.objects.lookup h with
    | none =>
      have hsame : s.manager.objects.update h (fun o => { o with killRequested := true }) = s.manager.objects := by
        rw [Table.update, found]
      refine hs.quiet hi ⟨keeps.objects.trans hsame, keeps.nextObject⟩ (fun c _ hc hf => ?_) (fun c h' hc hf => ?_)
        (fun c _ hc hr => ?_)
      · obtain rfl := Option.some.inj hc
        cases hf
      · obtain rfl := Option.some.inj hc
        obtain rfl : h' = h := by simpa [ProcessCall.flagging] using hf
        exact found
      · obtain rfl := Option.some.inj hc
        cases hr
    | some o =>
      have hobj : ∀ h', p'.objects.lookup h' =
          if h' = h then some { o with killRequested := true } else s.manager.objects.lookup h' := by
        intro h'
        rw [keeps.objects, update_eq found, Table.lookup_insert]
      have hk := hmeets h request o rfl found
      have hflag : flagged ⟨p', put s.calls i (some (.killChild h request))⟩ h = true :=
        flagged_iff.mpr ⟨i, .killChild h request, by simp [lookup_put], by simp [ProcessCall.flagging]⟩
      refine hs.kill hi found hobj keeps.nextObject (fun _ hf => by cases hf)
        (fun h' hf => by simpa [ProcessCall.flagging] using hf)
        ?_ (fun hr => hr) (fun _ hr => by cases hr)
      exact ((hs.sound h o found).killFlag hk).mono (fun _ => hk) (fun _ => .inl hflag)
  | @killSent request h o p' found held keeps =>
    have hflag : s.flagged h = true :=
      flagged_iff.mpr ⟨i, .killChild h request, hi, by simp [ProcessCall.flagging]⟩
    have hsound := hs.sound h o found
    have hl := hsound.held.mp held
    have hsig : signalled { o with child := o.child.map Child.startKill } = true := by
      rw [signalled_startKill o (fun o => { o with child := o.child.map Child.startKill }) rfl, Bool.or_eq_true]
      have := hsound.pending hflag
      simp only [killable, decided, hl, Bool.false_and, Bool.or_false, Bool.or_eq_true, Bool.and_eq_true] at this
      exact this.imp_right And.right
    have hobj : ∀ h', p'.objects.lookup h' =
        if h' = h then some { o with child := o.child.map Child.startKill } else s.manager.objects.lookup h' := by
      intro h'
      rw [keeps.objects, Table.lookup_insert]
    refine hs.kill hi found hobj keeps.nextObject (fun h' hf => by simpa [ProcessCall.flagging] using hf)
      (fun _ hf => by cases hf) ?_ (fun _ _ => hsig)
        (fun h' hr => ⟨by simpa [ProcessCall.returning] using hr, fun _ => hsig⟩)
    refine .of_signalled hsig (by simp [held, hl]) (fun r hr => ?_) (fun hne => ?_)
    · rw [show o.lifecycle = _ from hr] at hl
      cases hl
    · simpa using hsound.live hne
  | @killMissed request h o p' found empty keeps =>
    have hflag : s.flagged h = true :=
      flagged_iff.mpr ⟨i, .killChild h request, hi, by simp [ProcessCall.flagging]⟩
    have hsound := hs.sound h o found
    have hreached : Reached o := by
      intro hr
      have := hsound.pending hflag
      simpa [killable, empty, hr] using this
    have hobj : ∀ h', p'.objects.lookup h' = if h' = h then some o else s.manager.objects.lookup h' := by
      intro h'
      rw [keeps.objects]
      split
      · next e => exact e ▸ found
      · rfl
    refine hs.kill hi found hobj keeps.nextObject (fun h' hf => by simpa [ProcessCall.flagging] using hf)
      (fun _ hf => by cases hf) ?_ id (fun h' hr => ⟨by simpa [ProcessCall.returning] using hr, hreached⟩)
    exact hsound.mono (fun _ => hsound.pending hflag) (fun _ => .inr empty)
  | @killAnnounced request h p' keeps =>
    refine hs.quiet hi keeps (fun c _ hc hf => ?_) (fun c _ hc hf => ?_) (fun c h' hc hr => ?_)
    · obtain rfl := Option.some.inj hc
      cases hf
    · obtain rfl := Option.some.inj hc
      cases hf
    · obtain rfl := Option.some.inj hc
      exact hs.reached i (.killEvent h request) h' hi hr
  | @inserted record after p' next objects nextObject =>
    have hnext : ∀ c, after = some c → ∀ h, c.flagging h = false ∧ c.returning h = false := by
      rintro c rfl h
      rcases next with hc | hc
      · cases hc
      · obtain rfl := Option.some.inj hc
        exact ⟨rfl, rfl⟩
    have hobj : ∀ h, p'.objects.lookup h =
        if h = s.manager.nextObject then some (.spawned record) else s.manager.objects.lookup h := by
      intro h
      rw [objects, Table.lookup_insert]
    refine { below := fun h o ho => ?_, sound := fun h o ho => ?_, reached := fun j c h hj hr => ?_ }
    · simp only [hobj] at ho
      rw [nextObject]
      split at ho
      · next e => omega
      · have := hs.below h o ho
        omega
    · simp only [hobj] at ho
      split at ho
      · obtain rfl := Option.some.inj ho
        exact .spawned _ record
      · obtain ⟨hto, hfrom⟩ := flagged_put p' h after hi
        refine (hs.sound h o ho).mono (fun hf => ?_) (fun hf => ?_)
        · rcases hto hf with hf | ⟨c, hc, hf⟩
          · exact (hs.sound h o ho).pending hf
          · rw [(hnext c hc h).1] at hf
            cases hf
        · rcases hfrom hf with hf | ⟨c, hc, hf⟩
          · exact .inl hf
          · obtain rfl := Option.some.inj hc
            cases hf
    · simp only [lookup_put] at hj
      simp only [hobj]
      split at hj
      · rw [(hnext c hj h).2] at hr
        cases hr
      · obtain ⟨o, ho, hor⟩ := hs.reached j c h hj hr
        have := hs.below h o ho
        exact ⟨o, by rw [if_neg (by omega), ho], hor⟩

theorem KillsSound.step {l : ProcessLabel} {s s' : ProcessServer} (hs : KillsSound s) (hmeets : killMeets l s = true)
    (hstep : ProcessServer.step l s = some s') : KillsSound s' := by
  cases step_move hstep with
  | started new move => exact hs.call new move (fun _ _ _ hc => by cases hc)
  | @wentOn i answer c after p' was move =>
    refine hs.call was move fun h request o hc ho => ?_
    obtain rfl := Option.some.inj hc
    simpa [killMeets, was, ho] using hmeets
  | @task h task o o' p' found move keeps =>
    have hm : task.meets (s.flagged h) o = true := by simpa [killMeets, found] using hmeets
    have hobj : ∀ h', p'.objects.lookup h' = if h' = h then some o' else s.manager.objects.lookup h' := by
      intro h'
      rw [keeps.objects, Table.lookup_insert]
    refine { below := fun h' x hx => ?_, sound := fun h' x hx => ?_, reached := fun j c h' hj hr => ?_ }
    · simp only [hobj] at hx
      rw [keeps.nextObject]
      split at hx
      · next e => exact e ▸ hs.below h o found
      · exact hs.below h' x hx
    · simp only [hobj] at hx
      split at hx
      · next e =>
        subst e
        obtain rfl := Option.some.inj hx
        exact (hs.sound h' o found).task id move hm
      · exact hs.sound h' x hx
    · simp only [hobj]
      obtain ⟨x, hx, hxr⟩ := hs.reached j c h' hj hr
      by_cases e : h' = h
      · subst e
        rw [found] at hx
        obtain rfl := Option.some.inj hx
        exact ⟨o', by simp, hxr.task move⟩
      · exact ⟨x, by simp [e, hx], hxr⟩
  | ticked => exact ⟨hs.below, hs.sound, hs.reached⟩

theorem KillsSound.start {p : Processes} (hbelow : ∀ h o, p.objects.lookup h = some o → h < p.nextObject)
    (hydrated : ∀ h o, p.objects.lookup h = some o → ∃ record, o = .hydrated record) :
    KillsSound (ProcessServer.start p) where
  below := hbelow
  sound h o ho := by
    obtain ⟨record, rfl⟩ := hydrated h o ho
    exact .hydrated _ record
  reached _ _ _ hi := by cases hi

end ProcessServer

/-- A kill that returns while the child runs has signalled it, and a process has ended as killed only
when a signal reached its child; without one its status is the one its exit code gives. -/
def KillsReach (s : ProcessServer) : Prop :=
  (∀ i h, s.calls.lookup i = some (.killDetail h) → ∃ o, s.manager.objects.lookup h = some o ∧
    (running o = true → signalled o = true)) ∧
  ∀ h o, s.manager.objects.lookup h = some o → o.child.isSome = true → o.lifecycle = .ended →
    (o.record.status = .killed → signalled o = true) ∧
      (signalled o = false → o.record.status = exitStatus o.record.exitCode)

/-- Kills reach the child in every run that keeps it where they can reach it, from the flag to the kill. -/
theorem kills_reach {store : ToolStore} {config : ProcessManagerConfig} {clock : ℤ} {p : Processes}
    {s : ProcessServer} (hp : Processes.new store config clock = .ok p)
    (hs : Reaches ProcessServer.step (fun l s => ProcessServer.killMeets l s = true) (.start p) s) : KillsReach s := by
  have hbooted := new_booted hp
  have hydrated : ∀ h o, p.objects.lookup h = some o → ∃ record, o = .hydrated record := by
    intro h o ho
    obtain ⟨r, -, rfl⟩ := hbooted.found ho
    exact ⟨_, rfl⟩
  have hinv : s.KillsSound :=
    hs.invariant (.start (fun _ _ ho => hbooted.below ho) hydrated) fun _ _ _ hinv hmeets hstep =>
      hinv.step hmeets hstep
  refine ⟨fun i h hi => hinv.reached i _ h hi (by simp [ProcessCall.returning]), fun h o ho hc hl => ?_⟩
  have hended := (hinv.sound h o ho).ended hc hl
  constructor
  · intro hk
    rcases hended with hsig | hst
    · exact hsig
    · exact absurd (hst.symm.trans hk) (exitStatus_ne_killed _)
  · intro hsig
    exact hended.resolve_left (by simp [hsig])

/-! ## A kill before and after the child is taken -/

def noProcesses : Processes where
  config := ⟨true, 4, 60000, 65536, 0, 4096, "logs"⟩
  store := ToolStore.empty []
  objects := ∅
  processes := ∅
  nextObject := 0
  nextProcessId := 1
  nextEventId := 1
  permits := 4
  clock := 0
  sent := []

theorem noProcesses_new : Processes.new noProcesses.store noProcesses.config 0 = .ok noProcesses := by
  rfl

def runSleep : List ProcessLabel :=
  [.start 0 (.run ⟨none, none, "sleep 60", none, none⟩), .goOn 0 (.spawned (.ok (some 4711))), .goOn 0 .lock,
    .goOn 0 .lock]

def killSleep : List ProcessLabel :=
  [.start 1 (.kill ⟨"proc_1", none, none⟩), .goOn 1 .lock, .goOn 1 .lock, .goOn 1 .lock]

def endSleep (code signal : Option ℤ) : List ProcessLabel :=
  [.task 0 (.exit code signal), .task 0 .waited, .task 0 (.eof .stdout), .task 0 (.eof .stderr), .task 0 .drained,
    .task 0 .record]

def statusOf (s : ProcessServer) (h : ℕ) : Option (ProcessStatus × Bool) :=
  (s.manager.objects.lookup h).map fun o => (o.record.status, signalled o)

theorem kills_reach_beforeTaken : ∃ s : ProcessServer, statusOf s 0 = some (.killed, true) ∧ KillsReach s := by
  obtain ⟨s, hs, he⟩ := exists_reaches_of_runAll ProcessServer.step ProcessServer.killMeets
    (runSleep ++ killSleep ++ [.goOn 1 .lock, .task 0 .take] ++ endSleep none (some 9)) (statusOf · 0)
    (some (.killed, true)) (s := .start noProcesses) (by decide +kernel)
  exact ⟨s, he, kills_reach noProcesses_new hs⟩

theorem not_kills_reach : ¬ ∀ (store : ToolStore) (config : ProcessManagerConfig) (clock : ℤ) (p : Processes)
    (s : ProcessServer), Processes.new store config clock = .ok p →
      Reaches ProcessServer.step (fun _ _ => True) (.start p) s → KillsReach s := by
  intro hall
  obtain ⟨s, hs, he⟩ := exists_reaches_of_runAll ProcessServer.step (fun _ _ => true)
    (runSleep ++ [.task 0 .take] ++ killSleep)
    (fun s => (s.calls.lookup 1, (s.manager.objects.lookup 0).map fun o => (running o, signalled o)))
    (some (.killDetail 0), some (true, false)) (s := .start noProcesses) (by decide +kernel)
  obtain ⟨hcall, hobject⟩ := Prod.mk.inj he
  obtain ⟨o, ho, hreached⟩ := (hall _ _ _ _ s noProcesses_new (hs.mono fun _ _ _ => trivial)).1 1 0 hcall
  rw [ho, Option.map_some, Option.some.injEq, Prod.mk.injEq] at hobject
  rw [hreached hobject.1] at hobject
  cases hobject.2

/-- Killed while it ends by itself, with exit code 0, the process is recorded as killed. -/
example : ((runAll ProcessServer.step (runSleep ++ [.task 0 .take] ++ killSleep ++ endSleep (some 0) none)
    (.start noProcesses)).bind fun s => statusOf s 0) = some (.killed, false) := by
  decide +kernel

end Gooselake.Tools
