import Gooselake.TeamComms.Moves

/-!
The drafts of the sends in flight. A draft is fixed by the request it was made from, but for its recipients,
which are admitted one after the other and differ.
-/

namespace Gooselake.TeamComms

open Gooselake.Core Data Library Library.Exec

set_option autoImplicit false

namespace SendRequest

def teamId : SendRequest → String
  | .direct request => request.teamId
  | .broadcast request => request.teamId

def senderAgentId : SendRequest → String
  | .direct request => request.senderAgentId
  | .broadcast request => request.senderAgentId

def scope : SendRequest → String
  | .direct _ => "direct"
  | .broadcast _ => "broadcast"

def idempotencyKey : SendRequest → Option String
  | .direct request => request.idempotencyKey
  | .broadcast request => request.idempotencyKey

end SendRequest

structure Drafts (r : SendRequest) (m : MessageDraft) : Prop where
  teamId : m.teamId = trim r.teamId
  senderAgentId : m.senderAgentId = trim r.senderAgentId
  scope : m.scope = r.scope
  idempotencyKey : m.idempotencyKey = normalizedNonEmpty r.idempotencyKey

section

variable {c : Comms}

theorem normalizeNonEmpty_ok {value field v : String} (h : normalizeNonEmpty value field = .ok v) : v = trim value := by
  unfold normalizeNonEmpty at h
  dsimp only at h
  split at h
  · cases h
  · exact (Except.ok.inj h).symm

theorem normalizeScope_scope (r : SendRequest) : normalizeScope r.scope = .ok r.scope := by
  cases r with
  | direct request => exact (by decide +kernel : normalizeScope "direct" = .ok "direct")
  | broadcast request => exact (by decide +kernel : normalizeScope "broadcast" = .ok "broadcast")

theorem draftMessage_after {teamId scope sender : String} (hscope : normalizeScope scope = .ok scope)
    (recipientCount : ℕ) (input : List Json) (imagePaths : List String) (priority policy : String)
    (correlationId replyTo key : Option String) :
    After (draftMessage teamId scope sender recipientCount input imagePaths priority policy correlationId replyTo key) c
      fun r _ => ∀ m, r = .ok m → m.teamId = teamId ∧ m.senderAgentId = trim sender ∧ m.scope = scope ∧
        m.idempotencyKey = normalizedNonEmpty key ∧ m.recipients = [] := by
  rw [draftMessage, after_bind_iff, after_ofExcept, hscope]
  dsimp only
  refine after_checked (fun policy _ => ?_) fun _ _ _ h => by cases h
  refine after_checked (fun sender' hsender => ?_) fun _ _ _ h => by cases h
  rw [after_bind_iff, after_get]
  dsimp only
  split
  · exact (after_throw _ _ _).mpr fun _ h => by cases h
  · refine (after_pure _ _ _).mpr fun m h => ?_
    obtain rfl := Except.ok.inj h
    exact ⟨rfl, normalizeNonEmpty_ok hsender, rfl, rfl, rfl⟩

theorem begin_drafts (r : SendRequest) : After r.begin c fun result _ =>
    ∀ p, result = .ok p → Drafts r p.1 ∧ p.1.recipients = [] := by
  have htrim : ∀ s : String, trim (trim s) = trim s := fun s => trimBy_trimBy _ s
  cases r with
  | direct request =>
    refine readOnly_ensureEnabled.after_bind (fun _ => ?_) fun _ _ h => by cases h
    refine after_checked (fun teamId hteam => ?_) fun _ _ _ h => by cases h
    refine after_checked (fun sender hsender => ?_) fun _ _ _ h => by cases h
    refine (ReadOnly.ofExcept _).after_bind (fun recipient => ?_) fun _ _ h => by cases h
    refine (ReadOnly.ofExcept _).after_bind (fun input => ?_) fun _ _ h => by cases h
    refine after_bind (draftMessage_after (normalizeScope_scope (.direct request)) _ _ _ _ _ _ _ _)
      (fun m c' h => ?_) fun _ _ _ _ h => by cases h
    refine (after_pure _ _ _).mpr fun p hp => ?_
    obtain rfl := Except.ok.inj hp
    obtain ⟨ht, hs, hscope, hkey, hrecipients⟩ := h m rfl
    refine ⟨⟨ht.trans (normalizeNonEmpty_ok hteam), ?_, hscope, hkey⟩, hrecipients⟩
    rw [hs, normalizeNonEmpty_ok hsender, htrim]
    rfl
  | broadcast request =>
    refine readOnly_ensureEnabled.after_bind (fun _ => ?_) fun _ _ h => by cases h
    refine after_checked (fun teamId hteam => ?_) fun _ _ _ h => by cases h
    refine after_checked (fun sender hsender => ?_) fun _ _ _ h => by cases h
    refine (ReadOnly.ofExcept _).after_bind (fun input => ?_) fun _ _ h => by cases h
    refine ReadOnly.get.after_bind (fun c₀ => ?_) fun _ _ h => by cases h
    refine (ReadOnly.orThrow _ _).after_bind (fun members => ?_) fun _ _ h => by cases h
    refine after_bind (draftMessage_after (normalizeScope_scope (.broadcast request)) _ _ _ _ _ _ _ _)
      (fun m c' h => ?_) fun _ _ _ _ h => by cases h
    refine (after_pure _ _ _).mpr fun p hp => ?_
    obtain rfl := Except.ok.inj hp
    obtain ⟨ht, hs, hscope, hkey, hrecipients⟩ := h m rfl
    refine ⟨⟨ht.trans (normalizeNonEmpty_ok hteam), ?_, hscope, hkey⟩, hrecipients⟩
    rw [hs, normalizeNonEmpty_ok hsender, htrim]
    rfl

end

/-! ## Drafts in flight -/

def TeamCall.draft : TeamCall → Option MessageDraft
  | .admitting m _ _ | .create m => some m
  | _ => none

structure MessageDraft.Proper (m : MessageDraft) : Prop where
  recipients : (m.recipients.map Prod.fst).Nodup
  idempotencyKey : normalizedNonEmpty m.idempotencyKey = m.idempotencyKey

theorem normalizedNonEmpty_normalized (key : Option String) :
    normalizedNonEmpty (normalizedNonEmpty key) = normalizedNonEmpty key := by
  unfold normalizedNonEmpty
  cases key with
  | none => rfl
  | some key =>
    rw [Option.bind_some]
    cases hkey : trimmedNonEmpty key with
    | none => rfl
    | some trimmed =>
      rw [Option.bind_some]
      exact trimmedNonEmpty_of_trimmed hkey

theorem Drafts.proper {r : SendRequest} {m : MessageDraft} (h : Drafts r m) (hrecipients : m.recipients = []) :
    m.Proper := by
  refine ⟨?_, ?_⟩
  · rw [hrecipients]
    exact List.nodup_nil
  · rw [h.idempotencyKey, normalizedNonEmpty_normalized]

theorem MessageDraft.Proper.admits {m m' : MessageDraft} (h : m.Proper) (hadmits : Admits m m') : m'.Proper := by
  cases hadmits with
  | again => exact h
  | added new =>
    refine ⟨?_, h.idempotencyKey⟩
    rw [List.map_append, List.map_singleton]
    refine List.nodup_append.mpr ⟨h.recipients, List.nodup_singleton _, fun a ha b hb he => new ?_⟩
    rw [List.mem_singleton] at hb
    rw [he, hb] at ha
    exact ha

@[simp] theorem draft_nextAdmit (m : MessageDraft) (todo : List String) : (nextAdmit m todo).draft = some m := by
  cases todo <;> rfl

theorem draft_startInject {trigger : DeliveryAttemptTrigger} {k : List String → Frame} {ids : List String}
    {call : TeamCall} (h : startInject trigger k ids = some call) : call.draft = none := by
  cases ids with
  | nil => cases h
  | cons id ids => rw [← Option.some.inj h]; rfl

theorem draft_nextRecipient {retried : ℕ} {recipients : List String} {call : TeamCall}
    (h : nextRecipient retried recipients = some call) : call.draft = none := by
  cases recipients with
  | nil => cases h
  | cons recipient recipients => rw [← Option.some.inj h]; rfl

theorem draft_nextDeferred {retried : ℕ} {recipients ids : List String} {call : TeamCall}
    (h : nextDeferred recipients retried ids = some call) : call.draft = none := by
  cases ids with
  | nil => exact draft_nextRecipient h
  | cons id ids => rw [← Option.some.inj h]; rfl

theorem draft_after {k : Frame} {result : Except RuntimeError (Inject ⊕ TeamDeliveryRecord)} {call : TeamCall}
    (h : k.after result = some call) : call.draft = none := by
  have hnext : ∀ r, k.next r = some call → call.draft = none := by
    intro r h
    cases k with
    | queue rest | replay rest => exact draft_startInject h
    | retry => cases h
    | recover rest recipients retried => exact draft_nextDeferred h
  rcases result with e | (r | d)
  · exact hnext _ h
  · rw [← Option.some.inj h]
    rfl
  · exact hnext _ h

def ProperDrafts (s : Service) : Prop :=
  ∀ i call m, s.calls.lookup i = some call → call.draft = some m → m.Proper

variable {c c' : Comms}

theorem Begun.proper {op : Operation} {after : Option TeamCall} (h : Begun c op after c') {call : TeamCall}
    {m : MessageDraft} (hcall : after = some call) (hm : call.draft = some m) : m.Proper := by
  cases h with
  | refused | reteams | deletes | cancels => cases hcall
  | creates | joins =>
    obtain rfl := Option.some.inj hcall
    cases hm
  | @sends r m' todo drafted =>
    obtain rfl := Option.some.inj hcall
    obtain rfl : m' = m := by simpa using hm
    obtain ⟨hdrafts, hrecipients⟩ := (begin_drafts (c := c) r).out _ drafted
    exact hdrafts.proper hrecipients
  | retries =>
    obtain ⟨id, -, rfl⟩ := Option.map_eq_some_iff.mp hcall
    cases hm
  | resumes => rw [draft_startInject hcall] at hm; cases hm
  | recovers => rw [draft_nextRecipient hcall] at hm; cases hm

theorem Moved.draft {call call' : TeamCall} {after : Option TeamCall} (h : Moved c call after c')
    (hcall : after = some call') {m : MessageDraft} (hm : call'.draft = some m) :
    ∃ m', call.draft = some m' ∧ Admits m' m := by
  cases h with
  | stopped | membersStored | joined => cases hcall
  | @checked d member todo =>
    obtain rfl := Option.some.inj hcall
    cases todo <;> cases hm
  | created _ _ next =>
    rcases next with rfl | rfl <;> cases hcall
    cases hm
  | joinChecked | idle =>
    obtain rfl := Option.some.inj hcall
    cases hm
  | @admitted m₀ m' recipient todo admits =>
    obtain rfl := Option.some.inj hcall
    obtain rfl : m' = m := by simpa using hm
    exact ⟨m₀, rfl, admits⟩
  | @sent _ r =>
    rcases r with e | ⟨message, deliveries, _ | _⟩
    · cases hcall
    · rw [draft_startInject hcall] at hm
      cases hm
    · cases hcall
  | ran => rw [draft_after hcall] at hm; cases hm
  | passedBy => rw [draft_nextRecipient hcall] at hm; cases hm
  | recovers => rw [draft_nextDeferred hcall] at hm; cases hm

theorem properDrafts_start (c : Comms) : ProperDrafts (Service.start c) := by
  intro i call m h
  simp [Service.start] at h

theorem properDrafts_step {s s' : Service} {l : Label} (h : ProperDrafts s) (hs : Stepped s l s') :
    ProperDrafts s' := by
  cases hs with
  | runtime => exact h
  | @begun i op after c' _ begun =>
    intro j call m hl hm
    dsimp only at hl
    rw [lookup_put] at hl
    split at hl
    · exact begun.proper hl hm
    · exact h j call m hl hm
  | @moved i answer call₀ after c' found _ moved =>
    intro j call m hl hm
    dsimp only at hl
    rw [lookup_put] at hl
    split at hl
    · obtain ⟨m', hm', hadmits⟩ := moved.draft hl hm
      exact (h i call₀ m' found hm').admits hadmits
    · exact h j call m hl hm

end Gooselake.TeamComms
