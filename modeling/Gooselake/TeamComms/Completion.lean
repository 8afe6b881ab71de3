import Gooselake.TeamComms.AcceptedSends
import Gooselake.TeamComms.Onward

/-!
How often the completion of a message is announced. The status of a delivery is written in one piece and the message
checked in the next, so the check sees what other calls did between: two runs can both find the message complete.
-/

namespace Gooselake.TeamComms

open Gooselake.Core Data Library Library.Exec
open Gooselake.Runtime (Manager)

set_option autoImplicit false

/-- The property: once the calls have returned, a message is announced once if its deliveries are over, and not at all
if one is not. -/
structure AnnouncedOnce (s : Service) : Prop where
  finished : s.calls.keys = [] → ∀ messageId, Finished s.comms messageId → announcements s.comms.store messageId = 1
  unfinished : s.calls.keys = [] → ∀ messageId, Unfinished s.comms messageId → announcements s.comms.store messageId = 0

/-! ## The condition -/

def nobodyChecks (s : Service) (messageId : String) : Bool :=
  s.calls.values.all fun call => call.checks ≠ some messageId

/-- The last change of a message and a cancel are saved and find no call about to check the message, a check that finds
the message complete saves its event, and nothing is retried. -/
def announcesAlone : Label → Service → Bool
  | .start _ (.retryDelivery _ _), _ => false
  | .start _ (.cancelMessage teamId messageId), s => (cancels s.comms teamId messageId).all fun messageId =>
      nobodyChecks s messageId && clear (2 * (messageDeliveries s.comms.state messageId).length + 1) s.comms.store
  | .goOn i _, s =>
    match (s.calls.lookup i).bind TeamCall.stage with
    | some (.transition x _) => !closes s.comms x || (nobodyChecks s x.current.messageId && clear 1 s.comms.store)
    | some (.completing x _ _) => !messageTerminalState s.comms.state x.current.messageId || clear 1 s.comms.store
    | _ => true
  | _, _ => true

def noRetry : Label → Bool
  | .start _ (.retryDelivery _ _) => false
  | _ => true

/-! ## The tally of a message -/

/-- Call `i` is about to check the message. -/
def Service.Checks (s : Service) (i : ℕ) (messageId : String) : Prop :=
  (s.calls.lookup i).bind TeamCall.checks = some messageId

/-- A message that is complete is announced, or one call is about to announce it; one that is not is not announced. -/
structure Tally (s : Service) (messageId : String) : Prop where
  unfinished : Unfinished s.comms messageId → announcements s.comms.store messageId = 0
  finished : Finished s.comms messageId →
    (announcements s.comms.store messageId = 1 ∧ ∀ i, ¬ s.Checks i messageId) ∨
      (announcements s.comms.store messageId = 0 ∧ ∃ i, ∀ j, s.Checks j messageId ↔ j = i)

structure Grounded (c : Comms) : Prop where
  orderly : Orderly c
  counted : EventsCounted c
  issued : Issued c
  announced : ∀ messageId, announcements c.store messageId ≠ 0 → ∀ j, messageId = numbered "msg" j → j < c.nextMessageId

/-- A service with nothing in flight: what is complete has been announced once, what is not has not. -/
structure Settled (c : Comms) : Prop where
  grounded : Grounded c
  unfinished : ∀ messageId, Unfinished c messageId → announcements c.store messageId = 0
  finished : ∀ messageId, Finished c messageId → announcements c.store messageId = 1

structure Settling (s : Service) : Prop where
  grounded : Grounded s.comms
  drafts : ProperDrafts s
  runs : RunsKnown s
  tally : ∀ messageId, Tally s messageId

section

variable {s s' : Service} {c c' : Comms} {messageId : String}

theorem unfinished_iff (h : Orderly c) : Unfinished c messageId ↔ messageTerminalState c.state messageId = false := by
  have hindex := h.filed.indexed.ofMessages.mem_iff messageId
  unfold messageTerminalState
  constructor
  · rintro ⟨id, d, hl, he, hopen⟩
    have hid := (hindex id).mpr ⟨d, hl, he⟩
    split
    · next hnone =>
      rw [hnone] at hid
      cases hid
    · next ids hids =>
      rw [hids, Option.getD_some] at hid
      rw [List.all_eq_false]
      exact ⟨id, hid, by simp [hl, hopen]⟩
  · intro hfalse
    split at hfalse
    · cases hfalse
    · next ids hids =>
      obtain ⟨id, hid, hnot⟩ := List.all_eq_false.mp hfalse
      obtain ⟨d, hl, he⟩ := (hindex id).mp (by rw [hids]; exact hid)
      rw [hl, Option.any_some, Bool.not_eq_true] at hnot
      exact ⟨id, d, hl, he, hnot⟩

theorem Finished.not_unfinished (h : Finished c messageId) : ¬ Unfinished c messageId := by
  rintro ⟨id, d, hl, he, hopen⟩
  rw [h.ended id d hl he] at hopen
  cases hopen

theorem Finished.terminal (h : Finished c messageId) (ho : Orderly c) :
    messageTerminalState c.state messageId = true := by
  have hnot := h.not_unfinished
  rw [unfinished_iff ho, Bool.not_eq_false] at hnot
  exact hnot

theorem Settling.unannounced (h : Settling s) (ho : Onward s.comms c') (hu : Unfinished c' messageId) :
    announcements s.comms.store messageId = 0 := by
  obtain ⟨id, d', hl, he, hopen⟩ := hu
  rcases ho.deliveries id d' hl with ⟨d, found, hmessage, hstays⟩ | ⟨-, ⟨j, hj, hle⟩, -⟩
  · refine (h.tally messageId).unfinished ⟨id, d, found, hmessage.symm.trans he, ?_⟩
    by_contra hover
    rw [hstays (by simpa using hover)] at hopen
    cases hopen
  · by_contra hne
    have hlt := h.grounded.announced messageId hne j (he.symm.trans hj)
    omega

theorem checks_put {calls : Table ℕ TeamCall} {i j : ℕ} {after : Option TeamCall} :
    (((Service.put calls i after).lookup j).bind TeamCall.checks = some messageId) ↔
      if j = i then after.bind TeamCall.checks = some messageId else
      (calls.lookup j).bind TeamCall.checks = some messageId := by
  rw [lookup_put]
  split <;> rfl

theorem checks_free {i : ℕ} {after : Option TeamCall} (free : s.calls.lookup i = none)
    (hnone : after.bind TeamCall.checks = none) (j : ℕ) :
    Service.Checks { s with comms := c', calls := Service.put s.calls i after } j messageId ↔ s.Checks j messageId := by
  unfold Service.Checks
  rw [checks_put]
  split
  · next he =>
    subst he
    rw [hnone, free]
    exact Iff.rfl
  · exact Iff.rfl

theorem Settling.frame (h : Settling s) (ho : Onward s.comms s'.comms)
    (hlog : announcements s'.comms.store messageId = announcements s.comms.store messageId)
    (hfinished : Finished s'.comms messageId → Finished s.comms messageId ∧ ∀ i, s'.Checks i messageId ↔
      s.Checks i messageId) :
    Tally s' messageId := by
  refine ⟨fun hu => hlog.trans (h.unannounced ho hu), fun hf => ?_⟩
  obtain ⟨hf, hchecks⟩ := hfinished hf
  rw [hlog]
  rcases (h.tally messageId).finished hf with ⟨hone, hnone⟩ | ⟨hzero, i, hi⟩
  · exact .inl ⟨hone, fun j hj => hnone j ((hchecks j).mp hj)⟩
  · exact .inr ⟨hzero, i, fun j => (hchecks j).trans (hi j)⟩

theorem nobodyChecks_iff : nobodyChecks s messageId = true ↔ ∀ i, ¬ s.Checks i messageId := by
  unfold nobodyChecks Service.Checks
  rw [List.all_eq_true]
  constructor
  · intro hall i hi
    obtain ⟨call, hl, hcall⟩ := Option.bind_eq_some_iff.mp hi
    have hne := hall call (Table.mem_values.mpr ⟨i, hl⟩)
    rw [decide_eq_true_eq] at hne
    exact hne hcall
  · intro hnone call hcall
    obtain ⟨i, hl⟩ := Table.mem_values.mp hcall
    rw [decide_eq_true_eq]
    intro he
    exact hnone i (by rw [hl]; exact he)

/-! ## One step -/

theorem Settling.begun (h : Settling s) {i : ℕ} {after : Option TeamCall} (free : s.calls.lookup i = none)
    (hnone : after.bind TeamCall.checks = none) (hleaves : Leaves s.comms c')
    (hlog : ∀ messageId, announcements c'.store messageId = announcements s.comms.store messageId)
    (messageId : String) :
    Tally { s with comms := c', calls := Service.put s.calls i after } messageId := by
  refine h.frame hleaves.onward (hlog messageId) fun hf => ⟨hleaves.finished messageId hf, ?_⟩
  exact checks_free free hnone

theorem Settling.cancelled (h : Settling s) {i : ℕ} {cancelled : String} (free : s.calls.lookup i = none)
    (hcancelled : AllCancelled cancelled s.comms c') (hnobody : nobodyChecks s cancelled = true)
    (hlog : ∀ messageId, announcements c'.store messageId =
      announcements s.comms.store messageId + if messageId = cancelled then 1 else 0) (messageId : String) :
    Tally { s with comms := c', calls := Service.put s.calls i none } messageId := by
  have hchecks : ∀ j, Service.Checks { s with comms := c', calls := Service.put s.calls i none } j messageId ↔
      s.Checks j messageId := checks_free free rfl
  by_cases he : messageId = cancelled
  · subst he
    refine ⟨fun hu => ?_, fun hf => .inl ⟨?_, fun j hj => ?_⟩⟩
    · obtain ⟨id, d, hl, hd, hopen⟩ := hu
      rw [hcancelled.ended id d hl hd] at hopen
      cases hopen
    · obtain ⟨id, d', hl, hd'⟩ := hf.has
      rw [hlog, if_pos rfl]
      have hzero : announcements s.comms.store messageId = 0 := by
        rcases hcancelled.onward.deliveries id d' hl with ⟨d, found, hmessage, -⟩ | ⟨-, ⟨j, hj, hle⟩, -⟩
        · have hd := hmessage.symm.trans hd'
          exact (h.tally messageId).unfinished ⟨id, d, found, hd, hcancelled.queued id d found hd⟩
        · by_contra hne
          have hlt := h.grounded.announced messageId hne j (hd'.symm.trans hj)
          omega
      rw [hzero]
    · exact nobodyChecks_iff.mp hnobody j ((hchecks j).mp hj)
  · refine h.frame hcancelled.onward ?_ fun hf => ⟨hcancelled.others messageId he hf, hchecks⟩
    rw [hlog, if_neg he, Nat.add_zero]

theorem closes_of_finished (ho : Orderly c') {x : Change} {d : TeamDeliveryRecord}
    (valid : isValidTransition x.current.status x.next = true)
    (found : c.state.deliveries.lookup x.current.id = some d) (same : d.status = x.current.status)
    (hstate : c'.state = { c.state with
      deliveries := c.state.deliveries.insert x.current.id (x.apply c.runtime.clock d) })
    (hf : Finished c' x.current.messageId) : closes c x = true := by
  have hterminal := hf.terminal ho
  rw [hstate] at hterminal
  unfold closes
  rw [found]
  dsimp only
  rw [valid, hterminal, same]
  simp

theorem unfinished_of_closes {x : Change} (hknown : Known c x.current) (h : closes c x = true) :
    Unfinished c x.current.messageId := by
  unfold closes at h
  split at h
  · cases h
  · next d found =>
    simp only [Bool.and_eq_true, decide_eq_true_eq] at h
    obtain ⟨⟨hvalid, hsame⟩, -⟩ := h
    refine ⟨x.current.id, d, found, hknown.live d found, ?_⟩
    rw [hsame]
    by_contra hover
    rw [isValidTransition_of_terminal (by simpa using hover)] at hvalid
    cases hvalid

theorem Settling.transitioned (h : Settling s) (ho : Orderly c') {i : ℕ} {call : TeamCall} {after : Option TeamCall}
    {x : Change} {k : Then} (found : s.calls.lookup i = some call) (hstage : call.stage = some (.transition x k))
    (moved : Moved s.comms call after c') (hknown : Known s.comms x.current)
    (hcond : closes s.comms x = true → nobodyChecks s x.current.messageId = true ∧
      after.bind TeamCall.checks = some x.current.messageId)
    (hlog : ∀ messageId, announcements c'.store messageId = announcements s.comms.store messageId)
    (messageId : String) :
    Tally { s with comms := c', calls := Service.put s.calls i after } messageId := by
  have hbefore : call.checks = none := by rw [TeamCall.checks, hstage]; rfl
  have honward := moved.onward
  -- a call that is about to check the message afterwards is call `i`, and only after a change of the message
  have hchecks : ∀ j, after.bind TeamCall.checks ≠ some messageId →
      (Service.Checks { s with comms := c', calls := Service.put s.calls i after } j messageId ↔
          s.Checks j messageId) := by
    intro j hafter
    unfold Service.Checks
    rw [checks_put]
    split
    · next he =>
      subst he
      rw [found, Option.bind_some, hbefore]
      exact ⟨fun h => absurd h hafter, fun h => by cases h⟩
    · exact Iff.rfl
  have hafter : after.bind TeamCall.checks = some messageId → x.current.messageId = messageId ∧
      ∃ d, Transitioned s.comms x (.ok (.changed d)) c' := by
    intro hafter
    obtain ⟨x', k', d, hstage', hx, wrote⟩ := moved.checks hafter
    rw [hstage] at hstage'
    obtain ⟨rfl, rfl⟩ := Stage.transition.inj (Option.some.inj hstage')
    exact ⟨hx, d, wrote⟩
  obtain ⟨r, wrote⟩ := moved.transitioned hstage
  by_cases he : messageId = x.current.messageId
  · subst he
    by_cases hcloses : closes s.comms x = true
    · obtain ⟨hnobody, hlast⟩ := hcond hcloses
      refine ⟨fun hu => (hlog _).trans (h.unannounced honward hu), fun _ => .inr ⟨?_, i, fun j => ?_⟩⟩
      · exact (hlog _).trans ((h.tally _).unfinished (unfinished_of_closes hknown hcloses))
      · unfold Service.Checks
        rw [checks_put]
        split
        · next hj => exact ⟨fun _ => hj, fun _ => hlast⟩
        · next hj => exact ⟨fun hother => absurd hother (nobodyChecks_iff.mp hnobody j), fun he => absurd he hj⟩
    · refine h.frame honward (hlog _) fun hf => ⟨?_, fun j => hchecks j fun hlast => ?_⟩
      · cases wrote with
        | refused | already | missing | lost => exact hf
        | written valid found same sets => exact absurd (closes_of_finished ho valid found same sets.state hf) hcloses
      · obtain ⟨-, d, wrote⟩ := hafter hlast
        obtain ⟨valid, _, found, same, -, hstate⟩ := wrote.changed
        exact absurd (closes_of_finished ho valid found same hstate hf) hcloses
  · refine h.frame honward (hlog _) fun hf => ⟨?_, fun j => hchecks j fun hlast => he (hafter hlast).1.symm⟩
    cases wrote with
    | refused | already | missing | lost => exact hf
    | written valid found same sets =>
      refine sets.finished found rfl hf fun hd => ?_
      exact absurd (hd.symm.trans (hknown.live _ found)) he

theorem Settling.moved (h : Settling s) {i : ℕ} {call : TeamCall} {after : Option TeamCall}
    (found : s.calls.lookup i = some call) (hstage : ∀ x k, call.stage ≠ some (.transition x k))
    (hbefore : call.checks = none) (moved : Moved s.comms call after c')
    (hlog : ∀ messageId, announcements c'.store messageId = announcements s.comms.store messageId)
    (messageId : String) :
    Tally { s with comms := c', calls := Service.put s.calls i after } messageId := by
  have hleaves := moved.leaves hstage
  refine h.frame hleaves.onward (hlog _) fun hf => ⟨hleaves.finished _ hf, fun j => ?_⟩
  unfold Service.Checks
  rw [checks_put]
  split
  · next he =>
    subst he
    rw [found, Option.bind_some, hbefore]
    refine ⟨fun hafter => ?_, fun h => by cases h⟩
    obtain ⟨x, k, -, hx, -⟩ := moved.checks hafter
    exact absurd hx (hstage x k)
  · exact Iff.rfl

theorem completing_stage {call : TeamCall} (h : call.checks = some messageId) :
    ∃ x d k, call.stage = some (.completing x d k) ∧ x.current.messageId = messageId := by
  obtain ⟨stage, hstage, hchecks⟩ := Option.bind_eq_some_iff.mp h
  cases stage with
  | completing x d k => exact ⟨x, d, k, hstage, Option.some.inj hchecks⟩
  | _ => cases hchecks

theorem Moved.completing {call : TeamCall} {after : Option TeamCall} {x : Change} {d : TeamDeliveryRecord} {k : Then}
    (hstage : call.stage = some (.completing x d k)) (moved : Moved c call after c') : c'.state = c.state := by
  cases moved with
  | stopped | checked | joinChecked | admitted | idle | passedBy | recovers => rfl
  | created | membersStored | joined | sent => cases hstage
  | @ran r frame result _ ran =>
    change r.stage = some (.completing x d k) at hstage
    cases ran with
    | missing | waits | holds => rfl
    | goes point staged =>
      rw [Inject.stage, point] at hstage
      obtain rfl := Option.some.inj hstage
      cases staged with
      | completed quiet => exact quiet.state

theorem Settling.checked (h : Settling s) {i : ℕ} {call : TeamCall} {after : Option TeamCall} {checked : String}
    (found : s.calls.lookup i = some call) (hbefore : call.checks = some checked) (moved : Moved s.comms call after c')
    (hcond : messageTerminalState s.comms.state checked = true → clear 1 s.comms.store = true)
    (hlog : ∀ messageId, announcements c'.store messageId = announcements s.comms.store messageId +
      if call.checks = some messageId ∧ messageTerminalState s.comms.state messageId ∧ clear 1 s.comms.store then 1 else 0)
    (messageId : String) : Tally { s with comms := c', calls := Service.put s.calls i after } messageId := by
  obtain ⟨x, d, k, hstage, rfl⟩ := completing_stage hbefore
  have hnot : ∀ x k, call.stage ≠ some (.transition x k) := by
    intro x' k' he
    rw [hstage] at he
    cases he
  have hleaves := moved.leaves hnot
  have hstate := moved.completing hstage
  have hafter : ∀ other, after.bind TeamCall.checks ≠ some other := by
    intro other hafter
    obtain ⟨x', k', -, hx, -⟩ := moved.checks hafter
    exact absurd hx (hnot x' k')
  have hchecks : ∀ j, Service.Checks { s with comms := c', calls := Service.put s.calls i after } j messageId ↔
      j ≠ i ∧ s.Checks j messageId := by
    intro j
    unfold Service.Checks
    rw [checks_put]
    split
    · next he => exact ⟨fun h => absurd h (hafter _), fun h => absurd he h.1⟩
    · next hne => exact ⟨fun h => ⟨hne, h⟩, fun h => h.2⟩
  have hhere : s.Checks i x.current.messageId := by
    unfold Service.Checks
    rw [found]
    exact hbefore
  rw [hbefore] at hlog
  by_cases he : messageId = x.current.messageId
  · subst he
    refine ⟨fun hu => ?_, fun hf => .inl ?_⟩
    · have hopen : messageTerminalState s.comms.state x.current.messageId = false := by
        rw [← unfinished_iff h.grounded.orderly]
        obtain ⟨id, e, hl, he⟩ := hu
        exact ⟨id, e, hstate ▸ hl, he⟩
      rw [hlog, hopen, if_neg (fun hall => by cases hall.2.1), Nat.add_zero]
      exact h.unannounced hleaves.onward hu
    · have hold := hleaves.finished _ hf
      have hover := hold.terminal h.grounded.orderly
      rcases (h.tally _).finished hold with ⟨-, hnone⟩ | ⟨hzero, i', hi'⟩
      · exact absurd hhere (hnone i)
      · obtain rfl : i = i' := (hi' i).mp hhere
        refine ⟨?_, fun j hj => ?_⟩
        · rw [hlog, if_pos ⟨rfl, hover, hcond hover⟩, hzero]
        · obtain ⟨hne, hj⟩ := (hchecks j).mp hj
          exact hne ((hi' j).mp hj)
  · refine h.frame hleaves.onward ?_ fun hf => ⟨hleaves.finished _ hf, fun j => ?_⟩
    · rw [hlog, if_neg (fun hall => he (Option.some.inj hall.1).symm), Nat.add_zero]
    · rw [hchecks]
      refine ⟨fun h => h.2, fun hj => ⟨?_, hj⟩⟩
      rintro rfl
      unfold Service.Checks at hj hhere
      rw [hhere] at hj
      exact he (Option.some.inj hj).symm

theorem Settling.stepped (h : Settling s) {l : Label} (hs : Stepped s l s') (ho : Onward s.comms s'.comms)
    (counted : EventsCounted s'.comms) (hnew : ∀ messageId, announcements s'.comms.store messageId ≠
      announcements s.comms.store messageId → ∀ j, messageId = numbered "msg" j → j < s.comms.nextMessageId)
    (tally : ∀ messageId, Tally s' messageId) : Settling s' := by
  refine ⟨⟨orderly_step h.grounded.orderly h.drafts hs, counted, h.grounded.issued.onward ho,
    fun messageId hne j hj => ?_⟩,
    properDrafts_step h.drafts hs, runsKnown_step h.grounded.orderly h.grounded.issued ho h.runs hs, tally⟩
  have hcounter := ho.messageCounter
  by_cases hsame : announcements s'.comms.store messageId = announcements s.comms.store messageId
  · have hlt := h.grounded.announced messageId (hsame ▸ hne) j hj
    omega
  · have hlt := hnew messageId hsame j hj
    omega

theorem begin_cancels (h : Orderly c) (counted : EventsCounted c) {teamId argument : String}
    (hc : cancels c teamId argument = some messageId)
    (hclear : clear (2 * (messageDeliveries c.state messageId).length + 1) c.store = true) :
    After (Operation.cancelMessage teamId argument).begin c fun r c' => Service.left r = none ∧
      AllCancelled messageId c c' ∧ EventsCounted c' ∧ ∀ other, announcements c'.store other =
        announcements c.store other + if other = messageId then 1 else 0 := by
  have hcancel : After (cancelMessage teamId argument) c fun _ c' => AllCancelled messageId c c' ∧ EventsCounted c' ∧
      ∀ other, announcements c'.store other = announcements c.store other + if other = messageId then 1 else 0 := by
    refine ((cancelMessage_after teamId argument).and (cancelMessage_announced hc hclear)).mono fun r c' hboth => ?_
    obtain ⟨hcancelled, hlog⟩ := hboth
    obtain ⟨counted', hlog⟩ := hlog counted
    refine ⟨?_, counted', hlog⟩
    cases hcancelled with
    | refused =>
      have hone := hlog messageId
      rw [if_pos rfl] at hone
      omega
    | cancelled normal queued sets =>
      rw [(cancels_some hc).2.1] at normal
      obtain rfl := Except.ok.inj normal
      exact allCancelled h queued sets
  exact after_bind hcancel (fun _ c' h => (after_pure _ _ _).mpr ⟨rfl, h⟩) fun e c' h => ⟨rfl, h⟩

theorem begin_refuses {teamId argument : String} (hc : cancels c teamId argument = none) :
    After (Operation.cancelMessage teamId argument).begin c fun r c' => Service.left r = none ∧ c' = c :=
  after_bind (cancelMessage_refused hc) (fun _ _ h => (after_pure _ _ _).mpr ⟨rfl, h⟩) fun _ _ h => ⟨rfl, h⟩

theorem settling_start {i : ℕ} {op : Operation} (h : Settling s) (hcond : announcesAlone (.start i op) s = true)
    (hs : Service.step (.start i op) s = some s') : Settling s' := by
  have hstepped := step_stepped hs
  simp only [Service.step] at hs
  split at hs
  · cases hs
  · next hfree =>
    have free : s.calls.lookup i = none := AList.lookup_eq_none.mpr hfree
    obtain rfl := Option.some.inj hs
    have hretry : ∀ teamId deliveryId, op ≠ .retryDelivery teamId deliveryId := by
      rintro teamId deliveryId rfl
      cases hcond
    have hbegun := (begin_moved (c := s.comms) op).out
    by_cases hcancel : ∃ teamId argument, op = .cancelMessage teamId argument
    · obtain ⟨teamId, argument, rfl⟩ := hcancel
      cases hc : cancels s.comms teamId argument with
      | none =>
        have hrefused := (begin_refuses hc).out
        unfold Service.settle at hstepped ⊢
        generalize (Operation.cancelMessage teamId argument).begin.result s.comms = result at hstepped hrefused ⊢
        obtain ⟨r, c'⟩ := result
        obtain ⟨hr, rfl⟩ := hrefused
        dsimp only at hstepped hr ⊢
        rw [hr] at hstepped ⊢
        have hleaves : Leaves s.comms s.comms := .same ⟨rfl, rfl⟩ ⟨rfl, rfl⟩
        exact h.stepped hstepped hleaves.onward h.grounded.counted (fun _ hne => absurd rfl hne)
          (h.begun free rfl hleaves fun _ => rfl)
      | some messageId =>
        simp only [announcesAlone, hc, Option.all_some, Bool.and_eq_true] at hcond
        have hcancelled := (begin_cancels h.grounded.orderly h.grounded.counted hc hcond.2).out
        unfold Service.settle at hstepped ⊢
        generalize (Operation.cancelMessage teamId argument).begin.result s.comms = result at hstepped hcancelled ⊢
        obtain ⟨r, c'⟩ := result
        obtain ⟨hr, hall, counted, hlog⟩ := hcancelled
        dsimp only at hstepped hr hall counted hlog ⊢
        rw [hr] at hstepped ⊢
        refine h.stepped hstepped hall.onward counted (fun other hne => ?_) (h.cancelled free hall hcond.1 hlog)
        rw [hlog] at hne
        by_cases he : other = messageId
        · obtain ⟨-, -, message, -, found, -⟩ := cancels_some hc
          exact he ▸ h.grounded.issued.messages messageId (Table.lookup_isSome found)
        · rw [if_neg he, Nat.add_zero] at hne
          exact absurd rfl hne
    · have hnot : ∀ teamId argument, op ≠ .cancelMessage teamId argument :=
        fun teamId argument he => hcancel ⟨teamId, argument, he⟩
      have hsilent := (begin_silent hnot s.comms).out
      unfold Service.settle at hstepped ⊢
      generalize op.begin.result s.comms = result at hstepped hbegun hsilent ⊢
      obtain ⟨r, c'⟩ := result
      dsimp only at hstepped hbegun hsilent ⊢
      obtain ⟨counted, hlog⟩ := hsilent h.grounded.counted
      have hleaves := hbegun.leaves h.grounded.orderly hnot hretry
      exact h.stepped hstepped hleaves.onward counted (fun messageId hne => absurd (hlog messageId) hne)
        (h.begun free hbegun.checks hleaves hlog)

theorem stage_run {call : TeamCall} {stage : Stage} (h : call.stage = some stage) :
    ∃ r k recipient, call = .inject r k ∧ r.point = .holding recipient stage := by
  obtain ⟨r, hrun, hstage⟩ := Option.bind_eq_some_iff.mp h
  cases call with
  | inject r' k =>
    obtain rfl := Option.some.inj hrun
    unfold Inject.stage at hstage
    split at hstage
    · next recipient stage' point =>
      obtain rfl := Option.some.inj hstage
      exact ⟨r', k, recipient, rfl, point⟩
    · cases hstage
  | _ => cases hrun

theorem settling_goOn {i : ℕ} {answer : Runtime.Answer} (h : Settling s)
    (hcond : announcesAlone (.goOn i answer) s = true)
    (hs : Service.step (.goOn i answer) s = some s') : Settling s' := by
  have hstepped := step_stepped hs
  obtain ⟨call, found, hs⟩ := Option.bind_eq_some_iff.mp hs
  obtain ⟨piece, hpiece, hs⟩ := Option.bind_eq_some_iff.mp hs
  simp only [Option.ite_none_left_eq_some, Bool.not_eq_true, Option.some.injEq] at hs
  obtain ⟨-, rfl⟩ := hs
  have hmoved := (goOn_moved (c := s.comms) hpiece).out
  have hchecked := (goOn_checked (c := s.comms) hpiece).out
  simp only [announcesAlone, found, Option.bind_some] at hcond
  have hknown : ∀ stage, call.stage = some stage → ∀ d ∈ stage.records, Known s.comms d := by
    intro stage hstage
    obtain ⟨r, k, recipient, rfl, point⟩ := stage_run hstage
    exact h.runs i r recipient stage ⟨k, found⟩ point
  have hcloses : ∀ x k, call.stage = some (.transition x k) → closes s.comms x = true →
      nobodyChecks s x.current.messageId = true ∧
        (Service.left (piece.result s.comms).1).bind TeamCall.checks = some x.current.messageId := by
    intro x k hstage hlast
    simp only [hstage, hlast, Bool.not_true, Bool.false_or, Bool.and_eq_true] at hcond
    exact ⟨hcond.1, (goOn_closes hpiece hstage hlast hcond.2).out⟩
  unfold Service.settle at hstepped ⊢
  generalize piece.result s.comms = result at hstepped hmoved hchecked hcloses ⊢
  obtain ⟨r, c'⟩ := result
  dsimp only at hstepped hmoved hchecked hcloses ⊢
  obtain ⟨counted, hlog⟩ := hchecked h.grounded.counted
  have honward := hmoved.onward
  cases hbefore : call.checks with
  | none =>
    have hsame : ∀ messageId, announcements c'.store messageId = announcements s.comms.store messageId := by
      intro messageId
      rw [hlog, hbefore, if_neg (fun hall => by cases hall.1), Nat.add_zero]
    refine h.stepped hstepped honward counted (fun messageId hne => absurd (hsame messageId) hne) fun messageId => ?_
    by_cases hstage : ∃ x k, call.stage = some (.transition x k)
    · obtain ⟨x, k, hstage⟩ := hstage
      have ho := orderly_step h.grounded.orderly h.drafts hstepped
      exact h.transitioned ho found hstage hmoved (hknown _ hstage _ List.mem_cons_self)
        (hcloses x k hstage) hsame messageId
    · exact h.moved found (fun x k he => hstage ⟨x, k, he⟩) hbefore hmoved hsame messageId
  | some checked =>
    obtain ⟨x, d, k, hstage, rfl⟩ := completing_stage hbefore
    refine h.stepped hstepped honward counted (fun messageId hne => ?_) fun messageId => ?_
    · rw [hlog, hbefore] at hne
      by_cases he : messageId = x.current.messageId
      · exact he ▸ (hknown _ hstage _ List.mem_cons_self).message
      · rw [if_neg (fun hall => he (Option.some.inj hall.1).symm), Nat.add_zero] at hne
        exact absurd rfl hne
    · refine h.checked found hbefore hmoved (fun hover => ?_) hlog messageId
      simpa [hstage, hover] using hcond

theorem settling_step {l : Label} (h : Settling s) (hcond : announcesAlone l s = true)
    (hs : Service.step l s = some s') :
    Settling s' := by
  cases l with
  | runtime l =>
    have hstepped := step_stepped hs
    obtain ⟨t, ht, hs⟩ := Option.bind_eq_some_iff.mp hs
    obtain rfl := Option.some.inj hs
    have hleaves : Leaves s.comms { s.comms with runtime := t.manager } := .same ⟨rfl, rfl⟩ ⟨rfl, rfl⟩
    exact h.stepped hstepped hleaves.onward h.grounded.counted (fun _ hne => absurd rfl hne) fun messageId =>
      h.frame hleaves.onward rfl fun hf => ⟨hleaves.finished messageId hf, fun _ => Iff.rfl⟩
  | start i op => exact settling_start h hcond hs
  | goOn i answer => exact settling_goOn h hcond hs

theorem Settled.settling (h : Settled c) : Settling (Service.start c) := by
  refine ⟨h.grounded, properDrafts_start c, fun i r recipient stage hr => ?_, fun messageId =>
    ⟨h.unfinished messageId, fun hf => .inl ⟨h.finished messageId hf, fun i hi => ?_⟩⟩⟩
  · obtain ⟨k, hl⟩ := hr
    simp [Service.start] at hl
  · simp [Service.Checks, Service.start] at hi

theorem Settling.announcedOnce (h : Settling s) : AnnouncedOnce s := by
  refine ⟨fun hidle messageId hf => ?_, fun _ messageId hu => (h.tally messageId).unfinished hu⟩
  rcases (h.tally messageId).finished hf with ⟨hone, -⟩ | ⟨-, i, hi⟩
  · exact hone
  · obtain ⟨call, hl, -⟩ := Option.bind_eq_some_iff.mp ((hi i).mpr rfl)
    have hmem := AList.mem_keys.mp (Table.lookup_isSome hl)
    rw [hidle] at hmem
    cases hmem

end

/-! ## Every run -/

theorem settled_new (runtime : Manager) (faults : List Bool) (config : RuntimeTeamCommsConfig) (nonce : String) :
    Settled (Comms.new runtime (Store.empty faults) config nonce) := by
  have horderly : Orderly (Comms.new runtime (Store.empty faults) config nonce) :=
    orderly_new ⟨primaryKeys_empty faults, fun team hteam => by cases hteam⟩ rfl
  have hempty : ∀ id, (Comms.new runtime (Store.empty faults) config nonce).state.deliveries.lookup id =
    none := fun _ => rfl
  have hissued : Issued (Comms.new runtime (Store.empty faults) config nonce) := by
    constructor
    · intro messageId hmem
      cases hmem
    · intro id hmem
      cases hmem
  refine ⟨⟨horderly, fun e he => (by cases he), hissued, fun messageId hne => absurd rfl hne⟩, fun messageId _ => rfl,
    fun messageId hf => ?_⟩
  obtain ⟨id, d, hl, -⟩ := hf.has
  rw [hempty] at hl
  cases hl

/-- In every run of a service that starts with nothing in flight. -/
theorem completion_announced {c : Comms} {s : Service} (h : Settled c)
    (hr : Reaches Service.step (fun l s => announcesAlone l s = true) (Service.start c) s) : AnnouncedOnce s := by
  have hinv := hr.invariant (I := Settling) h.settling fun l s t h hcond hs => settling_step h hcond hs
  exact hinv.announcedOnce

def injectedMessage : List Label :=
  newTeam ++ deliversMessage 1 ++ acceptsMessage 1 "turn_codex_0_5" ++ List.replicate 3 (.goOn 1 .lock)

theorem completion_announced_injected : ∃ s : Service, s.calls.keys = [] ∧ announcements s.comms.store "msg_1" = 1 ∧
    AnnouncedOnce s := by
  obtain ⟨s, hs, he⟩ := exists_reaches_of_runAll Service.step announcesAlone injectedMessage
    (fun s => (s.calls.keys, announcements s.comms.store "msg_1")) ([], 1) (s := Service.fresh []) (by decide +kernel)
  obtain ⟨hkeys, hone⟩ := Prod.mk.inj he
  exact ⟨s, hkeys, hone, completion_announced (settled_new _ _ _ _) hs⟩

/-- The second message is deferred, as the session is busy. It is cancelled before the run that deferred it checks it. -/
def cancelBeforeCheck : List Label :=
  injectedMessage ++ sendsMessage 2 ++ List.replicate 6 (.goOn 2 .lock) ++
    [.start 3 (.cancelMessage "team_1" "msg_2"), .goOn 2 .lock]

def outcomes (s : TeamCommsState) : List (String × DeliveryStatus) :=
  s.deliveries.values.map fun d => (d.messageId, d.status)

theorem not_completion_announced : ¬ ∀ (c : Comms) (s : Service), Settled c → c.store.faults = [] →
    Reaches Service.step (fun l _ => noRetry l = true) (Service.start c) s → AnnouncedOnce s := by
  intro hall
  obtain ⟨s, hs, he⟩ := exists_reaches_of_runAll Service.step (fun l _ => noRetry l) cancelBeforeCheck
    (fun s => (s.calls.keys, announcements s.comms.store "msg_2", outcomes s.comms.state))
    ([], 2, [("msg_2", .cancelled), ("msg_1", .injected)]) (s := Service.fresh []) (by decide +kernel)
  obtain ⟨hkeys, he⟩ := Prod.mk.inj he
  obtain ⟨htwo, houtcomes⟩ := Prod.mk.inj he
  have hmem : ∀ id d, s.comms.state.deliveries.lookup id = some d → (d.messageId, d.status) ∈ outcomes s.comms.state :=
    fun id d hl => List.mem_map.mpr ⟨d, Table.mem_values.mpr ⟨id, hl⟩, rfl⟩
  have hf : Finished s.comms "msg_2" := by
    constructor
    · have hout : ("msg_2", DeliveryStatus.cancelled) ∈ outcomes s.comms.state := by
        rw [houtcomes]
        exact List.mem_cons_self
      obtain ⟨d, hd, he⟩ := List.mem_map.mp hout
      obtain ⟨id, hl⟩ := Table.mem_values.mp hd
      exact ⟨id, d, hl, (Prod.mk.inj he).1⟩
    · intro id d hl hd
      have hout := hmem id d hl
      rw [houtcomes, hd] at hout
      generalize d.status = status at hout ⊢
      revert hout
      cases status <;> decide
  have hone := (hall _ s (settled_new _ _ _ _) rfl hs).finished hkeys "msg_2" hf
  omega

end Gooselake.TeamComms
