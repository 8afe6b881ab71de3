import Gooselake.TeamComms.Announcements
import Gooselake.TeamComms.IndexLaw
import Gooselake.TeamComms.Statuses

/-!
The deliveries of a message as a whole: what a piece does to the ids, to the message of a delivery and to the messages
that are complete. The records a run carries name the message the live record names.
-/

namespace Gooselake.TeamComms

open Gooselake.Core Data Library Library.Exec
open Gooselake.Runtime (Manager)

set_option autoImplicit false

structure Finished (c : Comms) (messageId : String) : Prop where
  has : ∃ id d, c.state.deliveries.lookup id = some d ∧ d.messageId = messageId
  ended : ∀ id d, c.state.deliveries.lookup id = some d → d.messageId = messageId → isTerminalStatus d.status = true

def Unfinished (c : Comms) (messageId : String) : Prop :=
  ∃ id d, c.state.deliveries.lookup id = some d ∧ d.messageId = messageId ∧ isTerminalStatus d.status = false

/-! ## Messages and deliveries across a piece -/

structure Issued (c : Comms) : Prop where
  messages : ∀ messageId ∈ c.state.messages, ∀ j, messageId = numbered "msg" j → j < c.nextMessageId
  deliveries : ∀ id ∈ c.state.deliveries, ∀ j, id = numbered "dlv" j → j < c.nextDeliveryId

/-- Ids go on from the counters, a delivery stays with its message, and what is over stays over. -/
structure Onward (c c' : Comms) : Prop where
  messageCounter : c.nextMessageId ≤ c'.nextMessageId
  deliveryCounter : c.nextDeliveryId ≤ c'.nextDeliveryId
  messages : ∀ messageId ∈ c'.state.messages, messageId ∈ c.state.messages ∨
    ∃ j, messageId = numbered "msg" j ∧ j < c'.nextMessageId
  deliveries : ∀ id d', c'.state.deliveries.lookup id = some d' →
    (∃ d, c.state.deliveries.lookup id = some d ∧ d'.messageId = d.messageId ∧
      (isTerminalStatus d.status = true → isTerminalStatus d'.status = true)) ∨
    ((∃ j, id = numbered "dlv" j ∧ c.nextDeliveryId ≤ j ∧ j < c'.nextDeliveryId) ∧
      (∃ j, d'.messageId = numbered "msg" j ∧ c.nextMessageId ≤ j) ∧ isTerminalStatus d'.status = false)

structure Leaves (c c' : Comms) : Prop where
  onward : Onward c c'
  finished : ∀ messageId, Finished c' messageId → Finished c messageId

section

variable {c c' : Comms}

theorem Issued.onward (h : Issued c) (ho : Onward c c') : Issued c' := by
  constructor
  · intro messageId hmem j hj
    rcases ho.messages messageId hmem with hold | ⟨j', hj', hlt⟩
    · have hcounter := ho.messageCounter
      have hlt := h.messages messageId hold j hj
      omega
    · have he := numbered_inj (hj.symm.trans hj')
      omega
  · intro id hmem j hj
    obtain ⟨d', hl⟩ := Option.isSome_iff_exists.mp (AList.lookup_isSome.mpr hmem)
    have hcounter := ho.deliveryCounter
    rcases ho.deliveries id d' hl with ⟨d, found, -⟩ | ⟨⟨j', hj', -, hlt⟩, -⟩
    · have hlt := h.deliveries id (Table.lookup_isSome found) j hj
      omega
    · have he := numbered_inj (hj.symm.trans hj')
      omega

theorem Leaves.same (hstate : c'.state.messages = c.state.messages ∧ c'.state.deliveries = c.state.deliveries)
    (hcounters : c'.nextMessageId = c.nextMessageId ∧ c'.nextDeliveryId = c.nextDeliveryId) : Leaves c c' := by
  obtain ⟨hmessages, hdeliveries⟩ := hstate
  refine ⟨⟨hcounters.1.ge, hcounters.2.ge, fun messageId hmem => .inl (hmessages ▸ hmem), fun id d' hl => ?_⟩,
    fun messageId h => ?_⟩
  · exact .inl ⟨d', hdeliveries ▸ hl, rfl, fun h => h⟩
  · obtain ⟨hsome, hall⟩ := h
    rw [hdeliveries] at hsome hall
    exact ⟨hsome, hall⟩

theorem Sets.leaves {W : Write → Prop} {s : TeamCommsState} (sets : Sets W c c' s)
    (hmessages : s.messages = c.state.messages) (hdeliveries : s.deliveries = c.state.deliveries) : Leaves c c' :=
  .same (sets.state ▸ ⟨hmessages, hdeliveries⟩) ⟨sets.nextMessageId, sets.nextDeliveryId⟩

theorem Sets.onward {W : Write → Prop} {id : String} {d d' : TeamDeliveryRecord}
    (sets : Sets W c c' { c.state with deliveries := c.state.deliveries.insert id d' })
    (found : c.state.deliveries.lookup id = some d) (hmessage : d'.messageId = d.messageId)
    (hstatus : isTerminalStatus d.status = true → isTerminalStatus d'.status = true) : Onward c c' := by
  refine ⟨sets.nextMessageId.ge, sets.nextDeliveryId.ge, fun messageId hmem => ?_, fun k e hl => ?_⟩
  · rw [sets.state] at hmem
    exact .inl hmem
  · rw [sets.state] at hl
    dsimp only at hl
    rw [Table.lookup_insert] at hl
    split at hl
    · next he =>
      obtain rfl := Option.some.inj hl
      exact .inl ⟨d, he ▸ found, hmessage, hstatus⟩
    · exact .inl ⟨e, hl, rfl, fun h => h⟩

theorem Sets.finished {W : Write → Prop} {id : String} {d d' : TeamDeliveryRecord}
    (sets : Sets W c c' { c.state with deliveries := c.state.deliveries.insert id d' })
    (found : c.state.deliveries.lookup id = some d) (hmessage : d'.messageId = d.messageId) {messageId : String}
    (h : Finished c' messageId)
    (hother : d.messageId = messageId → isTerminalStatus d'.status = true → isTerminalStatus d.status = true) :
    Finished c messageId := by
  obtain ⟨⟨k, e, hl, he⟩, hall⟩ := h
  rw [sets.state] at hl hall
  dsimp only at hl hall
  refine ⟨?_, fun k' e' hl' he' => ?_⟩
  · rw [Table.lookup_insert] at hl
    split at hl
    · obtain rfl := Option.some.inj hl
      exact ⟨id, d, found, hmessage.symm.trans he⟩
    · exact ⟨k, e, hl, he⟩
  · by_cases hk : k' = id
    · subst hk
      obtain rfl := Option.some.inj (found.symm.trans hl')
      refine hother he' (hall k' d' ?_ (hmessage.trans he'))
      rw [Table.lookup_insert, if_pos rfl]
    · refine hall k' e' ?_ he'
      rw [Table.lookup_insert, if_neg hk]
      exact hl'

/-! ## The pieces -/

theorem Transitioned.onward {x : Change} {r : Except RuntimeError Written} (h : Transitioned c x r c') :
    Onward c c' := by
  cases h with
  | refused | already | missing | lost => exact (Leaves.same ⟨rfl, rfl⟩ ⟨rfl, rfl⟩).onward
  | @written d _ _ valid found same sets =>
    refine sets.onward found rfl fun hover => ?_
    rw [same] at hover
    rw [isValidTransition_of_terminal hover] at valid
    cases valid

theorem Reteamed.leaves (h : Reteamed c c') : Leaves c c' := by
  rcases h with rfl | ⟨teamId, team, team', members, -, -, sets⟩
  · exact .same ⟨rfl, rfl⟩ ⟨rfl, rfl⟩
  · exact sets.leaves rfl rfl

theorem TeamDeleted.leaves (h : Orderly c) {argument : String} {r : Except RuntimeError Unit}
    (deleted : TeamDeleted c argument r c') : Leaves c c' := by
  cases deleted with
  | refused => exact .same ⟨rfl, rfl⟩ ⟨rfl, rfl⟩
  | @deleted teamId team _ _ _ found sets =>
    have purged := h.filed.purged (h.teams teamId team found).2
    rw [← sets.state] at purged
    refine ⟨⟨sets.nextMessageId.ge, sets.nextDeliveryId.ge, fun messageId hmem => ?_, fun id d' hl => ?_⟩,
      fun messageId hf => ?_⟩
    · obtain ⟨m, hl⟩ := Option.isSome_iff_exists.mp (AList.lookup_isSome.mpr hmem)
      exact .inl (Table.lookup_isSome ((purged.messages messageId m).mp hl).1)
    · exact .inl ⟨d', ((purged.deliveries id d').mp hl).1, rfl, fun h => h⟩
    · obtain ⟨⟨id, d, hl, hd⟩, hended⟩ := hf
      obtain ⟨hl, hkept⟩ := (purged.deliveries id d).mp hl
      refine ⟨⟨id, d, hl, hd⟩, fun k e hk he => hended k e ((purged.deliveries k e).mpr ⟨hk, ?_⟩) he⟩
      obtain ⟨m, hm, hteam⟩ := h.filed.belongs id d hl
      obtain ⟨m', hm', hteam'⟩ := h.filed.belongs k e hk
      rw [he, ← hd, hm] at hm'
      obtain rfl := Option.some.inj hm'
      rw [← hteam', hteam]
      exact hkept

theorem Drafted.pending {taken : Table String TeamDeliveryRecord} {message : TeamMessageRecord} {n k : ℕ}
    {rs : List (String × String)} {ds : List TeamDeliveryRecord} (h : Drafted taken message n rs k ds) :
    ∀ d ∈ ds, d.status = .pending := by
  induction h with
  | nil => exact fun d hd => by cases hd
  | cons _ ih =>
    intro d hd
    rcases List.mem_cons.mp hd with rfl | hd
    · rfl
    · exact ih d hd

theorem MessageCreated.leaves {m : MessageDraft} {r : Except RuntimeError TeamMessageAck}
    (created : MessageCreated c m r c') : Leaves c c' := by
  cases created with
  | refused | existing => exact .same ⟨rfl, rfl⟩ ⟨rfl, rfl⟩
  | @created k ds team _ _ found drafted sets =>
    have hle : c.nextMessageId ≤ nextFree "msg" c.state.messages c.nextMessageId := le_firstFree _ _ _ _
    have hmessages : c'.nextMessageId = nextFree "msg" c.state.messages c.nextMessageId + 1 := sets.nextMessageId
    have hdeliveries : c'.nextDeliveryId = k := sets.nextDeliveryId
    obtain ⟨hcounter, hnumbers⟩ := drafted.numbers
    have hpending := drafted.pending
    have hdrafted : ∀ d ∈ ds, d.messageId = newMessageId c := by
      intro d hd
      rw [drafted.eq] at hd
      exact (deliveriesFrom_mem hd).2.2.1
    obtain ⟨⟨-, hinserted, -⟩, -, hlookup, hmem⟩ :=
      addMessage_spec m (m.message (newMessageId c) c.runtime.clock) ds c.state
    rw [← sets.state] at hinserted hlookup hmem
    refine ⟨⟨by omega, by omega, fun messageId hin => ?_, fun id d' hl => ?_⟩, fun messageId hf => ?_⟩
    · rw [hinserted, AList.mem_insert] at hin
      rcases hin with rfl | hin
      · exact .inr ⟨_, rfl, by omega⟩
      · exact .inl hin
    · rcases hlookup id d' hl with hold | ⟨hd, rfl⟩
      · exact .inl ⟨d', hold, rfl, fun h => h⟩
      · obtain ⟨-, j, hj, hle', hlt⟩ := hnumbers d' hd
        refine .inr ⟨⟨j, hj, hle', by omega⟩, ⟨_, hdrafted d' hd, hle⟩, ?_⟩
        rw [hpending d' hd]
        rfl
    · obtain ⟨⟨id, d, hl, hd⟩, hended⟩ := hf
      have hold : c.state.deliveries.lookup id = some d := by
        rcases hlookup id d hl with hold | ⟨hnew, -⟩
        · exact hold
        · have hover := hended id d hl hd
          rw [hpending d hnew] at hover
          cases hover
      refine ⟨⟨id, d, hold, hd⟩, fun k' e hk he => ?_⟩
      obtain ⟨e', hl'⟩ := Option.isSome_iff_exists.mp
        (AList.lookup_isSome.mpr (hmem k' (.inl (Table.lookup_isSome hk))))
      rcases hlookup k' e' hl' with hsame | ⟨hnew, rfl⟩
      · obtain rfl := Option.some.inj (hk.symm.trans hsame)
        exact hended k' e hl' he
      · exact absurd (Table.lookup_isSome hk) (hnumbers e' hnew).1

theorem Begun.leaves (h : Orderly c) {op : Operation}
    (hcancel : ∀ teamId messageId, op ≠ .cancelMessage teamId messageId)
    (hretry : ∀ teamId deliveryId, op ≠ .retryDelivery teamId deliveryId) {after : Option TeamCall}
    (begun : Begun c op after c') : Leaves c c' := by
  cases begun with
  | refused | creates | joins | sends | resumes | recovers => exact .same ⟨rfl, rfl⟩ ⟨rfl, rfl⟩
  | reteams reteamed => exact reteamed.leaves
  | deletes deleted => exact deleted.leaves h
  | retries => exact absurd rfl (hretry _ _)
  | cancels => exact absurd rfl (hcancel _ _)

theorem Staged.leaves {id : String} {trigger : DeliveryAttemptTrigger} {stage : Stage}
    {r : Except RuntimeError (Stage ⊕ TeamDeliveryRecord)} (staged : Staged c id trigger stage r c')
    (hstage : ∀ x k, stage ≠ .transition x k) : Leaves c c' := by
  cases staged with
  | missing | queued | unqueued | blocked | stillBlocked | unpoliced | cleared | changes | interrupts | injects
  | unrecorded | interrupting | interrupted | uninterrupted | sending | sent | rejected =>
    exact .same ⟨rfl, rfl⟩ ⟨rfl, rfl⟩
  | failed | unchanged | changed => exact absurd rfl (hstage _ _)
  | completed sets => exact sets.leaves rfl rfl
  | recorded found sets => exact ⟨sets.onward found rfl fun h => h, fun _ hf => sets.finished found rfl hf fun _ h => h⟩

theorem Moved.leaves {call : TeamCall} {after : Option TeamCall} (hstage : ∀ x k, call.stage ≠ some (.transition x k))
    (moved : Moved c call after c') : Leaves c c' := by
  cases moved with
  | stopped | checked | joinChecked | admitted | idle | passedBy | recovers => exact .same ⟨rfl, rfl⟩ ⟨rfl, rfl⟩
  | created sets => exact .same (sets.state ▸ ⟨rfl, rfl⟩) ⟨sets.nextMessageId, sets.nextDeliveryId⟩
  | membersStored sets => exact sets.leaves rfl rfl
  | joined reteamed => exact reteamed.leaves
  | sent _ created => exact created.leaves
  | @ran r _ _ _ ran =>
    cases ran with
    | missing | waits | holds => exact .same ⟨rfl, rfl⟩ ⟨rfl, rfl⟩
    | @goes recipient stage _ _ point staged =>
      refine staged.leaves fun x k he => hstage x k ?_
      simp [TeamCall.stage, TeamCall.run, Inject.stage, point, he]

theorem Moved.transitioned {call : TeamCall} {after : Option TeamCall} {x : Change} {k : Then}
    (hstage : call.stage = some (.transition x k)) (moved : Moved c call after c') : ∃ r, Transitioned c x r c' := by
  cases moved with
  | @stopped call was =>
    rw [TeamCall.stage, was] at hstage
    cases hstage
  | checked | joinChecked | admitted | idle | passedBy | recovers | created | membersStored | joined | sent => cases hstage
  | @ran r frame result _ ran =>
    change r.stage = some (.transition x k) at hstage
    cases ran with
    | missing point | waits point | holds point =>
      rw [Inject.stage, point] at hstage
      cases hstage
    | goes point staged =>
      rw [Inject.stage, point] at hstage
      obtain rfl := Option.some.inj hstage
      cases staged with
      | failed wrote | unchanged wrote | changed wrote => exact ⟨_, wrote⟩

theorem Moved.onward {call : TeamCall} {after : Option TeamCall} (moved : Moved c call after c') : Onward c c' := by
  by_cases hstage : ∃ x k, call.stage = some (.transition x k)
  · obtain ⟨x, k, hstage⟩ := hstage
    obtain ⟨r, wrote⟩ := moved.transitioned hstage
    exact wrote.onward
  · exact (moved.leaves fun x k he => hstage ⟨x, k, he⟩).onward

/-! ## Which calls are about to check -/

theorem checks_run {call : TeamCall} {messageId : String} (h : call.checks = some messageId) :
    ∃ r k recipient x d k', call = .inject r k ∧ r.point = .holding recipient (.completing x d k') ∧
      x.current.messageId = messageId := by
  obtain ⟨stage, hstage, hchecks⟩ := Option.bind_eq_some_iff.mp h
  obtain ⟨r, hrun, hstage⟩ := Option.bind_eq_some_iff.mp hstage
  cases call with
  | inject r' k =>
    obtain rfl := Option.some.inj hrun
    unfold Inject.stage at hstage
    split at hstage
    · next recipient stage' point =>
      obtain rfl := Option.some.inj hstage
      cases stage' with
      | completing x d k' => exact ⟨r', k, recipient, x, d, k', rfl, point, Option.some.inj hchecks⟩
      | _ => cases hchecks
    · cases hstage
  | _ => cases hrun

theorem Begun.checks {op : Operation} {after : Option TeamCall} (begun : Begun c op after c') :
    after.bind TeamCall.checks = none := by
  rw [Option.eq_none_iff_forall_not_mem]
  intro messageId h
  obtain ⟨call, rfl, hchecks⟩ := Option.bind_eq_some_iff.mp h
  obtain ⟨r, k, recipient, x, d, k', rfl, point, -⟩ := checks_run hchecks
  rw [begun.point rfl] at point
  cases point

theorem Moved.checks {call : TeamCall} {after : Option TeamCall} {messageId : String} (moved : Moved c call after c')
    (h : after.bind TeamCall.checks = some messageId) :
    ∃ x k d, call.stage = some (.transition x k) ∧ x.current.messageId = messageId ∧
      Transitioned c x (.ok (.changed d)) c' := by
  obtain ⟨call', rfl, hchecks⟩ := Option.bind_eq_some_iff.mp h
  obtain ⟨r, frame, recipient, x, d, k, rfl, point, hx⟩ := checks_run hchecks
  rcases moved.point rfl with hstart | ⟨r₀, frame₀, rfl, ran⟩
  · rw [hstart] at point
    cases point
  · have hgoes := ran.goesOn
    cases hgoes with
    | waits | holds => cases point
    | @goes recipient' stage stage' _ point₀ staged =>
      obtain ⟨rfl, rfl⟩ := Point.holding.inj point
      generalize hresult :
        (Except.ok (Sum.inl (Stage.completing x d k)) : Except RuntimeError (Stage ⊕ TeamDeliveryRecord)) =
        result at staged
      cases staged with
      | @changed x' k' d' _ wrote =>
        obtain ⟨rfl, rfl, rfl⟩ := Stage.completing.inj (Sum.inl.inj (Except.ok.inj hresult))
        refine ⟨x, k, d, ?_, hx, wrote⟩
        simp [TeamCall.stage, TeamCall.run, Inject.stage, point₀]
      | @unchanged _ k' =>
        cases k' <;> cases hresult
      | @completed _ k' => cases k' <;> cases hresult
      | _ => cases hresult

/-! ## A cancel -/

theorem cancelled_deliveries (s : TeamCommsState) (now : ℤ) (ds : List TeamDeliveryRecord) :
    ((ds.map (cancelDelivery now)).foldl (fun s d => putDelivery d s) s).deliveries =
      (ds.map (cancelDelivery now)).foldl (fun t d => t.insert d.id d) s.deliveries := by
  induction ds using List.reverseRecOn with
  | nil => rfl
  | append_singleton ds d ih =>
    rw [List.map_append, List.foldl_append, List.foldl_append, ← ih]
    rfl

structure AllCancelled (messageId : String) (c c' : Comms) : Prop where
  onward : Onward c c'
  queued : ∀ id d, c.state.deliveries.lookup id = some d → d.messageId = messageId → isTerminalStatus d.status = false
  ended : ∀ id d, c'.state.deliveries.lookup id = some d → d.messageId = messageId → isTerminalStatus d.status = true
  others : ∀ other, other ≠ messageId → Finished c' other → Finished c other

theorem mem_messageDeliveries (h : Orderly c) {messageId : String} {d : TeamDeliveryRecord} :
    d ∈ messageDeliveries c.state messageId ↔
      c.state.deliveries.lookup d.id = some d ∧ d.messageId = messageId := by
  unfold messageDeliveries
  rw [List.mem_filterMap]
  constructor
  · rintro ⟨id, hid, hl⟩
    obtain ⟨d', hl', he⟩ := (h.filed.indexed.ofMessages.mem_iff messageId id).mp hid
    obtain rfl := Option.some.inj (hl.symm.trans hl')
    rw [h.filed.deliveryIds id d hl]
    exact ⟨hl, he⟩
  · rintro ⟨hl, he⟩
    exact ⟨d.id, (h.filed.indexed.ofMessages.mem_iff messageId d.id).mpr ⟨d, hl, he⟩, hl⟩

theorem allCancelled (h : Orderly c) {W : Write → Prop} {messageId : String}
    (queued : ∀ d ∈ messageDeliveries c.state messageId, isQueued d.status = true)
    (sets : Sets W c c' (((messageDeliveries c.state messageId).map (cancelDelivery c.runtime.clock)).foldl
      (fun s d => putDelivery d s) c.state)) : AllCancelled messageId c c' := by
  have hlive : ∀ d ∈ messageDeliveries c.state messageId, c.state.deliveries.lookup d.id = some d :=
    fun d hd => ((mem_messageDeliveries h).mp hd).1
  have hlookup : ∀ id d', c'.state.deliveries.lookup id = some d' → c.state.deliveries.lookup id = some d' ∨
      ∃ d ∈ messageDeliveries c.state messageId, c.state.deliveries.lookup id = some d ∧
        d' = cancelDelivery c.runtime.clock d := by
    intro id d' hl
    rw [sets.state] at hl
    exact lookup_cancel _ _ _ hlive hl
  have hfiles := SameFiles.cancel c.runtime.clock hlive
  rw [← sets.state] at hfiles
  refine ⟨⟨sets.nextMessageId.ge, sets.nextDeliveryId.ge, fun id hmem => .inl (hfiles.messages ▸ hmem),
    fun id d' hl => ?_⟩,
    fun id d hl he => ?_, fun id d hl he => ?_, fun other hne hf => ?_⟩
  · rcases hlookup id d' hl with hold | ⟨d, -, found, rfl⟩
    · exact .inl ⟨d', hold, rfl, fun h => h⟩
    · exact .inl ⟨d, found, rfl, fun _ => rfl⟩
  · have hd := queued d ((mem_messageDeliveries h).mpr ⟨h.filed.deliveryIds id d hl ▸ hl, he⟩)
    revert hd
    cases d.status <;> decide
  · have hid : id ∈ ((messageDeliveries c.state messageId).map
        (cancelDelivery c.runtime.clock)).map TeamDeliveryRecord.id := by
      rcases hlookup id d hl with hold | ⟨d₀, hd₀, found, rfl⟩
      · have hd := (mem_messageDeliveries h).mpr ⟨h.filed.deliveryIds id d hold ▸ hold, he⟩
        rw [List.map_map, ← h.filed.deliveryIds id d hold]
        exact List.mem_map_of_mem (f := TeamDeliveryRecord.id ∘ cancelDelivery c.runtime.clock) hd
      · rw [List.map_map, ← h.filed.deliveryIds id d₀ found]
        exact List.mem_map_of_mem (f := TeamDeliveryRecord.id ∘ cancelDelivery c.runtime.clock) hd₀
    obtain ⟨r, hr, -, hl'⟩ := Table.exists_foldl_insert TeamDeliveryRecord.id _ c.state.deliveries hid
    rw [← cancelled_deliveries, ← sets.state, hl] at hl'
    obtain rfl := Option.some.inj hl'
    obtain ⟨d₀, -, rfl⟩ := List.mem_map.mp hr
    rfl
  · obtain ⟨⟨id, d', hl, hd'⟩, hended⟩ := hf
    have hsame : ∀ k e', c'.state.deliveries.lookup k = some e' → e'.messageId = other →
        c.state.deliveries.lookup k = some e' := by
      intro k e' hk he
      rcases hlookup k e' hk with hold | ⟨d, hd, -, rfl⟩
      · exact hold
      · exact absurd (he.symm.trans ((mem_messageDeliveries h).mp hd).2) hne
    refine ⟨⟨id, d', hsame id d' hl hd', hd'⟩, fun k e hk he => ?_⟩
    have hfiled := hfiles.deliveries k
    rw [hk] at hfiled
    obtain ⟨e', hk', he'⟩ := Option.map_eq_some_iff.mp hfiled
    have hmessage : e'.messageId = e.messageId := congrArg (fun p => p.2.1) he'
    have hold := hsame k e' hk' (hmessage.trans he)
    obtain rfl := Option.some.inj (hk.symm.trans hold)
    exact hended k e hk' he

/-! ## The records runs carry -/

/-- The id of the record and that of its message were issued, and the live record is of the same message. -/
structure Known (c : Comms) (d : TeamDeliveryRecord) : Prop where
  message : ∀ j, d.messageId = numbered "msg" j → j < c.nextMessageId
  delivery : ∀ j, d.id = numbered "dlv" j → j < c.nextDeliveryId
  live : ∀ e, c.state.deliveries.lookup d.id = some e → e.messageId = d.messageId

def Stage.records : Stage → List TeamDeliveryRecord
  | .snapshot => []
  | .blocker d _ | .lookup d _ _ | .interrupting d _ _ _ _ | .sending d _ | .recordTurn d _ => [d]
  | .transition x _ => [x.current]
  | .completing x d _ => [x.current, d]

def RunsKnown (s : Service) : Prop :=
  ∀ i r recipient stage, s.Runs i r → r.point = .holding recipient stage → ∀ d ∈ stage.records, Known s.comms d

theorem Known.stored (h : Orderly c) (issued : Issued c) {id : String} {d : TeamDeliveryRecord}
    (found : c.state.deliveries.lookup id = some d) : Known c d := by
  have hid := h.filed.deliveryIds id d found
  obtain ⟨m, hm, -⟩ := h.filed.belongs id d found
  refine ⟨issued.messages _ (Table.lookup_isSome hm), ?_, fun e hl => ?_⟩
  · rw [hid]
    exact issued.deliveries id (Table.lookup_isSome found)
  · rw [hid, found] at hl
    rw [Option.some.inj hl]

theorem Known.onward {d : TeamDeliveryRecord} (h : Known c d) (ho : Onward c c') : Known c' d := by
  refine ⟨fun j hj => ?_, fun j hj => ?_, fun e' hl => ?_⟩
  · have hlt := h.message j hj
    have hcounter := ho.messageCounter
    omega
  · have hlt := h.delivery j hj
    have hcounter := ho.deliveryCounter
    omega
  · rcases ho.deliveries d.id e' hl with ⟨e, found, he, -⟩ | ⟨⟨j, hj, hle, -⟩, -⟩
    · exact he.trans (h.live e found)
    · have hlt := h.delivery j hj
      omega

theorem Known.congr {d d' : TeamDeliveryRecord} (h : Known c d) (hid : d'.id = d.id)
    (hmessage : d'.messageId = d.messageId) : Known c d' := by
  refine ⟨?_, ?_, ?_⟩
  · rw [hmessage]
    exact h.message
  · rw [hid]
    exact h.delivery
  · rw [hid, hmessage]
    exact h.live

theorem records_next {k : Then} {d : TeamDeliveryRecord} {stage : Stage} (h : k.next d = .inl stage) :
    stage.records = [d] := by
  cases k with
  | finish => cases h
  | send | recordTurn =>
    obtain rfl := Sum.inl.inj h
    rfl

theorem Staged.known (h : Orderly c) (issued : Issued c) (ho : Onward c c') {id : String}
    {trigger : DeliveryAttemptTrigger} {stage stage' : Stage}
    (staged : Staged c id trigger stage (.ok (.inl stage')) c')
    (known : ∀ d ∈ stage.records, Known c d) : ∀ d ∈ stage'.records, Known c' d := by
  have hpass : ∀ d, d ∈ stage.records → stage'.records = [d] → ∀ d ∈ stage'.records, Known c' d := by
    intro d hd hrecords e he
    rw [hrecords, List.mem_singleton] at he
    rw [he]
    exact (known d hd).onward ho
  generalize hresult :
    (Except.ok (Sum.inl stage') : Except RuntimeError (Stage ⊕ TeamDeliveryRecord)) = result at staged
  cases staged with
  | missing | unqueued | stillBlocked | unpoliced | uninterrupted | failed | unrecorded | recorded => cases hresult
  | @queued d m found =>
    cases hresult
    intro e he
    obtain rfl := List.mem_singleton.mp he
    exact .stored h issued found
  | blocked | cleared | interrupts | injects | interrupting | interrupted | sending | sent =>
    cases hresult
    exact hpass _ List.mem_cons_self rfl
  | changes plan =>
    cases hresult
    refine hpass _ List.mem_cons_self ?_
    rw [Stage.records, planDelivery_change plan]
  | @rejected d call e runtime =>
    cases hresult
    refine hpass _ List.mem_cons_self ?_
    unfold rejectedChange
    split <;> rfl
  | @unchanged x k d _ wrote =>
    have hrecords := records_next (Except.ok.inj hresult).symm
    obtain ⟨rfl, ⟨-, rfl⟩ | ⟨-, found, -⟩⟩ := wrote.unchanged
    · exact hpass _ List.mem_cons_self hrecords
    · intro e he
      rw [hrecords, List.mem_singleton] at he
      rw [he]
      exact .stored h issued found
  | @changed x k d _ wrote =>
    obtain rfl := Sum.inl.inj (Except.ok.inj hresult)
    intro e he
    rcases List.mem_cons.mp he with rfl | he
    · exact (known _ List.mem_cons_self).onward ho
    · obtain rfl := List.mem_singleton.mp he
      obtain ⟨-, d₀, found, -, rfl, -⟩ := wrote.changed
      exact ((Known.stored h issued found).onward ho).congr rfl rfl
  | @completed x k d _ quiet =>
    exact hpass d (List.mem_cons_of_mem _ (List.mem_singleton.mpr rfl)) (records_next (Except.ok.inj hresult).symm)

theorem runsKnown_step {s s' : Service} {l : Label} (h : Orderly s.comms) (issued : Issued s.comms)
    (ho : Onward s.comms s'.comms) (known : RunsKnown s) (hs : Stepped s l s') : RunsKnown s' := by
  intro i r recipient stage hr point
  rcases hs.runs hr with ⟨hr, -⟩ | hstart | ⟨r₀, answer, -, hr₀, -, ran⟩
  · exact fun d hd => (known i r recipient stage hr point d hd).onward ho
  · rw [hstart] at point
    cases point
  · have hgoes := ran.goesOn
    generalize s'.comms = c' at hgoes ho ⊢
    cases hgoes with
    | waits => cases point
    | holds =>
      obtain ⟨-, rfl⟩ := Point.holding.inj point
      exact fun d hd => by cases hd
    | @goes recipient' stage₀ stage' _ point₀ staged =>
      obtain ⟨rfl, rfl⟩ := Point.holding.inj point
      exact staged.known h issued ho (known i r₀ _ stage₀ hr₀ point₀)

end

end Gooselake.TeamComms
