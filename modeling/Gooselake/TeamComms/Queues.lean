import Gooselake.TeamComms.QueueOrder

/-!
The queues of the recipients and the table of deliveries in memory. A queue lists the deliveries of its
recipient and nothing else; a step takes entries out of it or adds new ones at its end.
-/

namespace Gooselake.TeamComms

open Gooselake.Core Data Library Library.Exec

set_option autoImplicit false

/-- Each delivery is in the queue of its recipient, and nothing else is in a queue. -/
structure QueuesListed (s : TeamCommsState) : Prop where
  ids : ∀ id d, s.deliveries.lookup id = some d → d.id = id
  listed : ∀ id d, s.deliveries.lookup id = some d → id ∈ queueOf s d.recipientAgentId
  queued : ∀ recipient, ∀ id ∈ queueOf s recipient, ∃ d, s.deliveries.lookup id = some d ∧
    d.recipientAgentId = recipient

def lawfulChange (before after : DeliveryStatus) : Bool :=
  before = after || isValidTransition before after || ((before = .failed || before = .deferred) && after = .pending) ||
    ((before = .pending || before = .deferred) && after = .cancelled)

theorem lawfulChange_of_terminal {before after : DeliveryStatus} (h : lawfulChange before after = true)
    (hover : isTerminalStatus before = true) :
    isTerminalStatus after = true ∨ (before = .failed ∧ after = .pending) := by
  revert h hover
  cases before <;> cases after <;> decide

structure Updates (d d' : TeamDeliveryRecord) : Prop where
  id : d'.id = d.id
  recipient : d'.recipientAgentId = d.recipientAgentId
  status : lawfulChange d.status d'.status = true

theorem lawfulChange_refl (status : DeliveryStatus) : lawfulChange status status = true := by simp [lawfulChange]

theorem Updates.refl (d : TeamDeliveryRecord) : Updates d d := ⟨rfl, rfl, lawfulChange_refl _⟩

def NumberedIn (c c' : Comms) (id : String) : Prop :=
  ∃ j, id = numbered "dlv" j ∧ c.nextDeliveryId ≤ j ∧ j < c'.nextDeliveryId

structure Evolves (c c' : Comms) : Prop where
  counter : c.nextDeliveryId ≤ c'.nextDeliveryId
  record : ∀ id d', c'.state.deliveries.lookup id = some d' →
    (∃ d, c.state.deliveries.lookup id = some d ∧ Updates d d') ∨
      (id ∉ c.state.deliveries ∧ NumberedIn c c' id ∧ d'.id = id ∧ id ∈ queueOf c'.state d'.recipientAgentId)
  queue : ∀ recipient, ∃ new, queueOf c'.state recipient =
      (queueOf c.state recipient).filter (fun id => id ∈ c'.state.deliveries) ++ new ∧ new.Nodup ∧
    ∀ id ∈ new, NumberedIn c c' id ∧ ∃ d, c'.state.deliveries.lookup id = some d ∧ d.recipientAgentId = recipient

variable {c c' : Comms}

theorem Evolves.queuesListed (h : Evolves c c') (hc : QueuesListed c.state) : QueuesListed c'.state := by
  refine ⟨fun id d' hl => ?_, fun id d' hl => ?_, fun recipient id hid => ?_⟩
  · rcases h.record id d' hl with ⟨d, hd, update⟩ | ⟨-, -, hid, -⟩
    · exact update.id.trans (hc.ids id d hd)
    · exact hid
  · rcases h.record id d' hl with ⟨d, hd, update⟩ | ⟨-, -, -, hqueue⟩
    · obtain ⟨new, hnew, -⟩ := h.queue d'.recipientAgentId
      have hmem := hc.listed id d hd
      rw [← update.recipient] at hmem
      rw [hnew, List.mem_append, List.mem_filter]
      exact .inl ⟨hmem, decide_eq_true (Table.lookup_isSome hl)⟩
    · exact hqueue
  · obtain ⟨new, hnew, -, hd⟩ := h.queue recipient
    rw [hnew, List.mem_append, List.mem_filter, decide_eq_true_eq] at hid
    rcases hid with ⟨hid, hmem⟩ | hid
    · obtain ⟨d, hl, hr⟩ := hc.queued recipient id hid
      obtain ⟨d', hl'⟩ := Option.isSome_iff_exists.mp (AList.lookup_isSome.mpr hmem)
      rcases h.record id d' hl' with ⟨d₀, hd₀, update⟩ | ⟨hnot, -⟩
      · obtain rfl := Option.some.inj (hl.symm.trans hd₀)
        exact ⟨d', hl', update.recipient.trans hr⟩
      · exact absurd (Table.lookup_isSome hl) hnot
    · exact (hd id hid).2

/-! ## The queues stay as they are -/

structure SameDeliveries (s s' : TeamCommsState) : Prop where
  queues : s'.recipientDeliveryIds = s.recipientDeliveryIds
  keys : ∀ id, id ∈ s.deliveries → id ∈ s'.deliveries
  record : ∀ id d', s'.deliveries.lookup id = some d' → ∃ d, s.deliveries.lookup id = some d ∧ Updates d d'

theorem SameDeliveries.refl (s : TeamCommsState) : SameDeliveries s s :=
  ⟨rfl, fun _ h => h, fun _ d hl => ⟨d, hl, .refl d⟩⟩

theorem SameDeliveries.put {s : TeamCommsState} {id : String} {d d' : TeamDeliveryRecord}
    (found : s.deliveries.lookup id = some d) (updates : Updates d d') :
    SameDeliveries s { s with deliveries := s.deliveries.insert id d' } := by
  refine ⟨rfl, fun k hk => (AList.mem_insert _).mpr (.inr hk), fun k d₁ hl => ?_⟩
  dsimp only at hl
  rw [Table.lookup_insert] at hl
  split at hl
  · next he =>
    obtain rfl := Option.some.inj hl
    exact ⟨d, he ▸ found, updates⟩
  · exact ⟨d₁, hl, .refl d₁⟩

theorem Evolves.same (hc : QueuesListed c.state) (counter : c'.nextDeliveryId = c.nextDeliveryId)
    (same : SameDeliveries c.state c'.state) : Evolves c c' := by
  refine ⟨counter.ge, fun id d' hl => .inl (same.record id d' hl), fun recipient =>
    ⟨[], ?_, List.nodup_nil, fun id hid => ?_⟩⟩
  · have hall : ∀ id ∈ queueOf c.state recipient, decide (id ∈ c'.state.deliveries) = true := by
      intro id hid
      obtain ⟨d, hl, -⟩ := hc.queued recipient id hid
      exact decide_eq_true (same.keys id (Table.lookup_isSome hl))
    rw [List.append_nil, List.filter_eq_self.mpr hall, queueOf, queueOf, same.queues]
  · cases hid

theorem Sets.evolves {W : Write → Prop} {s : TeamCommsState} (h : Sets W c c' s) (hc : QueuesListed c.state)
    (same : SameDeliveries c.state s) : Evolves c c' :=
  .same hc h.nextDeliveryId (h.state ▸ same)

theorem Transitioned.evolves {x : Change} {r : Except RuntimeError Written} (h : Transitioned c x r c')
    (hc : QueuesListed c.state) : Evolves c c' := by
  cases h with
  | refused | already | missing | lost => exact .same hc rfl (.refl _)
  | @written d _ _ valid found same sets =>
    refine sets.evolves hc (.put found ⟨rfl, rfl, ?_⟩)
    change lawfulChange d.status x.next = true
    rw [same]
    simp [lawfulChange, valid]

theorem Staged.evolves {deliveryId : String} {trigger : DeliveryAttemptTrigger} {stage : Stage}
    {r : Except RuntimeError (Stage ⊕ TeamDeliveryRecord)} (h : Staged c deliveryId trigger stage r c')
    (hc : QueuesListed c.state) : Evolves c c' := by
  cases h with
  | missing | queued | unqueued | blocked | stillBlocked | unpoliced | cleared | changes | interrupts | injects
  | unrecorded | interrupting | interrupted | uninterrupted | sending | sent | rejected =>
    exact .same hc rfl (.refl _)
  | failed wrote | unchanged wrote | changed wrote => exact wrote.evolves hc
  | completed quiet => exact quiet.evolves hc (.refl _)
  | recorded found sets => exact sets.evolves hc (.put found ⟨rfl, rfl, lawfulChange_refl _⟩)

theorem Ran.evolves {r : Inject} {result : Except RuntimeError (Inject ⊕ TeamDeliveryRecord)} (h : Ran c r result c')
    (hc : QueuesListed c.state) : Evolves c c' := by
  cases h with
  | missing | waits | holds => exact .same hc rfl (.refl _)
  | goes _ staged => exact staged.evolves hc

theorem Reteamed.evolves (h : Reteamed c c') (hc : QueuesListed c.state) : Evolves c c' := by
  rcases h with rfl | ⟨teamId, team, team', members, -, -, sets⟩
  · exact .same hc rfl (.refl _)
  · exact sets.evolves hc ⟨rfl, fun _ h => h, fun _ d hl => ⟨d, hl, .refl d⟩⟩

theorem DeliveryRetried.evolves {teamId argument : String} {r : Except RuntimeError String}
    (h : DeliveryRetried c teamId argument r c') (hc : QueuesListed c.state) : Evolves c c' := by
  cases h with
  | refused => exact .same hc rfl (.refl _)
  | @retried _ d _ _ _ found _ retriable sets =>
    refine sets.evolves hc (.put found ⟨rfl, rfl, ?_⟩)
    change lawfulChange d.status .pending = true
    rcases retriable with hfailed | hdeferred
    · rw [hfailed]
      rfl
    · rw [hdeferred]
      rfl

theorem lookup_cancel (s : TeamCommsState) (now : ℤ) (ds : List TeamDeliveryRecord)
    (h : ∀ d ∈ ds, s.deliveries.lookup d.id = some d) {id : String} {d' : TeamDeliveryRecord}
    (hl : ((ds.map (cancelDelivery now)).foldl (fun s d => putDelivery d s) s).deliveries.lookup id = some d') :
    s.deliveries.lookup id = some d' ∨ ∃ d ∈ ds, s.deliveries.lookup id = some d ∧ d' = cancelDelivery now d := by
  rw [List.foldl_map] at hl
  revert id d'
  refine List.foldlRecOn (motive := fun s' : TeamCommsState => ∀ {id d'}, s'.deliveries.lookup id = some d' →
    s.deliveries.lookup id = some d' ∨ ∃ d ∈ ds, s.deliveries.lookup id = some d ∧ d' = cancelDelivery now d) _ _
    (fun hl => .inl hl) fun s' hs d hd id d' hl => ?_
  unfold putDelivery at hl
  dsimp only at hl
  rw [Table.lookup_insert] at hl
  split at hl
  · next he =>
    obtain rfl := Option.some.inj hl
    exact .inr ⟨d, hd, he ▸ h d hd, rfl⟩
  · exact hs hl

theorem sameDeliveries_cancel (s : TeamCommsState) (now : ℤ) (ds : List TeamDeliveryRecord)
    (h : ∀ d ∈ ds, s.deliveries.lookup d.id = some d ∧ isQueued d.status = true) :
    SameDeliveries s ((ds.map (cancelDelivery now)).foldl (fun s d => putDelivery d s) s) := by
  refine ⟨?_, fun id hid => ?_, fun id d' hl => ?_⟩
  · exact List.foldlRecOn (motive :=
      fun s' : TeamCommsState => s'.recipientDeliveryIds = s.recipientDeliveryIds) _ _ rfl
      fun s' hs d _ => hs
  · exact List.foldlRecOn (motive := fun s' : TeamCommsState => id ∈ s'.deliveries) _ _ hid
      fun s' hs d _ => (AList.mem_insert _).mpr (.inr hs)
  · rcases lookup_cancel s now ds (fun d hd => (h d hd).1) hl with hl | ⟨d, hd, found, rfl⟩
    · exact ⟨d', hl, .refl d'⟩
    · refine ⟨d, found, rfl, rfl, ?_⟩
      have status := (h d hd).2
      change lawfulChange d.status .cancelled = true
      revert status
      cases d.status <;> decide

theorem MessageCancelled.evolves {argument : String} {r : Except RuntimeError (List TeamDeliveryRecord)}
    (h : MessageCancelled c argument r c') (hc : QueuesListed c.state) : Evolves c c' := by
  cases h with
  | refused => exact .same hc rfl (.refl _)
  | @cancelled messageId _ _ _ queued sets =>
    refine sets.evolves hc (sameDeliveries_cancel _ _ _ fun d hd => ⟨?_, queued d hd⟩)
    obtain ⟨id, -, hl⟩ := List.mem_filterMap.mp hd
    rw [hc.ids id d hl]
    exact hl

/-! ## A team is removed -/

theorem queueOf_removeDelivery (index : Table String (List String)) (key id recipient : String) :
    ((removeDeliveryFromRecipientIndex index key id).lookup recipient).getD [] =
      ((index.lookup recipient).getD []).filter fun candidate => recipient = key → candidate ≠ id := by
  unfold removeDeliveryFromRecipientIndex
  by_cases he : recipient = key
  · subst he
    cases hl : index.lookup recipient with
    | none => simp [hl]
    | some ids =>
      dsimp only
      split
      · next hempty => rw [Table.lookup_erase, if_pos rfl]; simpa using hempty.symm
      · rw [Table.lookup_insert, if_pos rfl]; simp
  · have hkeep : ((index.lookup recipient).getD []).filter (fun candidate => recipient = key → candidate ≠ id) =
        (index.lookup recipient).getD [] := List.filter_eq_self.mpr fun _ _ => by simp [he]
    rw [hkeep]
    cases hl : index.lookup key with
    | none => rfl
    | some ids =>
      dsimp only
      split
      · rw [Table.lookup_erase, if_neg he]
      · rw [Table.lookup_insert, if_neg he]

theorem queueOf_removeDeliveries (index : Table String (List String)) (ds : List TeamDeliveryRecord)
    (recipient : String) :
    ((ds.foldl (fun index d => removeDeliveryFromRecipientIndex index d.recipientAgentId d.id) index).lookup
      recipient).getD [] = ((index.lookup recipient).getD []).filter fun id =>
        ∀ d ∈ ds, recipient = d.recipientAgentId → id ≠ d.id := by
  induction ds generalizing index with
  | nil => simp
  | cons d ds ih =>
    rw [List.foldl_cons, ih, queueOf_removeDelivery, List.filter_filter]
    refine List.filter_congr fun id _ => ?_
    rw [Bool.eq_iff_iff]
    simp [and_comm]

theorem removeTeam_evolves (hc : QueuesListed c.state) {teamId : String}
    (counter : c'.nextDeliveryId = c.nextDeliveryId)
    (hstate : c'.state = removeTeam teamId c.state) : Evolves c c' := by
  have hlookup : ∀ id, c'.state.deliveries.lookup id =
      if id ∈ teamDeliveries c.state teamId then none else c.state.deliveries.lookup id := by
    intro id
    rw [hstate]
    exact Table.lookup_eraseAll _ _ _
  refine ⟨counter.ge, fun id d' hl => ?_, fun recipient => ⟨[], ?_, List.nodup_nil, fun id hid => by cases hid⟩⟩
  · rw [hlookup] at hl
    split at hl
    · cases hl
    · exact .inl ⟨d', hl, .refl d'⟩
  · rw [hstate, List.append_nil]
    refine (queueOf_removeDeliveries _ _ recipient).trans (List.filter_congr fun id hid => ?_)
    obtain ⟨d, hl, hr⟩ := hc.queued recipient id hid
    rw [Bool.eq_iff_iff, decide_eq_true_eq, decide_eq_true_eq, ← hstate, ← AList.lookup_isSome, hlookup]
    constructor
    · intro hkept
      by_cases hremoved : id ∈ teamDeliveries c.state teamId
      · exact absurd (hc.ids id d hl).symm (hkept d (List.mem_filterMap.mpr ⟨id, hremoved, hl⟩) hr.symm)
      · rw [if_neg hremoved, hl]
        rfl
    · intro hkept d' hd' _ he
      obtain ⟨k, hk, hlk⟩ := List.mem_filterMap.mp hd'
      rw [he, hc.ids k d' hlk, if_pos hk] at hkept
      cases hkept

/-! ## A message is added -/

theorem Drafted.numbers {taken : Table String TeamDeliveryRecord} {message : TeamMessageRecord} {n k : ℕ}
    {rs : List (String × String)} {ds : List TeamDeliveryRecord} (h : Drafted taken message n rs k ds) :
    n ≤ k ∧ ∀ d ∈ ds, d.id ∉ taken ∧ ∃ j, d.id = numbered "dlv" j ∧ n ≤ j ∧ j < k := by
  induction h with
  | nil => exact ⟨le_rfl, fun d hd => by cases hd⟩
  | @cons n k recipient provider rest ds drafted ih =>
    have hle : n ≤ nextFree "dlv" taken n := le_firstFree _ _ _ _
    obtain ⟨hk, hds⟩ := ih
    refine ⟨by omega, fun d hd => ?_⟩
    rcases List.mem_cons.mp hd with rfl | hd
    · refine ⟨fun hmem => nextFree_notMem "dlv" taken n (AList.mem_keys.mp hmem), _, rfl, hle, ?_⟩
      omega
    · obtain ⟨hnew, j, hid, hj, hjk⟩ := hds d hd
      exact ⟨hnew, j, hid, by omega, hjk⟩

theorem Drafted.fresh {taken : Table String TeamDeliveryRecord} {message : TeamMessageRecord} {n k : ℕ}
    {rs : List (String × String)} {ds : List TeamDeliveryRecord} (h : Drafted taken message n rs k ds) :
    ∀ d ∈ ds, d.injectedTurnId = none := by
  induction h with
  | nil => exact fun d hd => by cases hd
  | cons _ ih =>
    intro d hd
    rcases List.mem_cons.mp hd with rfl | hd
    · rfl
    · exact ih d hd

theorem addMessage_evolves (hc : QueuesListed c.state) {m : MessageDraft} {message : TeamMessageRecord}
    {ds : List TeamDeliveryRecord} (drafted : Drafted c.state.deliveries message c.nextDeliveryId m.recipients
      c'.nextDeliveryId ds) (hstate : c'.state = addMessage m message ds c.state) : Evolves c c' := by
  obtain ⟨hle, hnumbers⟩ := drafted.numbers
  have hnodup : (ds.map TeamDeliveryRecord.id).Nodup := by
    rw [drafted.eq]
    exact deliveriesFrom_nodup _ _ _ _
  obtain ⟨-, hqueues, hlookup, hmem⟩ := addMessage_spec m message ds c.state
  rw [← hstate] at hqueues hlookup hmem
  have hfound : ∀ d ∈ ds, c'.state.deliveries.lookup d.id = some d := by
    intro d hd
    obtain ⟨d', hl⟩ := Option.isSome_iff_exists.mp (AList.lookup_isSome.mpr (hmem d.id (.inr (List.mem_map_of_mem hd))))
    rcases hlookup d.id d' hl with hold | ⟨hd', hid⟩
    · exact absurd (Table.lookup_isSome hold) (hnumbers d hd).1
    · obtain rfl := List.inj_on_of_nodup_map hnodup hd' hd hid
      exact hl
  refine ⟨hle, fun id d' hl => ?_, fun recipient =>
    ⟨(ds.filter fun d => d.recipientAgentId = recipient).map TeamDeliveryRecord.id, ?_, ?_, fun id hid => ?_⟩⟩
  · rcases hlookup id d' hl with hold | ⟨hd, rfl⟩
    · exact .inl ⟨d', hold, .refl d'⟩
    · refine .inr ⟨(hnumbers d' hd).1, (hnumbers d' hd).2, rfl, ?_⟩
      rw [hqueues, List.mem_append]
      exact .inr (List.mem_map_of_mem (List.mem_filter.mpr ⟨hd, decide_eq_true rfl⟩))
  · have hall : ∀ id ∈ queueOf c.state recipient, decide (id ∈ c'.state.deliveries) = true := by
      intro id hid
      obtain ⟨d, hl, -⟩ := hc.queued recipient id hid
      exact decide_eq_true (hmem id (.inl (Table.lookup_isSome hl)))
    rw [hqueues, List.filter_eq_self.mpr hall]
  · exact hnodup.sublist (List.filter_sublist.map _)
  · obtain ⟨d, hd, rfl⟩ := List.mem_map.mp hid
    obtain ⟨hd, hr⟩ := List.mem_filter.mp hd
    exact ⟨(hnumbers d hd).2, d, hfound d hd, of_decide_eq_true hr⟩

theorem MessageCreated.evolves {m : MessageDraft} {r : Except RuntimeError TeamMessageAck}
    (h : MessageCreated c m r c') (hc : QueuesListed c.state) : Evolves c c' := by
  cases h with
  | refused | existing => exact .same hc rfl (.refl _)
  | created _ drafted sets =>
    refine addMessage_evolves hc ?_ sets.state
    rw [sets.nextDeliveryId]
    exact drafted

/-! ## Steps -/

theorem Begun.evolves {op : Operation} {after : Option TeamCall} (h : Begun c op after c') (hc : QueuesListed c.state) :
    Evolves c c' := by
  cases h with
  | refused | creates | joins | sends | resumes | recovers => exact .same hc rfl (.refl _)
  | reteams reteamed => exact reteamed.evolves hc
  | deletes deleted =>
    cases deleted with
    | refused => exact .same hc rfl (.refl _)
    | deleted _ _ sets => exact removeTeam_evolves hc sets.nextDeliveryId sets.state
  | retries retried => exact retried.evolves hc
  | cancels cancelled => exact cancelled.evolves hc

theorem Moved.evolves {call : TeamCall} {after : Option TeamCall} (h : Moved c call after c')
    (hc : QueuesListed c.state) :
    Evolves c c' := by
  cases h with
  | stopped | checked | joinChecked | admitted | idle | passedBy | recovers => exact .same hc rfl (.refl _)
  | created sets =>
    exact .same hc sets.nextDeliveryId (sets.state ▸ ⟨rfl, fun _ h => h, fun _ d hl => ⟨d, hl, .refl d⟩⟩)
  | membersStored sets => exact sets.evolves hc (.refl _)
  | joined reteamed => exact reteamed.evolves hc
  | sent _ created => exact created.evolves hc
  | ran ran => exact ran.evolves hc

theorem Stepped.evolves {s s' : Service} {l : Label} (h : Stepped s l s') (hc : QueuesListed s.comms.state) :
    Evolves s.comms s'.comms := by
  cases h with
  | runtime => exact .same hc rfl (.refl _)
  | begun _ begun => exact begun.evolves hc
  | moved _ _ moved => exact moved.evolves hc

end Gooselake.TeamComms
