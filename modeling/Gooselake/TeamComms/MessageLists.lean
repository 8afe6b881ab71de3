import Gooselake.TeamComms.IndexLaw

/-!
The list of messages of each team: a message is put at the end of the list of its team under a new id, and stays there
until the team is deleted.
-/

namespace Gooselake.TeamComms

open Gooselake.Core Data Library Library.Exec
open Gooselake.Runtime (Manager)

set_option autoImplicit false

def messageIds (s : TeamCommsState) (teamId : String) : List String := (s.teamMessageIds.lookup teamId).getD []

def messagesOf (s : TeamCommsState) (teamId : String) : List TeamMessageRecord :=
  (messageIds s teamId).filterMap fun id => s.messages.lookup id

/-- The invariant: each listed id leads to a message of the team, and has the form of an id. -/
structure Posted (s : TeamCommsState) : Prop where
  nodup : ∀ teamId, (messageIds s teamId).Nodup
  found : ∀ teamId, ∀ id ∈ messageIds s teamId, ∃ m, s.messages.lookup id = some m ∧ m.teamId = teamId ∧ m.id = id ∧
    ∃ n, id = numbered "msg" n

variable {s s' : TeamCommsState}

theorem Posted.map_ids (h : Posted s) (teamId : String) :
    (messagesOf s teamId).map TeamMessageRecord.id = messageIds s teamId := by
  have hmap : ∀ ids : List String, (∀ id ∈ ids, ∃ m, s.messages.lookup id = some m ∧ m.id = id) →
      (ids.filterMap fun id => s.messages.lookup id).map TeamMessageRecord.id = ids := by
    intro ids hids
    induction ids with
    | nil => rfl
    | cons id ids ih =>
      obtain ⟨m, hm, hid⟩ := hids id (List.mem_cons_self ..)
      rw [List.filterMap_cons, hm, List.map_cons, hid, ih fun id' hmem => hids id' (List.mem_cons_of_mem _ hmem)]
  refine hmap _ fun id hid => ?_
  obtain ⟨m, hm, -, he, -⟩ := h.found teamId id hid
  exact ⟨m, hm, he⟩

theorem Posted.nodup_ids (h : Posted s) (teamId : String) : ((messagesOf s teamId).map TeamMessageRecord.id).Nodup := by
  rw [h.map_ids]
  exact h.nodup teamId

/-! ## Changes of the lists -/

/-- What becomes of the messages: nothing, one is put at the end of its team's list, or a team's are taken out. -/
inductive Relisted (deleted : String → Prop) (s s' : TeamCommsState) : Prop where
  | kept (messages : s'.messages = s.messages) (lists : s'.teamMessageIds = s.teamMessageIds)
  | posted {message : TeamMessageRecord} (new : message.id ∉ s.messages) (number : ∃ n, message.id = numbered "msg" n)
      (messages : s'.messages = s.messages.insert message.id message)
      (lists : s'.teamMessageIds = pushAt s.teamMessageIds message.teamId message.id)
  | purged {teamId : String} (asked : deleted teamId) (state : s' = removeTeam teamId s)

theorem messageIds_pushAt {message : TeamMessageRecord}
    (hlists : s'.teamMessageIds = pushAt s.teamMessageIds message.teamId message.id) (teamId : String) :
    messageIds s' teamId = if teamId = message.teamId then messageIds s teamId ++ [message.id]
      else messageIds s teamId := by
  rw [messageIds, hlists, queueOf_pushAt]
  split
  · next he => rw [he]; rfl
  · rfl

theorem messageIds_removeTeam (gone teamId : String) (s : TeamCommsState) :
    messageIds (removeTeam gone s) teamId = if teamId = gone then [] else messageIds s teamId := by
  change ((s.teamMessageIds.erase gone).lookup teamId).getD [] = _
  rw [Table.lookup_erase]
  split <;> rfl

theorem Posted.notMem_other (h : Posted s) {teamId other id : String} (hid : id ∈ messageIds s teamId)
    (hne : teamId ≠ other) : id ∉ messageIds s other := by
  intro hother
  obtain ⟨m, hm, hteam, -⟩ := h.found teamId id hid
  obtain ⟨m', hm', hteam', -⟩ := h.found other id hother
  obtain rfl := Option.some.inj (hm.symm.trans hm')
  exact hne (hteam.symm.trans hteam')

theorem Posted.relisted (h : Posted s) {deleted : String → Prop} (hr : Relisted deleted s s') : Posted s' := by
  cases hr with
  | kept hmessages hlists =>
    have hids : ∀ teamId, messageIds s' teamId = messageIds s teamId := fun teamId => by
      rw [messageIds, hlists]
      rfl
    refine ⟨fun teamId => hids teamId ▸ h.nodup teamId, fun teamId id hid => ?_⟩
    rw [hmessages]
    exact h.found teamId id (hids teamId ▸ hid)
  | @posted message hnew hnumber hmessages hlists =>
    have hunlisted : ∀ teamId, message.id ∉ messageIds s teamId := fun teamId hid => by
      obtain ⟨m, hm, -⟩ := h.found teamId _ hid
      exact hnew (Table.lookup_isSome hm)
    refine ⟨fun teamId => ?_, fun teamId id hid => ?_⟩
    · rw [messageIds_pushAt hlists]
      split
      · exact List.nodup_append_comm.mp (List.nodup_cons.mpr ⟨hunlisted teamId, h.nodup teamId⟩)
      · exact h.nodup teamId
    · rw [hmessages, Table.lookup_insert]
      by_cases he : id = message.id
      · rw [if_pos he]
        rw [messageIds_pushAt hlists] at hid
        split at hid
        · next hteam => exact ⟨message, rfl, hteam.symm, he.symm, he ▸ hnumber⟩
        · exact absurd (he ▸ hid) (hunlisted teamId)
      · rw [if_neg he]
        refine h.found teamId id ?_
        rw [messageIds_pushAt hlists] at hid
        split at hid
        · exact (List.mem_append.mp hid).resolve_right fun hlast => he (List.mem_singleton.mp hlast)
        · exact hid
  | @purged gone _ state =>
    subst state
    refine ⟨fun teamId => ?_, fun teamId id hid => ?_⟩
    · rw [messageIds_removeTeam]
      split
      · exact List.nodup_nil
      · exact h.nodup teamId
    · rw [messageIds_removeTeam] at hid
      split at hid
      · cases hid
      · next hne =>
        obtain ⟨m, hm, hrest⟩ := h.found teamId id hid
        refine ⟨m, ?_, hrest⟩
        exact (removeTeam_messages gone s id).trans ((if_neg (h.notMem_other hid hne)).trans hm)

theorem Relisted.grows {deleted : String → Prop} (hr : Relisted deleted s s') (h : Posted s) {teamId : String}
    (hkept : ¬ deleted teamId) : messagesOf s teamId <+: messagesOf s' teamId := by
  cases hr with
  | kept hmessages hlists =>
    have hsame : messagesOf s' teamId = messagesOf s teamId := by
      rw [messagesOf, messagesOf, messageIds, messageIds, hlists, hmessages]
    exact hsame ▸ List.prefix_rfl
  | @posted message hnew hnumber hmessages hlists =>
    have hold : (messageIds s teamId).filterMap (fun id => s'.messages.lookup id) = messagesOf s teamId := by
      refine List.filterMap_congr fun id hid => ?_
      obtain ⟨m, hm, -⟩ := h.found teamId id hid
      have hne : id ≠ message.id := fun he => hnew (he ▸ Table.lookup_isSome hm)
      rw [hmessages, Table.lookup_insert, if_neg hne]
    rw [← hold, messagesOf, messageIds_pushAt hlists]
    split
    · rw [List.filterMap_append]
      exact List.prefix_append _ _
    · exact List.prefix_rfl
  | @purged gone asked state =>
    have hne : teamId ≠ gone := fun he => hkept (he ▸ asked)
    have hold : (messageIds s teamId).filterMap (fun id => s'.messages.lookup id) = messagesOf s teamId := by
      refine List.filterMap_congr fun id hid => ?_
      rw [state]
      exact (removeTeam_messages gone s id).trans (if_neg (h.notMem_other hid hne))
    have hids : messageIds s' teamId = messageIds s teamId := by
      rw [state, messageIds_removeTeam, if_neg hne]
    have hsame : messagesOf s' teamId = messagesOf s teamId := by rw [← hold, messagesOf, hids]
    exact hsame ▸ List.prefix_rfl

/-! ## The rows of the store -/

structure MessageRows (store : Store) : Prop where
  keys : (store.teamMessages.map TeamMessageRecord.id).Nodup
  ids : ∀ m ∈ store.teamMessages, ∃ n, m.id = numbered "msg" n

def Write.numbersMessage : Write → Prop
  | .message r => ∃ n, r.id = numbered "msg" n
  | _ => True

section

variable {store store' : Store}

theorem MessageRows.same (h : MessageRows store) (hrows : store'.teamMessages = store.teamMessages) :
    MessageRows store' :=
  ⟨hrows ▸ h.keys, hrows ▸ h.ids⟩

theorem MessageRows.write {f : Store → Store} (h : MessageRows store) (hf : MessageRows (f store)) :
    MessageRows (Store.write f store).2 := by
  unfold Store.write
  split
  · exact h.same rfl
  · exact hf.same rfl
  · exact hf.same rfl

theorem MessageRows.run (h : MessageRows store) {x : Write} (hx : x.numbersMessage) : MessageRows (x.run store) := by
  cases x with
  | team r => exact h.write (h.same rfl)
  | member r => exact h.write (h.same rfl)
  | memberGone teamId agentId => exact h.write (h.same rfl)
  | message r =>
    have hupsert : ∀ row, (∃ n, row.id = numbered "msg" n) → MessageRows { store with
        teamMessages := upsert TeamMessageRecord.id (fun _ new => new) row store.teamMessages } := by
      intro row hrow
      refine ⟨nodup_upsert (fun _ => rfl) h.keys, fun m hm => ?_⟩
      rcases mem_upsert hm with hm | rfl | ⟨old, -, -, rfl⟩
      · exact h.ids m hm
      · exact hrow
      · exact hrow
    refine h.write ?_
    split
    · next existing hexisting =>
      refine hupsert _ ?_
      unfold Store.messageWithKeyOf at hexisting
      split at hexisting
      · cases hexisting
      · exact h.ids existing (List.mem_of_find?_eq_some hexisting)
    · exact hupsert r hx
  | delivery r => exact h.write (h.same rfl)
  | event e =>
    exact h.same (Store.appendRuntimeEvent_keeps (g := Store.teamMessages) (fun _ _ => rfl) (fun _ _ => rfl) e store)

theorem MessageRows.wrote {W : Write → Prop} (h : MessageRows store) (hwrote : Wrote W store store')
    (hW : ∀ x, W x → x.numbersMessage) : MessageRows store' := by
  induction hwrote with
  | refl => exact h
  | tail _ hx ih =>
    obtain ⟨x, hx, rfl⟩ := hx
    exact ih.run (hW x hx)

end

/-! ## Pieces -/

structure Reposted (deleted : String → Prop) (c c' : Comms) : Prop where
  config : c'.config = c.config
  lists : Relisted deleted c.state c'.state
  wrote : Wrote Write.numbersMessage c.store c'.store

section

variable {c c' : Comms} {deleted : String → Prop}

theorem Reposted.same (hconfig : c'.config = c.config) (hstate : c'.state = c.state) (hstore : c'.store = c.store) :
    Reposted deleted c c' := by
  refine ⟨hconfig, .kept (by rw [hstate]) (by rw [hstate]), ?_⟩
  rw [hstore]
  exact .refl

theorem Reposted.refl : Reposted deleted c c := .same rfl rfl rfl

theorem Reposted.keep {W : Write → Prop} {s : TeamCommsState} (sets : Sets W c c' s)
    (hW : ∀ x, W x → x.numbersMessage) (hmessages : s.messages = c.state.messages)
    (hlists : s.teamMessageIds = c.state.teamMessageIds) : Reposted deleted c c' := by
  refine ⟨sets.config, .kept ?_ ?_, sets.wrote.mono hW⟩
  · rw [sets.state, hmessages]
  · rw [sets.state, hlists]

theorem numbersMessage_of_isEvent {x : Write} (h : x.isEvent) : x.numbersMessage := by
  cases x with
  | message r => exact h.elim
  | _ => trivial

theorem numbersMessage_of_delivers {p : TeamDeliveryRecord → Prop} {x : Write} (h : x.delivers p) :
    x.numbersMessage := by
  cases x with
  | message r => exact h.elim
  | _ => trivial

theorem numbersMessage_of_storesMembers {x : Write} (h : x.storesMembers) : x.numbersMessage := by
  cases x with
  | message r => exact h.elim
  | _ => trivial

theorem numbersMessage_of_changesTeam {team : TeamRecord} {x : Write} (h : x.changesTeam team) :
    x.numbersMessage := by
  cases x with
  | message r => exact h.elim
  | _ => trivial

theorem numbersMessage_of_deletesTeam {teamId : String} {p : TeamDeliveryRecord → Prop} {x : Write}
    (h : x.deletesTeam teamId p) : x.numbersMessage := by
  cases x with
  | message r => exact h.elim
  | _ => trivial

theorem numbersMessage_of_creates {message : TeamMessageRecord} {ds : List TeamDeliveryRecord}
    (hnumber : ∃ n, message.id = numbered "msg" n) {x : Write} (h : x.creates message ds) : x.numbersMessage := by
  cases x with
  | message r =>
    obtain rfl : r = message := h
    exact hnumber
  | _ => trivial

theorem Transitioned.reposted {x : Change} {r : Except RuntimeError Written} (h : Transitioned c x r c') :
    Reposted deleted c c' := by
  cases h with
  | refused | already | missing | lost => exact .refl
  | written _ _ _ sets => exact .keep sets (fun _ => numbersMessage_of_delivers) rfl rfl

theorem Ran.reposted {r : Inject} {result : Except RuntimeError (Inject ⊕ TeamDeliveryRecord)}
    (h : Ran c r result c') : Reposted deleted c c' := by
  cases h with
  | missing | waits | holds => exact .refl
  | goes _ staged =>
    cases staged with
    | missing | queued | unqueued | blocked | stillBlocked | unpoliced | cleared | changes | interrupts | injects
    | unrecorded => exact .refl
    | interrupting | interrupted | uninterrupted | sending | sent | rejected => exact .same rfl rfl rfl
    | failed wrote | unchanged wrote | changed wrote => exact wrote.reposted
    | completed quiet => exact .keep quiet (fun _ => numbersMessage_of_isEvent) rfl rfl
    | recorded found sets => exact .keep sets (fun _ => numbersMessage_of_delivers) rfl rfl

theorem Reteamed.reposted (h : Reteamed c c') : Reposted deleted c c' := by
  rcases h with rfl | ⟨teamId, team, team', members, -, -, sets⟩
  · exact .refl
  · exact .keep sets (fun _ => numbersMessage_of_changesTeam) rfl rfl

theorem putDeliveries_messages (ds : List TeamDeliveryRecord) (s : TeamCommsState) :
    (ds.foldl (fun s d => putDelivery d s) s).messages = s.messages ∧
      (ds.foldl (fun s d => putDelivery d s) s).teamMessageIds = s.teamMessageIds := by
  induction ds generalizing s with
  | nil => exact ⟨rfl, rfl⟩
  | cons d ds ih => exact ih (putDelivery d s)

theorem MessageCancelled.reposted {argument : String} {r : Except RuntimeError (List TeamDeliveryRecord)}
    (h : MessageCancelled c argument r c') : Reposted deleted c c' := by
  cases h with
  | refused => exact .refl
  | @cancelled messageId _ _ _ _ sets =>
    have hsame := putDeliveries_messages ((messageDeliveries c.state messageId).map (cancelDelivery c.runtime.clock))
      c.state
    exact .keep sets (fun _ => numbersMessage_of_delivers) hsame.1 hsame.2

theorem MessageCreated.reposted {m : MessageDraft} {r : Except RuntimeError TeamMessageAck}
    (h : MessageCreated c m r c') : Reposted deleted c c' := by
  cases h with
  | refused | existing => exact .refl
  | @created k ds team _ _ found drafted sets =>
    obtain ⟨⟨-, hmessages, hlists⟩, -⟩ := addMessage_spec m (m.message (newMessageId c) c.runtime.clock) ds c.state
    have hnew : newMessageId c ∉ c.state.messages := fun hmem =>
      nextFree_notMem "msg" c.state.messages c.nextMessageId (AList.mem_keys.mp hmem)
    have hnumber : ∃ n, (m.message (newMessageId c) c.runtime.clock).id = numbered "msg" n := ⟨_, rfl⟩
    rw [← sets.state] at hmessages hlists
    have hposted : Relisted deleted c.state c'.state := .posted hnew hnumber hmessages hlists
    exact ⟨sets.config, hposted, sets.wrote.mono fun _ => numbersMessage_of_creates hnumber⟩

end

/-! ## Steps -/

def Label.deletes : Label → String → Prop
  | .start _ (.deleteTeam argument), teamId => normalizeNonEmpty argument "team_id" = .ok teamId
  | _, _ => False

theorem Stepped.reposted {s s' : Service} {l : Label} (h : Stepped s l s') :
    Reposted l.deletes s.comms s'.comms := by
  cases h with
  | runtime => exact .same rfl rfl rfl
  | begun _ begun =>
    cases begun with
    | refused | creates | joins | sends | resumes | recovers => exact .refl
    | reteams reteamed => exact reteamed.reposted
    | deletes deleted =>
      cases deleted with
      | refused => exact .refl
      | deleted normal _ sets =>
        exact ⟨sets.config, .purged normal sets.state, sets.wrote.mono fun _ => numbersMessage_of_deletesTeam⟩
    | retries retried =>
      cases retried with
      | refused => exact .refl
      | retried _ _ _ _ sets => exact .keep sets (fun _ => numbersMessage_of_delivers) rfl rfl
    | cancels cancelled => exact cancelled.reposted
  | moved _ _ moved =>
    cases moved with
    | stopped | checked | joinChecked | admitted | idle | passedBy | recovers => exact .refl
    | created sets =>
      have hmessages := congrArg TeamCommsState.messages sets.state
      have hlists := congrArg TeamCommsState.teamMessageIds sets.state
      exact ⟨sets.config, .kept hmessages hlists, sets.wrote.mono fun _ => numbersMessage_of_changesTeam⟩
    | membersStored sets => exact .keep sets (fun _ => numbersMessage_of_storesMembers) rfl rfl
    | joined reteamed => exact reteamed.reposted
    | sent _ created => exact created.reposted
    | ran ran => exact ran.reposted

/-! ## Hydration -/

theorem Posted.hydrateMessage (h : Posted s) {m : TeamMessageRecord} (hnew : m.id ∉ s.messages)
    (hnumber : ∃ n, m.id = numbered "msg" n) : Posted (s.hydrateMessage m) := by
  have hr : Relisted (fun _ => False) s (s.hydrateMessage m) := by
    unfold TeamCommsState.hydrateMessage
    split
    · exact .posted hnew hnumber rfl rfl
    · exact .kept rfl rfl
  exact h.relisted hr

theorem Posted.hydrateMessages (h : Posted s) (rows : List TeamMessageRecord)
    (hnodup : (rows.map TeamMessageRecord.id).Nodup) (hnew : ∀ m ∈ rows, m.id ∉ s.messages)
    (hnumber : ∀ m ∈ rows, ∃ n, m.id = numbered "msg" n) :
    Posted (rows.foldl TeamCommsState.hydrateMessage s) := by
  induction rows generalizing s with
  | nil => exact h
  | cons m rows ih =>
    rw [List.map_cons, List.nodup_cons] at hnodup
    refine ih (h.hydrateMessage (hnew m (List.mem_cons_self ..)) (hnumber m (List.mem_cons_self ..))) hnodup.2
      (fun m' hm' hmem => ?_) fun m' hm' => hnumber m' (List.mem_cons_of_mem _ hm')
    have hold : m'.id ∉ s.messages := hnew m' (List.mem_cons_of_mem _ hm')
    unfold TeamCommsState.hydrateMessage at hmem
    split at hmem
    · rcases (AList.mem_insert _).mp hmem with he | hmem
      · exact hnodup.1 (List.mem_map.mpr ⟨m', hm', he⟩)
      · exact hold hmem
    · exact hold hmem

theorem posted_hydrate {store : Store} (h : MessageRows store) : Posted (TeamCommsState.hydrate store) := by
  have hbare := bare_hydrateTeams store
  obtain ⟨-, hbare⟩ := TeamCommsState.hydrateMembers_teams store.teamMembers hbare
  unfold TeamCommsState.hydrate
  dsimp only
  generalize store.teamMembers.foldl TeamCommsState.hydrateMember
    (store.teams.foldl TeamCommsState.hydrateTeam .empty) = s₀ at hbare
  have hempty : Posted s₀ := by
    have hids : ∀ teamId, messageIds s₀ teamId = [] := fun teamId => by
      rw [messageIds, hbare.teamMessageIds]
      rfl
    refine ⟨fun teamId => ?_, fun teamId id hid => ?_⟩
    · rw [hids]
      exact List.nodup_nil
    · rw [hids] at hid
      cases hid
  have hrows : (store.teamMessages.insertionSort fun a b => storedBefore a.createdAt a.id b.createdAt b.id).Perm
      store.teamMessages := List.perm_insertionSort _ _
  have hmessages := hempty.hydrateMessages _ ((hrows.map TeamMessageRecord.id).nodup_iff.mpr h.keys)
    (fun m _ => by rw [hbare.messages]; exact AList.notMem_empty _) fun m hm => h.ids m (hrows.mem_iff.mp hm)
  obtain ⟨-, hm₂, hl₂, -⟩ := TeamCommsState.hydrateDeliveries_spec
    (s := (store.teamMessages.insertionSort fun a b => storedBefore a.createdAt a.id b.createdAt b.id).foldl
      TeamCommsState.hydrateMessage s₀)
    (store.teamDeliveries.insertionSort fun a b => storedBefore a.createdAt a.id b.createdAt b.id)
  have hr : Relisted (fun _ => False) _ _ := .kept hm₂ hl₂
  exact hmessages.relisted hr

/-! ## Every life -/

structure MessagesKept (c : Comms) : Prop where
  state : Posted c.state
  rows : MessageRows c.store

theorem MessagesKept.reposted {c c' : Comms} {deleted : String → Prop} (h : MessagesKept c)
    (hr : Reposted deleted c c') : MessagesKept c' :=
  ⟨h.state.relisted hr.lists, h.rows.wrote hr.wrote fun _ hx => hx⟩

theorem messagesKept_new {runtime : Manager} {store : Store} {config : RuntimeTeamCommsConfig} {nonce : String}
    (h : MessageRows store) : MessagesKept (Comms.new runtime store config nonce) :=
  ⟨posted_hydrate h, h⟩

/-- In every life from an empty store, whatever fails, is deleted or restarted. -/
theorem messagesKept_lives {runtime : Manager} {faults : List Bool} {config : RuntimeTeamCommsConfig} {nonce : String}
    {s : Service} (hr : Reaches Service.live (fun _ _ => True)
      (Service.start (Comms.new runtime (Store.empty faults) config nonce)) s) : MessagesKept s.comms := by
  refine hr.invariant (I := fun s => MessagesKept s.comms) ?_ fun e t u h _ hs => ?_
  · exact messagesKept_new ⟨List.nodup_nil, fun m hm => by cases hm⟩
  · cases e with
    | serve l => exact h.reposted (step_stepped hs).reposted
    | restart providers answers config nonce =>
      obtain rfl := Option.some.inj hs
      exact messagesKept_new h.rows

end Gooselake.TeamComms
