import Gooselake.TeamComms.Drafts
import Gooselake.TeamComms.Hydration

/-!
The order of the queues and message lists across a restart. In memory a new id goes to the end of its lists;
hydration lists the rows by creation time and then by id as text. The two agree as long as each new row comes
after the stored rows of its lists.
-/

namespace Gooselake.TeamComms

open Gooselake.Core Data Library Library.Exec
open Gooselake.Runtime (Manager)

set_option autoImplicit false

/-- A restart brings back messages and queues in their order. -/
structure SameOrder (c : Comms) : Prop where
  messages : ∀ teamId, ((TeamCommsState.hydrate c.store).teamMessageIds.lookup teamId).getD [] =
    (c.state.teamMessageIds.lookup teamId).getD []
  queues : ∀ recipient, queueOf (TeamCommsState.hydrate c.store) recipient = queueOf c.state recipient

/-- No two messages and no two deliveries have one id. -/
structure PrimaryKeys (store : Store) : Prop where
  messages : (store.teamMessages.map TeamMessageRecord.id).Nodup
  deliveries : (store.teamDeliveries.map TeamDeliveryRecord.id).Nodup

/-! ## The rows a send adds -/

def newMessage (c : Comms) (m : MessageDraft) : TeamMessageRecord := m.message (newMessageId c) c.runtime.clock

/-- The deliveries of a new message, with counters from `n` on. -/
def deliveriesFrom (taken : Table String TeamDeliveryRecord) (message : TeamMessageRecord) :
    ℕ → List (String × String) → List TeamDeliveryRecord
  | _, [] => []
  | n, (recipient, provider) :: rest =>
    newDelivery message (numbered "dlv" (nextFree "dlv" taken n)) recipient provider ::
      deliveriesFrom taken message (nextFree "dlv" taken n + 1) rest

def newDeliveries (c : Comms) (m : MessageDraft) : List TeamDeliveryRecord :=
  deliveriesFrom c.state.deliveries (newMessage c m) c.nextDeliveryId m.recipients

def teamLands (c : Comms) : Bool :=
  !c.store.faults.headD false && (c.store.teamMessages.all fun m => m.teamId ≠ newTeamId c) &&
    c.store.teamDeliveries.all fun d => d.teamId ≠ newTeamId c

/-- A message that is created is stored with its deliveries, under an id no delivery of a live team names; it
comes after the stored messages of its team, each delivery after those of its recipient's queue. -/
def messageLands (c : Comms) (m : MessageDraft) : Bool :=
  !creates c m || (!writeFails c m && (Store.messageWithKeyOf (newMessage c m) c.store.teamMessages).isNone &&
    (c.store.teamDeliveries.all fun d => d.messageId ≠ newMessageId c || !liveTeam c.store d.teamId) &&
    ((storedMessages c.store m.teamId).all fun stored => messageBefore stored (newMessage c m)) &&
    (newDeliveries c m).all fun d =>
      (storedQueue c.store d.recipientAgentId).all fun stored => deliveryBefore stored d)

/-- What is added lands after what is stored, and no team is deleted. -/
def comesLast : Label → Service → Bool
  | .start _ (.deleteTeam _), _ => false
  | .goOn i _, s =>
    match s.calls.lookup i with
    | some (.createWrite _) => teamLands s.comms
    | some (.create m) => messageLands s.comms m
    | _ => true
  | _, _ => true

/-! ## What the rows of a store decide -/

structure Place where
  createdAt : ℤ
  id : String
  teamId : String
  messageId : String
  recipientAgentId : String

def placeOf (d : TeamDeliveryRecord) : Place := ⟨d.createdAt, d.id, d.teamId, d.messageId, d.recipientAgentId⟩

/-- The same teams are live, the messages are the same and the deliveries have the same places. -/
structure SameRows (s t : Store) : Prop where
  live : ∀ teamId, liveTeam t teamId = liveTeam s teamId
  messages : t.teamMessages = s.teamMessages
  places : t.teamDeliveries.map placeOf = s.teamDeliveries.map placeOf

section

variable {s t u : Store}

theorem SameRows.refl (s : Store) : SameRows s s := ⟨fun _ => rfl, rfl, rfl⟩

theorem SameRows.trans (h : SameRows s t) (h' : SameRows t u) : SameRows s u :=
  ⟨fun teamId => (h'.live teamId).trans (h.live teamId), h'.messages.trans h.messages, h'.places.trans h.places⟩

theorem SameRows.keptMessage (h : SameRows s t) (id : String) : keptMessage t id = keptMessage s id := by
  unfold TeamComms.keptMessage
  simp only [h.messages, h.live]

theorem SameRows.storedMessages (h : SameRows s t) (teamId : String) :
    storedMessages t teamId = storedMessages s teamId := by
  unfold TeamComms.storedMessages
  simp only [h.messages, h.live]

def placeBefore (a b : Place) : Prop := storedBefore a.createdAt a.id b.createdAt b.id = true

instance : DecidableRel placeBefore := fun _ _ => instDecidableEqBool _ _

theorem SameRows.storedQueue (h : SameRows s t) (recipient : String) :
    (storedQueue t recipient).map placeOf = (storedQueue s recipient).map placeOf := by
  refine map_listing_congr placeOf placeBefore
    (fun p => liveTeam s p.teamId && TeamComms.keptMessage s p.messageId && p.recipientAgentId = recipient)
    (fun _ _ => Iff.rfl) (fun _ => rfl) (fun d => ?_) h.places
  unfold keptDelivery
  rw [h.live, h.keptMessage]
  rfl

theorem ids_of_places {ds ds' : List TeamDeliveryRecord} (h : ds'.map placeOf = ds.map placeOf) :
    ds'.map TeamDeliveryRecord.id = ds.map TeamDeliveryRecord.id := by
  have hid : ∀ ds : List TeamDeliveryRecord,
      ds.map TeamDeliveryRecord.id = (ds.map placeOf).map Place.id := fun ds => by
    rw [List.map_map]
    rfl
  rw [hid, hid, h]

theorem SameRows.primaryKeys (h : SameRows s t) (hs : PrimaryKeys s) : PrimaryKeys t := by
  refine ⟨?_, ?_⟩
  · rw [h.messages]
    exact hs.messages
  · rw [ids_of_places h.places]
    exact hs.deliveries

theorem SameRows.hydrated {m : TeamCommsState} (h : SameRows s t) (hm : Hydrated s m) : Hydrated t m := by
  refine ⟨fun teamId => ?_, fun id => ?_, fun d hd hk => ?_, fun teamId => ?_, fun recipient => ?_⟩
  · rw [h.live]
    exact hm.teams teamId
  · rw [h.keptMessage]
    exact hm.messages id
  · have hplace : placeOf d ∈ s.teamDeliveries.map placeOf := h.places ▸ List.mem_map_of_mem hd
    obtain ⟨d', hd', he⟩ := List.mem_map.mp hplace
    obtain ⟨-, hid, hteam, hmessage, -⟩ := Place.mk.injEq .. ▸ he
    rw [← hid]
    refine hm.deliveries d' hd' ?_
    unfold keptDelivery at hk ⊢
    rwa [hteam, hmessage, ← h.live, ← h.keptMessage]
  · rw [h.storedMessages]
    exact hm.lists teamId
  · rw [ids_of_places (h.storedQueue recipient)]
    exact hm.queues recipient

/-! ## Writes that keep the rows in place -/

def KeepsRows (s : Store) : Write → Prop
  | .team r => liveTeam s r.id = true ∧ r.deletedAt = none
  | .delivery d => placeOf d ∈ s.teamDeliveries.map placeOf
  | .message _ => False
  | .member _ | .memberGone _ _ | .event _ => True

theorem KeepsRows.congr (h : SameRows s t) {x : Write} (hx : KeepsRows s x) : KeepsRows t x := by
  cases x with
  | team r =>
    refine ⟨?_, hx.2⟩
    rw [h.live]
    exact hx.1
  | delivery d =>
    unfold KeepsRows
    rw [h.places]
    exact hx
  | message r => exact hx
  | member | memberGone | event => trivial

theorem SameRows.write {f : Store → Store} (h : SameRows s (f s)) : SameRows s (Store.write f s).2 := by
  unfold Store.write
  split
  · exact ⟨fun _ => rfl, rfl, rfl⟩
  · exact ⟨h.live, h.messages, h.places⟩
  · exact ⟨h.live, h.messages, h.places⟩

theorem SameRows.event (e : NewRuntimeEvent) : SameRows s (Store.appendRuntimeEvent e s).2 := by
  have hkeep : ∀ {α : Type} (g : Store → α), (∀ s faults, g { s with faults := faults } = g s) →
      (∀ s events, g { s with events := events } = g s) → g (Store.appendRuntimeEvent e s).2 = g s :=
    fun g hfaults hevents => Store.appendRuntimeEvent_keeps hfaults hevents e s
  refine ⟨fun teamId => ?_, ?_, ?_⟩
  · exact hkeep (fun s => liveTeam s teamId) (fun _ _ => rfl) fun _ _ => rfl
  · exact hkeep Store.teamMessages (fun _ _ => rfl) fun _ _ => rfl
  · exact hkeep (fun s => s.teamDeliveries.map placeOf) (fun _ _ => rfl) fun _ _ => rfl

theorem liveTeam_upsertTeam {r : TeamRecord} (hr : r.deletedAt = none) (s : Store) (teamId : String) :
    liveTeam { s with teams := upsert TeamRecord.id (fun old new => { new with createdAt := old.createdAt }) r s.teams }
      teamId = (decide (r.id = teamId) || liveTeam s teamId) :=
  have hnone : r.deletedAt.isNone = true := Option.isNone_iff_eq_none.mpr hr
  any_upsert (q := fun team : TeamRecord => team.deletedAt.isNone) (fun _ => rfl) (fun _ => hnone) hnone s.teams teamId

theorem KeepsRows.run {x : Write} (hkeys : PrimaryKeys s) (hx : KeepsRows s x) : SameRows s (x.run s) := by
  cases x with
  | team r =>
    refine SameRows.write ⟨fun teamId => ?_, rfl, rfl⟩
    rw [liveTeam_upsertTeam hx.2]
    by_cases he : r.id = teamId
    · rw [← he, hx.1, Bool.or_true]
    · rw [decide_eq_false he, Bool.false_or]
  | delivery d => exact SameRows.write ⟨fun _ => rfl, rfl, map_upsert_same placeOf
      (fun a b h => congrArg Place.id h) hkeys.deliveries hx⟩
  | message r => exact hx.elim
  | member r => exact SameRows.write ⟨fun _ => rfl, rfl, rfl⟩
  | memberGone teamId agentId => exact SameRows.write ⟨fun _ => rfl, rfl, rfl⟩
  | event e => exact SameRows.event e

theorem Wrote.sameRows {W : Write → Prop} (h : Wrote W s t) (hkeys : PrimaryKeys s) (hW : ∀ x, W x → KeepsRows s x) :
    SameRows s t := by
  induction h with
  | refl => exact SameRows.refl s
  | tail _ hx ih =>
    obtain ⟨x, hx, rfl⟩ := hx
    exact ih.trans (((hW x hx).congr ih).run (ih.primaryKeys hkeys))

end

/-! ## Memory and store in step -/

structure InStep (c : Comms) : Prop where
  hydrated : Hydrated c.store c.state
  live : c.state.Live
  deliveries : ∀ id d, c.state.deliveries.lookup id = some d →
    d.id = id ∧ placeOf d ∈ c.store.teamDeliveries.map placeOf
  keys : PrimaryKeys c.store

variable {c c' : Comms}

theorem InStep.sameOrder (h : InStep c) : SameOrder c := by
  have hstore := hydrated_hydrate c.store
  refine ⟨fun teamId => ?_, fun recipient => ?_⟩
  · rw [hstore.lists, h.hydrated.lists]
  · rw [hstore.queues, h.hydrated.queues]

/-- The lists are the same, and so is what hydration reads of the teams and deliveries. -/
structure SameLists (s s' : TeamCommsState) : Prop where
  teams : ∀ teamId, (s'.teams.lookup teamId).map (fun team => (team.id, team.deletedAt)) =
    (s.teams.lookup teamId).map fun team => (team.id, team.deletedAt)
  messages : s'.messages = s.messages
  deliveries : ∀ id, (s'.deliveries.lookup id).map placeOf = (s.deliveries.lookup id).map placeOf
  teamMessageIds : s'.teamMessageIds = s.teamMessageIds
  recipientDeliveryIds : s'.recipientDeliveryIds = s.recipientDeliveryIds

theorem SameLists.refl (s : TeamCommsState) : SameLists s s := ⟨fun _ => rfl, rfl, fun _ => rfl, rfl, rfl⟩

theorem mem_iff_isSome {α : Type} {t : Table String α} {k : String} : k ∈ t ↔ (t.lookup k).isSome :=
  AList.lookup_isSome.symm

theorem InStep.keep (h : InStep c) (rows : SameRows c.store c'.store) (lists : SameLists c.state c'.state) :
    InStep c' := by
  refine ⟨rows.hydrated ?_, fun teamId team hl => ?_, fun id d hl => ?_, rows.primaryKeys h.keys⟩
  · refine ⟨fun teamId => ?_, fun id => ?_, fun d hd hk => ?_, fun teamId => ?_, fun recipient => ?_⟩
    · rw [← h.hydrated.teams, mem_iff_isSome, mem_iff_isSome, ← Option.isSome_map, lists.teams, Option.isSome_map]
    · rw [lists.messages]
      exact h.hydrated.messages id
    · have hmem := h.hydrated.deliveries d hd hk
      rw [mem_iff_isSome] at hmem ⊢
      rwa [← Option.isSome_map, lists.deliveries, Option.isSome_map]
    · rw [lists.teamMessageIds]
      exact h.hydrated.lists teamId
    · unfold queueOf
      rw [lists.recipientDeliveryIds]
      exact h.hydrated.queues recipient
  · have hteam := lists.teams teamId
    rw [hl, Option.map_some, eq_comm] at hteam
    obtain ⟨team₀, hl₀, he⟩ := Option.map_eq_some_iff.mp hteam
    obtain ⟨hid, hdeleted⟩ := Prod.mk.inj he
    rw [← hid, ← hdeleted]
    exact h.live teamId team₀ hl₀
  · have hplace := lists.deliveries id
    rw [hl, Option.map_some, eq_comm] at hplace
    obtain ⟨d₀, hl₀, he⟩ := Option.map_eq_some_iff.mp hplace
    obtain ⟨hid, hmem⟩ := h.deliveries id d₀ hl₀
    rw [rows.places, ← he]
    exact ⟨(congrArg Place.id he).symm.trans hid, hmem⟩

theorem InStep.redelivered (h : InStep c) {s : TeamCommsState} {p : TeamDeliveryRecord → Prop}
    (sets : Sets (Write.delivers p) c c' s) (lists : SameLists c.state s)
    (hp : ∀ d, p d → placeOf d ∈ c.store.teamDeliveries.map placeOf) : InStep c' := by
  refine h.keep (sets.wrote.sameRows h.keys fun x hx => ?_) (sets.state ▸ lists)
  cases x with
  | delivery d => exact hp d hx
  | event e => trivial
  | team | member | memberGone | message => exact hx.elim

theorem InStep.quiet (h : InStep c) (quiet : Sets Write.isEvent c c' c.state) : InStep c' :=
  h.redelivered (p := fun _ => False) (quiet.mono fun _ => Write.delivers_of_isEvent) (.refl c.state)
    fun _ hp => hp.elim

theorem InStep.putDelivery (h : InStep c) {id : String} {d d' : TeamDeliveryRecord}
    (found : c.state.deliveries.lookup id = some d)
    (sets : Sets (Write.delivers (· = d')) c c' { c.state with deliveries := c.state.deliveries.insert id d' })
    (place : placeOf d' = placeOf d) : InStep c' := by
  refine h.redelivered sets ⟨fun _ => rfl, rfl, fun k => ?_, rfl, rfl⟩ fun x hx => ?_
  · dsimp only
    rw [Table.lookup_insert]
    split
    · next he => rw [he, found, Option.map_some, Option.map_some, place]
    · rfl
  · rw [hx, place]
    exact (h.deliveries id d found).2

theorem InStep.reteamed (h : InStep c) (hr : Reteamed c c') : InStep c' := by
  rcases hr with rfl | ⟨teamId, team, team', members, found, ⟨hid, hdeleted⟩, sets⟩
  · exact h
  obtain ⟨rfl, hlive⟩ := h.live teamId team found
  refine h.keep (sets.wrote.sameRows h.keys fun x hx => ?_) ?_
  · cases x with
    | team r =>
      refine ⟨?_, hx.2.trans hlive⟩
      rw [hx.1, ← h.hydrated.teams]
      exact Table.lookup_isSome found
    | member | memberGone | event => trivial
    | message | delivery => exact hx.elim
  · rw [sets.state]
    refine ⟨fun k => ?_, rfl, fun _ => rfl, rfl, rfl⟩
    dsimp only
    rw [Table.lookup_insert]
    split
    · next he => rw [he, found, Option.map_some, Option.map_some, hid, hdeleted]
    · rfl

theorem sameLists_putDeliveries (s : TeamCommsState) (ds : List TeamDeliveryRecord)
    (h : ∀ d ∈ ds, (s.deliveries.lookup d.id).map placeOf = some (placeOf d)) :
    SameLists s (ds.foldl (fun s d => putDelivery d s) s) := by
  refine List.foldlRecOn (motive := fun s' => SameLists s s') _ _ (.refl s) fun s' hs d hd => ?_
  refine ⟨hs.teams, hs.messages, fun k => ?_, hs.teamMessageIds, hs.recipientDeliveryIds⟩
  unfold putDelivery
  dsimp only
  rw [Table.lookup_insert]
  split
  · next he => rw [he, h d hd, Option.map_some]
  · exact hs.deliveries k

theorem InStep.cancelled (h : InStep c) {argument : String} {r : Except RuntimeError (List TeamDeliveryRecord)}
    (hc : MessageCancelled c argument r c') : InStep c' := by
  cases hc with
  | refused => exact h
  | @cancelled messageId _ _ normal queued sets =>
    have hplace : ∀ d ∈ (messageDeliveries c.state messageId).map (cancelDelivery c.runtime.clock),
        ∃ id d₀, c.state.deliveries.lookup id = some d₀ ∧ placeOf d = placeOf d₀ := by
      intro d hd
      obtain ⟨d₀, hd₀, rfl⟩ := List.mem_map.mp hd
      obtain ⟨id, -, hl⟩ := List.mem_filterMap.mp hd₀
      exact ⟨id, d₀, hl, rfl⟩
    refine h.redelivered sets (sameLists_putDeliveries _ _ fun d hd => ?_) fun d hd => ?_
    · obtain ⟨id, d₀, hl, hp⟩ := hplace d hd
      have hid : d.id = id := (congrArg Place.id hp).trans (h.deliveries id d₀ hl).1
      rw [hid, hl, Option.map_some, hp]
    · obtain ⟨id, d₀, hl, hp⟩ := hplace d hd
      rw [hp]
      exact (h.deliveries id d₀ hl).2

theorem InStep.transitioned (h : InStep c) {x : Change} {r : Except RuntimeError Written}
    (ht : Transitioned c x r c') : InStep c' := by
  cases ht with
  | refused | already | missing | lost => exact h
  | written _ found _ sets => exact h.putDelivery found sets rfl

theorem InStep.staged (h : InStep c) {deliveryId : String} {trigger : DeliveryAttemptTrigger} {stage : Stage}
    {r : Except RuntimeError (Stage ⊕ TeamDeliveryRecord)} (hs : Staged c deliveryId trigger stage r c') :
    InStep c' := by
  cases hs with
  | missing | queued | unqueued | blocked | stillBlocked | unpoliced | cleared | changes | interrupts | injects
  | unrecorded => exact h
  | interrupting | interrupted | uninterrupted | sending | sent | rejected =>
    exact ⟨h.hydrated, h.live, h.deliveries, h.keys⟩
  | failed wrote | unchanged wrote | changed wrote => exact h.transitioned wrote
  | completed quiet => exact h.quiet quiet
  | recorded found sets => exact h.putDelivery found sets rfl

theorem InStep.ran (h : InStep c) {r : Inject} {result : Except RuntimeError (Inject ⊕ TeamDeliveryRecord)}
    (hr : Ran c r result c') : InStep c' := by
  cases hr with
  | missing | waits | holds => exact h
  | goes _ staged => exact h.staged staged

/-! ## A team is created -/

theorem write_ok {f : Store → Store} {s : Store} (h : s.faults.headD false = false) :
    Store.write f s = (.ok (), { f s with faults := s.faults.tail }) := by
  unfold Store.write
  cases hf : s.faults with
  | nil => rfl
  | cons b rest =>
    rw [hf] at h
    cases b with
    | true => cases h
    | false => rfl

theorem head_of_no_fault {faults : List Bool} {n : ℕ} (h : true ∉ faults.take (n + 1)) :
    faults.headD false = false ∧ true ∉ faults.tail.take n := by
  cases faults with
  | nil => simp
  | cons b rest => simpa using h

theorem InStep.teamCreated (h : InStep c) {d : TeamDraft} (hlands : teamLands c = true)
    (hstate : c'.state = withTeam d (newTeamId c) c.state)
    (hstore : c'.store = (Store.upsertTeam (d.team (newTeamId c)) c.store).2) : InStep c' := by
  simp only [teamLands, Bool.and_eq_true, Bool.not_eq_true', List.all_eq_true, decide_eq_true_eq] at hlands
  obtain ⟨⟨hfault, hmessages⟩, hdeliveries⟩ := hlands
  rw [Store.upsertTeam, write_ok hfault] at hstore
  have hlive : ∀ teamId, liveTeam c'.store teamId = (decide (newTeamId c = teamId) || liveTeam c.store teamId) := by
    intro teamId
    rw [hstore]
    exact liveTeam_upsertTeam rfl c.store teamId
  have hmessageRows : c'.store.teamMessages = c.store.teamMessages := by rw [hstore]
  have hdeliveryRows : c'.store.teamDeliveries = c.store.teamDeliveries := by rw [hstore]
  have hliveMessage : ∀ m ∈ c.store.teamMessages, liveTeam c'.store m.teamId = liveTeam c.store m.teamId :=
      fun m hm => by
    rw [hlive, decide_eq_false (Ne.symm (hmessages m hm)), Bool.false_or]
  have hkeptMessage : ∀ id, keptMessage c'.store id = keptMessage c.store id := by
    intro id
    unfold keptMessage
    rw [hmessageRows, Bool.eq_iff_iff, List.any_eq_true, List.any_eq_true]
    exact exists_congr fun m => and_congr_right fun hm => by rw [hliveMessage m hm]
  have hkept : ∀ d ∈ c.store.teamDeliveries, keptDelivery c'.store d = keptDelivery c.store d := fun d hd => by
    unfold keptDelivery
    rw [hkeptMessage, hlive, decide_eq_false (Ne.symm (hdeliveries d hd)), Bool.false_or]
  refine ⟨⟨fun teamId => ?_, fun id => ?_, fun d hd hk => ?_, fun teamId => ?_, fun recipient => ?_⟩,
    fun teamId team hl => ?_, fun id d hl => ?_, ?_, ?_⟩
  · rw [hstate, hlive, Bool.or_eq_true, decide_eq_true_eq, ← h.hydrated.teams, eq_comm]
    exact AList.mem_insert _
  · rw [hstate, hkeptMessage]
    exact h.hydrated.messages id
  · rw [hdeliveryRows] at hd
    rw [hkept d hd] at hk
    rw [hstate]
    exact h.hydrated.deliveries d hd hk
  · unfold storedMessages
    rw [hstate, hmessageRows, listing_congr fun m hm => by rw [hliveMessage m hm]]
    exact h.hydrated.lists teamId
  · unfold storedQueue
    rw [hstate, hdeliveryRows, listing_congr fun d hd => by rw [hkept d hd]]
    exact h.hydrated.queues recipient
  · rw [hstate, withTeam, Table.lookup_insert] at hl
    split at hl
    · next he =>
      obtain rfl := Option.some.inj hl
      exact ⟨he.symm, rfl⟩
    · exact h.live teamId team hl
  · rw [hstate] at hl
    rw [hdeliveryRows]
    exact h.deliveries id d hl
  · rw [hmessageRows]
    exact h.keys.messages
  · rw [hdeliveryRows]
    exact h.keys.deliveries

/-! ## A message is created -/

theorem deliveriesFrom_mem {taken : Table String TeamDeliveryRecord} {message : TeamMessageRecord} {n : ℕ}
    {rs : List (String × String)} {d : TeamDeliveryRecord} (hd : d ∈ deliveriesFrom taken message n rs) :
    (∃ j, n ≤ j ∧ d.id = numbered "dlv" j) ∧ d.id ∉ taken ∧ d.messageId = message.id ∧ d.teamId = message.teamId := by
  induction rs generalizing n with
  | nil => cases hd
  | cons r rest ih =>
    have hle : n ≤ nextFree "dlv" taken n := le_firstFree _ _ _ _
    rcases List.mem_cons.mp hd with rfl | hd
    · exact ⟨⟨_, hle, rfl⟩, fun hmem => nextFree_notMem "dlv" taken n (AList.mem_keys.mp hmem), rfl, rfl⟩
    · obtain ⟨⟨j, hj, hid⟩, hrest⟩ := ih hd
      exact ⟨⟨j, by omega, hid⟩, hrest⟩

theorem deliveriesFrom_nodup (taken : Table String TeamDeliveryRecord) (message : TeamMessageRecord) (n : ℕ)
    (rs : List (String × String)) : ((deliveriesFrom taken message n rs).map TeamDeliveryRecord.id).Nodup := by
  induction rs generalizing n with
  | nil => exact List.nodup_nil
  | cons r rest ih =>
    refine List.nodup_cons.mpr ⟨fun hmem => ?_, ih _⟩
    obtain ⟨d, hd, hid⟩ := List.mem_map.mp hmem
    obtain ⟨⟨j, hj, hid'⟩, -⟩ := deliveriesFrom_mem hd
    have := numbered_inj (hid'.symm.trans hid)
    omega

theorem deliveriesFrom_recipients (taken : Table String TeamDeliveryRecord) (message : TeamMessageRecord) (n : ℕ)
    (rs : List (String × String)) :
    (deliveriesFrom taken message n rs).map TeamDeliveryRecord.recipientAgentId = rs.map Prod.fst := by
  induction rs generalizing n with
  | nil => rfl
  | cons r rest ih => rw [deliveriesFrom, List.map_cons, ih, List.map_cons]; rfl

theorem Drafted.eq {taken : Table String TeamDeliveryRecord} {message : TeamMessageRecord} {n k : ℕ}
    {rs : List (String × String)} {ds : List TeamDeliveryRecord} (h : Drafted taken message n rs k ds) :
    ds = deliveriesFrom taken message n rs := by
  induction h with
  | nil => rfl
  | cons _ ih => rw [ih]; rfl

structure Landed (c : Comms) (m : MessageDraft) (c' : Comms) : Prop where
  team : m.teamId ∈ c.state.teams
  state : c'.state = addMessage m (newMessage c m) (newDeliveries c m) c.state
  teams : c'.store.teams = c.store.teams
  messages : c'.store.teamMessages =
    upsert TeamMessageRecord.id (fun _ new => new) (newMessage c m) c.store.teamMessages
  deliveries : c'.store.teamDeliveries = (newDeliveries c m).foldl
    (fun rows row => upsert TeamDeliveryRecord.id (fun _ new => new) row rows) c.store.teamDeliveries

def teamTables (c : Comms) : TeamCommsState × List TeamRecord × List TeamMessageRecord × List TeamDeliveryRecord :=
  (c.state, c.store.teams, c.store.teamMessages, c.store.teamDeliveries)

theorem noteTeamEvent_tables (teamId kind : String) (payload : Json) (sessionId : Option String) :
    After (noteTeamEvent teamId kind payload sessionId) c fun r c' => r = .ok () ∧ teamTables c' = teamTables c := by
  simp only [noteTeamEvent, appendTeamEvent, after_bind_iff, after_attempt, after_get, after_modify, after_nowMs,
    after_onStore, after_pure]
  refine ⟨trivial, ?_⟩
  exact congrArg (Prod.mk c.state) (Store.appendRuntimeEvent_keeps
    (g := fun s => (s.teams, s.teamMessages, s.teamDeliveries)) (fun _ _ => rfl) (fun _ _ => rfl) _ c.store)

theorem storeDeliveries_saves (ds : List TeamDeliveryRecord) (h : true ∉ c.store.faults.take ds.length) :
    After (ds.forM fun delivery => onStore (Store.upsertTeamDelivery delivery)) c fun r c' => r = .ok () ∧
      teamTables c' = (c.state, c.store.teams, c.store.teamMessages, ds.foldl
        (fun rows row => upsert TeamDeliveryRecord.id (fun _ new => new) row rows) c.store.teamDeliveries) := by
  induction ds generalizing c with
  | nil => exact ⟨rfl, rfl⟩
  | cons d ds ih =>
    obtain ⟨hhead, htail⟩ := head_of_no_fault h
    refine (after_bind_iff _ _ _ _).mpr ((after_onStore _ _).mpr ?_)
    rw [Store.upsertTeamDelivery, write_ok hhead]
    exact ih htail

theorem storeMessage_saves (m : MessageDraft) (message : TeamMessageRecord) (ds : List TeamDeliveryRecord)
    (h : true ∉ c.store.faults.take (ds.length + 1))
    (hkey : Store.messageWithKeyOf message c.store.teamMessages = none) :
    After (storeMessage m message ds) c fun r c' => r = .ok () ∧ teamTables c' = (c.state, c.store.teams,
      upsert TeamMessageRecord.id (fun _ new => new) message c.store.teamMessages, ds.foldl
        (fun rows row => upsert TeamDeliveryRecord.id (fun _ new => new) row rows) c.store.teamDeliveries) := by
  obtain ⟨hhead, htail⟩ := head_of_no_fault h
  refine (after_bind_iff _ _ _ _).mpr ((after_onStore _ _).mpr ?_)
  rw [Store.upsertTeamMessage, write_ok hhead, hkey]
  refine after_bind (storeDeliveries_saves ds htail) (fun _ c₁ h₁ => ?_) fun e c₁ h₁ => by cases h₁.1
  refine after_bind (noteTeamEvent_tables _ _ _ _) (fun _ c₂ h₂ => ?_) fun e c₂ h₂ => by cases h₂.1
  refine (after_forM_ok (I := fun c' => teamTables c' = teamTables c₂) (p := True) _ ds (fun d _ c₃ h₃ => ?_) rfl).mono
    fun r c₃ h₃ => ⟨h₃.2 trivial, h₃.1.trans (h₂.2.trans h₁.2)⟩
  exact (noteTeamEvent_tables _ _ _ _).mono fun _ _ h => ⟨h.2.trans h₃, fun _ => h.1⟩

theorem createMessage_lands {m : MessageDraft} (h : creates c m = true →
    writeFails c m = false ∧ Store.messageWithKeyOf (newMessage c m) c.store.teamMessages = none) :
    After (createMessage m) c fun _ c' => c' = c ∨ (creates c m = true ∧ Landed c m c') := by
  rw [createMessage, after_bind_iff, after_get]
  dsimp only
  have hchecks : After (checkMembers c.state m) c fun r c' => c' = c ∧ ((checkMembers c.state m).result c).1 = r ∧
      ∀ u, r = .ok u → ∃ team, c.state.teams.lookup m.teamId = some team :=
    ((readOnly_checkMembers c.state m).after
      (Q := fun r _ => ((checkMembers c.state m).result c).1 = r ∧ ∀ u, r = .ok u → _)
      ⟨rfl, fun u hu => (checkMembers_after c.state m).out.2 u hu⟩)
  refine after_bind hchecks (fun u c' h' => ?_) fun e c' h' => .inl h'.1
  obtain ⟨rfl, hok, hteam⟩ := h'
  obtain ⟨team, hteam⟩ := hteam u rfl
  split
  · exact (after_pure _ _ _).mpr (.inl rfl)
  next hnone =>
  have hcreates : creates c' m = true := by
    unfold creates
    rw [hok, hnone]
    rfl
  obtain ⟨hwrites, hkey⟩ := h hcreates
  have hfaults : true ∉ c'.store.faults.take (m.recipients.length + 1) := by
    simpa [writeFails, hcreates] using hwrites
  simp only [allocateMessageId, after_bind_iff, after_nowMs, after_get, after_modify, after_pure]
  refine (draftDeliveries_after _ _).elim (fun ds c'' h => ?_) (fun e c'' h => ?_)
  · obtain ⟨k, ds', hr, rfl, hd⟩ := h
    obtain rfl := Except.ok.inj hr
    have hlength := hd.length
    obtain rfl : ds = newDeliveries c' m := hd.eq
    dsimp only
    rw [after_changeState]
    refine (storeMessage_saves m _ (newDeliveries c' m) ?_ ?_).elim (fun _ c₁ h₁ => ?_) fun e c₁ h₁ => by cases h₁.1
    · rwa [hlength]
    · exact hkey
    · obtain ⟨-, htables⟩ := h₁
      obtain ⟨hstate, htables⟩ := Prod.mk.inj htables
      obtain ⟨hteams, htables⟩ := Prod.mk.inj htables
      obtain ⟨hmessages, hdeliveries⟩ := Prod.mk.inj htables
      exact Or.inr ⟨hcreates, (⟨Table.lookup_isSome hteam, hstate, hteams, hmessages, hdeliveries⟩ : Landed c' m c₁)⟩
  · obtain ⟨k, ds', hr, -⟩ := h
    cases hr

theorem addDeliveries_spec (s : TeamCommsState) (ds : List TeamDeliveryRecord) :
    ((ds.foldl TeamCommsState.addDelivery s).teams = s.teams ∧
      (ds.foldl TeamCommsState.addDelivery s).messages = s.messages ∧
      (ds.foldl TeamCommsState.addDelivery s).teamMessageIds = s.teamMessageIds) ∧
    (∀ recipient, queueOf (ds.foldl TeamCommsState.addDelivery s) recipient = queueOf s recipient ++
      (ds.filter fun d => d.recipientAgentId = recipient).map TeamDeliveryRecord.id) ∧
    (∀ id d, (ds.foldl TeamCommsState.addDelivery s).deliveries.lookup id = some d →
      s.deliveries.lookup id = some d ∨ (d ∈ ds ∧ d.id = id)) ∧
    ∀ id, id ∈ s.deliveries ∨ id ∈ ds.map TeamDeliveryRecord.id →
      id ∈ (ds.foldl TeamCommsState.addDelivery s).deliveries := by
  induction ds generalizing s with
  | nil => simp
  | cons d ds ih =>
    obtain ⟨hsame, hqueues, hlookup, hmem⟩ := ih (s.addDelivery d)
    refine ⟨hsame, fun recipient => ?_, fun id d' hl => ?_, fun id hid => ?_⟩
    · rw [List.foldl_cons, hqueues, queueOf, TeamCommsState.addDelivery, queueOf_pushAt]
      by_cases he : recipient = d.recipientAgentId
      · subst he
        rw [if_pos rfl, List.filter_cons_of_pos (by simp), List.map_cons, List.append_assoc]
        rfl
      · rw [if_neg he, List.filter_cons_of_neg (by simp [Ne.symm he])]
        rfl
    · rcases hlookup id d' hl with h | ⟨hd, hid⟩
      · rw [TeamCommsState.addDelivery, Table.lookup_insert] at h
        split at h
        · next he =>
          obtain rfl := Option.some.inj h
          exact .inr ⟨List.mem_cons_self, he.symm⟩
        · exact .inl h
      · exact .inr ⟨List.mem_cons_of_mem _ hd, hid⟩
    · refine hmem id ?_
      rw [TeamCommsState.addDelivery, AList.mem_insert]
      rw [List.map_cons, List.mem_cons] at hid
      rcases hid with hid | rfl | hid
      · exact .inl (.inr hid)
      · exact .inl (.inl rfl)
      · exact .inr hid

theorem newDeliveries_pairwise {m : MessageDraft} (hm : m.Proper) {p : TeamDeliveryRecord → Bool} (recipient : String)
    (hp : ∀ d, p d = true → d.recipientAgentId = recipient) :
    ((newDeliveries c m).filter p).Pairwise deliveryBefore := by
  have hnodup : ((newDeliveries c m).map TeamDeliveryRecord.recipientAgentId).Nodup := by
    rw [newDeliveries, deliveriesFrom_recipients]
    exact hm.recipients
  refine ((List.pairwise_map.mp hnodup).filter p).imp_of_mem fun ha hb hne => ?_
  exact absurd ((hp _ (List.mem_filter.mp ha).2).trans (hp _ (List.mem_filter.mp hb).2).symm) hne

theorem messageBefore_antisymm {rows : List TeamMessageRecord} (h : (rows.map TeamMessageRecord.id).Nodup) :
    ∀ a ∈ rows, ∀ b ∈ rows, messageBefore a b → messageBefore b a → a = b := fun _ ha _ hb hab hba =>
  List.inj_on_of_nodup_map h ha hb (storedBefore_antisymm hab hba)

theorem deliveryBefore_antisymm {rows : List TeamDeliveryRecord} (h : (rows.map TeamDeliveryRecord.id).Nodup) :
    ∀ a ∈ rows, ∀ b ∈ rows, deliveryBefore a b → deliveryBefore b a → a = b := fun _ ha _ hb hab hba =>
  List.inj_on_of_nodup_map h ha hb (storedBefore_antisymm hab hba)

theorem addMessage_spec (m : MessageDraft) (message : TeamMessageRecord) (ds : List TeamDeliveryRecord)
    (s : TeamCommsState) :
    ((addMessage m message ds s).teams = s.teams ∧
      (addMessage m message ds s).messages = s.messages.insert message.id message ∧
      (addMessage m message ds s).teamMessageIds = pushAt s.teamMessageIds m.teamId message.id) ∧
    (∀ recipient, queueOf (addMessage m message ds s) recipient = queueOf s recipient ++
      (ds.filter fun d => d.recipientAgentId = recipient).map TeamDeliveryRecord.id) ∧
    (∀ id d, (addMessage m message ds s).deliveries.lookup id = some d →
      s.deliveries.lookup id = some d ∨ (d ∈ ds ∧ d.id = id)) ∧
    ∀ id, id ∈ s.deliveries ∨ id ∈ ds.map TeamDeliveryRecord.id → id ∈ (addMessage m message ds s).deliveries :=
  addDeliveries_spec _ ds

structure Kept (c : Comms) (m : MessageDraft) (c' : Comms) : Prop where
  live : ∀ teamId, liveTeam c'.store teamId = liveTeam c.store teamId
  team : liveTeam c.store m.teamId = true
  messages : ∀ id, keptMessage c'.store id = (decide (newMessageId c = id) || keptMessage c.store id)
  /-- as before, among the deliveries that were stored -/
  stored : ∀ d ∈ c.store.teamDeliveries, keptDelivery c'.store d = keptDelivery c.store d
  new : ∀ d ∈ newDeliveries c m, keptDelivery c'.store d = true

theorem InStep.kept (h : InStep c) {m : MessageDraft} (landed : Landed c m c')
    (hnamed : ∀ d ∈ c.store.teamDeliveries, ¬ d.messageId = newMessageId c ∨ liveTeam c.store d.teamId = false) :
    Kept c m c' := by
  have hteam : liveTeam c.store m.teamId = true := (h.hydrated.teams m.teamId).mp landed.team
  have hlive : ∀ teamId, liveTeam c'.store teamId = liveTeam c.store teamId := fun teamId => by
    rw [liveTeam, landed.teams]
    rfl
  have hmessages : ∀ id, keptMessage c'.store id = (decide (newMessageId c = id) || keptMessage c.store id) := by
    intro id
    unfold keptMessage
    simp only [hlive, landed.messages]
    exact any_upsert (q := fun m : TeamMessageRecord => liveTeam c.store m.teamId) (fun _ => rfl)
      (fun _ => hteam) hteam _ id
  refine ⟨hlive, hteam, hmessages, fun d hd => ?_, fun d hd => ?_⟩
  · unfold keptDelivery
    rw [hlive, hmessages]
    rcases hnamed d hd with hne | hdead
    · rw [decide_eq_false (Ne.symm hne), Bool.false_or]
    · rw [hdead, Bool.false_and, Bool.false_and]
  · obtain ⟨-, -, hmessage, hdteam⟩ := deliveriesFrom_mem hd
    unfold keptDelivery
    rw [hlive, hmessages, hmessage, hdteam]
    simpa [newMessage, MessageDraft.message] using hteam

theorem InStep.storedMessages_landed (h : InStep c) {m : MessageDraft} (landed : Landed c m c') (kept : Kept c m c')
    (hlast : ∀ stored ∈ storedMessages c.store m.teamId, messageBefore stored (newMessage c m)) (teamId : String) :
    storedMessages c'.store teamId =
      storedMessages c.store teamId ++ if teamId = m.teamId then [newMessage c m] else [] := by
  have hnew : [newMessage c m].filter (fun r => liveTeam c.store r.teamId && r.teamId = teamId) =
      if teamId = m.teamId then [newMessage c m] else [] := by
    have hteam : (newMessage c m).teamId = m.teamId := rfl
    by_cases he : teamId = m.teamId
    · simp [hteam, he, kept.team]
    · simp [hteam, he, Ne.symm he]
  rw [← hnew]
  unfold storedMessages
  simp only [kept.live, landed.messages]
  refine listing_append (fun _ _ => storedBefore_total _ _ _ _) (fun _ _ _ => storedBefore_trans)
    (messageBefore_antisymm (nodup_upsert (fun _ => rfl) h.keys.messages)) (filter_upsert_perm fun old hold hid => ?_)
    ((List.pairwise_singleton _ _).filter _) fun a ha hp b hb => ?_
  · -- a stored message with the new id is not kept, for the id is not taken in memory
    by_contra hp
    simp only [Bool.not_eq_false, Bool.and_eq_true] at hp
    have hkept : keptMessage c.store (newMessageId c) = true :=
      List.any_eq_true.mpr ⟨old, hold, by simpa [hp.1] using (show old.id = newMessageId c from hid)⟩
    exact nextFree_notMem "msg" c.state.messages c.nextMessageId
      (AList.mem_keys.mp ((h.hydrated.messages (newMessageId c)).mpr hkept))
  · obtain ⟨hb, hpb⟩ := List.mem_filter.mp hb
    obtain rfl := List.mem_singleton.mp hb
    simp only [Bool.and_eq_true, decide_eq_true_eq] at hp hpb
    refine hlast a (mem_listing.mpr ⟨ha, ?_⟩)
    rw [hp.2, show teamId = m.teamId from hpb.2.symm]
    simpa using kept.team

theorem InStep.storedQueue_landed (h : InStep c) {m : MessageDraft} (hm : m.Proper) (landed : Landed c m c')
    (kept : Kept c m c') (hlast : ∀ d ∈ newDeliveries c m, ∀ stored ∈ storedQueue c.store d.recipientAgentId,
      deliveryBefore stored d) (recipient : String) :
    storedQueue c'.store recipient = storedQueue c.store recipient ++
      (newDeliveries c m).filter fun d => d.recipientAgentId = recipient := by
  have hids : ((newDeliveries c m).map TeamDeliveryRecord.id).Nodup := deliveriesFrom_nodup _ _ _ _
  have hnew : (newDeliveries c m).filter (fun d => keptDelivery c'.store d && d.recipientAgentId = recipient) =
      (newDeliveries c m).filter fun d => d.recipientAgentId = recipient :=
    List.filter_congr fun d hd => by rw [kept.new d hd, Bool.true_and]
  have hold : c.store.teamDeliveries.filter (fun d => keptDelivery c'.store d && d.recipientAgentId = recipient) =
      c.store.teamDeliveries.filter fun d => keptDelivery c.store d && d.recipientAgentId = recipient :=
    List.filter_congr fun d hd => by rw [kept.stored d hd]
  rw [← hnew]
  unfold storedQueue
  rw [landed.deliveries]
  refine listing_append (fun _ _ => storedBefore_total _ _ _ _) (fun _ _ _ => storedBefore_trans)
    (deliveryBefore_antisymm (upsert_all _ _ h.keys.deliveries).1) ?_
    (newDeliveries_pairwise hm recipient fun d hp => by simpa using (Bool.and_eq_true_iff.mp hp).2)
    fun a ha hp b hb => ?_
  · rw [← hold]
    refine filter_upsert_all_perm hids fun d hd hid => ?_
    -- a stored delivery with a new id is not kept, for the id is not taken in memory
    by_contra hp
    simp only [Bool.not_eq_false, Bool.and_eq_true] at hp
    obtain ⟨d', hd', he⟩ := List.mem_map.mp hid
    have hmem := h.hydrated.deliveries d hd ((kept.stored d hd).symm.trans hp.1)
    exact (deliveriesFrom_mem hd').2.1 (he ▸ hmem)
  · obtain ⟨hb, hpb⟩ := List.mem_filter.mp hb
    simp only [Bool.and_eq_true, decide_eq_true_eq] at hp hpb
    refine hlast b hb a (mem_listing.mpr ⟨ha, ?_⟩)
    simpa [hp.1, hpb.2] using hp.2

theorem InStep.messageCreated (h : InStep c) {m : MessageDraft} (hm : m.Proper) (hlands : messageLands c m = true)
    (hcreates : creates c m = true) (landed : Landed c m c') : InStep c' := by
  simp only [messageLands, hcreates, Bool.not_true, Bool.false_or, Bool.and_eq_true, List.all_eq_true,
    decide_eq_true_eq, Bool.or_eq_true, Bool.not_eq_true'] at hlands
  obtain ⟨⟨⟨-, hnamed⟩, hmessageLast⟩, hdeliveryLast⟩ := hlands
  have kept : Kept c m c' := h.kept landed hnamed
  have hids : ((newDeliveries c m).map TeamDeliveryRecord.id).Nodup := deliveriesFrom_nodup _ _ _ _
  obtain ⟨⟨hteams, hmessages, hlists⟩, hqueues, hlookup, hmem⟩ :=
    addMessage_spec m (newMessage c m) (newDeliveries c m) c.state
  rw [← landed.state] at hteams hmessages hlists hqueues hlookup hmem
  obtain ⟨hnodup, hrows⟩ := upsert_all (newDeliveries c m) c.store.teamDeliveries h.keys.deliveries
  rw [← landed.deliveries] at hnodup hrows
  refine ⟨⟨fun teamId => ?_, fun id => ?_, fun d hd hk => ?_, fun teamId => ?_, fun recipient => ?_⟩,
    fun teamId team hl => ?_, fun id d hl => ?_, ?_, hnodup⟩
  · rw [hteams, kept.live]
    exact h.hydrated.teams teamId
  · rw [hmessages, kept.messages, Bool.or_eq_true, decide_eq_true_eq, ← h.hydrated.messages, eq_comm]
    exact AList.mem_insert _
  · refine hmem d.id ?_
    rcases hrows d hd with hd | ⟨hd, -⟩
    · exact .inr (List.mem_map_of_mem hd)
    · exact .inl (h.hydrated.deliveries d hd ((kept.stored d hd).symm.trans hk))
  · rw [hlists, h.storedMessages_landed landed kept hmessageLast, queueOf_pushAt, List.map_append, h.hydrated.lists]
    by_cases he : teamId = m.teamId
    · rw [if_pos he, if_pos he]
      rfl
    · rw [if_neg he, if_neg he]
      exact (List.append_nil _).symm
  · rw [hqueues, h.storedQueue_landed hm landed kept hdeliveryLast, List.map_append, h.hydrated.queues]
  · rw [hteams] at hl
    exact h.live teamId team hl
  · rw [landed.deliveries]
    rcases hlookup id d hl with hl | ⟨hd, hid⟩
    · obtain ⟨hid, hplace⟩ := h.deliveries id d hl
      refine ⟨hid, ?_⟩
      obtain ⟨row, hrow, he⟩ := List.mem_map.mp hplace
      rw [← he]
      refine List.mem_map_of_mem (mem_upsert_all hids (.inr ⟨hrow, fun hnew => ?_⟩))
      obtain ⟨d', hd', hid'⟩ := List.mem_map.mp hnew
      have hrowid : row.id = id := (congrArg Place.id he).trans hid
      exact (deliveriesFrom_mem hd').2.1 (by rw [hid', hrowid]; exact Table.lookup_isSome hl)
    · exact ⟨hid, List.mem_map_of_mem (mem_upsert_all hids (.inl hd))⟩
  · rw [landed.messages]
    exact nodup_upsert (fun _ => rfl) h.keys.messages

/-! ## Every run -/

theorem InStep.begun (h : InStep c) {i : ℕ} {op : Operation} {after : Option TeamCall} {s : Service}
    (hcond : comesLast (.start i op) s = true) (hb : Begun c op after c') : InStep c' := by
  cases hb with
  | refused | creates | joins | sends | resumes | recovers => exact h
  | reteams reteamed => exact h.reteamed reteamed
  | deletes => cases hcond
  | retries retried =>
    cases retried with
    | refused => exact h
    | retried _ found _ _ sets => exact h.putDelivery found sets rfl
  | cancels cancelled => exact h.cancelled cancelled

theorem inStep_step {s s' : Service} {l : Label} (h : InStep s.comms) (hd : ProperDrafts s)
    (hcond : comesLast l s = true)
    (hs : Stepped s l s') : InStep s'.comms := by
  cases hs with
  | runtime => exact ⟨h.hydrated, h.live, h.deliveries, h.keys⟩
  | begun _ begun => exact h.begun hcond begun
  | @moved i answer call after c' found _ moved =>
    simp only [comesLast, found] at hcond
    cases moved with
    | stopped | checked | joinChecked | admitted | idle | passedBy | recovers => exact h
    | created sets store => exact h.teamCreated hcond sets.state store
    | membersStored sets =>
      refine h.keep (sets.wrote.sameRows h.keys fun x hx => ?_) (sets.state ▸ .refl _)
      cases x with
      | member | event => trivial
      | team | memberGone | message | delivery => exact hx.elim
    | joined reteamed => exact h.reteamed reteamed
    | @sent m r _ result =>
      have hlands : creates s.comms m = true → writeFails s.comms m = false ∧
          Store.messageWithKeyOf (newMessage s.comms m) s.comms.store.teamMessages = none := by
        intro hcreates
        simp only [messageLands, hcreates, Bool.not_true, Bool.false_or, Bool.and_eq_true, Bool.not_eq_true',
          Option.isNone_iff_eq_none] at hcond
        exact hcond.1.1.1
      have hout := (createMessage_lands hlands).out
      rw [result] at hout
      rcases hout with rfl | ⟨hcreates, landed⟩
      · exact h
      · exact h.messageCreated (hd i _ m found rfl) hcond hcreates landed
    | ran ran => exact h.ran ran

theorem inStep_new {runtime : Manager} {store : Store} {config : RuntimeTeamCommsConfig} {nonce : String}
    (hkeys : PrimaryKeys store) : InStep (Comms.new runtime store config nonce) := by
  have hrows := fromRows_hydrate store
  refine ⟨hydrated_hydrate store, live_hydrate store, fun id d hl => ?_, hkeys⟩
  obtain ⟨hd, hid⟩ := hrows.deliveries id d hl
  exact ⟨hid, List.mem_map_of_mem hd⟩

/-- In every run whose steps create what comes last in its lists, from any store. -/
theorem queue_order_survives {runtime : Manager} {store : Store} {config : RuntimeTeamCommsConfig} {nonce : String}
    {s : Service} (hkeys : PrimaryKeys store) (hr : Reaches Service.step (fun l s => comesLast l s = true)
      (Service.start (Comms.new runtime store config nonce)) s) : SameOrder s.comms := by
  have hinv : InStep s.comms ∧ ProperDrafts s := by
    refine hr.invariant (I := fun s => InStep s.comms ∧ ProperDrafts s) ⟨inStep_new hkeys, properDrafts_start _⟩
      fun l t u h hcond hs => ?_
    have hstepped := step_stepped hs
    exact ⟨inStep_step h.1 h.2 hcond hstepped, properDrafts_step h.2 hstepped⟩
  exact hinv.1.sameOrder

theorem primaryKeys_empty (faults : List Bool) : PrimaryKeys (Store.empty faults) := ⟨List.nodup_nil, List.nodup_nil⟩

/-- Call `i` sends a message, up to the run of `inject_delivery` it starts. -/
def sendsMessage (i : ℕ) : List Label :=
  [.start i (.sendDirect (directMessage none)), .goOn i .lock, .goOn i .lock]

theorem queue_order_survives_ticked : ∃ s : Service, queueOf s.comms.state "sess_codex_0_3" = ["dlv_1", "dlv_2"] ∧
    SameOrder s.comms := by
  obtain ⟨s, hs, he⟩ := exists_reaches_of_runAll Service.step comesLast
    (newTeam ++ sendsMessage 1 ++ [.runtime (.tick 1)] ++ sendsMessage 2)
    (fun s => queueOf s.comms.state "sess_codex_0_3") ["dlv_1", "dlv_2"] (s := Service.fresh []) (by decide +kernel)
  exact ⟨s, he, queue_order_survives (primaryKeys_empty []) hs⟩

theorem not_queue_order_survives : ¬ ∀ (runtime : Manager) (store : Store) (config : RuntimeTeamCommsConfig)
    (nonce : String) (s : Service), PrimaryKeys store → Reaches Service.step (fun _ _ => True)
      (Service.start (Comms.new runtime store config nonce)) s → SameOrder s.comms := by
  intro hall
  obtain ⟨s, hs, he⟩ := exists_reaches_of_runAll Service.step (fun _ _ => true)
    (newTeam ++ (List.range 10).flatMap fun i => sendsMessage (i + 1))
    (fun s => decide (queueOf (TeamCommsState.hydrate s.comms.store) "sess_codex_0_3" =
      queueOf s.comms.state "sess_codex_0_3")) false (s := Service.fresh []) (by decide +kernel)
  have horder := hall _ _ _ _ s (primaryKeys_empty []) (hs.mono fun _ _ _ => trivial)
  exact of_decide_eq_false he (horder.queues _)

end Gooselake.TeamComms
