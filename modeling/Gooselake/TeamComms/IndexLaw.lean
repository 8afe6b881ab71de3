import Gooselake.TeamComms.Indexes
import Gooselake.TeamComms.Life
import Gooselake.TeamComms.Membership

/-!
The indexes over whole lives of the service. A restart files what the store still has; it agrees with itself unless an
id was given out twice, which a deletion and a restart make possible.
-/

namespace Gooselake.TeamComms

open Gooselake.Core Data Library Library.Exec
open Gooselake.Runtime (Manager)

set_option autoImplicit false

/-- The property: the indexes list what is live, and a deletion takes out one team and nothing else. -/
structure IndexLaw (c : Comms) : Prop where
  filing : Filing c.state
  purges : ∀ argument, (∃ e, (deleteTeam argument).result c = (.error e, c)) ∨
    ∃ teamId, normalizeNonEmpty argument "team_id" = .ok teamId ∧
      Purged teamId c.state ((deleteTeam argument).result c).2.state

/-- The stored messages of live teams have entries of their own, and no stored delivery of a live team names a message
of another. -/
def agrees (store : Store) : Bool :=
  decide ((store.teamMessages.filter fun m => liveTeam store m.teamId).filterMap idempotencyEntry).Nodup &&
    store.teamDeliveries.all fun d => !keptDelivery store d ||
      store.teamMessages.all fun m => m.id ≠ d.messageId || m.teamId = d.teamId

/-- What a restart finds in the store agrees. -/
def restartsAgree : Event → Service → Bool
  | .restart .., s => agrees s.comms.store
  | .serve _, _ => true

/-! ## The store -/

structure StoreLaw (store : Store) : Prop where
  keys : PrimaryKeys store
  teams : ∀ team ∈ store.teams, plain team.id

def Write.plainTeam : Write → Prop
  | .team r => plain r.id
  | _ => True

section

variable {s t : Store}

theorem StoreLaw.write {f : Store → Store} (h : StoreLaw s) (hf : StoreLaw (f s)) : StoreLaw (Store.write f s).2 := by
  unfold Store.write
  split
  · exact ⟨⟨h.keys.messages, h.keys.deliveries⟩, h.teams⟩
  · exact ⟨⟨hf.keys.messages, hf.keys.deliveries⟩, hf.teams⟩
  · exact ⟨⟨hf.keys.messages, hf.keys.deliveries⟩, hf.teams⟩

theorem StoreLaw.run (h : StoreLaw s) {x : Write} (hx : x.plainTeam) : StoreLaw (x.run s) := by
  cases x with
  | team r =>
    refine h.write ⟨⟨h.keys.messages, h.keys.deliveries⟩, fun team hteam => ?_⟩
    rcases mem_upsert hteam with hteam | rfl | ⟨old, -, -, rfl⟩
    · exact h.teams team hteam
    · exact hx
    · exact hx
  | member r => exact h.write ⟨⟨h.keys.messages, h.keys.deliveries⟩, h.teams⟩
  | memberGone teamId agentId => exact h.write ⟨⟨h.keys.messages, h.keys.deliveries⟩, h.teams⟩
  | message r =>
    refine h.write ?_
    split
    · exact ⟨⟨nodup_upsert (fun _ => rfl) h.keys.messages, h.keys.deliveries⟩, h.teams⟩
    · exact ⟨⟨nodup_upsert (fun _ => rfl) h.keys.messages, h.keys.deliveries⟩, h.teams⟩
  | delivery r => exact h.write ⟨⟨h.keys.messages, nodup_upsert (fun _ => rfl) h.keys.deliveries⟩, h.teams⟩
  | event e =>
    have hkeep : ∀ {α : Type} (g : Store → α), (∀ s faults, g { s with faults := faults } = g s) →
        (∀ s events, g { s with events := events } = g s) → g (Store.appendRuntimeEvent e s).2 = g s :=
      fun g hfaults hevents => Store.appendRuntimeEvent_keeps hfaults hevents e s
    have hmessages := hkeep Store.teamMessages (fun _ _ => rfl) fun _ _ => rfl
    have hdeliveries := hkeep Store.teamDeliveries (fun _ _ => rfl) fun _ _ => rfl
    have hteams := hkeep Store.teams (fun _ _ => rfl) fun _ _ => rfl
    refine ⟨⟨?_, ?_⟩, ?_⟩
    · change ((Store.appendRuntimeEvent e s).2.teamMessages.map TeamMessageRecord.id).Nodup
      rw [hmessages]
      exact h.keys.messages
    · change ((Store.appendRuntimeEvent e s).2.teamDeliveries.map TeamDeliveryRecord.id).Nodup
      rw [hdeliveries]
      exact h.keys.deliveries
    · change ∀ team ∈ (Store.appendRuntimeEvent e s).2.teams, plain team.id
      rw [hteams]
      exact h.teams

theorem StoreLaw.wrote {W : Write → Prop} (h : StoreLaw s) (hwrote : Wrote W s t) (hW : ∀ x, W x → x.plainTeam) :
    StoreLaw t := by
  induction hwrote with
  | refl => exact h
  | tail _ hx ih =>
    obtain ⟨x, hx, rfl⟩ := hx
    exact ih.run (hW x hx)

end

/-! ## Hydration -/

section

variable {s : TeamCommsState}

theorem hydrateMessage_eq {m : TeamMessageRecord} (hlive : m.teamId ∈ s.teams) :
    s.hydrateMessage m = fileMessage m s := by
  unfold TeamCommsState.hydrateMessage fileMessage idempotencyEntry
  rw [if_pos hlive]
  cases normalizedNonEmpty m.idempotencyKey <;> rfl

theorem Filed.hydrateMessages {rows : List TeamMessageRecord} (h : Filed s) (hteams : ∀ teamId ∈ s.teams, plain teamId)
    (hnodup : (rows.map TeamMessageRecord.id).Nodup) (hnew : ∀ m ∈ rows, m.id ∉ s.messages)
    (hentries : ((rows.filter fun m => m.teamId ∈ s.teams).filterMap idempotencyEntry).Nodup)
    (hfree : ∀ m ∈ rows, m.teamId ∈ s.teams → ∀ entry, idempotencyEntry m = some entry →
      s.idempotencyIndex.lookup entry = none) : Filed (rows.foldl TeamCommsState.hydrateMessage s) := by
  induction rows generalizing s with
  | nil => exact h
  | cons m rows ih =>
    rw [List.map_cons, List.nodup_cons] at hnodup
    rw [List.foldl_cons]
    by_cases hlive : m.teamId ∈ s.teams
    · rw [List.filter_cons_of_pos (by simpa using hlive)] at hentries
      rw [hydrateMessage_eq hlive]
      have hrest : ((rows.filter fun m => m.teamId ∈ s.teams).filterMap idempotencyEntry).Nodup :=
        hentries.sublist ((List.sublist_cons_self _ _).filterMap _)
      refine ih (h.fileMessage (hnew m List.mem_cons_self) (hteams _ hlive) (hfree m List.mem_cons_self hlive)) hteams
        hnodup.2 (fun m' hm' => ?_) hrest fun m' hm' hlive' entry hentry => ?_
      · rw [TeamComms.fileMessage, AList.mem_insert, not_or]
        refine ⟨fun he => hnodup.1 ?_, hnew m' (List.mem_cons_of_mem _ hm')⟩
        rw [← he]
        exact List.mem_map_of_mem hm'
      · have hfree' := hfree m' (List.mem_cons_of_mem _ hm') hlive' entry hentry
        have hmem : entry ∈ (rows.filter fun m => m.teamId ∈ s.teams).filterMap idempotencyEntry := by
          exact List.mem_filterMap.mpr ⟨m', List.mem_filter.mpr ⟨hm', decide_eq_true hlive'⟩, hentry⟩
        unfold TeamComms.fileMessage
        dsimp only
        cases hentry' : idempotencyEntry m with
        | none => exact hfree'
        | some entry' =>
          rw [List.filterMap_cons_some hentry', List.nodup_cons] at hentries
          have hne : entry ≠ entry' := fun he => hentries.1 (he ▸ hmem)
          rw [Table.lookup_insert, if_neg hne]
          exact hfree'
    · have hstep : s.hydrateMessage m = s := by simp [TeamCommsState.hydrateMessage, hlive]
      rw [hstep]
      rw [List.filter_cons_of_neg (by simpa using hlive)] at hentries
      exact ih h hteams hnodup.2 (fun m' hm' => hnew m' (List.mem_cons_of_mem _ hm')) hentries
        fun m' hm' => hfree m' (List.mem_cons_of_mem _ hm')

theorem hydrateMessages_rows (rows : List TeamMessageRecord) {id : String} {m : TeamMessageRecord}
    (hl : (rows.foldl TeamCommsState.hydrateMessage s).messages.lookup id = some m) :
    s.messages.lookup id = some m ∨ (m ∈ rows ∧ m.id = id) := by
  induction rows generalizing s with
  | nil => exact .inl hl
  | cons row rows ih =>
    rcases ih hl with hl | ⟨hm, hid⟩
    · by_cases hlive : row.teamId ∈ s.teams
      · rw [hydrateMessage_eq hlive, fileMessage, Table.lookup_insert] at hl
        split at hl
        · next he =>
          obtain rfl := Option.some.inj hl
          exact .inr ⟨List.mem_cons_self, he.symm⟩
        · exact .inl hl
      · have hstep : s.hydrateMessage row = s := by simp [TeamCommsState.hydrateMessage, hlive]
        rw [hstep] at hl
        exact .inl hl
    · exact .inr ⟨List.mem_cons_of_mem _ hm, hid⟩

theorem Filed.hydrateDeliveries {rows : List TeamDeliveryRecord} (h : Filed s)
    (hnodup : (rows.map TeamDeliveryRecord.id).Nodup) (hnew : ∀ d ∈ rows, d.id ∉ s.deliveries)
    (hbelongs : ∀ d ∈ rows, d.teamId ∈ s.teams → ∀ m, s.messages.lookup d.messageId = some m → m.teamId = d.teamId) :
    Filed (rows.foldl TeamCommsState.hydrateDelivery s) := by
  induction rows generalizing s with
  | nil => exact h
  | cons d rows ih =>
    rw [List.map_cons, List.nodup_cons] at hnodup
    rw [List.foldl_cons]
    by_cases hkept : d.teamId ∈ s.teams ∧ d.messageId ∈ s.messages
    · have hstep : s.hydrateDelivery d = s.addDelivery d := if_pos hkept
      obtain ⟨m, hm⟩ := Option.isSome_iff_exists.mp (AList.lookup_isSome.mpr hkept.2)
      have hteam := hbelongs d List.mem_cons_self hkept.1 m hm
      rw [hstep]
      refine ih (h.addDelivery (hnew d List.mem_cons_self) ⟨m, hm, hteam⟩) hnodup.2 (fun d' hd' => ?_)
        fun d' hd' => hbelongs d' (List.mem_cons_of_mem _ hd')
      rw [TeamCommsState.addDelivery, AList.mem_insert, not_or]
      refine ⟨fun he => hnodup.1 ?_, hnew d' (List.mem_cons_of_mem _ hd')⟩
      rw [← he]
      exact List.mem_map_of_mem hd'
    · have hstep : s.hydrateDelivery d = s := if_neg hkept
      rw [hstep]
      exact ih h hnodup.2 (fun d' hd' => hnew d' (List.mem_cons_of_mem _ hd'))
        fun d' hd' => hbelongs d' (List.mem_cons_of_mem _ hd')

theorem agrees_entries {store : Store} (h : agrees store = true) :
    ((store.teamMessages.filter fun m => liveTeam store m.teamId).filterMap idempotencyEntry).Nodup :=
  of_decide_eq_true (Bool.and_eq_true_iff.mp h).1

theorem agrees_teams {store : Store} (h : agrees store = true) {d : TeamDeliveryRecord} (hd : d ∈ store.teamDeliveries)
    (hkept : keptDelivery store d = true) {m : TeamMessageRecord} (hm : m ∈ store.teamMessages) (hid : m.id = d.messageId) :
    m.teamId = d.teamId := by
  have hall := List.all_eq_true.mp (Bool.and_eq_true_iff.mp h).2 d hd
  rw [hkept, Bool.not_true, Bool.false_or] at hall
  have hteam := List.all_eq_true.mp hall m hm
  simpa [hid] using hteam

theorem filed_hydrate {store : Store} (hlaw : StoreLaw store) (hagrees : agrees store = true) :
    Filed (TeamCommsState.hydrate store) := by
  have hbare := bare_hydrateTeams store
  have hteams := mem_hydrateTeams store
  have hstart : Filed (store.teamMembers.foldl TeamCommsState.hydrateMember
      (store.teams.foldl TeamCommsState.hydrateTeam .empty)) := by
    have hempty : Filed TeamCommsState.empty :=
      ⟨⟨.empty _, .empty _, .empty _, .empty _, .empty _⟩, fun _ _ hl => (by cases hl), fun _ _ hl => (by cases hl),
        fun _ _ hl => (by cases hl)⟩
    refine List.foldlRecOn _ _ (List.foldlRecOn _ _ hempty fun s hs team _ => ?_) fun s hs member _ => ?_
    · unfold TeamCommsState.hydrateTeam
      split
      · exact hs.same ⟨rfl, rfl, rfl, rfl, rfl, rfl, fun _ => rfl⟩
      · exact hs
    · unfold TeamCommsState.hydrateMember
      split
      · exact hs.same ⟨rfl, rfl, rfl, rfl, rfl, rfl, fun _ => rfl⟩
      · exact hs
  obtain ⟨hmembers, hbare⟩ := TeamCommsState.hydrateMembers_teams store.teamMembers hbare
  simp only [← hmembers] at hteams
  unfold TeamCommsState.hydrate
  dsimp only
  generalize store.teamMembers.foldl TeamCommsState.hydrateMember
    (store.teams.foldl TeamCommsState.hydrateTeam .empty) = s₀ at hteams hbare hstart
  have hplain : ∀ teamId ∈ s₀.teams, plain teamId := by
    intro teamId hmem
    obtain ⟨team, hteam, he⟩ := List.any_eq_true.mp ((hteams teamId).mp hmem)
    have hid : team.id = teamId := by simpa using (Bool.and_eq_true_iff.mp he).1
    exact hid ▸ hlaw.teams team hteam
  have hsorted := List.perm_insertionSort (fun a b : TeamMessageRecord => storedBefore a.createdAt a.id b.createdAt b.id)
    store.teamMessages
  generalize store.teamMessages.insertionSort (fun a b => storedBefore a.createdAt a.id b.createdAt b.id) = rows at hsorted
  have hmessages : Filed (rows.foldl TeamCommsState.hydrateMessage s₀) := by
    refine hstart.hydrateMessages hplain ?_ (fun m _ => ?_) ?_ fun m _ _ entry _ => ?_
    · exact (hsorted.map _).nodup_iff.mpr hlaw.keys.messages
    · rw [hbare.messages]
      exact AList.notMem_empty _
    · rw [((hsorted.filter _).filterMap _).nodup_iff]
      refine Eq.mp (congrArg List.Nodup (congrArg (List.filterMap idempotencyEntry) ?_)) (agrees_entries hagrees)
      refine List.filter_congr fun m _ => ?_
      rw [Bool.eq_iff_iff, decide_eq_true_eq, hteams]
    · cases hl : s₀.idempotencyIndex.lookup entry with
      | none => rfl
      | some id =>
        obtain ⟨m', hl', -⟩ := hstart.indexed.idempotency.live entry id hl
        rw [hbare.messages, AList.lookup_empty] at hl'
        cases hl'
  have hrows : ∀ id m, (rows.foldl TeamCommsState.hydrateMessage s₀).messages.lookup id = some m →
      m ∈ store.teamMessages ∧ m.id = id := by
    intro id m hl
    rcases hydrateMessages_rows rows hl with hl | ⟨hm, hid⟩
    · rw [hbare.messages, AList.lookup_empty] at hl
      cases hl
    · exact ⟨hsorted.mem_iff.mp hm, hid⟩
  obtain ⟨ht₁, hd₁, -, hm₁, -⟩ := TeamCommsState.hydrateMessages_spec (s := s₀) rows
  have hdeliveries := List.perm_insertionSort
    (fun a b : TeamDeliveryRecord => storedBefore a.createdAt a.id b.createdAt b.id) store.teamDeliveries
  refine hmessages.hydrateDeliveries ?_ (fun d _ => ?_) fun d hd hteam m hl => ?_
  · exact (hdeliveries.map _).nodup_iff.mpr hlaw.keys.deliveries
  · rw [hd₁, hbare.deliveries]
    exact AList.notMem_empty _
  · obtain ⟨hm, hid⟩ := hrows _ m hl
    refine agrees_teams hagrees (hdeliveries.mem_iff.mp hd) ?_ hm hid
    rw [ht₁, hteams] at hteam
    have hlive : liveTeam store m.teamId = true := by
      have hmem := (hm₁ d.messageId).mp (Table.lookup_isSome hl)
      rw [hbare.messages] at hmem
      obtain ⟨m', hm', hlive, hid'⟩ := hmem.resolve_left (AList.notMem_empty _)
      obtain rfl := List.inj_on_of_nodup_map hlaw.keys.messages (hsorted.mem_iff.mp hm') hm (hid'.trans hid.symm)
      exact (hteams _).mp hlive
    rw [keptDelivery, hteam, Bool.true_and, keptMessage]
    exact List.any_eq_true.mpr ⟨m, hm, by simp [hid, hlive]⟩

end

/-! ## Pieces -/

structure Orderly (c : Comms) : Prop where
  store : StoreLaw c.store
  filed : Filed c.state
  teams : ∀ teamId team, c.state.teams.lookup teamId = some team → team.id = teamId ∧ plain teamId

section

variable {c c' : Comms}

theorem plain_numbered (n : ℕ) : plain (numbered "team" n) := by
  unfold plain
  rw [toList_numbered, List.mem_append, List.mem_cons, not_or, not_or]
  refine ⟨by decide, by decide, fun hdigit => ?_⟩
  exact absurd (isDigit_of_mem hdigit) (by decide)

theorem Orderly.sets (h : Orderly c) {W : Write → Prop} {s : TeamCommsState} (sets : Sets W c c' s)
    (hW : ∀ x, W x → x.plainTeam) (hfiled : Filed s)
    (hteams : ∀ teamId team, s.teams.lookup teamId = some team → team.id = teamId ∧ plain teamId) : Orderly c' := by
  refine ⟨h.store.wrote sets.wrote hW, ?_, ?_⟩
  · rw [sets.state]
    exact hfiled
  · rw [sets.state]
    exact hteams

theorem Orderly.keep (h : Orderly c) {W : Write → Prop} {s : TeamCommsState} (sets : Sets W c c' s)
    (hW : ∀ x, W x → x.plainTeam) (same : SameFiles c.state s) (hteams : s.teams = c.state.teams) : Orderly c' :=
  h.sets sets hW (h.filed.same same) (hteams ▸ h.teams)

theorem plainTeam_of_isEvent {x : Write} (h : x.isEvent) : x.plainTeam := by
  cases x <;> trivial

theorem plainTeam_of_delivers {p : TeamDeliveryRecord → Prop} {x : Write} (h : x.delivers p) : x.plainTeam := by
  cases x <;> trivial

theorem plainTeam_of_storesMembers {x : Write} (h : x.storesMembers) : x.plainTeam := by
  cases x <;> trivial

theorem plainTeam_of_creates {message : TeamMessageRecord} {ds : List TeamDeliveryRecord} {x : Write}
    (h : x.creates message ds) : x.plainTeam := by
  cases x <;> trivial

theorem plainTeam_of_changesTeam {team : TeamRecord} (hteam : plain team.id) {x : Write} (h : x.changesTeam team) :
    x.plainTeam := by
  cases x with
  | team r =>
    change plain r.id
    rw [h.1]
    exact hteam
  | member | memberGone | event => trivial
  | message | delivery => exact h.elim

theorem plainTeam_of_deletesTeam {teamId : String} (hteam : plain teamId) {p : TeamDeliveryRecord → Prop} {x : Write}
    (h : x.deletesTeam teamId p) : x.plainTeam := by
  cases x with
  | team r =>
    change plain r.id
    rw [h]
    exact hteam
  | delivery | event => trivial
  | member | memberGone | message => exact h.elim

theorem Orderly.transitioned (h : Orderly c) {x : Change} {r : Except RuntimeError Written}
    (wrote : Transitioned c x r c') : Orderly c' := by
  cases wrote with
  | refused | already | missing | lost => exact h
  | written _ found _ sets => exact h.keep sets (fun _ => plainTeam_of_delivers) (.put found rfl) rfl

theorem Orderly.ran (h : Orderly c) {r : Inject} {result : Except RuntimeError (Inject ⊕ TeamDeliveryRecord)}
    (ran : Ran c r result c') : Orderly c' := by
  cases ran with
  | missing | waits | holds => exact h
  | goes _ staged =>
    cases staged with
    | missing | queued | unqueued | blocked | stillBlocked | unpoliced | cleared | changes | interrupts | injects
    | unrecorded => exact h
    | interrupting | interrupted | uninterrupted | sending | sent | rejected => exact ⟨h.store, h.filed, h.teams⟩
    | failed wrote | unchanged wrote | changed wrote => exact h.transitioned wrote
    | completed quiet => exact h.keep quiet (fun _ => plainTeam_of_isEvent) (.refl _) rfl
    | recorded found sets => exact h.keep sets (fun _ => plainTeam_of_delivers) (.put found rfl) rfl

theorem Orderly.reteamed (h : Orderly c) (reteamed : Reteamed c c') : Orderly c' := by
  rcases reteamed with rfl | ⟨teamId, team, team', members, found, ⟨hid, -⟩, sets⟩
  · exact h
  · obtain ⟨hteam, hplain⟩ := h.teams teamId team found
    refine h.sets sets (fun _ => plainTeam_of_changesTeam (hteam ▸ hplain)) ?_ fun k t hl => ?_
    · exact h.filed.same ⟨rfl, rfl, rfl, rfl, rfl, rfl, fun _ => rfl⟩
    · dsimp only at hl
      rw [Table.lookup_insert] at hl
      split at hl
      · next he =>
        obtain rfl := Option.some.inj hl
        exact ⟨hid.trans (hteam.trans he.symm), he ▸ hplain⟩
      · exact h.teams k t hl

theorem Orderly.teamCreated (h : Orderly c) {d : TeamDraft} (sets : Sets (Write.changesTeam (d.team (newTeamId c)))
    { c with nextTeamId := nextFree "team" c.state.teams c.nextTeamId + 1 } c' (withTeam d (newTeamId c) c.state)) :
    Orderly c' := by
  have hplain : plain (newTeamId c) := plain_numbered _
  have hc : Orderly { c with nextTeamId := nextFree "team" c.state.teams c.nextTeamId + 1 } := ⟨h.store, h.filed, h.teams⟩
  refine hc.sets sets (fun _ => plainTeam_of_changesTeam hplain) ?_ fun k t hl => ?_
  · exact h.filed.same ⟨rfl, rfl, rfl, rfl, rfl, rfl, fun _ => rfl⟩
  · rw [withTeam, Table.lookup_insert] at hl
    split at hl
    · next he =>
      obtain rfl := Option.some.inj hl
      exact ⟨he.symm, he ▸ hplain⟩
    · exact h.teams k t hl

theorem Orderly.deleted (h : Orderly c) {argument : String} {r : Except RuntimeError Unit}
    (deleted : TeamDeleted c argument r c') : Orderly c' := by
  cases deleted with
  | refused => exact h
  | @deleted teamId team _ _ normal found sets =>
    obtain ⟨hteam, hplain⟩ := h.teams teamId team found
    refine h.sets sets (fun _ => plainTeam_of_deletesTeam (hteam ▸ hplain)) (h.filed.removeTeam hplain) fun k t hl => ?_
    change (c.state.teams.erase teamId).lookup k = some t at hl
    rw [Table.lookup_erase] at hl
    split at hl
    · cases hl
    · exact h.teams k t hl

theorem Orderly.cancelled (h : Orderly c) {argument : String} {r : Except RuntimeError (List TeamDeliveryRecord)}
    (cancelled : MessageCancelled c argument r c') : Orderly c' := by
  cases cancelled with
  | refused => exact h
  | @cancelled messageId _ _ _ _ sets =>
    refine h.keep sets (fun _ => plainTeam_of_delivers) (.cancel _ fun d hd => ?_) (putDeliveries_teams rfl).1
    obtain ⟨id, -, hl⟩ := List.mem_filterMap.mp hd
    rw [h.filed.deliveryIds id d hl]
    exact hl

/-! ## A message is sent -/

theorem createMessage_new (m : MessageDraft) :
    After (createMessage m) c fun _ c' => c' = c ∨ existingAck c.state m = none := by
  cases hack : existingAck c.state m with
  | none => exact ⟨.inr rfl⟩
  | some ack =>
    rw [createMessage, after_bind_iff, after_get]
    dsimp only
    refine after_bind (checkMembers_after c.state m) (fun _ c' h => ?_) fun e c' h => .inl h.1
    obtain ⟨rfl, -⟩ := h
    rw [hack]
    exact (after_pure _ _ _).mpr (.inl rfl)

theorem idempotencyEntry_message {m : MessageDraft} (hm : m.Proper) (id : String) (now : ℤ) :
    idempotencyEntry (m.message id now) =
      m.idempotencyKey.map (idempotencyIndexKey m.teamId m.senderAgentId m.scope) :=
  congrArg (Option.map (idempotencyIndexKey m.teamId m.senderAgentId m.scope)) hm.idempotencyKey

theorem addMessage_eq {m : MessageDraft} (hm : m.Proper) (id : String) (now : ℤ) (ds : List TeamDeliveryRecord)
    (s : TeamCommsState) :
    addMessage m (m.message id now) ds s = ds.foldl TeamCommsState.addDelivery (fileMessage (m.message id now) s) := by
  unfold addMessage fileMessage
  rw [idempotencyEntry_message hm]
  cases m.idempotencyKey <;> rfl

theorem Orderly.messageCreated (h : Orderly c) {m : MessageDraft} (hm : m.Proper) {r : Except RuntimeError TeamMessageAck}
    (result : (createMessage m).result c = (r, c')) (created : MessageCreated c m r c') : Orderly c' := by
  have hnew := (createMessage_new (c := c) m).out
  rw [result] at hnew
  rcases hnew with rfl | hnew
  · exact h
  cases created with
  | refused | existing => exact h
  | @created k ds team _ _ found drafted sets =>
    have hc : Orderly { c with nextMessageId := nextFree "msg" c.state.messages c.nextMessageId + 1, nextDeliveryId := k } :=
      ⟨h.store, h.filed, h.teams⟩
    have hplain : plain m.teamId := (h.teams m.teamId team found).2
    have hid : newMessageId c ∉ c.state.messages := fun hmem =>
      nextFree_notMem "msg" c.state.messages c.nextMessageId (AList.mem_keys.mp hmem)
    have hmessage : Filed (fileMessage (m.message (newMessageId c) c.runtime.clock) c.state) := by
      refine h.filed.fileMessage hid hplain fun entry hentry => ?_
      rw [idempotencyEntry_message hm] at hentry
      obtain ⟨key, hkey, rfl⟩ := Option.map_eq_some_iff.mp hentry
      cases hl : c.state.idempotencyIndex.lookup (idempotencyIndexKey m.teamId m.senderAgentId m.scope key) with
      | none => rfl
      | some id =>
        obtain ⟨message, hmessage, -⟩ := h.filed.indexed.idempotency.live _ id hl
        rw [existingAck, hkey, Option.bind_eq_bind, Option.bind_some, hl, Option.bind_eq_bind, Option.bind_some,
          hmessage] at hnew
        cases hnew
    have hfiled : Filed (addMessage m (m.message (newMessageId c) c.runtime.clock) ds c.state) := by
      rw [addMessage_eq hm]
      refine hmessage.addDeliveries ?_ (fun d hd => (drafted.numbers.2 d hd).1) fun d hd => ?_
      · rw [drafted.eq]
        exact deliveriesFrom_nodup _ _ _ _
      · rw [drafted.eq] at hd
        obtain ⟨-, -, hmessageId, hteam⟩ := deliveriesFrom_mem hd
        refine ⟨m.message (newMessageId c) c.runtime.clock, ?_, hteam.symm⟩
        rw [hmessageId]
        exact AList.lookup_insert _
    have hteams : (addMessage m (m.message (newMessageId c) c.runtime.clock) ds c.state).teams = c.state.teams :=
      (addMessage_teams rfl).1
    exact hc.sets sets (fun _ => plainTeam_of_creates) hfiled (hteams ▸ h.teams)

end

/-! ## Every life -/

theorem Orderly.begun {c c' : Comms} (h : Orderly c) {op : Operation} {after : Option TeamCall} (begun : Begun c op after c') :
    Orderly c' := by
  cases begun with
  | refused | creates | joins | sends | resumes | recovers => exact h
  | reteams reteamed => exact h.reteamed reteamed
  | deletes deleted => exact h.deleted deleted
  | retries retried =>
    cases retried with
    | refused => exact h
    | retried _ found _ _ sets => exact h.keep sets (fun _ => plainTeam_of_delivers) (.put found rfl) rfl
  | cancels cancelled => exact h.cancelled cancelled

theorem Orderly.moved {c c' : Comms} (h : Orderly c) {call : TeamCall} {after : Option TeamCall}
    (hdraft : ∀ m, call.draft = some m → m.Proper) (moved : Moved c call after c') : Orderly c' := by
  cases moved with
  | stopped | checked | joinChecked | admitted | idle | passedBy | recovers => exact h
  | created sets => exact h.teamCreated sets
  | membersStored sets => exact h.keep sets (fun _ => plainTeam_of_storesMembers) (.refl _) rfl
  | joined reteamed => exact h.reteamed reteamed
  | sent result created => exact h.messageCreated (hdraft _ rfl) result created
  | ran ran => exact h.ran ran

theorem orderly_step {s s' : Service} {l : Label} (h : Orderly s.comms) (hd : ProperDrafts s) (hs : Stepped s l s') :
    Orderly s'.comms := by
  cases hs with
  | runtime => exact ⟨h.store, h.filed, h.teams⟩
  | begun _ begun => exact h.begun begun
  | moved found _ moved => exact h.moved (hd _ _ · found) moved

theorem orderly_new {runtime : Manager} {store : Store} {config : RuntimeTeamCommsConfig} {nonce : String}
    (hlaw : StoreLaw store) (hagrees : agrees store = true) : Orderly (Comms.new runtime store config nonce) := by
  refine ⟨hlaw, filed_hydrate hlaw hagrees, fun teamId team hl => ?_⟩
  have hid := (live_hydrate store teamId team hl).1
  have hlive := ((hydrated_hydrate store).teams teamId).mp (Table.lookup_isSome hl)
  obtain ⟨row, hrow, he⟩ := List.any_eq_true.mp hlive
  have hteam : row.id = teamId := by simpa using (Bool.and_eq_true_iff.mp he).1
  exact ⟨hid, hteam ▸ hlaw.teams row hrow⟩

theorem Orderly.law {c : Comms} (h : Orderly c) : IndexLaw c := by
  refine ⟨h.filed.indexed, fun argument => ?_⟩
  have hdeleted := (deleteTeam_after (c := c) argument).out
  generalize hresult : (deleteTeam argument).result c = result at hdeleted ⊢
  obtain ⟨r, c'⟩ := result
  cases hdeleted with
  | refused => exact .inl ⟨_, rfl⟩
  | @deleted teamId team _ _ normal found sets =>
    refine .inr ⟨teamId, normal, ?_⟩
    change Purged teamId c.state c'.state
    rw [sets.state]
    exact h.filed.purged (h.teams teamId team found).2

/-- In every life from an empty store whose restarts find a store that agrees with itself. -/
theorem indexes_lawful {runtime : Manager} {faults : List Bool} {config : RuntimeTeamCommsConfig} {nonce : String}
    {s : Service} (hr : Reaches Service.live (fun e s => restartsAgree e s = true)
      (Service.start (Comms.new runtime (Store.empty faults) config nonce)) s) : IndexLaw s.comms := by
  have hinv : Orderly s.comms ∧ ProperDrafts s := by
    refine hr.invariant (I := fun s => Orderly s.comms ∧ ProperDrafts s) ⟨?_, properDrafts_start _⟩ fun e t u h hcond hs => ?_
    · exact orderly_new ⟨primaryKeys_empty faults, fun team hteam => by cases hteam⟩ rfl
    · cases e with
      | serve l =>
        have hstepped := step_stepped hs
        exact ⟨orderly_step h.1 h.2 hstepped, properDrafts_step h.2 hstepped⟩
      | restart providers answers config nonce =>
        obtain rfl := Option.some.inj hs
        exact ⟨orderly_new h.1.store hcond, properDrafts_start _⟩
  exact hinv.1.law

/-! ## Repeated sends -/

/-- The property: no two live messages have one idempotency entry, and a send whose entry is taken changes nothing: it is
refused, or answered with the message that has it and the deliveries of that message. -/
structure SentOnce (c : Comms) : Prop where
  once : ∀ i j m m' entry, c.state.messages.lookup i = some m → c.state.messages.lookup j = some m' →
    idempotencyEntry m = some entry → idempotencyEntry m' = some entry → i = j
  again : ∀ (d : MessageDraft) (key i : String) (m : TeamMessageRecord), d.idempotencyKey = some key →
    c.state.messages.lookup i = some m →
    idempotencyEntry m = some (idempotencyIndexKey d.teamId d.senderAgentId d.scope key) →
    (∃ e, (createMessage d).result c = (.error e, c)) ∨ ∃ ds, (createMessage d).result c = (.ok ⟨m, ds, .existing⟩, c) ∧
      ∀ x, x ∈ ds ↔ ∃ k, c.state.deliveries.lookup k = some x ∧ x.messageId = i
  taken : ∀ (d : MessageDraft) (ack : TeamMessageAck), existingAck c.state d = some ack → ∃ key i,
    d.idempotencyKey = some key ∧ c.state.messages.lookup i = some ack.message ∧
    idempotencyEntry ack.message = some (idempotencyIndexKey d.teamId d.senderAgentId d.scope key)

theorem createMessage_existing {c : Comms} {d : MessageDraft} {ack : TeamMessageAck}
    (h : existingAck c.state d = some ack) :
    After (createMessage d) c fun r c' => c' = c ∧ (r = .ok ack ∨ ∃ e, r = .error e) := by
  rw [createMessage, after_bind_iff, after_get]
  refine after_bind (checkMembers_after c.state d) (fun _ c' hc => ?_) fun e c' hc => ⟨hc.1, .inr ⟨e, rfl⟩⟩
  rw [h, hc.1]
  exact (after_pure _ _ _).mpr ⟨rfl, .inl rfl⟩

theorem Filed.sentOnce {c : Comms} (h : Filed c.state) : SentOnce c := by
  have hindex := h.indexed.idempotency
  refine ⟨fun i j m m' entry hi hj he he' => ?_, fun d key i m hkey hi he => ?_, fun d ack hack => ?_⟩
  · exact Option.some.inj ((hindex.listed i m entry hi he).symm.trans (hindex.listed j m' entry hj he'))
  · have hack : existingAck c.state d = some ⟨m, ((c.state.messageDeliveryIds.lookup i).getD []).filterMap
        fun id => c.state.deliveries.lookup id, .existing⟩ := by
      simp [existingAck, hkey, hindex.listed i m _ hi he, hi]
    obtain ⟨hstate, hr | ⟨e, hr⟩⟩ := (createMessage_existing hack).out
    · refine .inr ⟨_, Prod.ext hr hstate, fun x => ?_⟩
      simp only [List.mem_filterMap, h.indexed.ofMessages.mem_iff]
      constructor
      · rintro ⟨k, ⟨x', hx', he⟩, hx⟩
        obtain rfl := Option.some.inj (hx'.symm.trans hx)
        exact ⟨k, hx, he⟩
      · rintro ⟨k, hx, he⟩
        exact ⟨k, ⟨x, hx, he⟩, hx⟩
    · exact .inl ⟨e, Prod.ext hr hstate⟩
  · simp only [existingAck, Option.bind_eq_bind, Option.bind_eq_some_iff] at hack
    obtain ⟨key, hkey, i, hi, m, hm, hack⟩ := hack
    obtain rfl := Option.some.inj hack
    obtain ⟨m', hm', he⟩ := hindex.live _ i hi
    obtain rfl := Option.some.inj (hm.symm.trans hm')
    exact ⟨key, i, hkey, hm, he⟩

theorem orderly_live {e : Event} {s s' : Service} (h : Orderly s.comms ∧ ProperDrafts s)
    (hagrees : restartsAgree e s = true) (hs : Service.live e s = some s') : Orderly s'.comms ∧ ProperDrafts s' := by
  cases e with
  | serve l =>
    have hstepped := step_stepped hs
    exact ⟨orderly_step h.1 h.2 hstepped, properDrafts_step h.2 hstepped⟩
  | restart providers answers config nonce =>
    obtain rfl := Option.some.inj hs
    exact ⟨orderly_new h.1.store hagrees, properDrafts_start _⟩

/-- In every life from an empty store whose restarts find a store that agrees with itself, whichever writes fail. -/
theorem sent_once {runtime : Manager} {faults : List Bool} {config : RuntimeTeamCommsConfig} {nonce : String}
    {s : Service} (hr : Reaches Service.live (fun e s => restartsAgree e s = true)
      (Service.start (Comms.new runtime (Store.empty faults) config nonce)) s) : SentOnce s.comms := by
  have hstart : Orderly (Comms.new runtime (Store.empty faults) config nonce) :=
    orderly_new ⟨primaryKeys_empty faults, fun team hteam => by cases hteam⟩ rfl
  exact (hr.invariant (I := fun s => Orderly s.comms ∧ ProperDrafts s) ⟨hstart, properDrafts_start _⟩
    fun _ _ _ h hcond hs => orderly_live h hcond hs).1.filed.sentOnce

/-! ## Two restarts -/

def threeMembers : TeamCreateRequest := ⟨"team", "sess_codex_0_1", ["sess_codex_0_3", "sess_codex_0_5"], none⟩

def secondTeam : List Label :=
  newTeam ++ newSession "sess_codex_0_5" ++ [.start 0 (.createTeam threeMembers)] ++ List.replicate 5 (.goOn 0 .lock) ++
    [.start 0 (.broadcast ⟨"team_2", "sess_codex_0_1", .arr [.str "hello"], [], "", "non_interrupting", false, none, none⟩)] ++
    List.replicate 3 (.goOn 0 .lock)

def restarts : Event :=
  .restart [.codex] ⟨fun _ => .ok (), fun r => .ok ⟨r.runtimeSessionId, "ref", none⟩⟩ ⟨true, 10⟩ "nonce"

theorem indexes_lawful_restarted : ∃ s : Service, s.comms.state.deliveries.keys = ["dlv_2", "dlv_1"] ∧ IndexLaw s.comms := by
  obtain ⟨s, hs, he⟩ := exists_reaches_of_runAll Service.live restartsAgree (secondTeam.map .serve ++ [restarts])
    (fun s => s.comms.state.deliveries.keys) ["dlv_2", "dlv_1"] (s := Service.fresh []) (by decide +kernel)
  exact ⟨s, he, indexes_lawful hs⟩

/-- One message is sent twice under one key, with a restart between. -/
def sentTwice : List Event :=
  let send : List Label := .start 0 (.sendDirect (directMessage (some "key"))) :: List.replicate 2 (.goOn 0 .lock)
  (newTeam ++ send).map .serve ++ [restarts] ++ send.map .serve

theorem sent_once_twice : ∃ s : Service, s.comms.state.messages.keys = ["msg_1"] ∧ SentOnce s.comms := by
  obtain ⟨s, hs, he⟩ := exists_reaches_of_runAll Service.live restartsAgree sentTwice
    (fun s => s.comms.state.messages.keys) ["msg_1"] (s := Service.fresh []) (by decide +kernel)
  exact ⟨s, he, sent_once hs⟩

def reusesIds : List Label :=
  [.start 0 (.sendDirect (directMessage none))] ++ List.replicate 2 (.goOn 0 .lock) ++
    [.start 1 (.createTeam threeMembers)] ++ List.replicate 5 (.goOn 1 .lock)

/-- The second team is deleted. After a restart its message id goes to the first team and its own id to a new team, and
one of its deliveries comes back with the next restart. -/
def returningDelivery : List Event :=
  secondTeam.map .serve ++ [.serve (.start 1 (.deleteTeam "team_2")), restarts] ++ reusesIds.map .serve ++
    [restarts, .serve (.start 0 (.deleteTeam "team_1"))]

theorem not_indexes_lawful : ¬ ∀ (runtime : Manager) (faults : List Bool) (config : RuntimeTeamCommsConfig)
    (nonce : String) (s : Service), Reaches Service.live (fun _ _ => True)
      (Service.start (Comms.new runtime (Store.empty faults) config nonce)) s → IndexLaw s.comms := by
  intro hall
  obtain ⟨s, hs, he⟩ := exists_reaches_of_runAll Service.live (fun _ _ => true) returningDelivery
    (fun s => (s.comms.state.teamDeliveryIds.lookup "team_2", s.comms.state.deliveries.lookup "dlv_2"))
    (some ["dlv_2"], none) (s := Service.fresh []) (by decide +kernel)
  obtain ⟨hlisted, hgone⟩ := Prod.mk.inj he
  have hlaw := (hall _ _ _ _ s (hs.mono fun _ _ _ => trivial)).filing
  obtain ⟨d, hd, -⟩ := (hlaw.ofTeams.live "team_2" ["dlv_2"] hlisted).2.2 "dlv_2" List.mem_cons_self
  rw [hgone] at hd
  cases hd

end Gooselake.TeamComms
