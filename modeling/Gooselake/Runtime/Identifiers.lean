import Gooselake.Runtime.Moves

/-!
The ids of sessions and turns under interleaving: an id is issued once, it is reserved by one call
until that call inserts its record, and every other session or turn that a call works with is in its map.
-/

namespace Gooselake.Runtime

open Gooselake.Core Data Library Library.Exec

set_option autoImplicit false

/-- An id with a sequence number below `n`. -/
def Issued (n : ℕ) (id : String) : Prop := ∃ stem k, k < n ∧ id = numbered stem k

theorem Issued.mono {n n' : ℕ} {id : String} (h : Issued n id) (hn : n ≤ n') : Issued n' id := by
  obtain ⟨stem, k, hk, rfl⟩ := h
  exact ⟨stem, k, by omega, rfl⟩

theorem not_issued_numbered (stem : String) (n : ℕ) : ¬ Issued n (numbered stem n) := by
  rintro ⟨stem', k, hk, h⟩
  have := numbered_inj h
  omega

def Stored (m : Manager) (id : String) : Prop :=
  (m.sessions.lookup id).isSome ∨ (m.turns.lookup id).isSome

theorem stored_session {m : Manager} {id : String} {r : SessionRecord} (h : m.sessions.lookup id = some r) :
    Stored m id := .inl (by rw [h]; rfl)

theorem stored_turn {m : Manager} {id : String} {r : TurnRecord} (h : m.turns.lookup id = some r) :
    Stored m id := .inr (by rw [h]; rfl)

theorem Sets.stored_iff {m m' : Manager} {ss : Table String SessionRecord} {ts : Table String TurnRecord}
    {as : Table String ApprovalRecord} {ws : List WaitTask} (h : Sets m m' ss ts as ws) (id : String) :
    Stored m' id ↔ (ss.lookup id).isSome ∨ (ts.lookup id).isSome := by
  rw [Stored, h.sessions, h.turns]

def Call.reserved : Call → Option String
  | .create c => some c.sessionId
  | .createInsert record => some record.id
  | .send c => some c.turnId
  | .sendInsertTurn w => some w.call.turnId
  | _ => none

/-- A session or a turn that a record, a wait or a call refers to. -/
inductive Ref where
  | session (id : String)
  | turn (id : String)
  deriving DecidableEq, Repr

/-- The session is in the session map, the turn in the turn map. -/
def Ref.In (m : Manager) : Ref → Prop
  | .session id => (m.sessions.lookup id).isSome
  | .turn id => (m.turns.lookup id).isSome

def Ref.id : Ref → String
  | .session id | .turn id => id

/-- The turn that the session takes for its active one. -/
def activeRef (r : SessionRecord) : List Ref := (r.activeTurnId.map Ref.turn).toList

def approvalRefs (a : ApprovalRecord) : List Ref := [.session a.sessionId, .turn a.turnId]

/-- What the maps and the wait tasks refer to. -/
inductive Refers (m : Manager) (r : Ref) : Prop where
  | active {key : String} {record : SessionRecord} (held : m.sessions.lookup key = some record)
      (names : r ∈ activeRef record)
  | approval {key : String} {record : ApprovalRecord} (held : m.approvals.lookup key = some record)
      (names : r ∈ approvalRefs record)
  | wait {task : WaitTask} (held : task ∈ m.waits) (names : r = .session task.sessionId ∨ r = .turn task.turnId)

/-- What a call refers to, apart from the id it has reserved. -/
def Call.uses : Call → List Ref
  | .create _ => []
  | .createInsert record => activeRef record
  | .close sessionId _ | .respondLock _ sessionId _ _ => [.session sessionId]
  | .closeInsert sessionId record _ | .resumeInsert sessionId record => .session sessionId :: activeRef record
  | .resume c => .session c.sessionId :: activeRef c.session
  | .send c => [.session c.sessionId]
  | .sendInsertTurn w => [.session w.call.sessionId]
  | .sendInsertSession w => [.session w.call.sessionId, .turn w.call.turnId]
  | .sendInsertApproval approval => approvalRefs approval
  | .respond _ c => .session c.sessionId :: approvalRefs c.existing
  | .respondApply c resolved => .session c.sessionId :: approvalRefs resolved
  | .interrupt sessionId turnId | .failSession sessionId turnId _ => [.session sessionId, .turn turnId]

/-- Ids are issued before they are stored or reserved, a reserved one is new and has one owner, and nothing refers
to a session or a turn that is not there. -/
structure Identified (s : Server) : Prop where
  storedIssued : ∀ id, Stored s.manager id → Issued s.manager.nextId id
  reservedIssued : ∀ i c id, s.calls.lookup i = some c → c.reserved = some id → Issued s.manager.nextId id
  reservedFresh : ∀ i c id, s.calls.lookup i = some c → c.reserved = some id → ¬ Stored s.manager id
  reservedOnce : ∀ i j c c' id, s.calls.lookup i = some c → s.calls.lookup j = some c' →
    c.reserved = some id → c'.reserved = some id → i = j
  usesIn : ∀ i c r, s.calls.lookup i = some c → r ∈ c.uses → r.In s.manager
  refersIn : ∀ r, Refers s.manager r → r.In s.manager

theorem identified_start (providers : List ProviderKind) (faults : List Bool) :
    Identified (Server.start (Manager.empty providers faults)) := by
  constructor
  case refersIn =>
    intro r h
    cases h with
    | active held => simp [Server.start, Manager.empty] at held
    | approval held => simp [Server.start, Manager.empty] at held
    | wait held => simp [Server.start, Manager.empty] at held
  all_goals
    intros
    simp_all [Server.start, Manager.empty, Stored]

/-! ## Steps -/

/-- What a move does to the ids: stored ids stay, and only the id the call had reserved is added;
the id the call reserves afterwards is the same, not inserted yet, or a new one. -/
structure KeepsIds (m : Manager) (before after : Option Call) (m' : Manager) : Prop where
  next : m.nextId ≤ m'.nextId
  keeps : ∀ r : Ref, r.In m → r.In m'
  grows : ∀ id, Stored m' id → Stored m id ∨ ∃ c, before = some c ∧ c.reserved = some id
  reserves : ∀ c id, after = some c → c.reserved = some id →
    ((∃ b, before = some b ∧ b.reserved = some id) ∧ (Stored m' id → Stored m id)) ∨
      ((∃ stem, id = numbered stem m.nextId) ∧ m.nextId < m'.nextId ∧ before = none)
  uses : ∀ c r, after = some c → r ∈ c.uses → r.In m'
  refers : ∀ r, Refers m' r → r.In m'

theorem Identified.move {s : Server} {i : ℕ} {before after : Option Call} {m' : Manager} (h : Identified s)
    (hi : s.calls.lookup i = before) (hk : KeepsIds s.manager before after m') :
    Identified ⟨m', Server.put s.calls i after⟩ := by
  have hstored : ∀ id, Stored m' id → Issued m'.nextId id := by
    intro id hid
    rcases hk.grows id hid with hs | ⟨c, hc, hr⟩
    · exact (h.storedIssued id hs).mono hk.next
    · exact (h.reservedIssued i c id (hi.trans hc) hr).mono hk.next
  -- a new id differs from every stored and every reserved one
  have hnew : ∀ stem, ¬ Stored s.manager (numbered stem s.manager.nextId) ∧
      ∀ j c, s.calls.lookup j = some c → c.reserved ≠ some (numbered stem s.manager.nextId) :=
    fun stem => ⟨fun hs => not_issued_numbered _ _ (h.storedIssued _ hs),
      fun j c hc hr => not_issued_numbered _ _ (h.reservedIssued j c _ hc hr)⟩
  -- the calls other than `i` reserve what they did, and `i` has inserted none of it
  have hother : ∀ j c id, j ≠ i → s.calls.lookup j = some c → c.reserved = some id → ¬ Stored m' id := by
    intro j c id hj hc hr hs
    rcases hk.grows id hs with hs | ⟨b, hb, hbr⟩
    · exact h.reservedFresh j c id hc hr hs
    · exact hj (h.reservedOnce j i c b id hc (hi.trans hb) hr hbr)
  constructor
  · exact hstored
  · intro j c id hj hr
    rw [Server.lookup_put] at hj
    split at hj
    · rcases hk.reserves c id hj hr with ⟨⟨b, hb, hbr⟩, -⟩ | ⟨⟨stem, rfl⟩, hlt, -⟩
      · exact (h.reservedIssued i b id (hi.trans hb) hbr).mono hk.next
      · exact ⟨stem, _, hlt, rfl⟩
    · exact (h.reservedIssued j c id hj hr).mono hk.next
  · intro j c id hj hr
    rw [Server.lookup_put] at hj
    split at hj
    · rcases hk.reserves c id hj hr with ⟨⟨b, hb, hbr⟩, hst⟩ | ⟨⟨stem, rfl⟩, -, hnone⟩
      · exact fun hs => h.reservedFresh i b id (hi.trans hb) hbr (hst hs)
      · intro hs
        rcases hk.grows _ hs with hs | ⟨b, hb, -⟩
        · exact (hnew stem).1 hs
        · rw [hnone] at hb
          cases hb
    · next hne => exact hother j c id hne hj hr
  · -- two calls reserve one id only if they are the same call
    have hone : ∀ j c c' id, j ≠ i → s.calls.lookup j = some c → after = some c' →
        c.reserved = some id → c'.reserved ≠ some id := by
      intro j c c' id hj hc hc' hr hr'
      rcases hk.reserves c' id hc' hr' with ⟨⟨b, hb, hbr⟩, -⟩ | ⟨⟨stem, rfl⟩, -, -⟩
      · exact hj (h.reservedOnce j i c b id hc (hi.trans hb) hr hbr)
      · exact (hnew stem).2 j c hc hr
    intro j k c c' id hj hk' hr hr'
    rw [Server.lookup_put] at hj hk'
    by_cases ej : j = i <;> by_cases ek : k = i
    · exact ej.trans ek.symm
    · rw [if_pos ej] at hj
      rw [if_neg ek] at hk'
      exact absurd hr (hone k c' c id ek hk' hj hr')
    · rw [if_neg ej] at hj
      rw [if_pos ek] at hk'
      exact absurd hr' (hone j c c' id ej hj hk' hr)
    · rw [if_neg ej] at hj
      rw [if_neg ek] at hk'
      exact h.reservedOnce j k c c' id hj hk' hr hr'
  · intro j c r hj hu
    rw [Server.lookup_put] at hj
    split at hj
    · exact hk.uses c r hj hu
    · exact hk.keeps r (h.usesIn j c r hj hu)
  · exact hk.refers

/-! ## Every move keeps them -/

section

variable {s : Server} {before after : Option Call} {m' : Manager}

/-- The id that a call at `c` is going to insert, if there is one. -/
def reservedAt (c : Option Call) : Option String := c.bind Call.reserved

def usedAt (c : Option Call) : List Ref := (c.map Call.uses).getD []

theorem Identified.used {i : ℕ} (h : Identified s) (hi : s.calls.lookup i = before) :
    ∀ r ∈ usedAt before, r.In s.manager := by
  intro r hu
  cases hc : before with
  | none =>
    rw [hc] at hu
    cases hu
  | some c =>
    rw [hc] at hi hu
    exact h.usesIn i c r hi hu

/-- A step adds nothing that refers to what is not there. -/
def AddsRefs (m m' : Manager) : Prop := ∀ r, Refers m' r → Refers m r ∨ r.In m

theorem keepsIds_same (h : Identified s) (hin : ∀ r : Ref, r.In m' ↔ r.In s.manager)
    (hnext : s.manager.nextId ≤ m'.nextId)
    (hres : reservedAt after = none ∨ reservedAt after = reservedAt before ∨
      (∃ stem, reservedAt after = some (numbered stem s.manager.nextId)) ∧ s.manager.nextId < m'.nextId ∧ before = none)
    (huses : ∀ r ∈ usedAt after, r.In s.manager) (hrefers : AddsRefs s.manager m') :
    KeepsIds s.manager before after m' := by
  have hst : ∀ id, Stored m' id ↔ Stored s.manager id := fun id => or_congr (hin (.session id)) (hin (.turn id))
  refine ⟨hnext, fun r => (hin r).mpr, fun id hid => .inl ((hst id).mp hid), fun c id hc hr => ?_, fun c r hc hu => ?_,
    fun r hr => (hin r).mpr ((hrefers r hr).elim (h.refersIn r) id)⟩
  · subst hc
    rcases hres with hnone | hsame | ⟨⟨stem, hnew⟩, hlt, hbefore⟩
    · cases hr.symm.trans hnone
    · exact .inl ⟨Option.bind_eq_some_iff.mp (hsame.symm.trans hr), (hst id).mp⟩
    · exact .inr ⟨⟨stem, Option.some.inj (hr.symm.trans hnew)⟩, hlt, hbefore⟩
  · subst hc
    exact (hin r).mpr (huses r hu)

section

variable {m : Manager} {ss : Table String SessionRecord} {ts : Table String TurnRecord}
  {as : Table String ApprovalRecord} {ws : List WaitTask}

theorem Sets.in_iff (h : Sets m m' ss ts as ws) (hss : ∀ id, (ss.lookup id).isSome ↔ (m.sessions.lookup id).isSome)
    (hts : ∀ id, (ts.lookup id).isSome ↔ (m.turns.lookup id).isSome) (r : Ref) : r.In m' ↔ r.In m := by
  cases r with
  | session id =>
    rw [Ref.In, h.sessions]
    exact hss id
  | turn id =>
    rw [Ref.In, h.turns]
    exact hts id

theorem Sets.addsRefs (h : Sets m m' ss ts as ws)
    (hss : ∀ key record, ss.lookup key = some record → m.sessions.lookup key = some record ∨
      ∀ r ∈ activeRef record, Refers m r ∨ r.In m)
    (has : ∀ key record, as.lookup key = some record → m.approvals.lookup key = some record ∨
      ∀ r ∈ approvalRefs record, r.In m)
    (hws : ∀ task ∈ ws, task ∈ m.waits ∨ Ref.In m (.session task.sessionId) ∧ Ref.In m (.turn task.turnId)) :
    AddsRefs m m' := by
  intro r hr
  cases hr with
  | active held names =>
    rw [h.sessions] at held
    exact (hss _ _ held).elim (fun hheld => .inl (.active hheld names)) fun hnew => hnew r names
  | approval held names =>
    rw [h.approvals] at held
    exact (has _ _ held).elim (fun hheld => .inl (.approval hheld names)) fun hnew => .inr (hnew r names)
  | wait held names =>
    rw [h.waits] at held
    refine (hws _ held).elim (fun hheld => .inl (.wait hheld names)) fun hnew => .inr ?_
    rcases names with rfl | rfl
    · exact hnew.1
    · exact hnew.2

theorem sessions_inserted {key k : String} {record r : SessionRecord} (hrecord : ∀ ref ∈ activeRef record, ref.In m)
    (h : (m.sessions.insert key record).lookup k = some r) :
    m.sessions.lookup k = some r ∨ ∀ ref ∈ activeRef r, Refers m ref ∨ ref.In m := by
  rcases Table.of_lookup_insert h with ⟨-, rfl⟩ | hheld
  · exact .inr fun ref href => .inr (hrecord ref href)
  · exact .inl hheld

theorem sessions_updated {key k : String} {f : SessionRecord → SessionRecord} {r : SessionRecord}
    (hf : ∀ old, ∀ ref ∈ activeRef (f old), ref ∈ activeRef old)
    (h : (m.sessions.update key f).lookup k = some r) :
    m.sessions.lookup k = some r ∨ ∀ ref ∈ activeRef r, Refers m ref ∨ ref.In m := by
  rw [Table.lookup_update] at h
  split at h
  · obtain ⟨old, hold, rfl⟩ := Option.map_eq_some_iff.mp h
    exact .inr fun ref href => .inl (.active hold (hf old ref href))
  · exact .inl h

theorem approvals_inserted {key k : String} {record r : ApprovalRecord} (hrecord : ∀ ref ∈ approvalRefs record, ref.In m)
    (h : (m.approvals.insert key record).lookup k = some r) :
    m.approvals.lookup k = some r ∨ ∀ ref ∈ approvalRefs r, ref.In m := by
  rcases Table.of_lookup_insert h with ⟨-, rfl⟩ | hheld
  · exact .inr hrecord
  · exact .inl hheld

theorem waits_spawned {task : WaitTask} (hsession : Ref.In m (.session task.sessionId))
    (hturn : Ref.In m (.turn task.turnId)) (hws : ws = m.waits ∨ ws = m.waits ++ [task]) :
    ∀ t ∈ ws, t ∈ m.waits ∨ Ref.In m (.session t.sessionId) ∧ Ref.In m (.turn t.turnId) := by
  intro t ht
  rcases hws with rfl | rfl
  · exact .inl ht
  · rcases List.mem_append.mp ht with ht | ht
    · exact .inl ht
    · obtain rfl := List.mem_singleton.mp ht
      exact .inr ⟨hsession, hturn⟩

end

theorem activeRef_release (turnId : String) (record old : SessionRecord)
    (h : record.activeTurnId = releaseTurn turnId old.activeTurnId) : ∀ r ∈ activeRef record, r ∈ activeRef old := by
  intro r hr
  rw [activeRef, h, releaseTurn] at hr
  split at hr
  · cases hr
  · exact hr

theorem stored_in {m : Manager} {id : String} {record : SessionRecord} (h : m.sessions.lookup id = some record) :
    Ref.In m (.session id) := by
  rw [Ref.In, h]
  rfl

theorem keepsIds_quiet (h : Identified s) (hq : Quiet s.manager m')
    (hres : reservedAt after = none ∨ reservedAt after = reservedAt before ∨
      (∃ stem, reservedAt after = some (numbered stem s.manager.nextId)) ∧ s.manager.nextId < m'.nextId ∧ before = none)
    (huses : ∀ r ∈ usedAt after, r.In s.manager) : KeepsIds s.manager before after m' :=
  keepsIds_same h (hq.in_iff (fun _ => Iff.rfl) fun _ => Iff.rfl) hq.nextId hres huses
    (hq.addsRefs (fun _ _ => .inl) (fun _ _ => .inl) fun _ => .inl)

theorem keepsIds_insertSession {key : String} {record : SessionRecord} {ws : List WaitTask} (h : Identified s)
    (hs : Sets s.manager m' (s.manager.sessions.insert key record) s.manager.turns s.manager.approvals ws)
    (hkey : Ref.In s.manager (.session key)) (hrecord : ∀ r ∈ activeRef record, r.In s.manager)
    (hnone : reservedAt after = none) (huses : ∀ r ∈ usedAt after, r.In s.manager)
    (hws : ∀ t ∈ ws, t ∈ s.manager.waits ∨ Ref.In s.manager (.session t.sessionId) ∧ Ref.In s.manager (.turn t.turnId)) :
    KeepsIds s.manager before after m' := by
  refine keepsIds_same h (hs.in_iff (fun id => ?_) fun _ => Iff.rfl) hs.nextId (.inl hnone) huses
    (hs.addsRefs (fun _ _ hl => sessions_inserted hrecord hl) (fun _ _ => .inl) hws)
  rw [Table.isSome_insert]
  exact ⟨fun hid => hid.elim (fun he => he ▸ hkey) fun hid => hid, .inr⟩

theorem keepsIds_updateSession {key : String} {f : SessionRecord → SessionRecord} (h : Identified s)
    (hs : Sets s.manager m' (s.manager.sessions.update key f) s.manager.turns s.manager.approvals s.manager.waits)
    (hf : ∀ old, ∀ r ∈ activeRef (f old), r ∈ activeRef old) : KeepsIds s.manager before none m' :=
  keepsIds_same h (hs.in_iff (fun _ => Table.isSome_update _ _ _ _) fun _ => Iff.rfl) hs.nextId (.inl rfl)
    (List.forall_mem_nil _) (hs.addsRefs (fun _ _ hl => sessions_updated hf hl) (fun _ _ => .inl) fun _ => .inl)

theorem keepsIds_inserted (new : Ref) (h : Identified s) (hnext : s.manager.nextId ≤ m'.nextId)
    (hin : ∀ r : Ref, r.In m' ↔ r = new ∨ r.In s.manager) (hbefore : reservedAt before = some new.id)
    (hnone : reservedAt after = none) (huses : ∀ r ∈ usedAt after, r.In m')
    (hrefers : AddsRefs s.manager m') : KeepsIds s.manager before after m' where
  next := hnext
  keeps r hr := (hin r).mpr (.inr hr)
  grows id hid := by
    rcases hid.imp (hin (.session id)).mp (hin (.turn id)).mp with (rfl | hid) | (rfl | hid)
    · exact .inr (Option.bind_eq_some_iff.mp hbefore)
    · exact .inl (.inl hid)
    · exact .inr (Option.bind_eq_some_iff.mp hbefore)
    · exact .inl (.inr hid)
  reserves c id hc hr := by
    subst hc
    cases hr.symm.trans hnone
  uses c r hc hu := by
    subst hc
    exact huses r hu
  refers r hr := (hin r).mpr (.inr ((hrefers r hr).elim (h.refersIn r) id))

theorem applied_keepsIds {i : ℕ} {c : RespondCall} {resolved : ApprovalRecord}
    {turn : TurnRecord → TurnRecord} {session : SessionRecord → SessionRecord} (h : Identified s)
    (hi : s.calls.lookup i = some (.respondApply c resolved))
    (ha : Applied s.manager m' c resolved.turnId turn session)
    (hsession : ∀ old, ∀ r ∈ activeRef (session old), r ∈ activeRef old) : KeepsIds s.manager before none m' := by
  obtain ⟨sessions, waits, sets, hss, hws⟩ := ha.writes
  have hused := h.used hi
  have hwaits := waits_spawned (hused _ List.mem_cons_self)
    (hused (.turn resolved.turnId) (by simp [usedAt, Call.uses, approvalRefs])) hws
  refine keepsIds_same h (sets.in_iff (fun id => ?_) fun _ => Table.isSome_update _ _ _ _) sets.nextId (.inl rfl)
    (List.forall_mem_nil _) (sets.addsRefs (fun _ _ hl => ?_) (fun _ _ => .inl) hwaits)
  · rcases hss with rfl | rfl
    · rfl
    · exact Table.isSome_update _ _ _ _
  · rcases hss with rfl | rfl
    · exact .inl hl
    · exact sessions_updated hsession hl

theorem activeRef_send {w : SendWrite} {r : Ref} (hr : r ∈ activeRef w.session) : r = .turn w.call.turnId := by
  unfold SendWrite.session at hr
  split at hr
  · exact List.mem_singleton.mp hr
  · cases hr

theorem Moves.keepsIds {i : ℕ} (h : Identified s) (hm : Moves s.manager before after m')
    (hi : s.calls.lookup i = before) : KeepsIds s.manager before after m' := by
  have hused := h.used hi
  have hactive : ∀ {id : String} {record : SessionRecord}, s.manager.sessions.lookup id = some record →
      ∀ r ∈ activeRef record, r.In s.manager := fun found r hr => h.refersIn r (.active found hr)
  cases hm with
  | stopped quiet was => exact keepsIds_quiet h quiet (.inl rfl) (List.forall_mem_nil _)
  | @createBegun c _ quiet fresh next =>
    obtain ⟨stem, hstem⟩ := fresh
    exact keepsIds_quiet h quiet (.inr (.inr ⟨⟨stem, congrArg some hstem⟩, next, rfl⟩)) (List.forall_mem_nil _)
  | createStored quiet => exact keepsIds_quiet h quiet (.inr (.inl rfl)) (List.forall_mem_nil _)
  | @createInserted record _ sets =>
    refine keepsIds_inserted (.session record.id) h sets.nextId (fun r => ?_) rfl rfl (List.forall_mem_nil _)
      (sets.addsRefs (fun _ _ hl => sessions_inserted hused hl) (fun _ _ => .inl) fun _ => .inl)
    cases r with
    | session id => rw [Ref.In, sets.sessions, Table.isSome_insert, Ref.session.injEq, Ref.In]
    | turn id => simp [Ref.In, sets.turns]
  | closeBegun quiet found =>
    exact keepsIds_quiet h quiet (.inl rfl) (List.forall_mem_singleton.mpr (stored_in found))
  | closeStored quiet found was =>
    exact keepsIds_quiet h quiet (.inl rfl) (List.forall_mem_singleton.mpr (stored_in found))
  | closeInserted sets =>
    exact keepsIds_insertSession h sets (hused _ List.mem_cons_self) (fun r hr => hused r (List.mem_cons_of_mem _ hr))
      rfl (List.forall_mem_nil _) fun _ => .inl
  | resumeBegun quiet found =>
    exact keepsIds_quiet h quiet (.inl rfl) (List.forall_mem_cons.mpr ⟨stored_in found, hactive found⟩)
  | resumeStored quiet => exact keepsIds_quiet h quiet (.inl rfl) hused
  | resumeInserted sets =>
    exact keepsIds_insertSession h sets (hused _ List.mem_cons_self) (fun r hr => hused r (List.mem_cons_of_mem _ hr))
      rfl (List.forall_mem_nil _) fun _ => .inl
  | worktreeSet sets => exact keepsIds_updateSession h sets fun _ _ => id
  | sendBegun quiet began next =>
    obtain ⟨stem, hstem⟩ := began.turnId
    exact keepsIds_quiet h quiet (.inr (.inr ⟨⟨stem, congrArg some hstem⟩, next, rfl⟩))
      (List.forall_mem_singleton.mpr (stored_in began.session))
  | sendSettled quiet => exact keepsIds_quiet h quiet (.inr (.inl rfl)) hused
  | @turnInserted w _ sets =>
    have hin : ∀ r : Ref, r.In m' ↔ r = .turn w.call.turnId ∨ r.In s.manager := fun r => by
      cases r with
      | session id => simp [Ref.In, sets.sessions]
      | turn id => rw [Ref.In, sets.turns, Table.isSome_insert, Ref.turn.injEq, Ref.In]
    refine keepsIds_inserted (.turn w.call.turnId) h sets.nextId hin rfl rfl (fun r hu => (hin r).mpr ?_)
      (sets.addsRefs (fun _ _ => .inl) (fun _ _ => .inl) fun _ => .inl)
    rcases List.mem_cons.mp hu with rfl | hu
    · exact .inr (hused _ List.mem_cons_self)
    · exact .inl (List.mem_singleton.mp hu)
  | @sessionInserted w r waits _ sets inserted =>
    have hsession : Ref.In s.manager (.session w.call.sessionId) := hused _ List.mem_cons_self
    have hturn : Ref.In s.manager (.turn w.call.turnId) := hused _ (List.mem_cons_of_mem _ List.mem_cons_self)
    refine keepsIds_insertSession h sets hsession (fun r hr => activeRef_send hr ▸ hturn) ?_ ?_
      (waits_spawned hsession hturn (inserted.waits.elim .inl fun h => h.2.2))
    · rcases r with e | (_ | a) <;> rfl
    · rcases r with e | (_ | a)
      · exact List.forall_mem_nil _
      · exact List.forall_mem_nil _
      · obtain ⟨-, apr, -, rfl⟩ := inserted.approval a rfl
        exact List.forall_mem_cons.mpr ⟨hsession, List.forall_mem_singleton.mpr hturn⟩
  | approvalInserted sets =>
    exact keepsIds_same h (sets.in_iff (fun _ => Iff.rfl) fun _ => Iff.rfl) sets.nextId (.inl rfl)
      (List.forall_mem_nil _) (sets.addsRefs (fun _ _ => .inl) (fun _ _ hl => approvals_inserted hused hl) fun _ => .inl)
  | interruptBegun quiet found active =>
    exact keepsIds_quiet h quiet (.inl rfl) (List.forall_mem_cons.mpr ⟨stored_in found, List.forall_mem_singleton.mpr
      (hactive found _ (by simp [activeRef, active]))⟩)
  | respondBegun quiet found =>
    exact keepsIds_quiet h quiet (.inl rfl) (List.forall_mem_singleton.mpr (stored_in found))
  | respondChecked quiet checked =>
    exact keepsIds_quiet h quiet (.inl rfl) (List.forall_mem_cons.mpr
      ⟨checked.sessionId ▸ hused _ List.mem_cons_self, fun r hr => h.refersIn r (.approval checked.existing hr)⟩)
  | @respondResolved approvalId c _ _ sets next =>
    have hresolved : ∀ r ∈ approvalRefs (c.resolved s.manager.clock), r.In s.manager :=
      fun r hr => hused r (List.mem_cons_of_mem _ hr)
    refine keepsIds_same h (sets.in_iff (fun _ => Iff.rfl) fun _ => Iff.rfl) sets.nextId (.inl ?_) ?_
      (sets.addsRefs (fun _ _ => .inl) (fun _ _ hl => approvals_inserted hresolved hl) fun _ => .inl)
    · rcases next with rfl | rfl <;> rfl
    · rcases next with rfl | rfl
      · exact List.forall_mem_nil _
      · exact hused
  | acceptApplied decision applied => exact applied_keepsIds h hi applied fun _ _ => id
  | declineApplied decision applied =>
    exact applied_keepsIds h hi applied fun _ => activeRef_release _ _ _ rfl
  | sessionFailed sets => exact keepsIds_updateSession h sets fun _ => activeRef_release _ _ _ rfl

theorem Identified.same (h : Identified s) (hin : ∀ r : Ref, r.In m' ↔ r.In s.manager)
    (hnext : s.manager.nextId ≤ m'.nextId) (hrefers : AddsRefs s.manager m') : Identified ⟨m', s.calls⟩ := by
  have hst : ∀ id, Stored m' id ↔ Stored s.manager id := fun id => or_congr (hin (.session id)) (hin (.turn id))
  exact ⟨fun id hid => (h.storedIssued id ((hst id).mp hid)).mono hnext,
    fun i c id hc hr => (h.reservedIssued i c id hc hr).mono hnext,
    fun i c id hc hr hid => h.reservedFresh i c id hc hr ((hst id).mp hid), h.reservedOnce,
    fun i c r hc hu => (hin r).mpr (h.usesIn i c r hc hu),
    fun r hr => (hin r).mpr ((hrefers r hr).elim (h.refersIn r) id)⟩

theorem Identified.dropWait (h : Identified s) (w : ℕ) : Identified (s.dropWait w) := by
  refine h.same (fun r => by cases r <;> rfl) le_rfl fun r hr => .inl ?_
  cases hr with
  | active held names => exact .active held names
  | approval held names => exact .approval held names
  | wait held names => exact .wait (List.mem_of_mem_eraseIdx held) names

theorem ResultApplied.identified {result : ProviderTurnResult} (h : Identified s)
    (hr : ResultApplied s.manager result m') : Identified ⟨m', s.calls⟩ := by
  cases hr with
  | nothing quiet =>
    exact h.same (quiet.in_iff (fun _ => Iff.rfl) fun _ => Iff.rfl) quiet.nextId
      (quiet.addsRefs (fun _ _ => .inl) (fun _ _ => .inl) fun _ => .inl)
  | conflict turn _ found owner ended differs sets =>
    exact h.same (sets.in_iff (fun _ => Table.isSome_update _ _ _ _) fun _ => Iff.rfl) sets.nextId
      (sets.addsRefs (fun _ _ hl => sessions_updated (f := conflictedSession _ _) (fun _ _ => id) hl) (fun _ _ => .inl)
        fun _ => .inl)
  | ended turn sessions ends sets session =>
    refine h.same (sets.in_iff (fun id => ?_) fun id => ?_) sets.nextId
      (sets.addsRefs (fun _ _ hl => ?_) (fun _ _ => .inl) fun _ => .inl)
    · rcases session with rfl | rfl
      · rfl
      · exact Table.isSome_update _ _ _ _
    · rw [Table.isSome_insert, or_iff_right_of_imp]
      rintro rfl
      rw [ends.found]
      rfl
    · rcases session with rfl | rfl
      · exact .inl hl
      · exact sessions_updated (fun _ => activeRef_release _ _ _ rfl) hl

theorem TurnFails.keepsIds {task : WaitTask} {error : RuntimeError} (h : Identified s)
    (hsession : Ref.In s.manager (.session task.sessionId)) (hturn : Ref.In s.manager (.turn task.turnId))
    (hf : TurnFails s.manager task error after m') : KeepsIds s.manager none after m' := by
  have huses : ∀ r ∈ usedAt (some (.failSession task.sessionId task.turnId error)), r.In s.manager :=
    List.forall_mem_cons.mpr ⟨hsession, List.forall_mem_singleton.mpr hturn⟩
  cases hf with
  | wasOver quiet ended => exact keepsIds_quiet h quiet (.inl rfl) huses
  | failed sets next =>
    refine keepsIds_same h (sets.in_iff (fun _ => Iff.rfl) fun _ => Table.isSome_update _ _ _ _) sets.nextId
      (.inl ?_) ?_ (sets.addsRefs (fun _ _ => .inl) (fun _ _ => .inl) fun _ => .inl)
    · rcases next with rfl | rfl <;> rfl
    · rcases next with rfl | rfl
      · exact List.forall_mem_nil _
      · exact huses

theorem identified_step {l : Label} {s' : Server} (h : Identified s) (hs : Server.step l s = some s') :
    Identified s' := by
  cases l with
  | start i op =>
    obtain ⟨hi, after, m', hm, rfl⟩ := Server.step_start hs
    exact h.move hi (hm.keepsIds h hi)
  | goOn i answer =>
    obtain ⟨c, after, m', hi, -, hm, rfl⟩ := Server.step_goOn hs
    exact h.move hi (hm.keepsIds h hi)
  | waited w result =>
    obtain ⟨m', hr, rfl⟩ := Server.step_waited hs
    exact ResultApplied.identified (s := s.dropWait w) (h.dropWait w) hr
  | waitFailed w i error =>
    obtain ⟨task, after, m', htask, hi, hf, rfl⟩ := Server.step_waitFailed hs
    exact (h.dropWait w).move hi (hf.keepsIds (h.dropWait w) (h.refersIn _ (.wait htask (.inl rfl)))
      (h.refersIn _ (.wait htask (.inr rfl))))
  | tick now =>
    rw [Server.step_tick hs]
    refine h.same (fun r => by cases r <;> rfl) le_rfl fun r hr => .inl ?_
    cases hr with
    | active held names => exact .active held names
    | approval held names => exact .approval held names
    | wait held names => exact .wait held names

end

/-- Every state a server reaches from an empty manager has its ids in order. -/
theorem identified_of_reaches {P : Label → Server → Prop} {providers : List ProviderKind}
    {faults : List Bool} {s : Server}
    (h : Reaches Server.step P (Server.start (Manager.empty providers faults)) s) : Identified s :=
  h.invariant (identified_start providers faults) fun _ _ _ hi _ hs => identified_step hi hs

def sendInFlight : List Label :=
  [.start 0 (.createSession ⟨.codex, none, none, none, none⟩),
    .goOn 0 (.session (.ok ⟨"sess_codex_0_1", "ref", none⟩)), .goOn 0 .lock,
    .start 1 (.sendTurn "sess_codex_0_1" ⟨[], none, none⟩)]

theorem identified_sendInFlight : ∃ s, Identified s ∧ s.calls.keys = [1] := by
  obtain ⟨s, hrun, hs⟩ := exists_reaches_of_runAll Server.step (fun _ _ => true) sendInFlight
    (s := .start (Manager.empty [.codex] [])) (fun s => s.calls.keys) [1] (by decide +kernel)
  exact ⟨s, identified_of_reaches hrun, hs⟩

end Gooselake.Runtime
