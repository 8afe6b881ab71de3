import Gooselake.Tools.WorktreeSteps

/-!
What a step of the worktree service does to the claims and to the records. Only the write of a claim
makes one active, and only the write of a plan's record stores a row.
-/

namespace Gooselake.Tools

open Gooselake.Core Data Library Library.Exec

set_option autoImplicit false

def WorktreeCall.deleting : WorktreeCall → Option ManagedWorktreeRecord
  | .cleanupLock c _ | .cleanupShowRef c _ | .cleanupBranch c _ | .cleanupEnd c _ => some c.worktree
  | _ => none

/-! ## Claims that only get fewer -/

def NoNewClaims (s s' : Scene) : Prop := ∀ id, s.activeClaims id = [] → s'.activeClaims id = []

theorem Scene.activeClaims_eq_nil {s : Scene} {id : String} :
    s.activeClaims id = [] ↔ ∀ row ∈ s.claims, row.worktreeId = id → row.active = false := by
  unfold Scene.activeClaims
  rw [List.filter_eq_nil_iff]
  simp

theorem Scene.put_activeClaims {s : Scene} {claim : ManagedWorktreeClaimRecord} {id : String}
    (h : claim.worktreeId = id → claim.active = false) (hid : s.activeClaims id = []) :
    (s.put claim).activeClaims id = [] := by
  rw [Scene.activeClaims_eq_nil] at hid ⊢
  intro row hrow hworktree
  rcases mem_upsert hrow with hrow | rfl | ⟨old, -, -, rfl⟩
  · exact hid row hrow hworktree
  · exact h hworktree
  · exact h hworktree

inductive ClaimMove (s s' : Scene) : Prop where
  | same (claims : s'.claims = s.claims)
  | released (claim : ManagedWorktreeClaimRecord) (active : claim.active = false)
      (claims : s'.claims = (s.put claim).claims)

theorem ClaimMove.noNewClaims {s s' : Scene} (h : ClaimMove s s') : NoNewClaims s s' := by
  intro id hid
  cases h with
  | same claims =>
    rw [Scene.activeClaims, claims]
    exact hid
  | released claim active claims =>
    rw [Scene.activeClaims, claims]
    exact Scene.put_activeClaims (fun _ => active) hid

/-! ## Pieces -/

def WorktreeCall.writes : WorktreeCall → Option PlannedWorktreePaths
  | .createWrite _ planned _ | .reuseWrite planned => some planned
  | _ => none

inductive RowMove (c : Option WorktreeCall) (s s' : Scene) : Prop where
  | same (worktrees : s'.worktrees = s.worktrees) (next : s.nextWorktreeId ≤ s'.nextWorktreeId)
  | stored (planned : PlannedWorktreePaths) (policy : String) (session operation : Option String) (now : ℤ)
      (call : c.bind WorktreeCall.writes = some planned)
      (scene : s' = s.allocated.store (planned.record (numbered "wt" s.nextWorktreeId) policy session operation now))

structure Gentle (c : Option WorktreeCall) (w : Worktrees) (r : Except RuntimeError (Option WorktreeCall))
    (w' : Worktrees) : Prop where
  claims : ClaimMove w.scene w'.scene
  rows : RowMove c w.scene w'.scene
  /-- A cleanup goes on with its worktree, or has found no active claim on a stored one. -/
  deleting : ∀ after row, r = .ok (some after) → after.deleting = some row →
    c.bind WorktreeCall.deleting = some row ∨
      w'.scene.activeClaims row.id = [] ∧ row ∈ w'.scene.worktrees ∧ isRecordTombstoned row = false
  release : ∀ request worktree released, r = .ok (some (.releaseWrite request worktree released)) →
    released.active = false

section

variable {w : Worktrees} {c : Option WorktreeCall}

theorem RowMove.of_scene {s s' : Scene} (h : s' = s) : RowMove c s s' := by
  subst h
  exact .same rfl le_rfl

/-- The part of `Gentle` that is about the scene. -/
structure Mild (c : Option WorktreeCall) (s s' : Scene) : Prop where
  claims : ClaimMove s s'
  rows : RowMove c s s'

theorem Mild.of_scene {s s' : Scene} (h : s' = s) : Mild c s s' := ⟨.same (congrArg Scene.claims h), .of_scene h⟩

theorem Mild.of_or {s t s' : Scene} (ht : Mild c s t) (h : s' = s ∨ s' = t) : Mild c s s' := by
  rcases h with rfl | rfl
  · exact .of_scene rfl
  · exact ht

theorem Mild.of_disk {s t s' : Scene} (h : s' = s ∨ s' = t) (hclaims : t.claims = s.claims)
    (hrows : t.worktrees = s.worktrees) (hnext : s.nextWorktreeId ≤ t.nextWorktreeId) : Mild c s s' :=
  .of_or ⟨.same hclaims, .same hrows hnext⟩ h

theorem Mild.of_put {s s' : Scene} {claim : ManagedWorktreeClaimRecord} (hactive : claim.active = false)
    (h : s' = s ∨ s' = s.put claim) : Mild c s s' :=
  .of_or ⟨.released claim hactive rfl, .same rfl le_rfl⟩ h

theorem Mild.of_store {s s' : Scene} {p : Prop} {planned : PlannedWorktreePaths} {policy : String}
    {session operation : Option String} {now : ℤ} (hc : c.bind WorktreeCall.writes = some planned)
    (h : (s' = s.allocated ∧ p) ∨
      s' = s.allocated.store (planned.record (numbered "wt" s.nextWorktreeId) policy session operation now)) :
    Mild c s s' := by
  rcases h with ⟨rfl, -⟩ | rfl
  · exact ⟨.same rfl, .same rfl (Nat.le_succ _)⟩
  · exact ⟨.same rfl, .stored planned policy session operation now hc rfl⟩

def WorktreeCall.isPlain : WorktreeCall → Bool
  | .cleanupLock _ _ | .cleanupShowRef _ _ | .cleanupBranch _ _ | .cleanupEnd _ _ | .releaseWrite _ _ _ => false
  | _ => true

theorem WorktreeCall.deleting_of_isPlain {c : WorktreeCall} (h : c.isPlain = true) : c.deleting = none := by
  cases c <;> first | rfl | cases h

theorem Gentle.goesOn {after : Option WorktreeCall} {w' : Worktrees} (h : Mild c w.scene w'.scene)
    (hplain : after.all WorktreeCall.isPlain = true) : Gentle c w (.ok after) w' where
  claims := h.claims
  rows := h.rows
  deleting after' row hr hrow := by
    obtain rfl := Except.ok.inj hr
    rw [WorktreeCall.deleting_of_isPlain hplain] at hrow
    cases hrow
  release request worktree released hr := by
    obtain rfl := Except.ok.inj hr
    cases hplain

theorem Gentle.fails {e : RuntimeError} {w' : Worktrees} (h : Mild c w.scene w'.scene) : Gentle c w (.error e) w' :=
  ⟨h.claims, h.rows, fun _ _ hr => (by cases hr), fun _ _ _ hr => by cases hr⟩

theorem Gentle.cleans {after : WorktreeCall} {row : ManagedWorktreeRecord} {w' : Worktrees}
    (h : Mild c w.scene w'.scene) (hafter : after.deleting = some row)
    (hrow : c.bind WorktreeCall.deleting = some row ∨
      w'.scene.activeClaims row.id = [] ∧ row ∈ w'.scene.worktrees ∧ isRecordTombstoned row = false) :
    Gentle c w (.ok (some after)) w' where
  claims := h.claims
  rows := h.rows
  deleting after' row' hr hrow' := by
    obtain rfl := Option.some.inj (Except.ok.inj hr)
    obtain rfl := Option.some.inj (hafter.symm.trans hrow')
    exact hrow
  release request worktree released hr := by
    obtain rfl := Option.some.inj (Except.ok.inj hr)
    cases hafter

theorem Gentle.congr {r : Except RuntimeError (Option WorktreeCall)} {w₁ w' : Worktrees} (h : w₁.scene = w.scene) :
    Gentle c w r w' ↔ Gentle c w₁ r w' := by
  constructor <;> intro hg
  · exact ⟨h ▸ hg.claims, h ▸ hg.rows, hg.deleting, hg.release⟩
  · exact ⟨h ▸ hg.claims, h ▸ hg.rows, hg.deleting, hg.release⟩

theorem Gentle.ofMild {α : Type} {m : WorktreeM α} {f : α → Option WorktreeCall}
    (h : After m w fun _ w' => Mild c w.scene w'.scene) (hf : ∀ a, (f a).all WorktreeCall.isPlain = true) :
    After (do return f (← m)) w fun r w' => Gentle c w r w' :=
  after_bind h (fun a _ h => (after_pure _ _ _).mpr (.goesOn h (hf a))) fun _ _ h => .fails h

theorem Gentle.ofQuiet {α : Type} {m : WorktreeM α} {f : α → Option WorktreeCall} (h : Quiet m)
    (hf : ∀ a, (f a).all WorktreeCall.isPlain = true) : After (do return f (← m)) w fun r w' => Gentle c w r w' :=
  Gentle.ofMild ((h w).mono fun _ _ h => .of_scene h) hf

theorem memberNext_isPlain (request : WorktreeMemberRemovedRequest) (so : WorktreeMemberRemovedResponse)
    (claims : List ManagedWorktreeClaimRecord) : (memberNext request so claims).all WorktreeCall.isPlain = true := by
  cases claims <;> rfl

theorem resume_gentle (k : CleanupCaller) (result : Except RuntimeError WorktreeCleanupResponse) :
    After (k.resume result) w fun r w' => Gentle c w r w' := by
  have hnone : After (do
      let _ ← ofExcept result
      return none : WorktreeM (Option WorktreeCall)) w fun r w' => Gentle c w r w' :=
    Gentle.ofQuiet (f := fun _ => none) (ReadOnly.ofExcept result).preserves fun _ => rfl
  cases k with
  | caller => exact hnone
  | release => exact hnone
  | member request claim rest so =>
    exact Gentle.ofQuiet (quiet_memberRemovedCleaned request claim result so) fun so' =>
      memberNext_isPlain request so' rest

theorem begin_gentle (op : WorktreeOperation) : After op.begin w fun r w' => Gentle none w r w' := by
  cases op with
  | create request source => exact Gentle.ofQuiet (quiet_createPlan request source) fun _ => rfl
  | reuse sourceCwd worktreeName branchPrefix =>
    exact Gentle.ofQuiet (quiet_reusePlan sourceCwd worktreeName branchPrefix) fun _ => rfl
  | claim request =>
    exact Gentle.ofMild ((claimRead_after request).mono fun _ _ h => .of_scene h.1) fun _ => rfl
  | release request =>
    unfold WorktreeOperation.begin
    refine after_bind (releaseRead_after request) (fun read w' h => ?_) fun e w' h => .fails (.of_scene h.1)
    obtain ⟨worktree, released⟩ := read
    have hmild : Mild none w.scene w'.scene := .of_scene h.1
    refine (after_pure _ _ _).mpr ⟨hmild.claims, hmild.rows, fun after row he hrow => ?_,
      fun request' worktree' released' he => ?_⟩
    · obtain rfl := Option.some.inj (Except.ok.inj he)
      cases hrow
    · obtain ⟨-, -, rfl⟩ := WorktreeCall.releaseWrite.inj (Option.some.inj (Except.ok.inj he))
      exact (h.2 worktree released rfl).2.2.2
  | cleanup request => exact (after_pure _ _ _).mpr (.goesOn (.of_scene rfl) rfl)
  | memberRemoved request =>
    exact Gentle.ofQuiet (quiet_memberRemovedRead request) fun claims => memberNext_isPlain request ⟨[], [], []⟩ claims

theorem piece_gentle (c : WorktreeCall) (hclaim : ∀ worktree claim, c ≠ .claimWrite worktree claim)
    (hrelease : ∀ request worktree released, c = .releaseWrite request worktree released → released.active = false) :
    After c.piece w fun r w' => Gentle (some c) w r w' := by
  cases c with
  | createLock request planned =>
    exact Gentle.ofMild ((createLookup_after planned).mono fun _ _ h => .of_scene h.1) fun _ => rfl
  | createExisting request planned found =>
    refine Gentle.ofQuiet (quiet_createExisting found) fun existing => ?_
    cases existing.isSome <;> rfl
  | createRoot request planned =>
    exact Gentle.ofMild ((createRoot_after planned).mono fun _ _ h => .of_disk h.1 rfl rfl le_rfl) fun _ => rfl
  | createAdd request planned =>
    exact Gentle.ofMild ((gitWorktreeAdd_after _ _ _ _).mono fun _ _ h => .of_disk h rfl rfl le_rfl) fun _ => rfl
  | createInit request planned =>
    refine after_bind (quiet_createInit request w) (fun result w' h => ?_) fun e w' h => .fails (.of_scene h)
    cases result <;> exact (after_pure _ _ _).mpr (.goesOn (.of_scene h) rfl)
  | createUndoWorktree request planned error =>
    exact Gentle.ofMild ((createUndoWorktree_after request planned error).mono fun _ _ h => .of_disk h rfl rfl le_rfl)
      fun _ => rfl
  | createUndoBranch planned error =>
    exact after_bind (createUndoBranch_after planned)
      (fun _ w' h => (after_throw _ _ _).mpr (.fails (.of_disk h rfl rfl le_rfl)))
      fun e w' h => .fails (.of_disk h rfl rfl le_rfl)
  | createWrite request planned status =>
    exact Gentle.ofMild ((createWrite_after request planned).mono fun _ _ h => .of_store rfl h) fun _ => rfl
  | createRead request planned status =>
    exact Gentle.ofMild (f := fun _ => none)
      ((createRead_after request planned status).mono fun _ _ h => .of_scene h.1) fun _ => rfl
  | reuseLookup planned => exact Gentle.ofQuiet (quiet_reuseLookup planned) fun _ => rfl
  | reuseCheck planned found =>
    refine Gentle.ofQuiet (quiet_reuseCheck planned found) fun existing => ?_
    cases existing.isSome <;> rfl
  | reuseWrite planned =>
    exact Gentle.ofMild ((reuseWrite_after planned).mono fun _ _ h => .of_store rfl h) fun _ => rfl
  | reuseRead planned => exact Gentle.ofQuiet (f := fun _ => none) (quiet_upsertWorktreeRead planned) fun _ => rfl
  | claimWrite worktree claim => exact absurd rfl (hclaim worktree claim)
  | releaseWrite request worktree released =>
    have hactive := hrelease request worktree released rfl
    exact Gentle.ofMild ((releaseWrite_after worktree released).mono fun _ _ h =>
      .of_put hactive (h.imp And.left And.left)) fun _ => rfl
  | releaseRecount request worktree =>
    refine Gentle.ofQuiet (quiet_releaseRecount request worktree) fun counted => ?_
    obtain ⟨count, cleans⟩ := counted
    cases cleans <;> rfl
  | memberRelease request claim rest so =>
    refine Gentle.ofMild ((memberRemovedRelease_after request claim so).mono fun _ _ h => .of_put rfl h)
      fun released => ?_
    obtain ⟨so', cleans⟩ := released
    cases cleans with
    | true => rfl
    | false => exact memberNext_isPlain request so' rest
  | cleanupCount request k =>
    unfold WorktreeCall.piece
    rw [after_bind_iff, after_attempt]
    refine (cleanupCount_after request).mono fun result w₁ h₁ => ?_
    -- what goes on with the caller starts from the same scene
    have hresume : ∀ result, After (k.resume result) w₁ fun r w' => Gentle (some (.cleanupCount request k)) w r w' := by
      intro result
      exact (resume_gentle k result).mono fun r w' h => (Gentle.congr h₁.1).mpr h
    cases result with
    | error e => exact hresume (.error e)
    | ok counted =>
      cases counted with
      | inl response => exact hresume (.ok response)
      | inr c =>
        obtain ⟨hrow, hnone, -⟩ := h₁.2 c rfl
        refine (after_pure _ _ _).mpr (.cleans (.of_scene h₁.1) rfl (.inr ?_))
        rw [h₁.1]
        exact ⟨hnone, (Scene.row_id hrow).2⟩
  | cleanupLock c k =>
    refine after_bind (cleanupDirectory_after c) (fun c' w' h => ?_) fun e w' h => ?_
    · obtain ⟨hscene, c'', hc, hworktree⟩ := h
      obtain rfl := Except.ok.inj hc
      exact (after_pure _ _ _).mpr
        (.cleans (.of_disk hscene rfl rfl le_rfl) rfl (.inl (congrArg some hworktree.symm)))
    · obtain ⟨-, c'', hc, -⟩ := h
      cases hc
  | cleanupShowRef c k =>
    refine after_bind (cleanupShowRef_after c) (fun shown w' h => ?_) fun e w' h => ?_
    · obtain ⟨hscene, c'', there, hc, hworktree⟩ := h
      obtain rfl := Except.ok.inj hc
      cases there <;>
        exact (after_pure _ _ _).mpr (.cleans (.of_scene hscene) rfl (.inl (congrArg some hworktree.symm)))
    · obtain ⟨-, c'', there, hc, -⟩ := h
      cases hc
  | cleanupBranch c k =>
    refine after_bind (cleanupBranch_after c) (fun c' w' h => ?_) fun e w' h => ?_
    · obtain ⟨hscene, c'', hc, hworktree⟩ := h
      obtain rfl := Except.ok.inj hc
      exact (after_pure _ _ _).mpr
        (.cleans (.of_disk hscene rfl rfl le_rfl) rfl (.inl (congrArg some hworktree.symm)))
    · obtain ⟨-, c'', hc, -⟩ := h
      cases hc
  | cleanupEnd c k =>
    refine after_bind (quiet_cleanupEnd c w) (fun response w₁ h₁ => ?_) fun e w₁ h₁ => .fails (.of_scene h₁)
    exact (resume_gentle k (.ok response)).mono fun r w' h => (Gentle.congr h₁).mpr h

end

namespace WorktreeServer

theorem lookup_put {calls : Table ℕ WorktreeCall} {i j : ℕ} {after : Option WorktreeCall} :
    (put calls i after).lookup j = if j = i then after else calls.lookup j := by
  cases after with
  | none => exact Table.lookup_erase _ _ _
  | some c => exact Table.lookup_insert _ _ _ _

theorem left_eq {r : Except RuntimeError (Option WorktreeCall)} {c : WorktreeCall} (h : left r = some c) :
    r = .ok (some c) := by
  cases r with
  | ok after => exact congrArg Except.ok h
  | error e => cases h

end WorktreeServer

/-! ## Steps -/

theorem claimWrite_piece {w : Worktrees} (worktree : ManagedWorktreeRecord) (claim : ManagedWorktreeClaimRecord) :
    After (WorktreeCall.claimWrite worktree claim).piece w fun r w' =>
      (w'.scene = w.scene ∨ w'.scene = w.scene.put claim) ∧ ∀ call, r ≠ .ok (some call) := by
  refine after_bind (claimWrite_after worktree claim) (fun _ w' h => (after_pure _ _ _).mpr ?_) fun e w' h => ?_
  · exact ⟨h.elim (fun h => .inl h.1) fun h => .inr h.1, fun _ he => by cases he⟩
  · exact ⟨h.elim (fun h => .inl h.1) fun h => .inr h.1, fun _ he => by cases he⟩

def Released (s : WorktreeServer) : Prop :=
  ∀ i request worktree released, s.calls.lookup i = some (.releaseWrite request worktree released) →
    released.active = false

/-- What a step does: a gentle piece of a call, the write of a claim, or nothing to the records. -/
inductive WorktreeMove (s s' : WorktreeServer) : WorktreeLabel → Prop where
  | begun (i : ℕ) (op : WorktreeOperation) (server : s' = s.settle i op.begin)
      (gentle : Gentle none s.manager (op.begin.result s.manager).1 s'.manager) : WorktreeMove s s' (.start i op)
  | went (i : ℕ) (c : WorktreeCall) (call : s.calls.lookup i = some c) (server : s' = s.settle i c.piece)
      (gentle : Gentle (some c) s.manager (c.piece.result s.manager).1 s'.manager) : WorktreeMove s s' (.goOn i)
  | claimed (i : ℕ) (worktree : ManagedWorktreeRecord) (claim : ManagedWorktreeClaimRecord)
      (call : s.calls.lookup i = some (.claimWrite worktree claim))
      (scene : s'.manager.scene = s.manager.scene ∨ s'.manager.scene = s.manager.scene.put claim)
      (calls : ∀ j call, s'.calls.lookup j = some call → s.calls.lookup j = some call) : WorktreeMove s s' (.goOn i)
  | outside (l : WorktreeLabel) (claims : s'.manager.scene.claims = s.manager.scene.claims)
      (worktrees : s'.manager.scene.worktrees = s.manager.scene.worktrees)
      (next : s'.manager.scene.nextWorktreeId = s.manager.scene.nextWorktreeId) (calls : s'.calls = s.calls) :
      WorktreeMove s s' l

namespace WorktreeServer

variable {s s' : WorktreeServer}

theorem settle_lookup {i j : ℕ} {piece : WorktreeM (Option WorktreeCall)} {call : WorktreeCall}
    (h : (s.settle i piece).calls.lookup j = some call) :
    (piece.result s.manager).1 = .ok (some call) ∨ s.calls.lookup j = some call := by
  simp only [settle, lookup_put] at h
  split at h
  · exact .inl (left_eq h)
  · exact .inr h

theorem claimWrite_calls {i j : ℕ} {worktree : ManagedWorktreeRecord} {claim : ManagedWorktreeClaimRecord}
    {call : WorktreeCall}
    (h : (s.settle i (WorktreeCall.claimWrite worktree claim).piece).calls.lookup j = some call) :
    s.calls.lookup j = some call :=
  (settle_lookup h).resolve_left ((claimWrite_piece worktree claim).out.2 call)

theorem step_moves (h : Released s) {l : WorktreeLabel} (hs : step l s = some s') : WorktreeMove s s' l := by
  cases l with
  | start i op =>
    simp only [step] at hs
    split at hs
    · cases hs
    · obtain rfl := Option.some.inj hs
      exact .begun i op rfl (begin_gentle op).out
  | goOn i =>
    simp only [step, Option.bind_eq_bind, Option.bind_eq_some_iff] at hs
    obtain ⟨c, hc, hs⟩ := hs
    split at hs
    · cases hs
    obtain rfl := Option.some.inj hs
    by_cases hclaim : ∃ worktree claim, c = .claimWrite worktree claim
    · obtain ⟨worktree, claim, rfl⟩ := hclaim
      exact .claimed i worktree claim hc (claimWrite_piece worktree claim).out.1 fun _ _ => claimWrite_calls
    · refine .went i c hc rfl (piece_gentle c (fun worktree claim he => hclaim ⟨worktree, claim, he⟩) ?_).out
      intro request worktree released he
      exact h i request worktree released (he ▸ hc)
  | tick now =>
    obtain rfl := Option.some.inj hs
    exact .outside _ rfl rfl rfl rfl
  | outside paths branches =>
    obtain rfl := Option.some.inj hs
    exact .outside _ rfl rfl rfl rfl

end WorktreeServer

theorem released_step {s s' : WorktreeServer} (h : Released s) {l : WorktreeLabel}
    (hs : WorktreeServer.step l s = some s') :
    Released s' := by
  intro j request worktree released hj
  cases WorktreeServer.step_moves h hs with
  | begun i op server gentle =>
    subst server
    rcases WorktreeServer.settle_lookup hj with hr | hj
    · exact gentle.release request worktree released hr
    · exact h j request worktree released hj
  | went i c call server gentle =>
    subst server
    rcases WorktreeServer.settle_lookup hj with hr | hj
    · exact gentle.release request worktree released hr
    · exact h j request worktree released hj
  | claimed i worktree' claim call scene calls => exact h j request worktree released (calls _ _ hj)
  | outside _ claims worktrees next calls =>
    rw [calls] at hj
    exact h j request worktree released hj

theorem released_start (w : Worktrees) : Released (.start w) := by
  intro i request worktree released hi
  simp [WorktreeServer.start] at hi

end Gooselake.Tools
