import Gooselake.Tools.WorktreeMoves

/-!
Claimed worktrees and cleanups. A cleanup counts the claims before it waits for the lock and deletes
later; claiming looks at neither. A claim is safe from cleanups as long as it is not written between the
count and the end of a cleanup of its worktree, nor after one, until the worktree is created again.
-/

namespace Gooselake.Tools

open Gooselake.Core Data Library Library.Exec

set_option autoImplicit false

/-! ## What an observer sees -/

/-- A directory or a branch that a cleanup removed, and how many claims on the worktree were active then. -/
structure Removal where
  worktreeId : String
  activeClaims : ℕ
  deriving DecidableEq, Repr

structure WorktreeWatch where
  server : WorktreeServer
  removals : List Removal
  /-- The worktrees whose directory and branch a cleanup removed, until they are created again. -/
  gone : List String

namespace WorktreeWatch

def start (w : Worktrees) : WorktreeWatch := ⟨.start w, [], []⟩

def removes (row : ManagedWorktreeRecord) (before after : Scene) : Bool :=
  (row.worktreeCwd ∈ before.paths && row.worktreeCwd ∉ after.paths) ||
    ((row.repoRoot, row.branchName) ∈ before.branches && (row.repoRoot, row.branchName) ∉ after.branches)

def nothingLeft (row : ManagedWorktreeRecord) (s : Scene) : Bool :=
  row.worktreeCwd ∉ s.paths && (row.repoRoot, row.branchName) ∉ s.branches

def recreates (c : WorktreeCall) (before after : Scene) (worktreeId : String) : Bool :=
  match c with
  | .createAdd _ planned => planned.worktreeCwd ∈ after.paths &&
      before.worktrees.any fun row => row.id = worktreeId && planned.identifies row
  | _ => false

/-- What is noted when a piece of call `c` leads to `server`. -/
def note (t : WorktreeWatch) (c : WorktreeCall) (server : WorktreeServer) : WorktreeWatch :=
  let before := t.server.manager.scene
  let after := server.manager.scene
  let gone := t.gone.filter fun id => !recreates c before after id
  match c.deleting with
  | none => ⟨server, t.removals, gone⟩
  | some row =>
    ⟨server,
      if removes row before after then t.removals ++ [⟨row.id, (before.activeClaims row.id).length⟩] else t.removals,
      if nothingLeft row after then gone.insert row.id else gone⟩

def step (l : WorktreeLabel) (t : WorktreeWatch) : Option WorktreeWatch :=
  (t.server.step l).map fun server =>
    match l with
    | .goOn i => (t.server.calls.lookup i).elim { t with server := server } fun c => t.note c server
    | _ => { t with server := server }

/-- No claim is written for a worktree that is being removed or is gone. -/
def claimsKept : WorktreeLabel → WorktreeWatch → Bool
  | .goOn i, t => (t.server.calls.lookup i).all fun c =>
    match c with
    | .claimWrite _ claim => claim.worktreeId ∉ t.gone &&
        t.server.calls.values.all fun other => other.deleting.all fun row => row.id ≠ claim.worktreeId
    | _ => true
  | _, _ => true

/-- The property: a cleanup removes something only while no claim on the worktree is active, and there is
no active claim on a worktree that is gone. -/
structure Safe (t : WorktreeWatch) : Prop where
  removals : ∀ r ∈ t.removals, r.activeClaims = 0
  gone : ∀ id ∈ t.gone, t.server.manager.scene.activeClaims id = []

end WorktreeWatch

/-! ## Steps -/

/-- The invariant: a cleanup past its count has no active claim on its worktree, and the property holds. -/
structure Guarded (t : WorktreeWatch) : Prop where
  deleting : ∀ i c row, t.server.calls.lookup i = some c → c.deleting = some row →
    t.server.manager.scene.activeClaims row.id = []
  release : Released t.server
  safe : t.Safe

section

variable {t t' : WorktreeWatch}

theorem Guarded.calls (h : Guarded t) {i : ℕ} {c : Option WorktreeCall} {piece : WorktreeM (Option WorktreeCall)}
    (hc : ∀ call, c = some call → t.server.calls.lookup i = some call)
    (hg : After piece t.server.manager fun r w' => Gentle c t.server.manager r w') :
    (∀ j call row, (t.server.settle i piece).calls.lookup j = some call → call.deleting = some row →
      (t.server.settle i piece).manager.scene.activeClaims row.id = []) ∧
    Released (t.server.settle i piece) := by
  have hgentle := hg.out
  refine ⟨fun j call row hj hrow => ?_, fun j request worktree released hj => ?_⟩
  · rcases WorktreeServer.settle_lookup hj with hr | hj
    · rcases hgentle.deleting call row hr hrow with hbefore | ⟨hnone, -⟩
      · obtain ⟨before, rfl, hbefore⟩ := Option.bind_eq_some_iff.mp hbefore
        exact hgentle.claims.noNewClaims _ (h.deleting i before row (hc before rfl) hbefore)
      · exact hnone
    · exact hgentle.claims.noNewClaims _ (h.deleting j call row hj hrow)
  · rcases WorktreeServer.settle_lookup hj with hr | hj
    · exact hgentle.release request worktree released hr
    · exact h.release j request worktree released hj

theorem WorktreeWatch.note_server (t : WorktreeWatch) (c : WorktreeCall) (server : WorktreeServer) :
    (t.note c server).server = server := by
  unfold WorktreeWatch.note
  cases c.deleting <;> rfl

theorem Guarded.note (h : Guarded t) {c : WorktreeCall} {server : WorktreeServer}
    (hdeleting : ∀ row, c.deleting = some row → t.server.manager.scene.activeClaims row.id = [])
    (hclaims : ∀ id, id ∈ t.gone ∨ (∃ row, c.deleting = some row ∧ row.id = id) →
      server.manager.scene.activeClaims id = []) : (t.note c server).Safe := by
  unfold WorktreeWatch.note
  cases hd : c.deleting with
  | none =>
    refine ⟨h.safe.removals, fun id hid => hclaims id (.inl ?_)⟩
    exact (List.mem_filter.mp hid).1
  | some row =>
    have hnone := hdeleting row hd
    refine ⟨fun r hr => ?_, fun id hid => ?_⟩
    · dsimp only at hr
      split at hr
      · rcases List.mem_append.mp hr with hr | hr
        · exact h.safe.removals r hr
        · obtain rfl := List.mem_singleton.mp hr
          exact congrArg List.length hnone
      · exact h.safe.removals r hr
    · have hold : ∀ {id : String}, id ∈ t.gone.filter (fun id => !WorktreeWatch.recreates c
          t.server.manager.scene server.manager.scene id) → server.manager.scene.activeClaims id = [] :=
        fun hid => hclaims _ (.inl (List.mem_filter.mp hid).1)
      dsimp only at hid
      split at hid
      · rcases List.mem_insert_iff.mp hid with rfl | hid
        · exact hclaims _ (.inr ⟨row, hd, rfl⟩)
        · exact hold hid
      · exact hold hid

theorem Guarded.ofNote {c : WorktreeCall} {server : WorktreeServer}
    (hdeleting : ∀ i c row, server.calls.lookup i = some c → c.deleting = some row →
      server.manager.scene.activeClaims row.id = [])
    (hrelease : Released server) (hsafe : (t.note c server).Safe) : Guarded (t.note c server) := by
  refine ⟨?_, ?_, hsafe⟩
  · rw [t.note_server]
    exact hdeleting
  · rw [t.note_server]
    exact hrelease

theorem guarded_claimWrite (h : Guarded t) {i : ℕ} {worktree : ManagedWorktreeRecord}
    {claim : ManagedWorktreeClaimRecord} (hc : t.server.calls.lookup i = some (.claimWrite worktree claim))
    (hcond : WorktreeWatch.claimsKept (.goOn i) t = true) :
    Guarded (t.note (.claimWrite worktree claim)
      (t.server.settle i (WorktreeCall.claimWrite worktree claim).piece)) := by
  simp only [WorktreeWatch.claimsKept, hc, Option.all_some, Bool.and_eq_true, decide_eq_true_eq, List.all_eq_true,
    Option.all_eq_true] at hcond
  obtain ⟨hgone, hothers⟩ := hcond
  have hscene := (claimWrite_piece (w := t.server.manager) worktree claim).out.1
  -- on other worktrees than the claim's nothing changes
  have hkept : ∀ id, id ≠ claim.worktreeId → t.server.manager.scene.activeClaims id = [] →
      (t.server.settle i (WorktreeCall.claimWrite worktree claim).piece).manager.scene.activeClaims id = [] := by
    intro id hne hid
    simp only [WorktreeServer.settle]
    rcases hscene with hscene | hscene <;> rw [hscene]
    · exact hid
    · exact Scene.put_activeClaims (fun he => absurd he.symm hne) hid
  refine Guarded.ofNote (fun j call row hj hrow => ?_) (fun j request worktree' released hj => ?_) ?_
  · have hcall := WorktreeServer.claimWrite_calls hj
    refine hkept _ ?_ (h.deleting j call row hcall hrow)
    exact hothers call (Table.mem_values.mpr ⟨j, hcall⟩) row hrow
  · exact h.release j request worktree' released (WorktreeServer.claimWrite_calls hj)
  · refine h.note (fun row hrow => h.deleting i _ row hc hrow) fun id hid => ?_
    rcases hid with hid | ⟨row, hrow, -⟩
    · exact hkept id (fun he => hgone (he ▸ hid)) (h.safe.gone id hid)
    · cases hrow

theorem guarded_piece (h : Guarded t) {i : ℕ} {c : WorktreeCall} (hc : t.server.calls.lookup i = some c)
    (hclaim : ∀ worktree claim, c ≠ .claimWrite worktree claim) : Guarded (t.note c (t.server.settle i c.piece)) := by
  have hgentle := piece_gentle (w := t.server.manager) c hclaim fun request worktree released he =>
    h.release i request worktree released (he ▸ hc)
  obtain ⟨hcalls, hreleases⟩ := h.calls (c := some c) (fun call he => Option.some.inj he ▸ hc) hgentle
  refine Guarded.ofNote hcalls hreleases (h.note (fun row hrow => h.deleting i c row hc hrow) fun id hid => ?_)
  refine hgentle.out.claims.noNewClaims id ?_
  rcases hid with hid | ⟨row, hrow, rfl⟩
  · exact h.safe.gone id hid
  · exact h.deleting i c row hc hrow

theorem guarded_goOn (h : Guarded t) {i : ℕ} (hcond : WorktreeWatch.claimsKept (.goOn i) t = true)
    (hs : WorktreeWatch.step (.goOn i) t = some t') : Guarded t' := by
  obtain ⟨server, hstep, rfl⟩ := Option.map_eq_some_iff.mp hs
  simp only [WorktreeServer.step, Option.bind_eq_bind, Option.bind_eq_some_iff] at hstep
  obtain ⟨c, hc, hstep⟩ := hstep
  simp only [hc, Option.elim_some]
  split at hstep
  · cases hstep
  · obtain rfl := Option.some.inj hstep
    by_cases hclaim : ∃ worktree claim, c = .claimWrite worktree claim
    · obtain ⟨worktree, claim, rfl⟩ := hclaim
      exact guarded_claimWrite h hc hcond
    · exact guarded_piece h hc fun worktree claim he => hclaim ⟨worktree, claim, he⟩

theorem guarded_step (h : Guarded t) {l : WorktreeLabel} (hcond : WorktreeWatch.claimsKept l t = true)
    (hs : WorktreeWatch.step l t = some t') : Guarded t' := by
  cases l with
  | goOn i => exact guarded_goOn h hcond hs
  | start i op =>
    obtain ⟨server, hstep, rfl⟩ := Option.map_eq_some_iff.mp hs
    simp only [WorktreeServer.step] at hstep
    split at hstep
    · cases hstep
    · obtain rfl := Option.some.inj hstep
      have hgentle := begin_gentle (w := t.server.manager) op
      obtain ⟨hcalls, hreleases⟩ := h.calls (c := none) (fun _ he => by cases he) hgentle
      exact ⟨hcalls, hreleases, h.safe.removals, fun id hid => hgentle.out.claims.noNewClaims id (h.safe.gone id hid)⟩
  | tick now =>
    obtain ⟨server, hstep, rfl⟩ := Option.map_eq_some_iff.mp hs
    obtain rfl := Option.some.inj hstep
    exact ⟨h.deleting, h.release, h.safe.removals, h.safe.gone⟩
  | outside paths branches =>
    obtain ⟨server, hstep, rfl⟩ := Option.map_eq_some_iff.mp hs
    obtain rfl := Option.some.inj hstep
    exact ⟨h.deleting, h.release, h.safe.removals, h.safe.gone⟩

theorem guarded_start (w : Worktrees) : Guarded (.start w) := by
  refine ⟨fun i c row hc => ?_, released_start w, fun r hr => ?_, fun id hid => ?_⟩
  · simp [WorktreeWatch.start, WorktreeServer.start] at hc
  · cases hr
  · cases hid

end

/-! ## Claims and cleanups in every run -/

/-- In every run that meets the condition, from whatever is stored, no cleanup takes a claimed worktree's
directory or branch, and no worktree that is gone has an active claim. -/
theorem claimed_worktree_kept {w : Worktrees} {t : WorktreeWatch}
    (hr : Reaches WorktreeWatch.step (fun l t => WorktreeWatch.claimsKept l t = true) (.start w) t) : t.Safe :=
  (hr.invariant (guarded_start w) fun _ _ _ h hp hs => guarded_step h hp hs).safe

def worktreeCreated : List WorktreeLabel :=
  .start 0 (.create ⟨none, "sess_codex_0_1", none, "review", none, none, some "delete_on_last_claim", none, none, none⟩
    (.ok sourceSession)) :: List.replicate 7 (.goOn 0)

def claimedAndReleased : List WorktreeLabel :=
  [.start 1 (.claim ⟨"wt_1", "sess_codex_0_1", "owner"⟩), .goOn 1, .start 2 (.cleanup ⟨"wt_1", none⟩), .goOn 2,
    .start 3 (.release ⟨"wt_1", "sess_codex_0_1", none⟩), .goOn 3, .goOn 3, .goOn 3, .goOn 3, .goOn 3, .goOn 3, .goOn 3]

theorem claimed_worktree_kept_released : ∃ t : WorktreeWatch, t.gone = ["wt_1"] ∧ t.removals.length = 2 ∧ t.Safe := by
  obtain ⟨t, ht, he⟩ := exists_reaches_of_runAll WorktreeWatch.step WorktreeWatch.claimsKept
    (worktreeCreated ++ claimedAndReleased) (fun t => (t.gone, t.removals.length)) (["wt_1"], 2)
    (s := .start Worktrees.first) (by decide +kernel)
  obtain ⟨hgone, hremovals⟩ := Prod.mk.inj he
  exact ⟨t, hgone, hremovals, claimed_worktree_kept ht⟩

def claimedDuringCleanup : List WorktreeLabel :=
  [.start 1 (.claim ⟨"wt_1", "sess_codex_0_1", "owner"⟩), .start 2 (.cleanup ⟨"wt_1", none⟩), .goOn 2, .goOn 1, .goOn 2]

theorem not_claimed_worktree_kept : ¬ ∀ (w : Worktrees) (t : WorktreeWatch),
    Reaches WorktreeWatch.step (fun _ _ => True) (.start w) t → t.Safe := by
  intro hall
  obtain ⟨t, ht, he⟩ := exists_reaches_of_runAll WorktreeWatch.step (fun _ _ => true)
    (worktreeCreated ++ claimedDuringCleanup) WorktreeWatch.removals [⟨"wt_1", 1⟩] (s := .start Worktrees.first)
    (by decide +kernel)
  have hsafe := (hall _ t (ht.mono fun _ _ _ => trivial)).removals ⟨"wt_1", 1⟩ (by rw [he]; simp)
  cases hsafe

end Gooselake.Tools
