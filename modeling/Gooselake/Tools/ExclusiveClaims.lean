import Mathlib.Data.List.Dedup
import Gooselake.Tools.WorktreeMoves
import Gooselake.Tools.WorktreeRepair

/-!
One active claim per session. Startup repair establishes it, and a claim keeps it if the check it made
when it read the store still holds when it writes; nothing makes sure of that.
-/

namespace Gooselake.Tools

open Gooselake.Core Data Library Library.Exec

set_option autoImplicit false

/-- The claims have different keys, as the table's primary key demands, and no session has active ones on
two worktrees. -/
structure ClaimsExclusive (claims : List ManagedWorktreeClaimRecord) : Prop where
  keys : (claims.map ManagedWorktreeClaimRecord.key).Nodup
  one : ∀ a ∈ claims, ∀ b ∈ claims, a.active = true → b.active = true → a.sessionId = b.sessionId →
    a.worktreeId = b.worktreeId

/-- No session has two active claims. -/
def OneClaimPerSession (claims : List ManagedWorktreeClaimRecord) : Prop :=
  ∀ sessionId, (claims.filter fun c => c.sessionId = sessionId && c.active).length ≤ 1

theorem ClaimsExclusive.oneClaimPerSession {claims : List ManagedWorktreeClaimRecord} (h : ClaimsExclusive claims) :
    OneClaimPerSession claims := by
  intro sessionId
  have hnodup : (claims.filter fun c => c.sessionId = sessionId && c.active).Nodup :=
    List.Nodup.filter _ (List.Nodup.of_map _ h.keys)
  generalize hl : (claims.filter fun c => c.sessionId = sessionId && c.active) = mine at hnodup ⊢
  match mine with
  | [] => exact Nat.zero_le _
  | [_] => exact le_rfl
  | a :: b :: rest =>
    have hmem : ∀ c ∈ a :: b :: rest, c ∈ claims ∧ c.sessionId = sessionId ∧ c.active = true := by
      intro c hc
      rw [← hl, List.mem_filter, Bool.and_eq_true, decide_eq_true_eq] at hc
      exact hc
    obtain ⟨ha, hsa, haa⟩ := hmem a List.mem_cons_self
    obtain ⟨hb, hsb, hba⟩ := hmem b (List.mem_cons_of_mem _ List.mem_cons_self)
    have hsession : a.sessionId = b.sessionId := hsa.trans hsb.symm
    have hkey : a.key = b.key := Prod.ext (h.one a ha b hb haa hba hsession) hsession
    have heq : a = b := List.inj_on_of_nodup_map h.keys ha hb hkey
    exact absurd (heq ▸ List.mem_cons_self) (List.nodup_cons.mp hnodup).1

/-! ## What repair leaves -/

section

variable {now : ℤ}

theorem releaseNow_key (now : ℤ) (claim : ManagedWorktreeClaimRecord) : (releaseNow now claim).key = claim.key := rfl

theorem releaseNow_active (claim : ManagedWorktreeClaimRecord) : (releaseNow now claim).active = false := rfl

theorem releaseLosing_active {losing : List (String × String)} {t : Table (String × String) ManagedWorktreeClaimRecord}
    {k : String × String} {c : ManagedWorktreeClaimRecord} (h : (releaseLosing now losing t).lookup k = some c)
    (hc : c.active = true) : t.lookup k = some c ∧ k ∉ losing := by
  induction losing generalizing t with
  | nil => exact ⟨h, List.not_mem_nil⟩
  | cons key losing ih =>
    obtain ⟨hlookup, hmem⟩ := ih h
    rw [Table.lookup_update] at hlookup
    by_cases hk : k = key
    · rw [if_pos hk] at hlookup
      obtain ⟨old, -, rfl⟩ := Option.map_eq_some_iff.mp hlookup
      exact absurd hc (by simp [releaseNow_active])
    · rw [if_neg hk] at hlookup
      exact ⟨hlookup, fun hin => (List.mem_cons.mp hin).elim hk hmem⟩

theorem releaseLosing_isSome (now : ℤ) (losing : List (String × String))
    (t : Table (String × String) ManagedWorktreeClaimRecord)
    (k : String × String) : ((releaseLosing now losing t).lookup k).isSome ↔ (t.lookup k).isSome := by
  induction losing generalizing t with
  | nil => rfl
  | cons key losing ih =>
    refine (ih _).trans ?_
    rw [Table.isSome_update]

def Keyed (t : Table (String × String) ManagedWorktreeClaimRecord) : Prop := ∀ k c, t.lookup k = some c → c.key = k

theorem Keyed.releaseLosing {t : Table (String × String) ManagedWorktreeClaimRecord} (h : Keyed t)
    (losing : List (String × String)) : Keyed (releaseLosing now losing t) := by
  induction losing generalizing t with
  | nil => exact h
  | cons key losing ih =>
    refine ih fun k c hc => ?_
    rw [Table.lookup_update] at hc
    split at hc
    · next hk =>
      obtain ⟨old, hold, rfl⟩ := Option.map_eq_some_iff.mp hc
      exact (h key old hold).trans hk.symm
    · exact h k c hc

theorem releaseLosing_one {records : MergedRecords} {t : Table (String × String) ManagedWorktreeClaimRecord}
    (h : Keyed t) {k k' : String × String} {c c' : ManagedWorktreeClaimRecord}
    (hc : (releaseLosing now (losingClaims records (t.sortedValues keyBefore)) t).lookup k = some c)
    (hc' : (releaseLosing now (losingClaims records (t.sortedValues keyBefore)) t).lookup k' = some c')
    (ha : c.active = true) (ha' : c'.active = true) (hs : c.sessionId = c'.sessionId) : c = c' := by
  obtain ⟨hlookup, hlosing⟩ := releaseLosing_active hc ha
  obtain ⟨hlookup', hlosing'⟩ := releaseLosing_active hc' ha'
  have hvalue : c ∈ t.sortedValues keyBefore := Table.mem_sortedValues.mpr (Table.mem_values.mpr ⟨k, hlookup⟩)
  have hvalue' : c' ∈ t.sortedValues keyBefore := Table.mem_sortedValues.mpr (Table.mem_values.mpr ⟨k', hlookup'⟩)
  -- both are in the session's list, and in no place but its first
  have hin : ∀ x : ManagedWorktreeClaimRecord, x ∈ t.sortedValues keyBefore → x.active = true →
      x.sessionId = c.sessionId → x ∈ activeClaimsBySession records (t.sortedValues keyBefore) c.sessionId := by
    intro x hx hactive hsession
    refine (List.perm_insertionSort _ _).mem_iff.mpr (List.mem_filter.mpr ⟨hx, ?_⟩)
    simp [hsession, hactive]
  have hfirst : ∀ x : ManagedWorktreeClaimRecord, x.key ∉ losingClaims records (t.sortedValues keyBefore) →
      x.key ∉ (activeClaimsBySession records (t.sortedValues keyBefore) c.sessionId).tail.map
        ManagedWorktreeClaimRecord.key := by
    intro x hx htail
    refine hx (List.mem_flatMap.mpr ⟨c.sessionId, List.mem_dedup.mpr ?_, htail⟩)
    exact List.mem_map_of_mem hvalue
  have hmem := hin c hvalue ha rfl
  have hmem' := hin c' hvalue' ha' hs.symm
  have hnot := hfirst c (h k c hlookup ▸ hlosing)
  have hnot' := hfirst c' (h k' c' hlookup' ▸ hlosing')
  cases hl : activeClaimsBySession records (t.sortedValues keyBefore) c.sessionId with
  | nil =>
    rw [hl] at hmem
    cases hmem
  | cons first rest =>
    rw [hl] at hmem hmem' hnot hnot'
    rcases List.mem_cons.mp hmem with rfl | hmem
    · rcases List.mem_cons.mp hmem' with rfl | hmem'
      · rfl
      · exact absurd (List.mem_map_of_mem hmem') hnot'
    · exact absurd (List.mem_map_of_mem hmem) hnot

/-! ## The claims that are written -/

abbrev Trimmed (c : ManagedWorktreeClaimRecord) : Prop :=
  trim c.worktreeId = c.worktreeId ∧ trim c.sessionId = c.sessionId

/-- What the loop over the claims `done` has come to. -/
structure ClaimsMerged (done : List ManagedWorktreeClaimRecord) (m : MergedClaims) : Prop where
  keyed : Keyed m.claimByKey
  changed : ∀ c ∈ m.claimsChanged, c.active = false
  covered : ∀ c ∈ done, Trimmed c →
    (m.claimByKey.lookup c.key).isSome ∨ c.key ∈ m.claimsChanged.map ManagedWorktreeClaimRecord.key

theorem mergeSameKey_key (existing claim : ManagedWorktreeClaimRecord) :
    (mergeSameKey existing claim).key = existing.key :=
  rfl

theorem ClaimsMerged.add {done : List ManagedWorktreeClaimRecord} {m : MergedClaims} (h : ClaimsMerged done m)
    {records : MergedRecords} {sessionIds : List String} (original : ManagedWorktreeClaimRecord) :
    ClaimsMerged (done ++ [original]) (mergeClaim records sessionIds now m original) := by
  have hkey : Trimmed original → (normalizeClaim original).key = original.key := fun ht => Prod.ext ht.1 ht.2
  unfold mergeClaim
  dsimp only
  split
  · -- a claim without a worktree or a session
    refine ⟨h.keyed, fun c hc => ?_, fun c hc ht => ?_⟩
    · rcases List.mem_append.mp hc with hc | hc
      · exact h.changed c hc
      · obtain rfl := List.mem_singleton.mp hc
        exact releaseNow_active _
    · rcases List.mem_append.mp hc with hc | hc
      · refine (h.covered c hc ht).imp id fun hc => ?_
        rw [List.map_append]
        exact List.mem_append_left _ hc
      · obtain rfl := List.mem_singleton.mp hc
        refine .inr ?_
        rw [List.map_append, ← hkey ht, ← releaseNow_key now (normalizeClaim c)]
        exact List.mem_append_right _ (List.mem_map_of_mem (List.mem_singleton_self _))
  · -- the claim enters the table under its key, and stays behind as changed when it moved to a winner
    generalize hclaim : repairedClaim records sessionIds now (normalizeClaim original) = claim
    refine ⟨fun k c hc => ?_, fun c hc => ?_, fun c hc ht => ?_⟩
    · rw [Table.lookup_insert] at hc
      split at hc
      · next hk =>
        obtain rfl := Option.some.inj hc
        rw [hk]
        cases hold : m.claimByKey.lookup claim.key with
        | none => rfl
        | some existing => exact (mergeSameKey_key existing claim).trans (h.keyed _ _ hold)
      · exact h.keyed k c hc
    · dsimp only at hc
      split at hc
      · rcases List.mem_append.mp hc with hc | hc
        · exact h.changed c hc
        · obtain rfl := List.mem_singleton.mp hc
          exact releaseNow_active _
      · exact h.changed c hc
    · dsimp only
      rw [Table.isSome_insert]
      rcases List.mem_append.mp hc with hc | hc
      · rcases h.covered c hc ht with hc | hc
        · exact .inl (.inr hc)
        · refine .inr ?_
          split
          · rw [List.map_append]
            exact List.mem_append_left _ hc
          · exact hc
      · obtain rfl := List.mem_singleton.mp hc
        by_cases hloser : (normalizeClaim c).worktreeId ∈ records.loserToWinner
        · refine .inr ?_
          rw [if_pos hloser, List.map_append, ← hkey ht, ← releaseNow_key now (normalizeClaim c)]
          exact List.mem_append_right _ (List.mem_map_of_mem (List.mem_singleton_self _))
        · -- the worktree is no loser: the claim keeps its key
          refine .inl (.inl ?_)
          have hmoved : (records.loserToWinner.lookup (normalizeClaim c).worktreeId) = none := by
            rwa [AList.lookup_eq_none]
          rw [← hkey ht, ← hclaim, repairedClaim, hmoved]
          generalize normalizeClaim c = normalized
          dsimp only
          split <;> rfl

theorem claimsMerged_foldl {records : MergedRecords} {sessionIds : List String}
    (claims : List ManagedWorktreeClaimRecord) :
    ClaimsMerged claims (claims.foldl (mergeClaim records sessionIds now) ⟨∅, []⟩) := by
  have hfold : ∀ (rest done : List ManagedWorktreeClaimRecord) (m : MergedClaims), ClaimsMerged done m →
      ClaimsMerged (done ++ rest) (rest.foldl (mergeClaim records sessionIds now) m) := by
    intro rest
    induction rest with
    | nil =>
      intro done m h
      rwa [List.append_nil]
    | cons original rest ih =>
      intro done m h
      have := ih (done ++ [original]) (mergeClaim records sessionIds now m original) (h.add original)
      rwa [List.append_assoc] at this
  exact hfold claims [] _ ⟨fun k c hc => (by cases hc), fun c hc => (by cases hc), fun c hc => by cases hc⟩

end

/-! ## The writes of repair -/

section

variable {w : Worktrees}

theorem upsertWorktree_claims (r : ManagedWorktreeRecord) :
    After (onWorktreeStore (ToolStore.upsertManagedWorktree r)) w fun _ w' => w'.scene.claims = w.scene.claims := by
  refine after_write (fun e w' h => congrArg Scene.claims h) fun faults => ?_
  simp only [Worktrees.scene]
  split <;> rfl

theorem upsertTombstone_claims (byId : Table String ManagedWorktreeRecord) (now : ℤ) (id : String) :
    After (upsertTombstone byId now id) w fun _ w' => w'.scene.claims = w.scene.claims := by
  unfold upsertTombstone
  split
  · exact upsertWorktree_claims _
  · exact (after_pure _ _ _).mpr rfl

theorem upsertClaims_after (claims : List ManagedWorktreeClaimRecord) :
    After (claims.forM fun claim => onWorktreeStore (ToolStore.upsertManagedWorktreeClaim claim)) w fun r w' =>
      r = .ok () → w'.scene.claims =
        claims.foldl (fun rows row =>
        upsert ManagedWorktreeClaimRecord.key (fun _ new => new) row rows) w.scene.claims := by
  induction claims generalizing w with
  | nil => exact (after_pure _ _ _).mpr fun _ => rfl
  | cons claim claims ih =>
    refine after_bind (upsertClaim_after claim) (fun _ w₁ h₁ => ?_) fun e w₁ h₁ he => by cases he
    obtain ⟨-, hne⟩ | ⟨h₁, -⟩ := h₁
    · exact absurd rfl hne
    refine ih.mono fun r w' h he => (h he).trans ?_
    rw [h₁]
    rfl

theorem repairStartupState_after (hydrated : ToolStore) : After (repairStartupState hydrated) w fun r w' =>
    r = .ok () → ∃ m, m = repairedClaims (mergedRecords hydrated.worktrees) hydrated w.clock ∧
      w'.scene.claims = (m.claimByKey.sortedValues keyBefore ++ m.claimsChanged).foldl
        (fun rows row => upsert ManagedWorktreeClaimRecord.key (fun _ new => new) row rows) w.scene.claims := by
  have hkeep : ∀ {w' : Worktrees} {e : RuntimeError} {p : Prop}, w'.scene.claims = w.scene.claims →
      (Except.error e : Except RuntimeError Unit) = .ok () → p := fun _ he => by cases he
  unfold repairStartupState
  rw [after_bind_iff, after_get]
  refine after_bind (after_forM (I := fun w' => w'.scene.claims = w.scene.claims) _ _ (fun r _ w' h =>
    (upsertWorktree_claims r).mono fun _ _ h' => h'.trans h) rfl) (fun _ w₁ h₁ => ?_) fun e w₁ h₁ => hkeep h₁
  refine after_bind (after_forM (I := fun w' => w'.scene.claims = w.scene.claims) _ _ (fun r _ w' h =>
    (upsertTombstone_claims _ _ r).mono fun _ _ h' => h'.trans h) h₁) (fun _ w₂ h₂ => ?_) fun e w₂ h₂ => hkeep h₂
  refine after_bind (after_forM (I := fun w' => w'.scene.claims = w.scene.claims) _ _ (fun r _ w' h =>
    (upsertTombstone_claims _ _ r).mono fun _ _ h' => h'.trans h) h₂) (fun _ w₃ h₃ => ?_) fun e w₃ h₃ => hkeep h₃
  refine after_bind (upsertClaims_after _) (fun _ w₄ h₄ => ?_) fun e w₄ _ he => by cases he
  refine (upsertClaims_after _).mono fun r w' h he => ⟨_, rfl, ?_⟩
  rw [h he, h₄ rfl, h₃, List.foldl_append]

theorem repairStartupState_exclusive {w' : Worktrees}
    (hkeys : (w.store.claims.map ManagedWorktreeClaimRecord.key).Nodup)
    (htrimmed : ∀ c ∈ w.store.claims, c.active = true → Trimmed c)
    (h : (repairStartupState w.store).result w = (.ok (), w')) : ClaimsExclusive w'.scene.claims := by
  have hafter := (repairStartupState_after (w := w) w.store).out
  rw [h] at hafter
  obtain ⟨m, hm, hclaims⟩ := hafter rfl
  have hmerged : ClaimsMerged (hydratedClaims w.store) ((hydratedClaims w.store).foldl
      (mergeClaim (mergedRecords w.store.worktrees) (w.store.base.sessions.map fun session => trim session.id) w.clock)
      ⟨∅, []⟩) := claimsMerged_foldl _
  obtain ⟨hnodup, hmem⟩ := upsert_all (m.claimByKey.sortedValues keyBefore ++ m.claimsChanged) w.scene.claims hkeys
  rw [← hclaims] at hnodup hmem
  -- an active claim is one of those repair kept
  have hkept : ∀ c ∈ w'.scene.claims, c.active = true → ∃ k, m.claimByKey.lookup k = some c := by
    intro c hc hactive
    rcases hmem c hc with hc | ⟨hc, hout⟩
    · rcases List.mem_append.mp hc with hc | hc
      · exact Table.mem_values.mp (Table.mem_sortedValues.mp hc)
      · rw [hm] at hc
        exact absurd hactive (by simp [hmerged.changed c hc])
    · exfalso
      refine hout ?_
      rw [List.map_append, hm]
      have hdone : c ∈ hydratedClaims w.store := (List.perm_insertionSort _ _).mem_iff.mpr hc
      rcases hmerged.covered c hdone (htrimmed c hc hactive) with hthere | hthere
      · have hstill := (releaseLosing_isSome w.clock (losingClaims (mergedRecords w.store.worktrees)
          (((hydratedClaims w.store).foldl (mergeClaim (mergedRecords w.store.worktrees)
            (w.store.base.sessions.map fun session => trim session.id) w.clock) ⟨∅, []⟩).claimByKey.sortedValues
              keyBefore)) _ _).mpr hthere
        obtain ⟨c', hc'⟩ := Option.isSome_iff_exists.mp hstill
        refine List.mem_append_left _ ?_
        rw [← hmerged.keyed.releaseLosing _ _ _ hc']
        exact List.mem_map_of_mem (Table.mem_sortedValues.mpr (Table.mem_values.mpr ⟨_, hc'⟩))
      · exact List.mem_append_right _ hthere
  refine ⟨hnodup, fun a ha b hb haa hba hs => ?_⟩
  obtain ⟨k, hk⟩ := hkept a ha haa
  obtain ⟨k', hk'⟩ := hkept b hb hba
  rw [hm] at hk hk'
  rw [releaseLosing_one hmerged.keyed hk hk' haa hba hs]

end

/-! ## Steps -/

/-- When a claim is written, the session has no active one on another worktree. -/
def conflictChecked : WorktreeLabel → WorktreeServer → Bool
  | .goOn i, s => (s.calls.lookup i).all fun c =>
    match c with
    | .claimWrite _ claim =>
      (conflictingClaim s.manager.store ⟨claim.worktreeId, claim.sessionId, claim.claimRole⟩).isNone
    | _ => true
  | _, _ => true

theorem ClaimsExclusive.put {s : Scene} (h : ClaimsExclusive s.claims) {claim : ManagedWorktreeClaimRecord}
    (hfree : claim.active = true → ∀ row ∈ s.claims, row.sessionId = claim.sessionId → row.active = true →
      row.worktreeId = claim.worktreeId) : ClaimsExclusive (s.put claim).claims := by
  have hput : ∀ r ∈ (s.put claim).claims, r = claim ∨ (r ∈ s.claims ∧ r.key ≠ claim.key) :=
    fun r hr => mem_upsert_new h.keys hr
  refine ⟨nodup_upsert (fun _ => rfl) h.keys, fun a ha b hb haa hba hs => ?_⟩
  rcases hput a ha with rfl | ⟨hold, -⟩
  · rcases hput b hb with rfl | ⟨hold', -⟩
    · rfl
    · exact (hfree haa b hold' hs.symm hba).symm
  · rcases hput b hb with rfl | ⟨hold', -⟩
    · exact hfree hba a hold hs haa
    · exact h.one a hold b hold' haa hba hs

theorem ClaimMove.exclusive {s s' : Scene} (hmove : ClaimMove s s') (h : ClaimsExclusive s.claims) :
    ClaimsExclusive s'.claims := by
  cases hmove with
  | same claims => rwa [claims]
  | released claim active claims =>
    rw [claims]
    exact h.put fun he => by rw [active] at he; cases he

theorem claimsExclusive_step {s s' : WorktreeServer} (hreleased : Released s)
    (h : ClaimsExclusive s.manager.scene.claims)
    {l : WorktreeLabel} (hcond : conflictChecked l s = true) (hs : WorktreeServer.step l s = some s') :
    ClaimsExclusive s'.manager.scene.claims := by
  cases WorktreeServer.step_moves hreleased hs with
  | begun i op server gentle => exact gentle.claims.exclusive h
  | went i c call server gentle => exact gentle.claims.exclusive h
  | claimed i worktree claim call scene calls =>
    rcases scene with scene | scene <;> rw [scene]
    · exact h
    · refine h.put fun _ row hrow hsession hactive => ?_
      simp only [conflictChecked, call, Option.all_some, conflictingClaim, Option.isNone_iff_eq_none,
        List.find?_eq_none] at hcond
      by_contra hne
      exact hcond row hrow (by simp [hsession, hactive, hne])
  | outside _ claims worktrees next calls => rwa [claims]

/-! ## Claims in every run -/

/-- In every run from a repaired store, the ids of whose active claims had no blanks around them. -/
theorem one_claim_per_session {w w' : Worktrees} {s : WorktreeServer}
    (hkeys : (w.store.claims.map ManagedWorktreeClaimRecord.key).Nodup)
    (htrimmed : ∀ c ∈ w.store.claims, c.active = true → Trimmed c)
    (hrepair : (repairStartupState w.store).result w = (.ok (), w'))
    (hr : Reaches WorktreeServer.step (fun l s => conflictChecked l s = true) (.start w') s) :
    OneClaimPerSession s.manager.store.claims := by
  have hstart := repairStartupState_exclusive hkeys htrimmed hrepair
  have hinv := hr.invariant (I := fun s => Released s ∧ ClaimsExclusive s.manager.scene.claims)
    ⟨released_start w', hstart⟩ fun _ _ _ h hp hs =>
      ⟨released_step h.1 hs, claimsExclusive_step h.1 h.2 hp hs⟩
  exact hinv.2.oneClaimPerSession

def Worktrees.claimedTwice : Worktrees :=
  { Worktrees.first with
    store := { ToolStore.empty [] with
      base := { Store.empty [] with sessions := [{ sourceSession with id := "s" }] }
      worktrees := ["a", "b"].map fun id => ⟨id, "r", "w", id, id, id, "u", retainOnLastClaim, none, none, 0, 0⟩
      claims := ["a", "b"].map fun id => ⟨id, "s", "owner", 0, none⟩ } }

def Worktrees.repaired (w : Worktrees) : Worktrees := ((repairStartupState w.store).result w).2

theorem claimedTwice_repaired : (repairStartupState Worktrees.claimedTwice.store).result Worktrees.claimedTwice =
    (.ok (), Worktrees.claimedTwice.repaired) :=
  Prod.ext (by decide +kernel) rfl

def claimMoved : List WorktreeLabel :=
  [.start 1 (.release ⟨"a", "s", none⟩), .goOn 1, .goOn 1, .goOn 1, .start 2 (.claim ⟨"b", "s", "owner"⟩), .goOn 2]

theorem one_claim_per_session_moved : ∃ s : WorktreeServer,
    (s.manager.store.claims.map fun c => (c.worktreeId, c.active)) = [("a", false), ("b", true)] ∧
      OneClaimPerSession s.manager.store.claims := by
  obtain ⟨s, hs, he⟩ := exists_reaches_of_runAll WorktreeServer.step conflictChecked claimMoved
    (fun s => s.manager.store.claims.map fun c => (c.worktreeId, c.active)) [("a", false), ("b", true)]
    (s := .start Worktrees.claimedTwice.repaired) (by decide +kernel)
  exact ⟨s, he, one_claim_per_session (by decide +kernel) (by decide +kernel) claimedTwice_repaired hs⟩

def claimsRaced : List WorktreeLabel :=
  [.start 1 (.release ⟨"a", "s", none⟩), .goOn 1, .goOn 1, .goOn 1, .start 2 (.claim ⟨"a", "s", "owner"⟩),
    .start 3 (.claim ⟨"b", "s", "owner"⟩), .goOn 2, .goOn 3]

theorem not_one_claim_per_session : ¬ ∀ (w w' : Worktrees) (s : WorktreeServer),
    (w.store.claims.map ManagedWorktreeClaimRecord.key).Nodup →
    (repairStartupState w.store).result w = (.ok (), w') →
    Reaches WorktreeServer.step (fun _ _ => True) (.start w') s → OneClaimPerSession s.manager.store.claims := by
  intro hall
  obtain ⟨s, hs, he⟩ := exists_reaches_of_runAll WorktreeServer.step (fun _ _ => true) claimsRaced
    (fun s => (s.manager.store.claims.filter fun c => c.sessionId = "s" && c.active).length) 2
    (s := .start Worktrees.claimedTwice.repaired) (by decide +kernel)
  have hone := hall _ _ s (by decide +kernel) claimedTwice_repaired (hs.mono fun _ _ _ => trivial) "s"
  omega

end Gooselake.Tools
