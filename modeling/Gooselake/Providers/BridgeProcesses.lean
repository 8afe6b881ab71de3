import Gooselake.Library.Slots
import Gooselake.Providers.BridgeSections

/-!
How many bridge processes of the Claude adapter run at once. The allocation counts the bridges of the map, and a bridge
is in the map only after it answered its first ping. In between its process runs for the call that spawned it, and
after a failed ping for nobody; a close takes the bridges out of the map before it stops them.
-/

namespace Gooselake.Providers.ClaudeAllocation

open Gooselake.Core Data Library

set_option autoImplicit false

structure BridgeHost where
  provider : ClaudeProvider
  spawned : List ℕ
  /-- The bridge that was spawned and did not answer its first ping yet. -/
  pinging : Option ℕ

namespace BridgeHost

def new (maxBridges maxSessionsPerBridge : ℕ) : BridgeHost := ⟨.new maxBridges maxSessionsPerBridge, [], none⟩

/-- The processes that were spawned and not shut down. -/
def running (s : BridgeHost) : List ℕ := s.spawned.filter fun bridge => bridge ∉ s.provider.closed

/-- `spawn_bridge_handle` ends twice: with the process, and with the answer to its first ping. A failed ping is an
error like one of the command, and nobody stops the process. -/
def goOn (i : ℕ) (c : Call) (answer : Except RuntimeError String) (s : BridgeHost) : Option BridgeHost :=
  if c.point = .spawning ∧ s.pinging = none ∧ answer.isOk then
    some { s with
      spawned := s.spawned ++ [s.provider.nextBridgeInstanceId], pinging := some s.provider.nextBridgeInstanceId }
  else
    (s.provider.advance i c answer).map fun provider =>
      { s with provider := provider, pinging := if c.point = .spawning then none else s.pinging }

def step (e : ClaudeProvider.Event) (s : BridgeHost) : Option BridgeHost :=
  match e with
  | .goOn i answer => (s.provider.calls[i]?).bind fun c => s.goOn i c answer
  | .fails bridge =>
    if bridge ∈ s.running then
      some { s with provider := { s.provider with closed := s.provider.closed ++ [bridge] } }
    else none
  | e => (s.provider.step e).map fun provider => { s with provider := provider }

/-- At most as many processes as allowed, and a session whose bridge did not fail is on one of them. -/
def Bounded (maxBridges : ℕ) (s : BridgeHost) : Prop :=
  s.running.length ≤ max 1 maxBridges ∧
  ∀ k h, s.provider.sessions.lookup k = some h → h.bridge ∉ s.provider.closed → h.bridge ∈ s.running

/-- A first ping that fails finds the bridge failed, and a call that decides for a new bridge finds nobody with a
running bridge taken out of the map. -/
def contained (e : ClaudeProvider.Event) (s : BridgeHost) : Bool :=
  match e with
  | .goOn i answer =>
    match s.provider.calls[i]? with
    | none => true
    | some c =>
      if c.point = .spawning then answer.isOk ∨ ∀ bridge ∈ s.pinging, bridge ∈ s.provider.closed
      else if decides c s.provider then
        s.provider.calls.all fun d => d.point.away.all fun bridge => bridge ∈ s.provider.closed
      else true
  | _ => true

section

variable {s s' : BridgeHost} {i : ℕ} {c c' : Call} {answer : Except RuntimeError String}

theorem goOn_cases (hs : s.goOn i c answer = some s') :
    (c.point = .spawning ∧ s.pinging = none ∧ s' = { s with
      spawned := s.spawned ++ [s.provider.nextBridgeInstanceId], pinging := some s.provider.nextBridgeInstanceId }) ∨
    (∃ c', Going i answer c c' s.provider s'.provider) ∧ s'.spawned = s.spawned ∧
      (s'.pinging = if c.point = .spawning then none else s.pinging) ∧
      (c.point = .spawning → answer.isOk = true → s.pinging ≠ none) := by
  unfold goOn at hs
  split at hs
  · next h =>
    obtain rfl := Option.some.inj hs
    exact .inl ⟨h.1, h.2.1, rfl⟩
  · next h =>
    obtain ⟨provider, hp, rfl⟩ := Option.map_eq_some_iff.mp hs
    exact .inr ⟨going_of_advance hp, rfl, rfl, fun hpoint hok hnone => h ⟨hpoint, hnone, hok⟩⟩

/-! ## What the adapter knows -/

/-- Every bridge that is in the map, in use or under a session was spawned, once and under the lock. -/
structure Known (s : BridgeHost) : Prop where
  nodup : s.spawned.Nodup
  below : ∀ b ∈ s.spawned, b < s.provider.nextBridgeInstanceId ∨ s.pinging = some b
  pinging : ∀ b, s.pinging = some b →
    b = s.provider.nextBridgeInstanceId ∧ b ∈ s.spawned ∧ ∃ c ∈ s.provider.calls, c.point = .spawning
  bridges : ∀ b ∈ s.provider.bridges, b ∈ s.spawned
  uses : ∀ c ∈ s.provider.calls, ∀ b, c.point.uses b → b ∈ s.spawned
  sessions : ∀ k h, s.provider.sessions.lookup k = some h → h.bridge ∈ s.spawned
  held : ∀ (i : ℕ) (c : Call), s.provider.calls[i]? = some c → c.point.allocates = true → s.provider.allocation = some i

theorem Known.only (h : Known s) (hi : s.provider.calls[i]? = some c) (hc : c.point.allocates = true) {j : ℕ}
    {d : Call} (hj : s.provider.calls[j]? = some d) (hd : d.point.allocates = true) : j = i :=
  Option.some.inj ((h.held j d hj hd).symm.trans (h.held i c hi hc))

theorem Known.spawn (h : Known s) (hi : s.provider.calls[i]? = some c) (hpoint : c.point = .spawning)
    (hnone : s.pinging = none) : Known { s with
      spawned := s.spawned ++ [s.provider.nextBridgeInstanceId], pinging := some s.provider.nextBridgeInstanceId } where
  nodup := by
    refine List.nodup_append.mpr ⟨h.nodup, List.nodup_singleton _, fun b hb b' hb' he => ?_⟩
    obtain rfl := List.mem_singleton.mp hb'
    obtain hlt | hping := h.below b hb
    · omega
    · rw [hnone] at hping
      exact absurd hping (by simp)
  below := by
    intro b hb
    obtain hb | hb := List.mem_append.mp hb
    · obtain hlt | hping := h.below b hb
      · exact .inl hlt
      · rw [hnone] at hping
        exact absurd hping (by simp)
    · obtain rfl := List.mem_singleton.mp hb
      exact .inr rfl
  pinging := by
    intro b hb
    obtain rfl := Option.some.inj hb
    exact ⟨rfl, List.mem_append_right _ (List.mem_singleton_self _), c, List.mem_of_getElem? hi, hpoint⟩
  bridges := fun b hb => List.mem_append_left _ (h.bridges b hb)
  uses := fun d hd b hb => List.mem_append_left _ (h.uses d hd b hb)
  sessions := fun k h' hk => List.mem_append_left _ (h.sessions k h' hk)
  held := h.held

theorem Known.going (h : Known s) (hi : s.provider.calls[i]? = some c)
    (hg : Going i answer c c' s.provider s'.provider) (hspawned : s'.spawned = s.spawned)
    (hpinging : s'.pinging = if c.point = .spawning then none else s.pinging)
    (hanswered : c.point = .spawning → answer.isOk = true → s.pinging ≠ none) : Known s' where
  nodup := hspawned ▸ h.nodup
  below := by
    intro b hb
    rw [hspawned] at hb
    rw [hg.next, hpinging]
    obtain hlt | hping := h.below b hb
    · exact .inl (by omega)
    · split
      · exact .inl (by have := (h.pinging b hping).1; omega)
      · exact .inr hping
  pinging := by
    intro b hb
    rw [hpinging] at hb
    split at hb
    · exact absurd hb (by simp)
    · next hpoint =>
      obtain ⟨hb', hmem, d, hd, hdp⟩ := h.pinging b hb
      refine ⟨by simp [hg.next, hpoint, hb'], hspawned ▸ hmem, d, ?_, hdp⟩
      rw [hg.calls]
      exact mem_set_of_ne hi hd fun he => hpoint (he ▸ hdp)
  bridges := by
    intro b hb
    rw [hspawned]
    obtain hold | huse := hg.bridges b hb
    · exact h.bridges b hold
    · exact h.uses c (List.mem_of_getElem? hi) b (.inl huse)
  uses := by
    intro d hd b hb
    rw [hspawned]
    obtain hd | rfl := hg.mem_calls hd
    · exact h.uses d hd b hb
    · obtain huse | hmem | ⟨hpoint, hok, rfl⟩ := hg.uses hb
      · exact h.uses c (List.mem_of_getElem? hi) b huse
      · exact h.bridges b hmem
      · -- the process is there before the ping
        obtain ⟨b, hb'⟩ := Option.ne_none_iff_exists'.mp (hanswered hpoint hok)
        obtain ⟨rfl, hmem, -⟩ := h.pinging b hb'
        exact hmem
  sessions := by
    intro k h' hk
    rw [hspawned]
    obtain hold | huse := hg.sessions k h' hk
    · exact h.sessions k h' hold
    · exact h.uses c (List.mem_of_getElem? hi) _ (.inr huse)
  held := by
    intro j d hj hd
    by_cases hne : j = i
    · subst hne
      obtain rfl := hg.new hj
      obtain hlock | ⟨hc, hsame⟩ := hg.locked hd
      · exact hlock
      · rw [hsame]
        exact h.held j c hi hc
    · have hj' := hg.old hj hne
      have hheld := h.held j d hj' hd
      obtain hsame | hfree | hc := hg.lock
      · rw [hsame]
        exact hheld
      · rw [hfree] at hheld
        exact absurd hheld (by simp)
      · exact absurd (h.only hi hc hj' hd) hne

theorem begin_plain (kind : Kind) :
    (ClaudeProvider.begin kind).allocates = false ∧ (∀ b, ¬ (ClaudeProvider.begin kind).uses b) ∧
      ClaudeProvider.begin kind ≠ .spawning := by
  cases kind <;> simp [ClaudeProvider.begin, Point.allocates, Point.uses, Point.bridge?]

theorem getElem?_concat {d e : Call} {calls : List Call} {j : ℕ} (hj : (calls ++ [e])[j]? = some d) :
    calls[j]? = some d ∨ d = e := by
  rw [List.getElem?_append] at hj
  split at hj
  · exact .inl hj
  · exact .inr (List.mem_singleton.mp (List.mem_of_getElem? hj))

theorem Known.call (h : Known s) (kind : Kind) (runtimeSessionId : String) : Known { s with
    provider := { s.provider with calls := s.provider.calls ++
      [⟨kind, runtimeSessionId, ClaudeProvider.begin kind⟩] } } :=
  { h with
    pinging := by
      intro b hb
      obtain ⟨hb', hmem, d, hd, hdp⟩ := h.pinging b hb
      exact ⟨hb', hmem, d, List.mem_append_left _ hd, hdp⟩
    uses := by
      intro d hd b hb
      obtain hd | hd := List.mem_append.mp hd
      · exact h.uses d hd b hb
      · obtain rfl := List.mem_singleton.mp hd
        exact absurd hb ((begin_plain kind).2.1 b)
    held := by
      intro j d hj hd
      obtain hj | rfl := getElem?_concat hj
      · exact h.held j d hj hd
      · exact absurd hd (by simp [(begin_plain kind).1]) }

theorem Known.fewer (h : Known s) (bridges closed : List ℕ) (hbridges : ∀ b ∈ bridges, b ∈ s.provider.bridges) :
    Known { s with provider := { s.provider with bridges := bridges, closed := closed } } :=
  { h with
    bridges := fun b hb => h.bridges b (hbridges b hb) }

theorem known_new (maxBridges maxSessionsPerBridge : ℕ) : Known (new maxBridges maxSessionsPerBridge) where
  nodup := List.nodup_nil
  below := by simp [new]
  pinging := by simp [new]
  bridges := by simp [new, ClaudeProvider.new]
  uses := by simp [new, ClaudeProvider.new]
  sessions := fun _ _ hk => absurd hk (by simp [new, ClaudeProvider.new])
  held := by simp [new, ClaudeProvider.new]

theorem Known.step (h : Known s) {e : ClaudeProvider.Event} (hs : s.step e = some s') : Known s' := by
  cases e with
  | call kind runtimeSessionId =>
    obtain rfl := Option.some.inj hs
    exact h.call kind runtimeSessionId
  | goOn i answer =>
    obtain ⟨c, hi, hs⟩ := Option.bind_eq_some_iff.mp hs
    obtain ⟨hpoint, hnone, rfl⟩ | ⟨⟨c', hg⟩, hspawned, hpinging, hanswered⟩ := goOn_cases hs
    · exact h.spawn hi hpoint hnone
    · exact h.going hi hg hspawned hpinging hanswered
  | fails bridge =>
    simp only [BridgeHost.step, Option.ite_none_right_eq_some] at hs
    obtain rfl := Option.some.inj hs.2
    exact h.fewer s.provider.bridges _ fun _ hb => hb
  | drops bridge =>
    obtain ⟨provider, hp, rfl⟩ := Option.map_eq_some_iff.mp hs
    simp only [ClaudeProvider.step, Option.ite_none_right_eq_some] at hp
    obtain rfl := Option.some.inj hp.2
    exact h.fewer _ s.provider.closed fun _ hb => List.mem_of_mem_filter hb

/-! ## What runs -/

theorem mem_running {b : ℕ} : b ∈ s.running ↔ b ∈ s.spawned ∧ b ∉ s.provider.closed := by
  simp [running]

theorem running_length_le (hspawned : s'.spawned = s.spawned)
    (hclosed : ∀ b ∈ s.provider.closed, b ∈ s'.provider.closed) : s'.running.length ≤ s.running.length := by
  unfold running
  rw [hspawned]
  refine (List.monotone_filter_right _ fun b hb => ?_).length_le
  simp only [decide_eq_true_eq] at hb ⊢
  exact fun hc => hb (hclosed b hc)

/-- A process that runs is in the map, on its way into it, or on its way to be stopped. A call that is to spawn has
counted them. -/
structure Counted (s : BridgeHost) : Prop where
  limit : 0 < s.provider.maxBridges
  accounted : ∀ b ∈ s.running, b ∈ s.provider.bridges ∨ s.pinging = some b ∨ ∃ c ∈ s.provider.calls, b ∈ c.point.away
  bound : s.running.length ≤ s.provider.maxBridges
  room : ∀ c ∈ s.provider.calls, c.point = .spawning → s.pinging = none → s.running.length < s.provider.maxBridges

theorem Counted.spawn (h : Counted s) (hi : s.provider.calls[i]? = some c) (hpoint : c.point = .spawning)
    (hnone : s.pinging = none) : Counted { s with
      spawned := s.spawned ++ [s.provider.nextBridgeInstanceId], pinging := some s.provider.nextBridgeInstanceId } where
  limit := h.limit
  accounted := by
    intro b hb
    obtain ⟨hmem, hopen⟩ := mem_running.mp hb
    obtain hmem | hmem := List.mem_append.mp hmem
    · obtain hb | hb | hb := h.accounted b (mem_running.mpr ⟨hmem, hopen⟩)
      · exact .inl hb
      · rw [hnone] at hb
        exact absurd hb (by simp)
      · exact .inr (.inr hb)
    · obtain rfl := List.mem_singleton.mp hmem
      exact .inr (.inl rfl)
  bound := by
    have hroom := h.room c (List.mem_of_getElem? hi) hpoint hnone
    have hone : ([s.provider.nextBridgeInstanceId].filter fun b => b ∉ s.provider.closed).length ≤ 1 :=
      List.length_filter_le _ _
    change ((s.spawned ++ [s.provider.nextBridgeInstanceId]).filter fun b => b ∉ s.provider.closed).length ≤
      s.provider.maxBridges
    rw [List.filter_append, List.length_append]
    change s.running.length + _ ≤ _
    omega
  room := fun _ _ _ hp => absurd hp (by simp)

theorem Counted.room_of_decides (h : Counted s) (hk : Known s) (hi : s.provider.calls[i]? = some c)
    (hd : decides c s.provider = true)
    (hfailed : ∀ d ∈ s.provider.calls, ∀ b ∈ d.point.away, b ∈ s.provider.closed) :
    s.running.length < s.provider.maxBridges := by
  have hspawning : c.point ≠ .spawning := by
    intro hpoint
    simp [decides, hpoint] at hd
  have hlock : c.point.allocates = true := by
    simp only [decides, decide_eq_true_eq] at hd
    obtain hd | hd := hd <;> simp [hd.1, Point.allocates]
  have hmap : s.running ⊆ s.provider.bridges := by
    intro b hb
    obtain hb' | hb' | ⟨d, hd, hb'⟩ := h.accounted b hb
    · exact hb'
    · -- the lock is with the call that decides
      obtain ⟨-, -, d, hd, hdp⟩ := hk.pinging b hb'
      obtain ⟨j, hj⟩ := List.mem_iff_getElem?.mp hd
      obtain rfl := hk.only hi hlock hj (by simp [hdp, Point.allocates])
      obtain rfl := Option.some.inj (hi.symm.trans hj)
      exact absurd hdp hspawning
    · exact absurd (hfailed d hd b hb') (mem_running.mp hb).2
  have hle : s.running.length ≤ s.provider.bridges.length :=
    (List.subperm_of_subset (hk.nodup.filter _) hmap).length_le
  simp only [decides, decide_eq_true_eq] at hd
  obtain ⟨-, hlt⟩ | ⟨-, hempty⟩ := hd
  · omega
  · have hlimit := h.limit
    rw [hempty, List.length_nil] at hle
    omega

theorem Counted.going (h : Counted s) (hk : Known s) (hi : s.provider.calls[i]? = some c)
    (hg : Going i answer c c' s.provider s'.provider) (hspawned : s'.spawned = s.spawned)
    (hpinging : s'.pinging = if c.point = .spawning then none else s.pinging)
    (hc : contained (.goOn i answer) s = true) : Counted s' where
  limit := hg.limit ▸ h.limit
  accounted := by
    intro b hb
    obtain ⟨hmem, hopen⟩ := mem_running.mp hb
    rw [hspawned] at hmem
    have hmoved : ∀ b, b ∈ s'.provider.bridges ∨ b ∈ c'.point.away ∨ b ∈ s'.provider.closed → b ∉ s'.provider.closed →
        b ∈ s'.provider.bridges ∨ s'.pinging = some b ∨ ∃ d ∈ s'.provider.calls, b ∈ d.point.away := by
      intro b hb hopen
      obtain hb | hb | hb := hb
      · exact .inl hb
      · refine .inr (.inr ⟨c', ?_, hb⟩)
        rw [hg.calls]
        exact List.mem_set (List.getElem?_eq_some_iff.mp hi).1 _
      · exact absurd hb hopen
    obtain hb | hb | ⟨d, hd, hb⟩ := h.accounted b (mem_running.mpr ⟨hmem, fun hb => hopen (hg.closed b hb)⟩)
    · exact hmoved b (hg.keeps b (.inl hb)) hopen
    · by_cases hpoint : c.point = .spawning
      · obtain ⟨rfl, -⟩ := hk.pinging b hb
        by_cases hok : answer.isOk = true
        · exact hmoved _ (.inr (.inl (hg.spawns hpoint hok))) hopen
        · simp only [contained, hi, hpoint, if_true, hok, Bool.false_eq_true, false_or, decide_eq_true_eq] at hc
          exact absurd (hg.closed _ (hc _ hb)) hopen
      · exact .inr (.inl (by rw [hpinging, if_neg hpoint]; exact hb))
    · by_cases he : d = c
      · subst he
        exact hmoved b (hg.keeps b (.inr hb)) hopen
      · refine .inr (.inr ⟨d, ?_, hb⟩)
        rw [hg.calls]
        exact mem_set_of_ne hi hd he
  bound := (running_length_le hspawned hg.closed).trans (hg.limit ▸ h.bound)
  room := by
    intro d hd hdp hnone
    rw [hg.limit]
    refine (running_length_le hspawned hg.closed).trans_lt ?_
    obtain ⟨j, hj⟩ := List.mem_iff_getElem?.mp hd
    by_cases hne : j = i
    · subst hne
      obtain rfl := hg.new hj
      have hdec := hg.decides hdp
      refine h.room_of_decides hk hi hdec fun e he b hb => ?_
      have hpoint : c.point ≠ .spawning := by
        intro hpoint
        simp [decides, hpoint] at hdec
      simp only [contained, hi, hpoint, if_false, hdec, if_true, List.all_eq_true, decide_eq_true_eq] at hc
      exact hc e he b hb
    · have hj' := hg.old hj hne
      refine h.room d (List.mem_of_getElem? hj') hdp ?_
      rw [hpinging] at hnone
      split at hnone
      · next hpoint =>
        have hall : ∀ p, p = Point.spawning → p.allocates = true := by
          rintro p rfl
          rfl
        exact absurd (hk.only hi (hall _ hpoint) hj' (hall _ hdp)) hne
      · exact hnone

theorem Counted.call (h : Counted s) (kind : Kind) (runtimeSessionId : String) : Counted { s with
    provider :=
      { s.provider with calls := s.provider.calls ++ [⟨kind, runtimeSessionId, ClaudeProvider.begin kind⟩] } } where
  limit := h.limit
  accounted := by
    intro b hb
    obtain hb | hb | ⟨d, hd, hb⟩ := h.accounted b hb
    · exact .inl hb
    · exact .inr (.inl hb)
    · exact .inr (.inr ⟨d, List.mem_append_left _ hd, hb⟩)
  bound := h.bound
  room := by
    intro d hd hdp hnone
    obtain hd | hd := List.mem_append.mp hd
    · exact h.room d hd hdp hnone
    · obtain rfl := List.mem_singleton.mp hd
      exact absurd hdp (begin_plain kind).2.2

theorem Counted.fewer (h : Counted s) (bridges closed : List ℕ) (hclosed : ∀ b ∈ s.provider.closed, b ∈ closed)
    (hbridges : ∀ b ∈ s.provider.bridges, b ∈ bridges ∨ b ∈ closed) :
    Counted { s with provider := { s.provider with bridges := bridges, closed := closed } } := by
  have hle : List.length (running { s with
      provider := { s.provider with bridges := bridges, closed := closed } }) ≤ s.running.length :=
    running_length_le rfl hclosed
  refine ⟨h.limit, fun b hb => ?_, hle.trans h.bound, fun d hd hdp hnone => hle.trans_lt (h.room d hd hdp hnone)⟩
  obtain ⟨hmem, hopen⟩ := mem_running.mp hb
  obtain hb | hb | hb := h.accounted b (mem_running.mpr ⟨hmem, fun hb => hopen (hclosed b hb)⟩)
  · obtain hb | hb := hbridges b hb
    · exact .inl hb
    · exact absurd hb hopen
  · exact .inr (.inl hb)
  · exact .inr (.inr hb)

theorem Counted.step (h : Counted s) (hk : Known s) {e : ClaudeProvider.Event} (hc : contained e s = true)
    (hs : s.step e = some s') : Counted s' := by
  cases e with
  | call kind runtimeSessionId =>
    obtain rfl := Option.some.inj hs
    exact h.call kind runtimeSessionId
  | goOn i answer =>
    obtain ⟨c, hi, hs⟩ := Option.bind_eq_some_iff.mp hs
    obtain ⟨hpoint, hnone, rfl⟩ | ⟨⟨c', hg⟩, hspawned, hpinging, -⟩ := goOn_cases hs
    · exact h.spawn hi hpoint hnone
    · exact h.going hk hi hg hspawned hpinging hc
  | fails bridge =>
    simp only [BridgeHost.step, Option.ite_none_right_eq_some] at hs
    obtain rfl := Option.some.inj hs.2
    exact h.fewer s.provider.bridges _ (fun _ hb => List.mem_append_left _ hb) fun _ hb => .inl hb
  | drops bridge =>
    obtain ⟨provider, hp, rfl⟩ := Option.map_eq_some_iff.mp hs
    simp only [ClaudeProvider.step, Option.ite_none_right_eq_some] at hp
    obtain ⟨hclosed, hp⟩ := hp
    obtain rfl := Option.some.inj hp
    refine h.fewer _ s.provider.closed (fun _ hb => hb) fun b hb => ?_
    by_cases he : b = bridge
    · exact .inr (he ▸ hclosed)
    · exact .inl (by simp [hb, he])

theorem counted_new (maxBridges maxSessionsPerBridge : ℕ) : Counted (new maxBridges maxSessionsPerBridge) where
  limit := by simp [new, ClaudeProvider.new]
  accounted := by simp [running, new]
  bound := by simp [running, new]
  room := by simp [new, ClaudeProvider.new]

theorem step_maxBridges {e : ClaudeProvider.Event} (hs : s.step e = some s') :
    s'.provider.maxBridges = s.provider.maxBridges := by
  cases e with
  | call kind runtimeSessionId =>
    obtain rfl := Option.some.inj hs
    rfl
  | goOn i answer =>
    obtain ⟨c, hi, hs⟩ := Option.bind_eq_some_iff.mp hs
    obtain ⟨-, -, rfl⟩ | ⟨⟨c', hg⟩, -⟩ := goOn_cases hs
    · rfl
    · exact hg.limit
  | fails bridge =>
    simp only [BridgeHost.step, Option.ite_none_right_eq_some] at hs
    obtain rfl := Option.some.inj hs.2
    rfl
  | drops bridge =>
    obtain ⟨provider, hp, rfl⟩ := Option.map_eq_some_iff.mp hs
    simp only [ClaudeProvider.step, Option.ite_none_right_eq_some] at hp
    obtain rfl := Option.some.inj hp.2
    rfl

end

/-- The bridge processes stay within their bound. -/
theorem bridge_processes_bounded (maxBridges maxSessionsPerBridge : ℕ) (s : BridgeHost)
    (h : Reaches step (fun e s => contained e s = true) (new maxBridges maxSessionsPerBridge) s) :
    Bounded maxBridges s := by
  obtain ⟨hknown, hcounted, hlimit⟩ := h.invariant
    (I := fun s => Known s ∧ Counted s ∧ s.provider.maxBridges = max maxBridges 1)
    ⟨known_new _ _, counted_new _ _, rfl⟩
    fun e t u ⟨hk, hn, hl⟩ hc hs => ⟨hk.step hs, hn.step hk hc hs, (step_maxBridges hs).trans hl⟩
  refine ⟨?_, fun k h' hk hopen => mem_running.mpr ⟨hknown.sessions k h' hk, hopen⟩⟩
  rw [max_comm, ← hlimit]
  exact hcounted.bound

def createWith (runtimeSessionId : String) (i : ℕ) (answers : List (Except RuntimeError String)) :
    List ClaudeProvider.Event :=
  .call .create runtimeSessionId :: answers.map fun answer => .goOn i answer

/-- The first bridge fails before it answers, the second has a session. -/
theorem bridge_processes_bounded_retry :
    ∃ s, Reaches step (fun e s => contained e s = true) (new 1 4) s ∧
      (s.spawned, s.running, s.provider.sessions.values.map SessionHandle.bridge) = ([1, 2], [2], [2]) ∧
      Bounded 1 s := by
  obtain ⟨s, hs, hfound⟩ := exists_reaches_of_runAll (s := new 1 4) step contained
    (createWith "sess_a" 0 (List.replicate 5 (.ok "")) ++
      [.fails 1, .goOn 0 (.error (.io "Claude bridge stdout closed"))] ++
      createWith "sess_b" 1 (List.replicate 9 (.ok "")))
    (fun s => (s.spawned, s.running, s.provider.sessions.values.map SessionHandle.bridge)) ([1, 2], [2], [2])
    (by decide +kernel)
  exact ⟨s, hs, hfound, bridge_processes_bounded 1 4 s hs⟩

/-- Every request to a bridge is answered. -/
def succeeds (e : ClaudeProvider.Event) (_ : BridgeHost) : Bool :=
  match e with
  | .goOn _ answer => answer.isOk
  | _ => true

theorem not_bridge_processes_bounded :
    (¬ ∀ (maxBridges maxSessionsPerBridge : ℕ) (s : BridgeHost),
      Reaches step (fun _ _ => true) (new maxBridges maxSessionsPerBridge) s → Bounded maxBridges s) ∧
    ¬ ∀ (maxBridges maxSessionsPerBridge : ℕ) (s : BridgeHost),
      Reaches step (fun e s => succeeds e s = true) (new maxBridges maxSessionsPerBridge) s → Bounded maxBridges s := by
  refine ⟨fun h => ?_, fun h => ?_⟩
  · -- the first pings of both creates time out
    let timedOut : Except RuntimeError String :=
      .error (.invalidState "timed out waiting for Claude bridge response to bridge.ping")
    obtain ⟨s, hs, hrunning⟩ := exists_reaches_of_runAll (s := new 1 4) step (fun _ _ => true)
      (createWith "sess_a" 0 (List.replicate 5 (.ok "") ++ [timedOut]) ++
        createWith "sess_b" 1 (List.replicate 5 (.ok "") ++ [timedOut]))
      running [1, 2] (by decide +kernel)
    have hle := (h 1 4 s (hs.mono fun _ _ _ => rfl)).1
    rw [hrunning] at hle
    exact absurd hle (by decide)
  · -- a create comes after a close took the bridges out of the map and before it fails them
    obtain ⟨s, hs, hrunning⟩ := exists_reaches_of_runAll (s := new 1 4) step succeeds
      (createWith "sess_a" 0 (List.replicate 9 (.ok "")) ++
        .call .close "sess_a" :: List.replicate 5 (.goOn 1 (.ok "")) ++
        createWith "sess_b" 2 (List.replicate 6 (.ok "")))
      running [1, 2] (by decide +kernel)
    have hle := (h 1 4 s hs).1
    rw [hrunning] at hle
    exact absurd hle (by decide)

end BridgeHost

end Gooselake.Providers.ClaudeAllocation
