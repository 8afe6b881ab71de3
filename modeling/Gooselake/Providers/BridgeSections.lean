import Gooselake.Providers.ClaudeAllocation

/-!
What one section of a call of the Claude adapter does to the bridges and to the allocation lock. The results about the
bridges that run and about the bridges that an idle shutdown hits rest on it.
-/

namespace Gooselake.Providers.ClaudeAllocation

open Gooselake.Core Data Library

set_option autoImplicit false

def Point.allocates : Point → Bool
  | .pruning | .selecting | .counting | .spawning | .mapping _ | .selectingExisting => true
  | _ => false

def Point.away : Point → List ℕ
  | .mapping bridge => [bridge]
  | .failing bridges => bridges
  | _ => []

def Point.uses (bridge : ℕ) (point : Point) : Prop := point = .mapping bridge ∨ point.bridge? = some bridge

def Point.isPlain : Point → Bool
  | .mapping _ | .holding _ | .inserting _ _ | .taking | .failing _ => false
  | _ => true

theorem Point.plain {point : Point} (h : point.isPlain = true) :
    point.bridge? = none ∧ (∀ b, point ≠ .mapping b) ∧ point ≠ .taking ∧ ∀ bs, point ≠ .failing bs := by
  cases point <;> simp_all [isPlain, bridge?]

theorem isPlain_begin (kind : Kind) : (ClaudeProvider.begin kind).isPlain = true := by
  cases kind <;> rfl

def BridgeHost.decides (c : Call) (s : ClaudeProvider) : Bool :=
  (c.point = .counting ∧ s.bridges.length < s.maxBridges) ∨ (c.point = .selectingExisting ∧ s.bridges = [])

variable {s s' : ClaudeProvider} {i : ℕ} {c c' : Call} {answer : Except RuntimeError String}

theorem mem_of_select {among : List ℕ} {b : ℕ} (h : s.select among = some b) : b ∈ among := List.mem_of_getElem? h

theorem select_eq_none {among : List ℕ} (h : s.select among = none) : among = [] := by
  by_contra hne
  have hlt := Nat.mod_lt s.nextBridgeSelection (List.length_pos_iff.mpr hne)
  have hle := List.getElem?_eq_none_iff.mp h
  omega

theorem mem_bridges_of_away (haway : c.point.away = []) {b : ℕ} (hb : b ∈ s.bridges ∨ b ∈ c.point.away) :
    b ∈ s.bridges := by
  obtain hb | hb := hb
  · exact hb
  · rw [haway] at hb
    exact absurd hb (by simp)

/-- What a section of call `i` does to the bridges: whatever it moves out of the map it holds or has failed, a bridge
it gets was in the map or was spawned for it, and the lock is taken by its holder alone. -/
structure Going (i : ℕ) (answer : Except RuntimeError String) (c c' : Call) (s s' : ClaudeProvider) : Prop where
  calls : s'.calls = s.calls.set i c'
  limit : s'.maxBridges = s.maxBridges
  next : s'.nextBridgeInstanceId = s.nextBridgeInstanceId + if c.point = .spawning then 1 else 0
  closed : ∀ b ∈ s.closed, b ∈ s'.closed
  keeps : ∀ b, b ∈ s.bridges ∨ b ∈ c.point.away → b ∈ s'.bridges ∨ b ∈ c'.point.away ∨ b ∈ s'.closed
  bridges : ∀ b ∈ s'.bridges, b ∈ s.bridges ∨ c.point = .mapping b
  gets : ∀ b, c'.point.bridge? = some b →
    c.point.bridge? = some b ∨ (b ∈ s.bridges ∨ c.point = .mapping b) ∧ s.acquires c = true
  maps : ∀ b, c'.point = .mapping b →
    c.point = .spawning ∧ answer.isOk = true ∧ b = s.nextBridgeInstanceId ∧ s'.bridges = s.bridges
  takes : c'.point = .taking → c.point = .leaving ∧ s.sessions.keys = [] ∧ s' = s.putCall i c .taking
  fails : ∀ bs, c'.point = .failing bs →
    c.point = .taking ∧ bs = s.bridges ∧ s'.bridges = [] ∨ (∃ b, c.point = .failing (b :: bs)) ∧ s'.bridges = s.bridges
  spawns : c.point = .spawning → answer.isOk = true → s.nextBridgeInstanceId ∈ c'.point.away
  sessions : ∀ k h, s'.sessions.lookup k = some h → s.sessions.lookup k = some h ∨ c.point.bridge? = some h.bridge
  lock : s'.allocation = s.allocation ∨ s.allocation = none ∨ c.point.allocates = true
  locked : c'.point.allocates = true → s'.allocation = some i ∨ c.point.allocates = true ∧ s'.allocation = s.allocation
  decides : c'.point = .spawning → BridgeHost.decides c s = true

namespace Going

theorem old (hg : Going i answer c c' s s') {j : ℕ} {d : Call} (hj : s'.calls[j]? = some d) (hne : j ≠ i) :
    s.calls[j]? = some d := by
  rwa [hg.calls, List.getElem?_set_ne hne.symm] at hj

theorem new (hg : Going i answer c c' s s') {d : Call} (hj : s'.calls[i]? = some d) : d = c' := by
  rw [hg.calls, List.getElem?_set] at hj
  simp only [if_true] at hj
  split at hj
  · exact (Option.some.inj hj).symm
  · exact absurd hj (by simp)

theorem mem_calls (hg : Going i answer c c' s s') {d : Call} (hd : d ∈ s'.calls) : d ∈ s.calls ∨ d = c' := by
  rw [hg.calls] at hd
  exact List.mem_or_eq_of_mem_set hd

theorem uses (hg : Going i answer c c' s s') {b : ℕ} (hb : c'.point.uses b) :
    c.point.uses b ∨ b ∈ s.bridges ∨ c.point = .spawning ∧ answer.isOk = true ∧ b = s.nextBridgeInstanceId := by
  obtain hb | hb := hb
  · obtain ⟨hpoint, hok, he, -⟩ := hg.maps b hb
    exact .inr (.inr ⟨hpoint, hok, he⟩)
  · obtain hb | ⟨hb | hb, -⟩ := hg.gets b hb
    · exact .inl (.inr hb)
    · exact .inr (.inl hb)
    · exact .inl (.inl hb)

/-! ## The sections -/

theorem plain (point : Point) (hcalls : s'.calls = s.calls.set i { c with point := point })
    (hlimit : s'.maxBridges = s.maxBridges)
    (hnext : s'.nextBridgeInstanceId = s.nextBridgeInstanceId + if c.point = .spawning then 1 else 0)
    (hclosed : s'.closed = s.closed) (hkeeps : ∀ b ∈ s.bridges, b ∈ s'.bridges ∨ b ∈ s.closed)
    (hbridges : ∀ b ∈ s'.bridges, b ∈ s.bridges)
    (hsessions : ∀ k h, s'.sessions.lookup k = some h →
      s.sessions.lookup k = some h ∨ c.point.bridge? = some h.bridge)
    (haway : c.point.away = []) (hplain : point.isPlain = true) (hspawns : c.point = .spawning → answer.isOk = false)
    (hlock : s'.allocation = s.allocation ∨ s.allocation = none ∨ c.point.allocates = true)
    (hlocked : point.allocates = true → s'.allocation = some i ∨ c.point.allocates = true ∧
      s'.allocation = s.allocation)
    (hdecides : point = .spawning → BridgeHost.decides c s = true) :
    Going i answer c { c with point := point } s s' where
  calls := hcalls
  limit := hlimit
  next := hnext
  closed := fun b hb => hclosed ▸ hb
  keeps := by
    intro b hb
    obtain hb | hb := hkeeps b (mem_bridges_of_away haway hb)
    · exact .inl hb
    · exact .inr (.inr (hclosed ▸ hb))
  bridges := fun b hb => .inl (hbridges b hb)
  gets := fun b hb => absurd ((Point.plain hplain).1.symm.trans hb) (by simp)
  maps := fun b hb => absurd hb ((Point.plain hplain).2.1 b)
  takes := fun ht => absurd ht (Point.plain hplain).2.2.1
  fails := fun bs hf => absurd hf ((Point.plain hplain).2.2.2 bs)
  spawns := fun hp ha => absurd ha (by simp [hspawns hp])
  sessions := hsessions
  lock := hlock
  locked := hlocked
  decides := hdecides

theorem goes (point : Point) (allocation : Option ℕ) (keys : Table String SessionHandle)
    (haway : c.point.away = []) (hspawning : c.point ≠ .spawning) (hplain : point.isPlain = true)
    (hlock : allocation = s.allocation ∨ s.allocation = none ∨ c.point.allocates = true)
    (hlocked : point.allocates = true → allocation = some i ∨ c.point.allocates = true ∧ allocation = s.allocation)
    (hdecides : point = .spawning → BridgeHost.decides c s = true) :
    Going i answer c { c with point := point } s
      { s.putCall i c point with allocation := allocation, sessionsByBridgeKey := keys } :=
  .plain point rfl rfl (by simp [hspawning, ClaudeProvider.putCall]) rfl (fun _ hb => .inl hb) (fun _ hb => hb)
    (fun _ _ hk => .inl hk) haway hplain (fun hp => absurd hp hspawning) hlock hlocked hdecides

theorem stays (point : Point) (haway : c.point.away = []) (hspawning : c.point ≠ .spawning)
    (hplain : point.isPlain = true) (hfree : point.allocates = false) :
    Going i answer c { c with point := point } s (s.putCall i c point) :=
  .goes point s.allocation s.sessionsByBridgeKey haway hspawning hplain (.inl rfl) (by simp [hfree]) fun he => by
    subst he
    exact absurd hfree (by simp [Point.allocates])

theorem selected {b : ℕ} (hb : b ∈ s.bridges) (haway : c.point.away = []) (hspawning : c.point ≠ .spawning)
    (hacquires : s.acquires c = true) (hlock : c.point.allocates = true) :
    Going i answer c { c with point := .holding b } s (s.selected i c b) where
  calls := rfl
  limit := rfl
  next := by simp [hspawning, ClaudeProvider.selected, ClaudeProvider.acquire, ClaudeProvider.putCall]
  closed := fun _ hb => hb
  keeps := fun _ hb' => .inl (mem_bridges_of_away haway hb')
  bridges := fun _ hb => .inl hb
  gets := by
    intro b' hb'
    obtain rfl : b = b' := by simpa [Point.bridge?] using hb'
    exact .inr ⟨.inl hb, hacquires⟩
  maps := by simp
  takes := by simp
  fails := by simp
  spawns := fun hp => absurd hp hspawning
  sessions := fun _ _ hk => .inl hk
  lock := .inr (.inr hlock)
  locked := by simp [Point.allocates]
  decides := by simp

theorem mapped {b : ℕ} (hpoint : c.point = .mapping b) :
    Going i answer c { c with point := .holding b } s { s.acquire i c b with bridges := s.bridges ++ [b] } where
  calls := rfl
  limit := rfl
  next := by simp [hpoint, ClaudeProvider.acquire, ClaudeProvider.putCall]
  closed := fun _ hb => hb
  keeps := by
    intro b' hb'
    rw [hpoint] at hb'
    exact .inl (List.mem_append.mpr hb')
  bridges := by
    intro b' hb'
    obtain hold | hnew := List.mem_append.mp hb'
    · exact .inl hold
    · obtain rfl := List.mem_singleton.mp hnew
      exact .inr hpoint
  gets := by
    intro b' hb'
    obtain rfl : b = b' := by simpa [Point.bridge?] using hb'
    exact .inr ⟨.inr hpoint, by simp [ClaudeProvider.acquires, hpoint]⟩
  maps := by simp
  takes := by simp
  fails := by simp
  spawns := by simp [hpoint]
  sessions := fun _ _ hk => .inl hk
  lock := .inr (.inr (by simp [hpoint, Point.allocates]))
  locked := by simp [Point.allocates]
  decides := by simp

theorem spawned {answer' : String} (hpoint : c.point = .spawning) :
    Going i (.ok answer') c { c with point := .mapping s.nextBridgeInstanceId } s
      { s.putCall i c (.mapping s.nextBridgeInstanceId) with nextBridgeInstanceId := s.nextBridgeInstanceId + 1 } where
  calls := rfl
  limit := rfl
  next := by simp [hpoint]
  closed := fun _ hb => hb
  keeps := fun _ hb => .inl (mem_bridges_of_away (by rw [hpoint]; rfl) hb)
  bridges := fun _ hb => .inl hb
  gets := by simp [Point.bridge?]
  maps := by
    intro b hb
    obtain rfl : s.nextBridgeInstanceId = b := by simpa using hb
    exact ⟨hpoint, rfl, rfl, rfl⟩
  takes := by simp
  fails := by simp
  spawns := fun _ _ => List.mem_singleton_self _
  sessions := fun _ _ hk => .inl hk
  lock := .inl rfl
  locked := fun _ => .inr ⟨by simp [hpoint, Point.allocates], rfl⟩
  decides := by simp

theorem inserting {b : ℕ} (hpoint : c.point = .holding b) (bridgeSessionId : String) :
    Going i answer c { c with point := .inserting b bridgeSessionId } s
      (s.putCall i c (.inserting b bridgeSessionId)) where
  calls := rfl
  limit := rfl
  next := by simp [hpoint, ClaudeProvider.putCall]
  closed := fun _ hb => hb
  keeps := fun _ hb' => .inl (mem_bridges_of_away (by rw [hpoint]; rfl) hb')
  bridges := fun _ hb => .inl hb
  gets := by
    intro b' hb'
    exact .inl (by simpa [hpoint, Point.bridge?] using hb')
  maps := by simp
  takes := by simp
  fails := by simp
  spawns := by simp [hpoint]
  sessions := fun _ _ hk => .inl hk
  lock := .inl rfl
  locked := by simp [Point.allocates]
  decides := by simp

theorem taking (hpoint : c.point = .leaving) (hempty : s.sessions.keys = []) :
    Going i answer c { c with point := .taking } s (s.putCall i c .taking) where
  calls := rfl
  limit := rfl
  next := by simp [hpoint, ClaudeProvider.putCall]
  closed := fun _ hb => hb
  keeps := fun _ hb' => .inl (mem_bridges_of_away (by rw [hpoint]; rfl) hb')
  bridges := fun _ hb => .inl hb
  gets := by simp [Point.bridge?]
  maps := by simp
  takes := fun _ => ⟨hpoint, hempty, rfl⟩
  fails := by simp
  spawns := by simp [hpoint]
  sessions := fun _ _ hk => .inl hk
  lock := .inl rfl
  locked := by simp [Point.allocates]
  decides := by simp

theorem failing {bridges : List ℕ} {s' : ClaudeProvider}
    (hcalls : s'.calls = s.calls.set i { c with point := .failing bridges })
    (hlimit : s'.maxBridges = s.maxBridges) (hnext : s'.nextBridgeInstanceId = s.nextBridgeInstanceId)
    (hspawning : c.point ≠ .spawning) (hclosed : ∀ b ∈ s.closed, b ∈ s'.closed)
    (hkeeps : ∀ b, b ∈ s.bridges ∨ b ∈ c.point.away → b ∈ s'.bridges ∨ b ∈ bridges ∨ b ∈ s'.closed)
    (hfails : c.point = .taking ∧ bridges = s.bridges ∧ s'.bridges = [] ∨
      (∃ b, c.point = .failing (b :: bridges)) ∧ s'.bridges = s.bridges)
    (hsessions : s'.sessions = s.sessions) (hlock : s'.allocation = s.allocation) :
    Going i answer c { c with point := .failing bridges } s s' where
  calls := hcalls
  limit := hlimit
  next := by simp [hspawning, hnext]
  closed := hclosed
  keeps := hkeeps
  bridges := by
    intro b hb
    obtain ⟨-, -, hnone⟩ | ⟨-, hsame⟩ := hfails
    · exact absurd hb (by simp [hnone])
    · exact .inl (hsame ▸ hb)
  gets := by simp [Point.bridge?]
  maps := by simp
  takes := by simp
  fails := by
    intro bs hbs
    obtain rfl : bridges = bs := by simpa using hbs
    exact hfails
  spawns := fun hp => absurd hp hspawning
  sessions := fun k h hk => .inl (hsessions ▸ hk)
  lock := .inl hlock
  locked := by simp [Point.allocates]
  decides := by simp

end Going

theorem going_removed (hpoint : c.point = .removing) (handle : Option SessionHandle) :
    ∃ c', Going i answer c c' s (s.removed i c handle) := by
  have haway : c.point.away = [] := by rw [hpoint]; rfl
  have hspawning : c.point ≠ .spawning := by simp [hpoint]
  unfold ClaudeProvider.removed
  split
  · refine ⟨_, Going.plain (.removingKey _) rfl rfl (by simp [hspawning, ClaudeProvider.putCall]) rfl
      (fun _ hb => .inl hb) (fun _ hb => hb) (fun k h hk => ?_) haway rfl (fun hp => absurd hp hspawning) (.inl rfl)
      (by simp [Point.allocates]) (by simp)⟩
    change (s.sessions.erase c.runtimeSessionId).lookup k = some h at hk
    rw [Table.lookup_erase] at hk
    split at hk
    · exact absurd hk (by simp)
    · exact .inl hk
  · exact ⟨_, Going.stays (.returned (.ok ())) haway hspawning rfl rfl⟩
  · exact ⟨_, Going.stays .allocating haway hspawning rfl rfl⟩

theorem going_insertSession {b : ℕ} {bridgeSessionId : String} (hpoint : c.point = .inserting b bridgeSessionId) :
    ∃ c', Going i answer c c' s (s.insertSession i c ⟨b, bridgeSessionId⟩) := by
  have haway : c.point.away = [] := by rw [hpoint]; rfl
  have hspawning : c.point ≠ .spawning := by simp [hpoint]
  unfold ClaudeProvider.insertSession
  simp only
  split
  · exact ⟨_, Going.stays (.returned (.error _)) haway hspawning rfl rfl⟩
  · split
    · exact ⟨_, Going.stays (.returned (.error _)) haway hspawning rfl rfl⟩
    · refine ⟨_, Going.plain (.returned (.ok ())) rfl rfl (by simp [hspawning, ClaudeProvider.putCall]) rfl
        (fun _ hb => .inl hb) (fun _ hb => hb) (fun k h hk => ?_) haway rfl (fun hp => absurd hp hspawning) (.inl rfl)
        (by simp [Point.allocates]) (by simp)⟩
      change (s.sessions.insert c.runtimeSessionId ⟨b, bridgeSessionId⟩).lookup k = some h at hk
      rw [Table.lookup_insert] at hk
      split at hk
      · obtain rfl := Option.some.inj hk
        exact .inr (by rw [hpoint]; rfl)
      · exact .inl hk

theorem going_of_advance (hs : s.advance i c answer = some s') : ∃ c', Going i answer c c' s s' := by
  obtain ⟨kind, runtimeSessionId, point⟩ := c
  cases point with
  | removing =>
    obtain rfl := Option.some.inj hs
    exact going_removed rfl _
  | removingKey handle =>
    obtain rfl := Option.some.inj hs
    refine ⟨_, Going.goes _ s.allocation _ rfl (by simp) ?_ (.inl rfl) ?_ ?_⟩ <;>
      cases kind <;> simp [Point.isPlain, Point.allocates]
  | allocating =>
    obtain ⟨hfree, hs⟩ := Option.ite_none_left_eq_some.mp hs
    obtain rfl := Option.some.inj hs
    exact ⟨_, Going.goes .pruning (some i) s.sessionsByBridgeKey rfl (by simp) rfl (.inr (.inl (by simpa using hfree)))
      (fun _ => .inl rfl) (by simp)⟩
  | pruning =>
    obtain rfl := Option.some.inj hs
    refine ⟨_, Going.plain .selecting rfl rfl (by simp [ClaudeProvider.putCall]) rfl (fun b hb => ?_)
      (fun b hb => List.mem_of_mem_filter hb) (fun _ _ hk => .inl hk) rfl rfl (by simp) (.inl rfl)
      (fun _ => .inr ⟨rfl, rfl⟩) (by simp)⟩
    by_cases hc : b ∈ s.closed
    · exact .inr hc
    · exact .inl (by simp [hb, hc])
  | selecting =>
    simp only [ClaudeProvider.advance] at hs
    split at hs
    · next b hb =>
      obtain rfl := Option.some.inj hs
      have hmem := mem_of_select hb
      exact ⟨_, Going.selected (List.mem_of_mem_filter hmem) rfl (by simp)
        (by simp [ClaudeProvider.acquires, List.ne_nil_of_mem hmem]) rfl⟩
    · obtain rfl := Option.some.inj hs
      exact ⟨_, Going.goes .counting s.allocation s.sessionsByBridgeKey rfl (by simp) rfl (.inl rfl)
        (fun _ => .inr ⟨rfl, rfl⟩) (by simp)⟩
  | counting =>
    obtain rfl := Option.some.inj hs
    refine ⟨_, Going.goes _ s.allocation s.sessionsByBridgeKey rfl (by simp) ?_ (.inl rfl)
      (fun _ => .inr ⟨rfl, rfl⟩) ?_⟩
    · split <;> rfl
    · split
      · next hroom => simp [BridgeHost.decides, hroom]
      · simp
  | spawning =>
    cases answer with
    | ok _ =>
      obtain rfl := Option.some.inj hs
      exact ⟨_, Going.spawned rfl⟩
    | error e =>
      obtain rfl := Option.some.inj hs
      exact ⟨_, Going.plain (.returned (.error e)) rfl rfl (by simp) rfl (fun _ hb => .inl hb) (fun _ hb => hb)
        (fun _ _ hk => .inl hk) rfl rfl (fun _ => rfl) (.inr (.inr rfl)) (by simp [Point.allocates]) (by simp)⟩
  | mapping b =>
    obtain rfl := Option.some.inj hs
    exact ⟨_, Going.mapped rfl⟩
  | selectingExisting =>
    simp only [ClaudeProvider.advance] at hs
    split at hs
    · next b hb =>
      obtain rfl := Option.some.inj hs
      have hmem := mem_of_select hb
      exact ⟨_, Going.selected hmem rfl (by simp) (by simp [ClaudeProvider.acquires, List.ne_nil_of_mem hmem]) rfl⟩
    · next hnone =>
      obtain rfl := Option.some.inj hs
      exact ⟨_, Going.goes .spawning s.allocation s.sessionsByBridgeKey rfl (by simp) rfl (.inl rfl)
        (fun _ => .inr ⟨rfl, rfl⟩) (fun _ => by simp [BridgeHost.decides, select_eq_none hnone])⟩
  | holding b =>
    cases answer with
    | ok bridgeSessionId =>
      obtain rfl := Option.some.inj hs
      exact ⟨_, Going.inserting rfl _⟩
    | error e =>
      obtain rfl := Option.some.inj hs
      exact ⟨_, Going.stays (.returned (.error e)) rfl (by simp) rfl rfl⟩
  | inserting b bridgeSessionId =>
    obtain rfl := Option.some.inj hs
    exact going_insertSession rfl
  | closing =>
    obtain rfl := Option.some.inj hs
    exact ⟨_, Going.stays .leaving rfl (by simp) rfl rfl⟩
  | leaving =>
    obtain rfl := Option.some.inj hs
    split
    · next hempty => exact ⟨_, Going.taking rfl hempty⟩
    · exact ⟨_, Going.stays (.returned (.ok ())) rfl (by simp) rfl rfl⟩
  | taking =>
    obtain rfl := Option.some.inj hs
    exact ⟨_, Going.failing rfl rfl rfl (by simp) (fun _ hb => hb)
      (fun b hb => .inr (.inl (by simpa [Point.away] using hb))) (.inl ⟨rfl, rfl, rfl⟩) rfl rfl⟩
  | failing bridges =>
    cases bridges with
    | nil =>
      obtain rfl := Option.some.inj hs
      exact ⟨_, Going.stays (.returned (.ok ())) rfl (by simp) rfl rfl⟩
    | cons b bs =>
      obtain rfl := Option.some.inj hs
      refine ⟨_, Going.failing rfl rfl rfl (by simp) (fun b' hb' => ?_) (fun b' hb' => ?_)
        (.inr ⟨⟨b, rfl⟩, rfl⟩) rfl rfl⟩
      · change b' ∈ if b ∈ s.closed then s.closed else s.closed ++ [b]
        split
        · exact hb'
        · exact List.mem_append_left _ hb'
      · obtain hb' | hb' := hb'
        · exact .inl hb'
        · obtain rfl | hb' := List.mem_cons.mp hb'
          · refine .inr (.inr ?_)
            change b' ∈ if b' ∈ s.closed then s.closed else s.closed ++ [b']
            split
            · assumption
            · exact List.mem_append_right _ (List.mem_singleton_self _)
          · exact .inr (.inl hb')
  | returned outcome => exact absurd hs (by simp [ClaudeProvider.advance])

end Gooselake.Providers.ClaudeAllocation
