import Gooselake.Tools.ProcessIndex
import Gooselake.Tools.ToolParams

/-!
What the gateway understands of the arguments that the MCP server sends for a call.
-/

namespace Gooselake.Tools

open Gooselake.Core Data Library Library.Exec

set_option autoImplicit false

/-! ## Reading back a field -/

@[simp] theorem fieldOf_nil (key : String) : Json.fieldOf key [] = none := rfl

@[simp] theorem fieldOf_cons (key k : String) (v : Json) (fields : Fields) :
    Json.fieldOf key ((k, v) :: fields) = if k = key then some v else Json.fieldOf key fields := rfl

@[simp] theorem fieldOf_append (key : String) (a b : Fields) :
    Json.fieldOf key (a ++ b) = (Json.fieldOf key a).or (Json.fieldOf key b) := by
  induction a with
  | nil => rfl
  | cons f a ih =>
    obtain ⟨k, v⟩ := f
    by_cases h : k = key
    · simp [h]
    · simp [h, ih]

@[simp] theorem fieldOf_optField (key k : String) (value : Option Json) :
    Json.fieldOf key (optField k value) = if k = key then value else none := by
  cases value with
  | none => simp [optField]
  | some v => simp [optField]

theorem asU64_jsonOfU64 (n : UInt64) : asU64 (jsonOfU64 n) = some n.toNat := by
  have hlt : n.toNat < 2 ^ 64 := n.toNat_lt
  have hrange : (0 : ℤ) ≤ n.toNat ∧ (n.toNat : ℤ) < 2 ^ 64 := by omega
  rw [jsonOfU64, asU64, if_pos hrange, Int.toNat_natCast]

theorem valueAsI64_jsonOfU64 (n : UInt64) :
    valueAsI64 (jsonOfU64 n) = if n.toNat < 2 ^ 63 then some (n.toNat : ℤ) else none := by
  rw [jsonOfU64, valueAsI64]
  by_cases h : n.toNat < 2 ^ 63
  · have hrange : -2 ^ 63 ≤ (n.toNat : ℤ) ∧ (n.toNat : ℤ) < 2 ^ 63 := by omega
    rw [if_pos hrange, if_pos h]
  · have hrange : ¬ (-2 ^ 63 ≤ (n.toNat : ℤ) ∧ (n.toNat : ℤ) < 2 ^ 63) := by omega
    rw [if_neg hrange, if_neg h]

/-! ## The readers on fields as they are sent -/

theorem ok_bind {α β : Type} (a : α) (k : α → Except TeamToolFailure β) : (Except.ok a >>= k) = k a := rfl

theorem error_bind {α β : Type} (e : TeamToolFailure) (k : α → Except TeamToolFailure β) :
    (Except.error e >>= k) = .error e := rfl

section

variable {args : Fields} {field : String}

theorem textOf_str (text : String) : textOf (.str text) = trimmedNonEmpty text := rfl

theorem requiredStringArg_sent (text : String) (h : Json.fieldOf field args = some (.str text)) :
    requiredStringArg args field = orBadRequest s!"{field} is required" (trimmedNonEmpty text) := by
  rw [requiredStringArg, h, Option.bind_some, textOf_str]

/-- What the readers say of a text, and of an entry, that is blank. -/
def blankText (field : String) : String := s!"{field} must be a non-empty string when provided"

def blankEntry (field : String) : String := s!"{field} must contain only non-empty strings"

theorem optionalStringArg_sent {text : Option String} (h : Json.fieldOf field args = text.map .str) :
    optionalStringArg args field = orBadRequest (blankText field) (optText text) := by
  rw [optionalStringArg, h]
  cases text <;> rfl

theorem stringEntries_sent (field : String) (texts : List String) :
    stringEntries field (texts.map .str) = orBadRequest (blankEntry field) (textsOf texts) := by
  induction texts with
  | nil => rfl
  | cons text texts ih =>
    rw [List.map_cons, stringEntries, textOf_str, ih, textsOf]
    cases trimmedNonEmpty text with
    | none => rfl
    | some t => cases textsOf texts <;> rfl

theorem optionalStringArrayArg_sent {texts : Option (List String)}
    (h : Json.fieldOf field args = texts.map jsonOfStrings) :
    optionalStringArrayArg args field = orBadRequest (blankEntry field) (optTexts texts) := by
  rw [optionalStringArrayArg, h]
  cases texts with
  | none => rfl
  | some texts => exact stringEntries_sent field texts

theorem optionalBoolArg_sent {flag : Option Bool} (h : Json.fieldOf field args = flag.map .bool) :
    optionalBoolArg args field = .ok flag := by
  rw [optionalBoolArg, h]
  cases flag <;> rfl

theorem optionalCreatorCompactionSubscriptionArg_sent {s : Option CreatorCompactionSubscription}
    (h : Json.fieldOf field args = s.map fun s => .str s.asStr) :
    optionalCreatorCompactionSubscriptionArg args field = .ok (s.map (·.asStr)) := by
  have htext : Json.fieldOf field args = (s.map (·.asStr)).map .str := by
    rw [h, Option.map_map]
    rfl
  rw [optionalCreatorCompactionSubscriptionArg, optionalStringArg_sent htext]
  cases s with
  | none => rfl
  | some s =>
    have hkeep : trimmedNonEmpty s.asStr = some s.asStr := by cases s <;> decide
    have hknown : s.asStr = "auto" ∨ s.asStr = "unsubscribed" := by cases s <;> decide
    simp only [Option.map_some, optText, hkeep, orBadRequest]
    exact if_pos hknown

theorem rejectTeamToolFieldsWithMessage_ok (messageForField : String → String) (fields : List String)
    (h : ∀ f ∈ fields, Json.fieldOf f args = none) :
    rejectTeamToolFieldsWithMessage args messageForField fields = .ok () := by
  induction fields with
  | nil => rfl
  | cons f fields ih =>
    rw [rejectTeamToolFieldsWithMessage, h f List.mem_cons_self]
    exact ih fun f hf => h f (List.mem_cons_of_mem _ hf)

theorem rejectTeamToolFieldsWithMessage_error (args : Fields) (messageForField : String → String) (fields : List String)
    (h : ∃ f ∈ fields, (Json.fieldOf f args).isSome) :
    ∃ message, rejectTeamToolFieldsWithMessage args messageForField fields = .error (badRequest message) := by
  induction fields with
  | nil =>
    obtain ⟨f, hf, -⟩ := h
    cases hf
  | cons f fields ih =>
    rw [rejectTeamToolFieldsWithMessage]
    split
    · exact ⟨_, rfl⟩
    · next hnone =>
      obtain ⟨f', hf', hsome⟩ := h
      rcases List.mem_cons.mp hf' with rfl | hf'
      · exact absurd hsome hnone
      · exact ih ⟨f', hf', hsome⟩

end

/-! ## Outcomes -/

/-- The provider of the member that an add asks for: the preset's, or the one of the caller's session. -/
def GgTeamManageRequest.memberProvider (p : GgTeamManageRequest) (checks : TeamChecks) (caller : String) :
    Option ProviderKind :=
  match p.modelPreset.bind trimmedNonEmpty with
  | some name => (resolvePreset (catalogOf checks.presets) name).map (·.provider)
  | none =>
    match checks.sessionProvider caller with
    | .ok provider => provider.bind ProviderKind.fromStr
    | .error _ => none

/-- An add that brings images. -/
def GgTeamManageRequest.BringsImages (p : GgTeamManageRequest) : Prop :=
  p.removeAgentIds = none ∧ ∃ path paths, p.imagePaths = some (path :: paths)

/-- The refusals whose reason is not how the arguments of the call are spelled: the tool is off, the team that the call
names has no room for additions of this caller, there is no preset of the name it gives, or its member would get images
that the member's provider cannot take. -/
inductive Refusal (checks : TeamChecks) (caller : String) : McpCall → TeamToolFailure → Prop where
  | disabled {r : McpCall} (team : r.names.1 = "gg_team") (off : checks.enabled = false) :
      Refusal checks caller r ⟨"feature_disabled", "gg_team MCP tools are disabled"⟩
  | membership {p : GgTeamManageRequest} {teamId : String} {failure : TeamToolFailure} (adds : p.removeAgentIds = none)
      (team : trimmedNonEmpty p.teamId = some teamId) (refused : checks.mayAdd caller teamId = .error failure) :
      Refusal checks caller (.ggTeamManage p) failure
  | preset {p : GgTeamManageRequest} {name : String} (adds : p.removeAgentIds = none)
      (named : p.modelPreset.bind trimmedNonEmpty = some name)
      (unknown : resolvePreset (catalogOf checks.presets) name = none) :
      Refusal checks caller (.ggTeamManage p) (unknownModelPreset (catalogOf checks.presets) name)
  | session {p : GgTeamManageRequest} {failure : TeamToolFailure} (brings : p.BringsImages)
      (unnamed : p.modelPreset = none) (refused : checks.sessionProvider caller = .error failure) :
      Refusal checks caller (.ggTeamManage p) failure
  | images {p : GgTeamManageRequest} (brings : p.BringsImages) (acp : p.memberProvider checks caller = some .acp) :
      Refusal checks caller (.ggTeamManage p) (imagesUnsupported "gg_team_manage")

/-- A result of call `r`, of which `said` is what it asks for: just that is read, or it is refused for a reason that is
not in its spelling, or it asks for nothing that could be carried out and is called a bad request. -/
def Outcome (checks : TeamChecks) (caller : String) (r : McpCall) (said : Option ToolRequest)
    (result : Except TeamToolFailure ToolCall) : Prop :=
  (∃ call, result = .ok call ∧ said = some call.asksFor) ∨
    ∃ failure, result = .error failure ∧ (Refusal checks caller r failure ∨ (said = none ∧ failure.code = "bad_request"))

section

variable {checks : TeamChecks} {caller : String} {r : McpCall} {p : GgTeamManageRequest} {α : Type}

theorem Outcome.call {said : Option ToolRequest} (call : ToolCall) (h : said = some call.asksFor) :
    Outcome checks caller r said (.ok call) :=
  .inl ⟨call, rfl, h⟩

theorem Outcome.bad (message : String) : Outcome checks caller r none (.error (badRequest message)) :=
  .inr ⟨_, rfl, .inr ⟨rfl, rfl⟩⟩

theorem Outcome.read {message : String} {o : Option α} {k : α → Except TeamToolFailure ToolCall}
    {said : α → Option ToolRequest} (h : ∀ a, o = some a → Outcome checks caller r (said a) (k a)) :
    Outcome checks caller r (o >>= said) (orBadRequest message o >>= k) := by
  cases o with
  | none => exact .bad message
  | some a => exact h a rfl

theorem Outcome.checked {x : Except TeamToolFailure α} {k : α → Except TeamToolFailure ToolCall}
    {said : Option ToolRequest} (herr : ∀ failure, x = .error failure → Refusal checks caller r failure)
    (hok : ∀ a, x = .ok a → Outcome checks caller r said (k a)) : Outcome checks caller r said (x >>= k) := by
  cases x with
  | error failure => exact .inr ⟨failure, rfl, .inl (herr failure rfl)⟩
  | ok a => exact hok a rfl

theorem bind_of_optText {text read : Option String} (h : optText text = some read) :
    text.bind trimmedNonEmpty = read := by
  cases text with
  | none => exact Option.some.inj h
  | some t =>
    obtain ⟨t', ht, rfl⟩ := Option.map_eq_some_iff.mp h
    exact ht

theorem bringsImages_of_ne {imagePaths : List String} (hadds : p.removeAgentIds = none)
    (h : optTexts p.imagePaths = some imagePaths) (hne : imagePaths ≠ []) : p.BringsImages := by
  refine ⟨hadds, ?_⟩
  rw [optTexts] at h
  cases hpaths : p.imagePaths.getD [] with
  | nil =>
    rw [hpaths] at h
    exact absurd (Option.some.inj h).symm hne
  | cons path paths =>
    cases himages : p.imagePaths with
    | none =>
      rw [himages] at hpaths
      cases hpaths
    | some given => exact ⟨path, paths, congrArg some (by rw [himages] at hpaths; exact hpaths)⟩

theorem resolvedModelPreset_ok {catalog : List ResolvedModelPreset} {name : Option String}
    {preset : Option ResolvedModelPreset} (h : resolvedModelPreset catalog name = .ok preset) :
    preset = name.bind (resolvePreset catalog) ∧ (name.isSome → preset.isSome) := by
  cases name with
  | none =>
    obtain rfl := Except.ok.inj h
    exact ⟨rfl, nofun⟩
  | some name =>
    simp only [resolvedModelPreset] at h
    split at h
    · next resolved hresolved =>
      obtain rfl := Except.ok.inj h
      exact ⟨hresolved.symm, fun _ => rfl⟩
    · cases h

theorem resolvedModelPreset_refusal {name : Option String} {failure : TeamToolFailure}
    (hadds : p.removeAgentIds = none) (hread : optText p.modelPreset = some name)
    (h : resolvedModelPreset (catalogOf checks.presets) name = .error failure) :
    Refusal checks caller (.ggTeamManage p) failure := by
  cases name with
  | none => cases h
  | some name =>
    simp only [resolvedModelPreset] at h
    split at h
    · cases h
    · next hnone =>
      obtain rfl := Except.error.inj h
      exact .preset hadds (bind_of_optText hread) hnone

theorem rejectImagePathsForProvider_error {provider toolName : String} {failure : TeamToolFailure}
    (h : rejectImagePathsForProvider provider toolName = .error failure) :
    ProviderKind.fromStr provider = some .acp ∧ failure = imagesUnsupported toolName := by
  unfold rejectImagePathsForProvider at h
  split at h
  · next hacp => exact ⟨hacp, (Except.error.inj h).symm⟩
  · cases h

theorem ensureManageAddImagesSupported_refusal {name : Option String} {preset : Option ResolvedModelPreset}
    {imagePaths : List String} {failure : TeamToolFailure} (hadds : p.removeAgentIds = none)
    (hname : optText p.modelPreset = some name) (himages : optTexts p.imagePaths = some imagePaths)
    (hpreset : resolvedModelPreset (catalogOf checks.presets) name = .ok preset)
    (h : ensureManageAddImagesSupported checks caller preset imagePaths = .error failure) :
    Refusal checks caller (.ggTeamManage p) failure := by
  obtain ⟨rfl, hresolved⟩ := resolvedModelPreset_ok hpreset
  unfold ensureManageAddImagesSupported at h
  split at h
  · cases h
  next hne =>
  have hbrings : p.BringsImages := bringsImages_of_ne hadds himages hne
  have hbind := bind_of_optText hname
  cases name with
  | some name =>
    obtain ⟨preset, hfound⟩ := Option.isSome_iff_exists.mp (hresolved rfl)
    rw [hfound] at h
    obtain ⟨hacp, rfl⟩ := rejectImagePathsForProvider_error h
    refine .images hbrings ?_
    have hfound' : resolvePreset (catalogOf checks.presets) name = some preset := hfound
    simp only [GgTeamManageRequest.memberProvider, hbind, hfound', Option.map_some]
    exact (ProviderKind.fromStr_asStr preset.provider).symm.trans hacp
  | none =>
    cases hsession : checks.sessionProvider caller with
    | error e =>
      simp only [Option.bind_none, hsession] at h
      obtain rfl : e = failure := Except.error.inj h
      refine .session hbrings ?_ hsession
      cases hgiven : p.modelPreset with
      | none => rfl
      | some text =>
        rw [hgiven] at hname
        obtain ⟨t, -, ht⟩ := Option.map_eq_some_iff.mp hname
        cases ht
    | ok provider =>
      simp only [Option.bind_none, hsession, bind, Except.bind] at h
      cases provider with
      | none => cases h
      | some provider =>
        obtain ⟨hacp, rfl⟩ := rejectImagePathsForProvider_error h
        refine .images hbrings ?_
        simp only [GgTeamManageRequest.memberProvider, hbind, hsession, Option.bind_some, hacp]

theorem catalogOf_named (presets : List TeamModelPreset) :
    ∀ preset ∈ catalogOf presets, ResolvedModelPreset.name preset ≠ "" := by
  unfold catalogOf
  refine List.foldlRecOn (motive := fun catalog => ∀ preset ∈ catalog, ResolvedModelPreset.name preset ≠ "") presets _
    (fun preset hp => by cases hp) fun catalog hcatalog given _ preset hp => ?_
  dsimp only at hp
  split at hp
  · exact hcatalog preset hp
  · next hadded =>
    rcases List.mem_append.mp hp with hp | hp
    · exact hcatalog preset hp
    · obtain rfl := List.mem_singleton.mp hp
      exact fun hempty => hadded (.inl hempty)

theorem resolvePreset_presetless {presets : List TeamModelPreset} {name : String}
    (h : normalizeModelPresetName name = "") : resolvePreset (catalogOf presets) name = none := by
  rw [resolvePreset, h, List.find?_eq_none]
  intro preset hpreset hempty
  exact catalogOf_named presets preset hpreset (of_decide_eq_true hempty)

end

/-! ## The team tools -/

section

variable (checks : TeamChecks) (caller : String)

theorem readTeamStatus_outcome (p : GgTeamStatusRequest) : Outcome checks caller (.ggTeamStatus p)
    (McpCall.ggTeamStatus p).asksFor (readTeamStatus p.toFields) := by
  have hreject : rejectTeamToolFields p.toFields
      ["caller_agent_id", "sender", "sender_agent_id", "agent_id"] = .ok () :=
    rejectTeamToolFieldsWithMessage_ok _ _ (by simp [GgTeamStatusRequest.toFields])
  rw [readTeamStatus, hreject, ok_bind, requiredStringArg_sent p.teamId rfl]
  change Outcome checks caller _ ((trimmedNonEmpty p.teamId).map .teamStatus) _
  rw [Option.map_eq_bind]
  exact .read fun teamId _ => .call (.teamStatus teamId) rfl

theorem readTeamMessage_outcome (p : GgTeamMessageRequest) :
    Outcome checks caller (.ggTeamMessage p) p.asksFor (readTeamMessage p.toFields) := by
  have hreject : rejectTeamToolFields p.toFields ["caller_agent_id", "sender", "sender_agent_id"] = .ok () := by
    refine rejectTeamToolFieldsWithMessage_ok _ _ fun f hf => ?_
    simp only [List.mem_cons, List.not_mem_nil, or_false] at hf
    rcases hf with rfl | rfl | rfl <;> simp [GgTeamMessageRequest.toFields]
  have himages : Json.fieldOf "image_paths" p.toFields = p.imagePaths.map jsonOfStrings := by
    simp [GgTeamMessageRequest.toFields]
  rw [readTeamMessage, hreject, ok_bind, requiredStringArg_sent p.teamId rfl,
    requiredStringArg_sent p.recipientAgentId rfl, requiredStringArg_sent p.message rfl,
    optionalStringArrayArg_sent himages, GgTeamMessageRequest.asksFor]
  exact .read fun teamId _ => .read fun recipient _ => .read fun message _ => .read fun imagePaths _ =>
    .call (.teamMessage teamId recipient message imagePaths) rfl

/-- The arguments of an add as the readers find them. -/
theorem readTeamManageAdd_sent (p : GgTeamManageRequest) (teamId : String) :
    readTeamManageAdd checks caller teamId p.toFields = (do
      checks.mayAdd caller teamId
      let title ← orBadRequest (blankText "title") (optText p.title)
      let prompt ← orBadRequest (blankText "prompt") (optText p.prompt)
      let imagePaths ← orBadRequest (blankEntry "image_paths") (optTexts p.imagePaths)
      let modelPreset ← orBadRequest (blankText "model_preset") (optText p.modelPreset)
      let preset ← resolvedModelPreset (catalogOf checks.presets) modelPreset
      ensureManageAddImagesSupported checks caller preset imagePaths
      let worktreeName ← orBadRequest (blankText "worktree_name") (optText p.worktreeName)
      if p.useExistingWorktree.getD false ∧ worktreeName = none then
        .error (badRequest "worktree_name is required when use_existing_worktree is true")
      else
        return .teamAdd teamId ⟨title, prompt, imagePaths, modelPreset,
          p.creatorCompactionSubscription.map (·.asStr), worktreeName, p.useExistingWorktree.getD false⟩) := by
  have htitle : Json.fieldOf "title" p.toFields = p.title.map .str := by simp [GgTeamManageRequest.toFields]
  have hprompt : Json.fieldOf "prompt" p.toFields = p.prompt.map .str := by simp [GgTeamManageRequest.toFields]
  have himages : Json.fieldOf "image_paths" p.toFields = p.imagePaths.map jsonOfStrings := by
    simp [GgTeamManageRequest.toFields]
  have hpreset : Json.fieldOf "model_preset" p.toFields = p.modelPreset.map .str := by
    simp [GgTeamManageRequest.toFields]
  have hsubscription : Json.fieldOf "creator_compaction_subscription" p.toFields =
      p.creatorCompactionSubscription.map fun s => .str s.asStr := by simp [GgTeamManageRequest.toFields]
  have hworktree : Json.fieldOf "worktree_name" p.toFields = p.worktreeName.map .str := by
    simp [GgTeamManageRequest.toFields]
  have hexisting : Json.fieldOf "use_existing_worktree" p.toFields = p.useExistingWorktree.map .bool := by
    simp [GgTeamManageRequest.toFields]
  simp only [readTeamManageAdd, optionalStringArg_sent htitle, optionalStringArg_sent hprompt,
    optionalStringArrayArg_sent himages, optionalStringArg_sent hpreset,
    optionalCreatorCompactionSubscriptionArg_sent hsubscription, optionalStringArg_sent hworktree,
    optionalBoolArg_sent hexisting, ok_bind]

theorem optText_worktreeName {p : GgTeamManageRequest} (h : p.blanksWorktree = false) :
    optText p.worktreeName = some p.worktree := by
  unfold GgTeamManageRequest.blanksWorktree GgTeamManageRequest.worktree at *
  cases hname : p.worktreeName with
  | none => rfl
  | some name =>
    rw [hname] at h
    cases htrim : trimmedNonEmpty name with
    | none => simp [htrim] at h
    | some t => simp [optText, htrim]

theorem optText_blank {p : GgTeamManageRequest} (h : p.blanksWorktree = true) :
    optText p.worktreeName = none ∧ p.worktree = none := by
  simp only [GgTeamManageRequest.blanksWorktree, Bool.and_eq_true, Option.isNone_iff_eq_none] at h
  obtain ⟨name, hname⟩ := Option.isSome_iff_exists.mp h.1
  refine ⟨?_, h.2⟩
  have hworktree := h.2
  rw [GgTeamManageRequest.worktree, hname, Option.bind_some] at hworktree
  rw [hname, optText, hworktree, Option.map_none]

theorem readTeamManageAdd_outcome {p : GgTeamManageRequest} {teamId : String} (hadds : p.removeAgentIds = none)
    (hteam : trimmedNonEmpty p.teamId = some teamId)
    (hspelled : p.blanksWorktree = true → ∀ options, p.addOptions = some options →
      (ToolRequest.teamAdd teamId options).presetless = true) :
    Outcome checks caller (.ggTeamManage p) (do let options ← p.addOptions; return .teamAdd teamId options)
      (readTeamManageAdd checks caller teamId p.toFields) := by
  rw [readTeamManageAdd_sent, GgTeamManageRequest.addOptions]
  simp only [bind_assoc]
  refine .checked (fun _ h => .membership hadds hteam h) fun _ _ => ?_
  refine .read fun title ht => .read fun prompt hp => .read fun imagePaths hi => .read fun modelPreset hm => ?_
  refine .checked (fun _ h => resolvedModelPreset_refusal hadds hm h) fun preset hpreset => ?_
  refine .checked (fun _ h => ensureManageAddImagesSupported_refusal hadds hm hi hpreset h) fun _ _ => ?_
  have hgiven : (p.useExistingWorktree.getD false = true) ↔ p.useExistingWorktree = some true := by
    cases p.useExistingWorktree <;> simp
  cases hblank : p.blanksWorktree with
  | false =>
    rw [optText_worktreeName hblank]
    by_cases h : p.useExistingWorktree = some true ∧ p.worktree = none
    · rw [if_pos h]
      simp only [orBadRequest, ok_bind]
      rw [if_pos ⟨hgiven.mpr h.1, h.2⟩]
      exact .bad _
    · rw [if_neg h]
      simp only [orBadRequest, ok_bind]
      rw [if_neg fun hc => h ⟨hgiven.mp hc.1, hc.2⟩]
      exact .call _ rfl
  | true =>
    obtain ⟨hunread, hnone⟩ := optText_blank hblank
    rw [hunread]
    by_cases h : p.useExistingWorktree = some true ∧ p.worktree = none
    · rw [if_pos h]
      exact .bad _
    · -- what is asked for names a preset that would have been refused
      have hasked : p.addOptions = some ⟨title, prompt, imagePaths, modelPreset,
          p.creatorCompactionSubscription.map (·.asStr), p.worktree, p.useExistingWorktree.getD false⟩ := by
        simp only [GgTeamManageRequest.addOptions, ht, hp, hi, hm, Option.bind_eq_bind, Option.bind_some, if_neg h]
        rfl
      obtain ⟨name, rfl, hempty⟩ := (Option.any_eq_true _ _).mp (hspelled hblank _ hasked)
      rw [resolvedModelPreset, resolvePreset_presetless (of_decide_eq_true hempty)] at hpreset
      cases hpreset

theorem addsNothing_iff {p : GgTeamManageRequest} (h : p.blanksWorktree = false) :
    p.addsNothing = true ↔ ∀ f ∈ ["title", "prompt", "image_paths", "model_preset", "worktree_name",
      "use_existing_worktree", "creator_compaction_subscription"], Json.fieldOf f p.toFields = none := by
  have hworktree : p.worktree = none ↔ p.worktreeName = none := by
    have hread := optText_worktreeName h
    constructor
    · intro hnone
      rw [hnone] at hread
      cases hname : p.worktreeName with
      | none => rfl
      | some name =>
        rw [hname] at hread
        obtain ⟨t, -, ht⟩ := Option.map_eq_some_iff.mp hread
        cases ht
    · intro hnone
      rw [GgTeamManageRequest.worktree, hnone, Option.bind_none]
  simp [GgTeamManageRequest.addsNothing, GgTeamManageRequest.toFields, and_assoc, hworktree]

theorem blank_sent {p : GgTeamManageRequest} (h : p.blanksWorktree = true) :
    (Json.fieldOf "worktree_name" p.toFields).isSome := by
  simp only [GgTeamManageRequest.blanksWorktree, Bool.and_eq_true] at h
  simpa [GgTeamManageRequest.toFields] using h.1

theorem manage_asksFor_add {p : GgTeamManageRequest} {teamId : String} (hadds : p.removeAgentIds = none)
    (hteam : trimmedNonEmpty p.teamId = some teamId) :
    p.asksFor = do let options ← p.addOptions; return .teamAdd teamId options := by
  rw [GgTeamManageRequest.asksFor, hteam, hadds]
  rfl

/-- The readers of a removal, of which no field of an add is there. -/
theorem readTeamManage_remove {p : GgTeamManageRequest} {teamId : String} {ids : List String}
    (hids : p.removeAgentIds = some ids) (hteam : trimmedNonEmpty p.teamId = some teamId)
    (hspelled : p.blanksWorktree = true → p.asksFor = none) :
    Outcome checks caller (.ggTeamManage p) p.asksFor (do
      rejectTeamToolFieldsWithMessage p.toFields
        (fun field => s!"{field} cannot be provided when remove_agent_ids is provided")
        ["title", "prompt", "image_paths", "model_preset", "worktree_name", "use_existing_worktree",
          "creator_compaction_subscription"]
      let removeAgentIds ← orBadRequest (blankEntry "remove_agent_ids") (textsOf ids)
      if removeAgentIds = [] then .error (badRequest "remove_agent_ids must contain at least one agent id")
      else return .teamRemove teamId removeAgentIds) := by
  by_cases hnone : ∀ f ∈ ["title", "prompt", "image_paths", "model_preset", "worktree_name", "use_existing_worktree",
      "creator_compaction_subscription"], Json.fieldOf f p.toFields = none
  · have hblank : p.blanksWorktree = false := by
      rw [← Bool.not_eq_true]
      intro hblank
      have hsent := blank_sent hblank
      rw [hnone "worktree_name" (by simp)] at hsent
      cases hsent
    have hadds := (addsNothing_iff hblank).mpr hnone
    rw [rejectTeamToolFieldsWithMessage_ok _ _ hnone, ok_bind, GgTeamManageRequest.asksFor, hteam, hids]
    refine .read (o := textsOf ids) fun ids _ => ?_
    by_cases hempty : ids = []
    · rw [if_neg (fun h => h.2 hempty), if_pos hempty]
      exact .bad _
    · rw [if_pos ⟨hadds, hempty⟩, if_neg hempty]
      exact .call _ rfl
  · have hasked : p.asksFor = none := by
      cases hblank : p.blanksWorktree with
      | true => exact hspelled hblank
      | false =>
        have hadds := mt (addsNothing_iff hblank).mp hnone
        simp only [GgTeamManageRequest.asksFor, hteam, hids, hadds, Option.bind_eq_bind, Option.bind_some]
        cases textsOf ids <;> rfl
    obtain ⟨message, herr⟩ := rejectTeamToolFieldsWithMessage_error p.toFields
      (fun field => s!"{field} cannot be provided when remove_agent_ids is provided") _ (by
        simp only [not_forall] at hnone
        obtain ⟨f, hf, hne⟩ := hnone
        exact ⟨f, hf, Option.isSome_iff_ne_none.mpr hne⟩)
    rw [herr, error_bind, hasked]
    exact .bad message

/-- The arguments of `gg_team_manage` as the readers find them. -/
theorem readTeamManage_sent (p : GgTeamManageRequest) : readTeamManage checks caller p.toFields = (do
    let teamId ← orBadRequest "team_id is required" (trimmedNonEmpty p.teamId)
    match p.removeAgentIds with
    | some ids => do
      rejectTeamToolFieldsWithMessage p.toFields
        (fun field => s!"{field} cannot be provided when remove_agent_ids is provided")
        ["title", "prompt", "image_paths", "model_preset", "worktree_name", "use_existing_worktree",
          "creator_compaction_subscription"]
      let removeAgentIds ← orBadRequest (blankEntry "remove_agent_ids") (textsOf ids)
      if removeAgentIds = [] then .error (badRequest "remove_agent_ids must contain at least one agent id")
      else return .teamRemove teamId removeAgentIds
    | none => readTeamManageAdd checks caller teamId p.toFields) := by
  have hmeta : rejectTeamToolFields p.toFields ["caller_agent_id", "sender", "sender_agent_id"] = .ok () :=
    rejectTeamToolFieldsWithMessage_ok _ _ (by simp [GgTeamManageRequest.toFields])
  have hunknown : rejectTeamToolFieldsWithMessage p.toFields
    (fun field => s!"{field} is not supported by gg_team_manage")
      ["agent_id", "model", "unsubscribe_from_compaction_notifications"] = .ok () :=
    rejectTeamToolFieldsWithMessage_ok _ _ (by simp [GgTeamManageRequest.toFields])
  have hteam : Json.fieldOf "team_id" p.toFields = some (.str p.teamId) := by simp [GgTeamManageRequest.toFields]
  have hremove : Json.fieldOf "remove_agent_ids" p.toFields = p.removeAgentIds.map jsonOfStrings := by
    simp [GgTeamManageRequest.toFields]
  rw [readTeamManage, hmeta, ok_bind, hunknown, ok_bind, requiredStringArg_sent _ hteam,
    optionalStringArrayArg_sent hremove, hremove]
  cases p.removeAgentIds <;> rfl

theorem readTeamManage_outcome {p : GgTeamManageRequest}
    (hspelled : p.blanksWorktree = true → ∀ request, p.asksFor = some request → request.presetless = true) :
    Outcome checks caller (.ggTeamManage p) p.asksFor (readTeamManage checks caller p.toFields) := by
  rw [readTeamManage_sent]
  cases hteam : trimmedNonEmpty p.teamId with
  | none =>
    have hasked : p.asksFor = none := by rw [GgTeamManageRequest.asksFor, hteam]; rfl
    rw [hasked]
    exact .bad _
  | some teamId =>
    rw [orBadRequest, ok_bind]
    cases hids : p.removeAgentIds with
    | none =>
      have hasked := manage_asksFor_add hids hteam
      rw [hasked]
      refine readTeamManageAdd_outcome checks caller hids hteam fun hblank options hoptions => ?_
      exact hspelled hblank _ (by rw [hasked, hoptions]; rfl)
    | some ids =>
      refine readTeamManage_remove checks caller hids hteam fun hblank => ?_
      cases hasked : p.asksFor with
      | none => rfl
      | some request =>
        -- a removal names no preset
        have hpresetless := hspelled hblank request hasked
        rw [GgTeamManageRequest.asksFor, hteam, hids] at hasked
        simp only [Option.bind_eq_bind, Option.bind_some, Option.bind_eq_some_iff] at hasked
        obtain ⟨ids', -, hasked⟩ := hasked
        split at hasked
        · obtain rfl := Option.some.inj hasked
          cases hpresetless
        · cases hasked

/-! ## A blank worktree name -/

theorem bind_ne_ok {α β : Type} {x : Except TeamToolFailure α} {k : α → Except TeamToolFailure β} {b : β}
    (h : ∀ a, k a ≠ .ok b) : (x >>= k) ≠ .ok b := by
  cases x with
  | error failure => nofun
  | ok a => exact h a

theorem readTeamManage_blank {p : GgTeamManageRequest} (h : p.blanksWorktree = true) (call : ToolCall) :
    readTeamManage checks caller p.toFields ≠ .ok call := by
  rw [readTeamManage_sent]
  refine bind_ne_ok fun teamId => ?_
  cases p.removeAgentIds with
  | some ids =>
    obtain ⟨message, herr⟩ := rejectTeamToolFieldsWithMessage_error p.toFields
      (fun field => s!"{field} cannot be provided when remove_agent_ids is provided") ["title", "prompt", "image_paths",
        "model_preset", "worktree_name", "use_existing_worktree", "creator_compaction_subscription"]
      ⟨"worktree_name", by simp, blank_sent h⟩
    dsimp only
    rw [herr, error_bind]
    nofun
  | none =>
    rw [readTeamManageAdd_sent, (optText_blank h).1]
    exact bind_ne_ok fun _ => bind_ne_ok fun _ => bind_ne_ok fun _ => bind_ne_ok fun _ => bind_ne_ok fun _ =>
      bind_ne_ok fun _ => bind_ne_ok fun _ => nofun

/-- Services that have no reason of their own to refuse `p`. -/
def willing (p : GgTeamManageRequest) : TeamChecks where
  enabled := true
  mayAdd _ _ := .ok ()
  presets := ((p.modelPreset.bind trimmedNonEmpty).map fun name => ⟨name, some "codex", "gpt-5", none⟩).toList
  sessionProvider _ := .ok none

theorem resolvePreset_willing {p : GgTeamManageRequest} {name : String}
    (hnamed : p.modelPreset.bind trimmedNonEmpty = some name) (hname : normalizeModelPresetName name ≠ "") :
    resolvePreset (catalogOf (willing p).presets) name =
      some ⟨normalizeModelPresetName name, .codex, "gpt-5", none⟩ := by
  have hmodel : trim "gpt-5" = "gpt-5" := by decide
  have hprovider : ProviderKind.fromStr "codex" = some .codex := by decide
  simp [resolvePreset, catalogOf, willing, hnamed, hname, hmodel, hprovider]

theorem addOptions_modelPreset {p : GgTeamManageRequest} {options : TeamAddOptions} (h : p.addOptions = some options) :
    options.modelPreset = p.modelPreset.bind trimmedNonEmpty := by
  simp only [GgTeamManageRequest.addOptions, Option.bind_eq_bind, Option.bind_eq_some_iff] at h
  obtain ⟨title, -, prompt, -, imagePaths, -, modelPreset, hread, h⟩ := h
  split at h
  · cases h
  · obtain rfl := Option.some.inj h
    exact (bind_of_optText hread).symm

theorem not_refused {p : GgTeamManageRequest} {request : ToolRequest} (hasked : p.asksFor = some request)
    (hpresetless : request.presetless = false) (failure : TeamToolFailure) :
    ¬ Refusal (willing p) caller (.ggTeamManage p) failure := by
  have hknown : ∀ name, p.removeAgentIds = none → p.modelPreset.bind trimmedNonEmpty = some name →
      normalizeModelPresetName name ≠ "" := by
    intro name hadds hnamed hempty
    rw [GgTeamManageRequest.asksFor, hadds] at hasked
    simp only [Option.bind_eq_bind, Option.bind_eq_some_iff] at hasked
    obtain ⟨teamId, -, options, hoptions, hasked⟩ := hasked
    obtain rfl := Option.some.inj hasked
    simp [ToolRequest.presetless, addOptions_modelPreset hoptions, hnamed, hempty] at hpresetless
  intro hrefused
  cases hrefused with
  | disabled _ off => cases off
  | membership _ _ refused => cases refused
  | preset adds named unknown =>
    rw [resolvePreset_willing named (hknown _ adds named)] at unknown
    cases unknown
  | session _ _ refused => cases refused
  | images brings acp =>
    unfold GgTeamManageRequest.memberProvider at acp
    split at acp
    · next name hnamed =>
      rw [resolvePreset_willing hnamed (hknown name brings.1 hnamed)] at acp
      cases acp
    · cases acp

end

end Gooselake.Tools
