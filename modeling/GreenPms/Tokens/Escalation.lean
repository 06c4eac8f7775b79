import GreenPms.Tokens.Lifecycle

/-! # Tokens do not escalate

What a token creates is bounded by the token, what changes later only takes away from a ceiling,
so the bound passes down every chain of issues and rotations.
-/

namespace GreenPms

open Checked TransitionSystem

variable {rt : TokenRuntime} {effectHash : TokenEffect → TokenBasis → String} {t t' : TokenTables}
  {p : TokenPrincipal} {input : TokenCommand} {effect : TokenEffect} {basis : TokenBasis}

/-! ## One confirmation -/

theorem resolve_persisted {requested grants ceiling : List String} {access : AccessLevel}
    (h : resolveTokenCommandCeiling t requested grants access = .ok ceiling) :
    persistedTokenCommandCeiling access ceiling ⊆ executableCommandCeilingFromGrants t grants ∧
      (access = .read → persistedTokenCommandCeiling access ceiling = []) := by
  cases access with
  | read => exact ⟨List.nil_subset _, fun _ => rfl⟩
  | write =>
    simp only [resolveTokenCommandCeiling, bind_eq_ok, require_eq_ok, pure_eq_ok] at h
    obtain ⟨-, hWithin, rfl⟩ := h
    exact ⟨hWithin, fun hRead => by cases hRead⟩

/-- The ceiling of an effect that creates a token is within the grants of the token's subject. -/
theorem buildTokenEffect_persisted (h : buildTokenEffect rt t input = .ok (effect, basis))
    (hCreates : createsToken input = true) :
    effect.persistedCommandCeiling ⊆ executableCommandCeilingFromGrants t (t.commandGrants effect.subjectId) ∧
      (effect.accessCeiling = .read → effect.persistedCommandCeiling = []) := by
  cases input with
  | issue subjectId label access ceiling expiresAt secretHash =>
    simp only [buildTokenEffect, bind_eq_ok, require_eq_ok, pure_eq_ok, Prod.mk.injEq] at h
    obtain ⟨-, -, level, -, text, -, requested, -, subject, -, -, -, resolved, hResolved, rfl, -⟩ := h
    exact resolve_persisted hResolved
  | rotate tokenId ceiling expiresAt secretHash =>
    simp only [buildTokenEffect, bind_eq_ok, require_eq_ok, expect_eq_ok, pure_eq_ok, Prod.mk.injEq] at h
    obtain ⟨token, -, subject, -, -, -, -, -, text, -, instant, -, -, -, requested, -, resolved, hResolved, rfl, -⟩ := h
    exact resolve_persisted hResolved
  | revoke tokenId => cases hCreates

/-- Nothing but a revocation happens to the tokens that are there, and ceilings only shrink. -/
def TokensKept (t t' : TokenTables) : Prop :=
  ∀ id x, t.tokens id = some x → ∃ x', t'.tokens id = some x' ∧ x'.subjectId = x.subjectId ∧
    x'.accessCeiling = x.accessCeiling ∧ x'.expiresAt = x.expiresAt ∧ t'.ceilings id ⊆ t.ceilings id

theorem TokensKept.refl (t : TokenTables) : TokensKept t t := fun _ x hx =>
  ⟨x, hx, rfl, rfl, rfl, List.Subset.refl _⟩

theorem TokensKept.trans {u : TokenTables} (h : TokensKept t t') (k : TokensKept t' u) : TokensKept t u := by
  intro id x hx
  obtain ⟨y, hy, hSubject, hAccess, hExpiry, hCeiling⟩ := h id x hx
  obtain ⟨z, hz, hSubject', hAccess', hExpiry', hCeiling'⟩ := k id y hy
  exact ⟨z, hz, hSubject'.trans hSubject, hAccess'.trans hAccess, hExpiry'.trans hExpiry,
    List.Subset.trans hCeiling' hCeiling⟩

@[simp] theorem insertToken_tokens (t : TokenTables) (id : Nat) (x : ApiToken) (ceiling : List String) :
    (insertToken t id x ceiling).tokens id = some x := Function.update_self ..

@[simp] theorem insertToken_ceilings (t : TokenTables) (id : Nat) (x : ApiToken) (ceiling : List String) :
    (insertToken t id x ceiling).ceilings id = ceiling := Function.update_self ..

theorem tokensKept_insert {newId : Nat} (hFresh : t.tokens newId = none) (x : ApiToken) (ceiling : List String) :
    TokensKept t (insertToken t newId x ceiling) := by
  intro id y hy
  have hOther : id ≠ newId := by
    rintro rfl
    rw [hFresh] at hy
    cases hy
  refine ⟨y, ?_, rfl, rfl, rfl, ?_⟩ <;> simp [insertToken, hOther, hy]

theorem tokensKept_update (t : TokenTables) (tokenId : Nat) {f : ApiToken → ApiToken}
    (hf : ∀ x, (f x).subjectId = x.subjectId ∧ (f x).accessCeiling = x.accessCeiling ∧
      (f x).expiresAt = x.expiresAt) : TokensKept t (updateToken t tokenId f) := by
  intro id y hy
  by_cases hId : id = tokenId
  · exact ⟨f y, by simp [updateToken, hId, hId ▸ hy], (hf y).1, (hf y).2.1, (hf y).2.2, List.Subset.refl _⟩
  · exact ⟨y, by simp [updateToken, hId, hy], rfl, rfl, rfl, List.Subset.refl _⟩

theorem tokensKept_changeGrants (t : TokenTables) (subjects : Nat → Option Subject)
    (access : Nat → Option AccessLevel) (grants : Nat → List String) (catalog : String → CommandClass) :
    TokensKept t (changeGrants t subjects access grants catalog) := by
  intro id x hx
  refine ⟨x, hx, rfl, rfl, rfl, ?_⟩
  simp only [changeGrants, hx]
  exact fun _ hc => (List.mem_filter.mp hc).1

theorem applyTokenCommand_kept {newId : Nat} (h : applyTokenCommand rt t input effect newId = .ok t') :
    TokensKept t t' ∧ (createsToken input = true → t.tokens newId = none ∧
      t'.ceilings newId = effect.persistedCommandCeiling ∧ ∃ x, t'.tokens newId = some x ∧
        x.subjectId = effect.subjectId ∧ x.accessCeiling = effect.accessCeiling ∧
        x.expiresAt = rt.timestamptz effect.expiresAt) := by
  cases input with
  | issue subjectId label access ceiling expiresAt secretHash =>
    simp only [applyTokenCommand, bind_eq_ok, require_eq_ok, pure_eq_ok] at h
    obtain ⟨-, hFresh, rfl⟩ := h
    exact ⟨tokensKept_insert hFresh _ _, fun _ =>
      ⟨hFresh, insertToken_ceilings .., _, insertToken_tokens .., rfl, rfl, rfl⟩⟩
  | rotate tokenId ceiling expiresAt secretHash =>
    simp only [applyTokenCommand, bind_eq_ok, require_eq_ok, pure_eq_ok] at h
    obtain ⟨-, hFresh, rfl⟩ := h
    have hUpdate := tokensKept_update (insertToken t newId ⟨effect.subjectId, effect.label, secretHash,
      effect.accessCeiling, rt.timestamptz effect.expiresAt, none, some tokenId, none⟩
      effect.persistedCommandCeiling) tokenId (f := fun x =>
        { x with revokedAt := some t.now, replacedById := some newId }) fun _ => ⟨rfl, rfl, rfl⟩
    refine ⟨(tokensKept_insert hFresh _ _).trans hUpdate, fun _ => ⟨hFresh, Function.update_self .., ?_⟩⟩
    obtain ⟨x, hx, hSubject, hAccess, hExpiry, -⟩ := hUpdate newId _ (insertToken_tokens ..)
    exact ⟨x, hx, hSubject, hAccess, hExpiry⟩
  | revoke tokenId =>
    simp only [applyTokenCommand, pure_eq_ok] at h
    subst h
    exact ⟨tokensKept_update t tokenId fun _ => ⟨rfl, rfl, rfl⟩, fun hCreates => absurd hCreates Bool.false_ne_true⟩

/-- The bounds of a token: what it may ever be allowed to do, and until when. -/
structure TokenWithin (ceiling : List String) (expiresAt : Int) (t : TokenTables) (id : Nat) : Prop where
  exists_token : ∃ x, t.tokens id = some x ∧ x.expiresAt ≤ expiresAt ∧
    (x.accessCeiling = .read → t.ceilings id = [])
  within : t.ceilings id ⊆ ceiling
  uncatalogued : "MANAGE_ROOM_CATALOG" ∉ t.ceilings id

theorem TokenWithin.kept {ceiling : List String} {expiresAt : Int} {id : Nat}
    (h : TokenWithin ceiling expiresAt t id) (hKept : TokensKept t t') : TokenWithin ceiling expiresAt t' id := by
  obtain ⟨⟨x, hx, hExpiry, hRead⟩, hWithin, hCatalog⟩ := h
  obtain ⟨x', hx', -, hAccess, hSame, hCeiling⟩ := hKept id x hx
  refine ⟨⟨x', hx', hSame ▸ hExpiry, fun hLevel => ?_⟩, List.Subset.trans hCeiling hWithin, fun hIn =>
    hCatalog (hCeiling hIn)⟩
  exact List.subset_nil.mp (hRead (hAccess ▸ hLevel) ▸ hCeiling)

theorem mem_effectiveSubjectCommandGrants {c : String} (h : c ∈ effectiveSubjectCommandGrants t p) :
    c ∈ t.ceilings p.credentialId ∧ c ≠ "MANAGE_ROOM_CATALOG" := by
  simp only [effectiveSubjectCommandGrants, List.mem_filter, Bool.and_eq_true, decide_eq_true_eq,
    List.contains_iff_mem] at h
  exact ⟨h.2.2, h.2.1⟩

theorem confirmTokenCommand_kept {previewId newId : Nat}
    (h : confirmTokenCommand rt t p effectHash previewId newId = .ok (input, t')) :
    TokensKept t t' ∧ (createsToken input = true → ∃ caller, t.tokens p.credentialId = some caller ∧
      TokenWithin (t.ceilings p.credentialId) caller.expiresAt t' newId ∧
      ∃ x, t'.tokens newId = some x ∧
        t'.ceilings newId ⊆ executableCommandCeilingFromGrants t (t.commandGrants x.subjectId)) := by
  simp only [confirmTokenCommand, bind_eq_ok, require_eq_ok, expect_eq_ok, pure_eq_ok, Prod.mk.injEq,
    Prod.exists] at h
  obtain ⟨preview, -, -, -, -, -, -, -, -, -, -, -, -, -, effect, basis, hBuilt, -, -, _, hCeiling, -, -, written,
    hApplied, caller, hCaller, _, hGuard, rfl, rfl⟩ := h
  obtain ⟨hKept, hCreated⟩ := applyTokenCommand_kept hApplied
  refine ⟨hKept, fun hCreates => ⟨caller, hCaller, ?_⟩⟩
  obtain ⟨-, hNew, x, hx, hSubject, hAccess, hExpiry⟩ := hCreated hCreates
  obtain ⟨hGranted, hRead⟩ := buildTokenEffect_persisted hBuilt hCreates
  simp only [assertTokenCommandCeiling, hCreates, if_true, require_eq_ok] at hCeiling
  simp only [runtimeTokenMutationGuard, hCreates, if_true, require_eq_ok] at hGuard
  refine ⟨⟨⟨x, hx, ?_, fun hLevel => ?_⟩, ?_, ?_⟩, x, hx, ?_⟩
  · rw [hExpiry]
    exact hGuard.2.1
  · exact hNew.trans (hRead (hAccess ▸ hLevel))
  · intro c hc
    exact (mem_effectiveSubjectCommandGrants (hCeiling.2.2 c (hNew ▸ hc))).1
  · intro hc
    exact (mem_effectiveSubjectCommandGrants (hCeiling.2.2 _ (hNew ▸ hc))).2 rfl
  · rw [hSubject]
    exact hNew ▸ hGranted

/-! ## Runs -/

theorem TokenStep.kept {e : TokenEvent} (hStep : TokenStep rt effectHash t e t') : TokensKept t t' := by
  cases hStep with
  | previewed p input previewId ttl hPreview =>
    simp only [createTokenPreview, bind_eq_ok, require_eq_ok, pure_eq_ok, Prod.exists] at hPreview
    obtain ⟨-, -, -, -, -, -, -, -, -, -, -, rfl⟩ := hPreview
    exact .refl t
  | confirmed p previewId newId hConfirm => exact (confirmTokenCommand_kept hConfirm).1
  | grantsChanged subjects access grants catalog => exact tokensKept_changeGrants t subjects access grants catalog
  | ticked later hLater => exact .refl t

theorem TokenStep.creates {e : TokenEvent} {callerId newId : Nat} (hStep : TokenStep rt effectHash t e t')
    (hCreation : e.creation = some (callerId, newId)) : ∃ caller, t.tokens callerId = some caller ∧
      TokenWithin (t.ceilings callerId) caller.expiresAt t' newId ∧ ∃ x, t'.tokens newId = some x ∧
        t'.ceilings newId ⊆ executableCommandCeilingFromGrants t (t.commandGrants x.subjectId) := by
  cases hStep with
  | confirmed p previewId id hConfirm =>
    simp only [TokenEvent.creation] at hCreation
    split at hCreation
    · next hCreates =>
      simp only [Option.some.injEq, Prod.mk.injEq] at hCreation
      obtain ⟨rfl, rfl⟩ := hCreation
      exact (confirmTokenCommand_kept hConfirm).2 hCreates
    · cases hCreation
  | _ => cases hCreation

/-- The tokens created so far from a root, directly or by the tokens it created. -/
def TokenEvent.adds (root : Nat) (made : List Nat) (e : TokenEvent) : List Nat :=
  match e.creation with
  | some (caller, id) => if caller = root ∨ caller ∈ made then id :: made else made
  | none => made

def descendants (root : Nat) (es : List TokenEvent) : List Nat := es.foldl (TokenEvent.adds root) []

theorem descendants_within {root : Nat} {ceiling : List String} {expiresAt : Int} {es : List TokenEvent}
    (hRun : Run (tokenSystem rt effectHash) t es t') (made : List Nat)
    (hRoot : ∃ x, t.tokens root = some x ∧ x.expiresAt ≤ expiresAt ∧ t.ceilings root ⊆ ceiling)
    (hMade : ∀ id ∈ made, TokenWithin ceiling expiresAt t id) :
    ∀ id ∈ es.foldl (TokenEvent.adds root) made, TokenWithin ceiling expiresAt t' id := by
  induction hRun generalizing made with
  | nil => exact hMade
  | @cons a b c e es hStep _ ih =>
    have hKept := TokenStep.kept hStep
    refine ih _ ?_ ?_
    · obtain ⟨x, hx, hExpiry, hCeiling⟩ := hRoot
      obtain ⟨x', hx', -, -, hSame, hShrunk⟩ := hKept root x hx
      exact ⟨x', hx', hSame ▸ hExpiry, List.Subset.trans hShrunk hCeiling⟩
    · have hOld : ∀ id ∈ made, TokenWithin ceiling expiresAt b id := fun id hId => (hMade id hId).kept hKept
      unfold TokenEvent.adds
      split
      · next caller id hCreation =>
        split
        · next hFrom =>
          refine List.forall_mem_cons.mpr ⟨?_, hOld⟩
          obtain ⟨callerToken, hCaller, hWithin, -⟩ := TokenStep.creates hStep hCreation
          have hBound : callerToken.expiresAt ≤ expiresAt ∧ a.ceilings caller ⊆ ceiling := by
            obtain rfl | hMember := hFrom
            · obtain ⟨x, hx, hExpiry, hCeiling⟩ := hRoot
              obtain rfl := Option.some.inj (hx.symm.trans hCaller)
              exact ⟨hExpiry, hCeiling⟩
            · obtain ⟨⟨x, hx, hExpiry, -⟩, hCeiling, -⟩ := hMade caller hMember
              obtain rfl := Option.some.inj (hx.symm.trans hCaller)
              exact ⟨hExpiry, hCeiling⟩
          obtain ⟨⟨x, hx, hExpiry, hRead⟩, hCeiling, hCatalog⟩ := hWithin
          exact ⟨⟨x, hx, hExpiry.trans hBound.1, hRead⟩, List.Subset.trans hCeiling hBound.2, hCatalog⟩
        · exact hOld
      · exact hOld

/-- Every token that descends from a token of the start of a run stays within it, may execute no
more than its ceiling and the current grants of its own subject, and was created within the
grants its subject could execute. -/
theorem token_never_escalates {s : TokenTables} {root : Nat} {rootToken : ApiToken} {es : List TokenEvent}
    (hRoot : s.tokens root = some rootToken) (hRun : Run (tokenSystem rt effectHash) s es t) :
    (∀ id ∈ descendants root es, ∃ x, t.tokens id = some x ∧ t.ceilings id ⊆ s.ceilings root ∧
      x.expiresAt ≤ rootToken.expiresAt ∧ (x.accessCeiling = .read → t.ceilings id = []) ∧
      "MANAGE_ROOM_CATALOG" ∉ t.ceilings id ∧
      ∀ commandType constraint subjectId,
        authorizeCommandAccess rt t ⟨subjectId, id⟩ commandType constraint = .ok () →
        commandType.text ∈ s.ceilings root ∧ commandType.text ∈ t.commandGrants x.subjectId) ∧
    ∀ fs e gs u v callerId id, es = fs ++ e :: gs → Run (tokenSystem rt effectHash) s fs u →
      TokenStep rt effectHash u e v → e.creation = some (callerId, id) → ∃ x, v.tokens id = some x ∧
        v.ceilings id ⊆ executableCommandCeilingFromGrants u (u.commandGrants x.subjectId) := by
  constructor
  · intro id hId
    obtain ⟨⟨x, hx, hExpiry, hRead⟩, hCeiling, hCatalog⟩ := descendants_within hRun []
      ⟨rootToken, hRoot, le_rfl, List.Subset.refl _⟩ (fun _ h => absurd h List.not_mem_nil) id hId
    refine ⟨x, hx, hCeiling, hExpiry, hRead, hCatalog, fun commandType constraint subjectId hAllowed => ?_⟩
    simp only [authorizeCommandAccess, bind_eq_ok] at hAllowed
    obtain ⟨token, hCaller, -⟩ := hAllowed
    obtain ⟨hToken, hSubject, hGrant, hInCeiling⟩ := authorizeCaller_eq_ok hCaller
    obtain rfl := Option.some.inj (hx.symm.trans hToken)
    exact ⟨hCeiling hInCeiling, hSubject ▸ hGrant⟩
  · rintro fs e gs u v callerId id - - hStep hCreation
    obtain ⟨-, -, -, hGranted⟩ := TokenStep.creates hStep hCreation
    exact hGranted

/-- The runtime on one instant, the first of 2030. -/
def sampleTokenRuntime : TokenRuntime where
  trim text := text
  dateParse text := if text = "2030-01-01T00:00:00Z" then some 1893456000000 else none
  strictDateTime text := text = "2030-01-01T00:00:00Z"
  toISOString instant := if instant = 1893456000000 then "2030-01-01T00:00:00.000Z" else ""
  timestamptz text := if text = "2030-01-01T00:00:00Z" then 1893456000000000 else 0

def sampleIssue : TokenCommand := .issue 2 "kiosk" "WRITE" (some ["CHECK_IN"]) "2030-01-01T00:00:00Z" "h1"

def sampleIssueEffect : TokenEffect where
  tokenId := none
  subjectId := 2
  subjectDisplayName := "desk"
  label := "kiosk"
  accessCeiling := .write
  commandCeiling := ["CHECK_IN"]
  persistedCommandCeiling := ["CHECK_IN"]
  previousCommandCeiling := []
  previousPersistedCommandCeiling := []
  previousExpiresAt := none
  expiresAt := "2030-01-01T00:00:00Z"

def sampleRootToken : ApiToken := ⟨1, "root", "h0", .write, 1924992000000000, none, none, none⟩

def sampleTokenTables : TokenTables where
  now := 1767225600000
  subjects _ := some ⟨"desk", .active, 1⟩
  propertyGrants _ := some .write
  commandGrants _ := ["ISSUE_TOKEN", "CHECK_IN", "CHECK_OUT"]
  commandCatalog _ := .humanCommand
  tokens id := if id = 10 then some sampleRootToken else none
  ceilings id := if id = 10 then ["ISSUE_TOKEN", "CHECK_IN"] else []
  previews _ := some ⟨1, sampleIssue, sampleIssueEffect, "e", 1767226200000, .opened⟩

theorem sampleIssue_confirmed : ∃ t', confirmTokenCommand sampleTokenRuntime sampleTokenTables ⟨1, 10⟩
    (fun _ _ => "e") 7 11 = .ok (sampleIssue, t') := ⟨_, rfl⟩

/-- A token issued by a token has no command beyond its issuer's, although both subjects have more. -/
theorem token_never_escalates_sample : ∃ t : TokenTables, ∀ id ∈ descendants 10
    [.confirmed 10 sampleIssue 11], t.ceilings id ⊆ sampleTokenTables.ceilings 10 := by
  obtain ⟨t, hConfirm⟩ := sampleIssue_confirmed
  refine ⟨t, fun id hId => ?_⟩
  have hRoot : sampleTokenTables.tokens 10 = some sampleRootToken := rfl
  obtain ⟨x, -, hCeiling, -⟩ := (token_never_escalates hRoot
    (.single (.confirmed ⟨1, 10⟩ 7 11 hConfirm))).1 id hId
  exact hCeiling

end GreenPms
