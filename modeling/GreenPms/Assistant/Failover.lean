import GreenPms.Assistant.Providers

/-! # Failover between two providers

The callbacks of a probe come late, when the router may have let it go. At most one probe counts at a
time, and a failure of the primary provider stands until a later probe has come through.
-/

namespace GreenPms

open TransitionSystem

namespace AssistantProviderRouter

variable {router : AssistantProviderRouter}

/-! ## Probes -/

/-- The running probe counts, and every other one is aborted or over. -/
structure Coherent (router : AssistantProviderRouter) : Prop where
  running : ∀ id, router.running = some id →
    ∃ probe, router.probes[id]? = some probe ∧ probe.stage ≠ .finished ∧ router.Counts probe
  idle : ∀ id probe, router.probes[id]? = some probe → router.running ≠ some id →
    probe.aborted = true ∨ probe.stage = .finished

theorem Coherent.letGo (h : Coherent router) {id : Nat} {probe : RecoveryProbe}
    (hProbe : router.letGo.probes[id]? = some probe) : probe.aborted = true ∨ probe.stage = .finished := by
  unfold AssistantProviderRouter.letGo at hProbe
  cases hRunning : router.running with
  | none =>
    rw [hRunning] at hProbe
    exact h.idle id probe hProbe (by rw [hRunning]; exact (Option.some_ne_none id).symm)
  | some current =>
    rw [hRunning] at hProbe
    dsimp only at hProbe
    rw [List.getElem?_modify] at hProbe
    obtain ⟨before, hBefore, rfl⟩ := Option.map_eq_some_iff.mp hProbe
    by_cases hSame : current = id
    · rw [if_pos hSame]
      exact .inl rfl
    · rw [if_neg hSame]
      exact h.idle id before hBefore fun hOther => hSame (Option.some.inj (hRunning.symm.trans hOther))

theorem Coherent.of_letGo (h : Coherent router) {after : AssistantProviderRouter} (hRunning : after.running = none)
    (hProbes : after.probes = router.letGo.probes) : Coherent after where
  running id hSome := by
    rw [hRunning] at hSome
    cases hSome
  idle id probe hProbe _ := h.letGo (hProbes ▸ hProbe)

theorem letGo_running (router : AssistantProviderRouter) : router.letGo.running = none := by
  unfold letGo
  cases hRunning : router.running with
  | none => exact hRunning
  | some _ => rfl

theorem Coherent.of_eq (h : Coherent router) {after : AssistantProviderRouter} (hRunning : after.running = router.running)
    (hProbes : after.probes = router.probes) (hGeneration : after.generation = router.generation)
    (hVersion : after.version = router.version) (hClosed : after.closed = router.closed) : Coherent after where
  running id hSome := by
    obtain ⟨probe, hProbe, hStage, hCounts⟩ := h.running id (hRunning ▸ hSome)
    exact ⟨probe, hProbes ▸ hProbe, hStage, by rwa [Counts, hGeneration, hVersion, hClosed]⟩
  idle id probe hProbe hOther := h.idle id probe (hProbes ▸ hProbe) (hRunning ▸ hOther)

theorem sync_cases (router : AssistantProviderRouter) (row : Option ProviderSettingsRow) :
    ¬Reconfigures router.version row ∧ router.sync row = (router, decide (router.version ≤ rowVersion row)) ∨
      Reconfigures router.version row ∧ router.sync row = ({ router.letGo with
        generation := router.generation + 1, retryAt := none, lastFailure := none, lastCheckedAt := none
        version := rowVersion row }, true) := by
  unfold sync Reconfigures
  by_cases hOlder : rowVersion row < router.version
  · rw [if_pos hOlder]
    refine .inl ⟨fun hNew => absurd hNew.1 (Int.not_le.mpr hOlder), ?_⟩
    rw [decide_eq_false (Int.not_le.mpr hOlder)]
  · rw [if_neg hOlder]
    by_cases hNew : router.version ≠ rowVersion row ∨ rowEnabled row = false
    · rw [if_pos hNew]
      exact .inr ⟨⟨Int.not_lt.mp hOlder, hNew⟩, rfl⟩
    · rw [if_neg hNew, decide_eq_true (Int.not_lt.mp hOlder)]
      exact .inl ⟨fun hBoth => hNew hBoth.2, rfl⟩

theorem Coherent.sync (h : Coherent router) (row : Option ProviderSettingsRow) : Coherent (router.sync row).1 := by
  obtain ⟨-, hSame⟩ | ⟨-, hNew⟩ := router.sync_cases row
  · rw [hSame]
    exact h
  · rw [hNew]
    exact h.of_letGo router.letGo_running rfl

theorem Coherent.failure (h : Coherent router) (version : Int) (error : ProviderError) (now : Nat) :
    Coherent (router.failure version error now) := by
  unfold AssistantProviderRouter.failure
  split
  · split
    · exact h
    · exact h.of_letGo router.letGo_running rfl
  · exact h

/-- A probe starts only when none is running, and is the one that runs then. -/
theorem Coherent.start (h : Coherent router) (hIdle : router.running = none) (hOpen : router.closed = false) :
    Coherent { router with
      running := some router.probes.length
      probes := router.probes ++ [⟨router.generation, router.version, false, .pending⟩] } where
  running id hSome := by
    obtain rfl := Option.some.inj hSome
    exact ⟨_, List.getElem?_concat_length, by simp, rfl, rfl, rfl, hOpen⟩
  idle id probe hProbe hOther := by
    have hPlace : id ≠ router.probes.length := fun hSame => hOther (congrArg some hSame.symm)
    have hBound : id < router.probes.length := by
      have hInside := (List.getElem?_eq_some_iff.mp hProbe).1
      rw [List.length_append, List.length_singleton] at hInside
      omega
    dsimp only at hProbe
    rw [List.getElem?_append_left hBound] at hProbe
    exact h.idle id probe hProbe (by rw [hIdle]; exact (Option.some_ne_none id).symm)

theorem Coherent.probe (h : Coherent router) (row : ProviderSettingsRow) (now : Nat) (force : Bool) :
    Coherent (router.probe row now force) := by
  have hSynced := h.sync (some row)
  unfold AssistantProviderRouter.probe
  generalize router.sync (some row) = synced at hSynced ⊢
  obtain ⟨synced, current⟩ := synced
  dsimp only at hSynced ⊢
  split
  case isTrue => exact hSynced
  case isFalse hIdle =>
    split
    case isTrue => exact hSynced
    case isFalse hOpen =>
      simp only [Bool.or_eq_true, not_or, Bool.not_eq_true, Option.isSome_eq_false_iff, Option.isNone_iff_eq_none] at hIdle hOpen
      exact hSynced.start hIdle.2 hOpen.1.1.1

theorem settle_getElem? (router : AssistantProviderRouter) (id other : Nat) (stage : ProbeStage) :
    (router.settle id stage).probes[other]? =
      router.probes[other]?.map fun probe => if id = other then { probe with stage } else probe := by
  rw [settle, List.getElem?_modify]
  cases router.probes[other]? with
  | none => rfl
  | some probe => by_cases hSame : id = other <;> simp [hSame]

theorem Coherent.settle (h : Coherent router) {id : Nat} {pending : RecoveryProbe}
    (hPending : router.probes[id]? = some pending) (hStage : pending.stage = .pending) :
    Coherent (router.settle id .settled) where
  running current hSome := by
    obtain ⟨probe, hProbe, hStage, hCounts⟩ := h.running current hSome
    rw [settle_getElem?, hProbe]
    by_cases hSame : id = current
    · exact ⟨{ probe with stage := .settled }, by simp [hSame], by simp, hCounts⟩
    · exact ⟨probe, by simp [hSame], hStage, hCounts⟩
  idle other probe hProbe hOther := by
    rw [settle_getElem?] at hProbe
    obtain ⟨before, hBefore, rfl⟩ := Option.map_eq_some_iff.mp hProbe
    have hIdle := h.idle other before hBefore hOther
    by_cases hSame : id = other
    · subst hSame
      obtain rfl := Option.some.inj (hPending.symm.trans hBefore)
      rw [if_pos rfl]
      exact .inl (hIdle.resolve_right (by rw [hStage]; simp))
    · rwa [if_neg hSame]

theorem Coherent.succeeded (h : Coherent router) (id now : Nat) : Coherent (router.succeeded id now) := by
  unfold AssistantProviderRouter.succeeded
  split
  case h_1 => exact h
  case h_2 probe hProbe =>
    split
    case isTrue => exact h
    case isFalse hPending =>
      have hSettled := h.settle hProbe (not_not.mp hPending)
      split
      · exact hSettled.of_eq rfl rfl rfl rfl rfl
      · exact hSettled

theorem Coherent.rejected (h : Coherent router) (id : Nat) (error : ProviderError) (now : Nat) :
    Coherent (router.rejected id error now) := by
  unfold AssistantProviderRouter.rejected
  split
  case h_1 => exact h
  case h_2 probe hProbe =>
    split
    case isTrue => exact h
    case isFalse hPending =>
      have hSettled := h.settle hProbe (not_not.mp hPending)
      split
      · exact hSettled.of_eq rfl rfl rfl rfl rfl
      · exact hSettled

theorem Coherent.finish (h : Coherent router) (id : Nat) : Coherent (router.finish id) := by
  unfold AssistantProviderRouter.finish
  split
  case h_1 => exact h
  case h_2 probe hProbe =>
    split
    case isTrue => exact h
    case isFalse =>
      constructor
      · intro current hSome
        dsimp only at hSome
        split at hSome
        case isTrue => cases hSome
        case isFalse hOther =>
          obtain ⟨running, hRunning, hStage, hCounts⟩ := h.running current hSome
          have hSame : id ≠ current := fun hSame => hOther (hSame ▸ hSome)
          refine ⟨running, ?_, hStage, hCounts⟩
          exact (settle_getElem? router id current .finished).trans (by rw [hRunning]; simp [hSame])
      · intro other after hAfter hOther
        obtain ⟨before, hBefore, rfl⟩ := Option.map_eq_some_iff.mp ((settle_getElem? router id other .finished).symm.trans hAfter)
        by_cases hSame : id = other
        · rw [if_pos hSame]
          exact .inr rfl
        · rw [if_neg hSame]
          refine h.idle other before hBefore fun hRunning => hOther ?_
          dsimp only
          rw [if_neg (fun hHere => hSame (Option.some.inj (hHere.symm.trans hRunning))), hRunning]

theorem Coherent.perform (h : Coherent router) (action : RouterAction) : Coherent (router.perform action) := by
  cases action with
  | sync row => exact h.sync row
  | select row _ => exact h.sync (some row)
  | failure version error now => exact h.failure version error now
  | status row => exact h.sync row
  | needsProbe row _ => exact h.sync (some row)
  | probe row now force => exact h.probe row now force
  | succeeded id now => exact h.succeeded id now
  | rejected id error now => exact h.rejected id error now
  | finish id => exact h.finish id
  | close => exact h.of_letGo router.letGo_running rfl

theorem reachable_coherent (h : Reachable routerSystem router) : Coherent router := by
  refine h.invariant ?_ ?_
  · rintro _ rfl
    exact ⟨fun _ hNone => (by cases hNone), fun _ _ hNone => (by simp [fresh] at hNone)⟩
  · rintro before action _ - hBefore rfl
    exact hBefore.perform action

theorem Coherent.running_of_live (h : Coherent router) {id : Nat} {probe : RecoveryProbe}
    (hProbe : router.probes[id]? = some probe) (hLive : probe.aborted = false) (hStage : probe.stage ≠ .finished) :
    router.running = some id := by
  by_contra hIdle
  rcases h.idle id probe hProbe hIdle with hAborted | hFinished
  · exact absurd (hLive.symm.trans hAborted) Bool.false_ne_true
  · exact hStage hFinished

theorem Coherent.not_counts (h : Coherent router) {id : Nat} {probe : RecoveryProbe} (hOther : router.running ≠ some id)
    (hProbe : router.probes[id]? = some probe) (hPending : ¬probe.stage ≠ .pending) : ¬router.Counts probe := by
  intro hCounts
  rcases h.idle id probe hProbe hOther with hAborted | hFinished
  · exact absurd (hCounts.1.symm.trans hAborted) Bool.false_ne_true
  · exact absurd ((not_not.mp hPending).symm.trans hFinished) (by decide)

/-! The callbacks of a probe that is not the running one touch only the probe. -/

theorem Coherent.stale_succeeded (h : Coherent router) {id : Nat} (hOther : router.running ≠ some id) (now : Nat) :
    router.succeeded id now = { router with probes := (router.succeeded id now).probes } := by
  unfold AssistantProviderRouter.succeeded
  split
  case h_1 => rfl
  case h_2 probe hProbe =>
    split
    · rfl
    · rw [if_neg (h.not_counts hOther hProbe ‹_›)]
      rfl

theorem Coherent.stale_rejected (h : Coherent router) {id : Nat} (hOther : router.running ≠ some id)
    (error : ProviderError) (now : Nat) :
    router.rejected id error now = { router with probes := (router.rejected id error now).probes } := by
  unfold AssistantProviderRouter.rejected
  split
  case h_1 => rfl
  case h_2 probe hProbe =>
    split
    · rfl
    · rw [if_neg (fun hBoth => h.not_counts hOther hProbe ‹_› hBoth.1)]
      rfl

theorem stale_finish {id : Nat} (hOther : router.running ≠ some id) :
    router.finish id = { router with probes := (router.finish id).probes } := by
  unfold finish
  rw [if_neg hOther]
  split
  case h_1 => rfl
  case h_2 =>
    split
    · rfl
    · rfl

/-- In every state at most one probe is neither aborted nor over, and it is the one whose result
counts. The callbacks of all others leave the routing as it is. -/
theorem stale_probe_changes_nothing (h : Reachable routerSystem router) :
    (∀ id id' (probe probe' : RecoveryProbe), router.probes[id]? = some probe → router.probes[id']? = some probe' →
      probe.aborted = false → probe'.aborted = false → probe.stage ≠ .finished → probe'.stage ≠ .finished →
      id = id' ∧ router.running = some id ∧ router.Counts probe) ∧
    ∀ id, router.running ≠ some id → ∀ (error : ProviderError) (now : Nat),
      ∀ action ∈ [RouterAction.succeeded id now, .rejected id error now, .finish id],
        router.perform action = { router with probes := (router.perform action).probes } := by
  have hCoherent := reachable_coherent h
  refine ⟨fun id id' probe probe' hProbe hProbe' hLive hLive' hStage hStage' => ?_, fun id hOther error now => ?_⟩
  · have hRunning := hCoherent.running_of_live hProbe hLive hStage
    have hRunning' := hCoherent.running_of_live hProbe' hLive' hStage'
    obtain ⟨running, hHere, -, hCounts⟩ := hCoherent.running id hRunning
    obtain rfl := Option.some.inj (hHere.symm.trans hProbe)
    exact ⟨Option.some.inj (hRunning.symm.trans hRunning'), hRunning, hCounts⟩
  · simp only [List.forall_mem_cons, List.not_mem_nil, false_imp_iff, implies_true, and_true]
    exact ⟨hCoherent.stale_succeeded hOther now, hCoherent.stale_rejected hOther error now, stale_finish hOther⟩

/-! ## After a failure of the primary provider -/

/-- The primary provider has failed under some settings, and no probe up to a place can clear it. -/
structure Demoted (version : Int) (first : Nat) (router : AssistantProviderRouter) : Prop where
  version : router.version = version
  retry : router.retryAt ≠ none
  started : first ≤ router.probes.length
  old : ∀ (id : Nat) (probe : RecoveryProbe), id < first → router.probes[id]? = some probe →
    probe.aborted = true ∨ probe.stage ≠ .pending

variable {version : Int} {first : Nat}

theorem letGo_version (router : AssistantProviderRouter) : router.letGo.version = router.version := by
  unfold letGo
  split
  · rfl
  · rfl

theorem letGo_retryAt (router : AssistantProviderRouter) : router.letGo.retryAt = router.retryAt := by
  unfold letGo
  split
  · rfl
  · rfl

theorem letGo_probes (router : AssistantProviderRouter) : router.letGo.probes.length = router.probes.length ∧
    ∀ (id : Nat) (probe : RecoveryProbe), router.letGo.probes[id]? = some probe →
      ∃ before, router.probes[id]? = some before ∧ (probe = before ∨ probe.aborted = true) := by
  unfold letGo
  cases router.running with
  | none => exact ⟨rfl, fun id probe hProbe => ⟨probe, hProbe, .inl rfl⟩⟩
  | some current =>
    refine ⟨List.length_modify .., fun id probe hProbe => ?_⟩
    dsimp only at hProbe
    rw [List.getElem?_modify] at hProbe
    obtain ⟨before, hBefore, rfl⟩ := Option.map_eq_some_iff.mp hProbe
    refine ⟨before, hBefore, ?_⟩
    split
    · exact .inr rfl
    · exact .inl rfl

theorem Demoted.letGo (h : Demoted version first router) {after : AssistantProviderRouter}
    (hProbes : after.probes = router.letGo.probes) (hVersion : after.version = router.version)
    (hRetry : after.retryAt ≠ none) : Demoted version first after where
  version := hVersion.trans h.version
  retry := hRetry
  started := by
    rw [hProbes, router.letGo_probes.1]
    exact h.started
  old id probe hId hProbe := by
    rw [hProbes] at hProbe
    obtain ⟨before, hBefore, rfl | hAborted⟩ := router.letGo_probes.2 id probe hProbe
    · exact h.old id _ hId hBefore
    · exact .inl hAborted

theorem Demoted.settle (h : Demoted version first router) (id : Nat) {stage : ProbeStage} (hStage : stage ≠ .pending)
    {after : AssistantProviderRouter} (hProbes : after.probes = (router.settle id stage).probes)
    (hVersion : after.version = router.version) (hRetry : after.retryAt ≠ none) : Demoted version first after where
  version := hVersion.trans h.version
  retry := hRetry
  started := by
    rw [hProbes, AssistantProviderRouter.settle, List.length_modify]
    exact h.started
  old other probe hOther hProbe := by
    rw [hProbes, settle_getElem?] at hProbe
    obtain ⟨before, hBefore, rfl⟩ := Option.map_eq_some_iff.mp hProbe
    by_cases hSame : id = other
    · rw [if_pos hSame]
      exact .inr hStage
    · rw [if_neg hSame]
      exact h.old other before hOther hBefore

theorem Demoted.sync (h : Demoted version first router) {row : Option ProviderSettingsRow}
    (hRow : ¬Reconfigures version row) : (router.sync row).1 = router := by
  obtain ⟨-, hSame⟩ | ⟨hNew, -⟩ := router.sync_cases row
  · rw [hSame]
  · exact absurd (h.version ▸ hNew) hRow

theorem Demoted.probe (h : Demoted version first router) {row : ProviderSettingsRow}
    (hRow : ¬Reconfigures version (some row)) (now : Nat) (force : Bool) :
    Demoted version first (router.probe row now force) := by
  have hSynced := h.sync hRow
  unfold AssistantProviderRouter.probe
  generalize router.sync (some row) = synced at hSynced ⊢
  obtain ⟨synced, current⟩ := synced
  obtain rfl : synced = router := hSynced
  dsimp only
  split
  · exact h
  · split
    · exact h
    · refine ⟨h.version, h.retry, ?_, fun id probe hId hProbe => ?_⟩
      · rw [List.length_append]
        exact Nat.le_add_right_of_le h.started
      · dsimp only at hProbe
        rw [List.getElem?_append_left (Nat.lt_of_lt_of_le hId h.started)] at hProbe
        exact h.old id probe hId hProbe

/-- Only settings that have changed and a probe from after the failure clear it. -/
theorem Demoted.perform (h : Demoted version first router) {action : RouterAction}
    (hRows : ∀ row, action.row? = some row → ¬Reconfigures version row)
    (hProbes : ∀ id now, first ≤ id → action ≠ .succeeded id now) : Demoted version first (router.perform action) := by
  cases action with
  | sync row =>
    change Demoted version first (router.sync row).1
    rwa [h.sync (hRows row rfl)]
  | select row useBackup =>
    change Demoted version first (router.sync (some row)).1
    rwa [h.sync (hRows _ rfl)]
  | status row =>
    change Demoted version first (router.sync row).1
    rwa [h.sync (hRows row rfl)]
  | needsProbe row now =>
    change Demoted version first (router.sync (some row)).1
    rwa [h.sync (hRows _ rfl)]
  | probe row now force => exact h.probe (hRows _ rfl) now force
  | close => exact h.letGo rfl router.letGo_version (router.letGo_retryAt.symm ▸ h.retry)
  | failure version' error now =>
    unfold AssistantProviderRouter.perform AssistantProviderRouter.failure
    dsimp only
    split
    · split
      · exact h
      · exact h.letGo rfl router.letGo_version (Option.some_ne_none _)
    · exact h
  | finish id =>
    unfold AssistantProviderRouter.perform AssistantProviderRouter.finish
    dsimp only
    split
    · exact h
    · split
      · exact h
      · exact h.settle id (by decide) rfl rfl h.retry
  | rejected id error now =>
    unfold AssistantProviderRouter.perform AssistantProviderRouter.rejected
    dsimp only
    split
    · exact h
    · split
      · exact h
      · split
        · exact h.settle id (by decide) rfl rfl (Option.some_ne_none _)
        · exact h.settle id (by decide) rfl rfl h.retry
  | succeeded id now =>
    have hOld : id < first := Nat.lt_of_not_le fun hNew => hProbes id now hNew rfl
    unfold AssistantProviderRouter.perform AssistantProviderRouter.succeeded
    dsimp only
    split
    case h_1 => exact h
    case h_2 probe hProbe =>
      split
      case isTrue => exact h
      case isFalse hPending =>
        have hAborted := (h.old id probe hOld hProbe).resolve_right hPending
        rw [if_neg (fun hCounts : router.Counts probe => absurd (hCounts.1.symm.trans hAborted) Bool.false_ne_true)]
        exact h.settle id (by decide) rfl rfl h.retry

theorem Demoted.run (h : Demoted version first router) {after : AssistantProviderRouter} {es : List RouterAction}
    (hRun : Run routerSystem router es after)
    (hRows : ∀ action ∈ es, ∀ row, action.row? = some row → ¬Reconfigures version row)
    (hProbes : ∀ id now, first ≤ id → RouterAction.succeeded id now ∉ es) : Demoted version first after := by
  induction hRun with
  | nil => exact h
  | cons hStep _ ih =>
    obtain ⟨hRow, hLater⟩ := List.forall_mem_cons.mp hRows
    refine ih ?_ hLater fun id now hId hMem => hProbes id now hId (List.mem_cons_of_mem _ hMem)
    rw [hStep]
    exact h.perform hRow fun id now hId hSame => hProbes id now hId (hSame ▸ List.mem_cons_self)

theorem Coherent.demoted (h : Coherent router) {error : ProviderError} (hFault : (providerFault error).isSome = true)
    (hOpen : router.closed = false) (now : Nat) :
    Demoted router.version router.probes.length (router.failure router.version error now) := by
  obtain ⟨diagnostic, hDiagnostic⟩ := Option.isSome_iff_exists.mp hFault
  unfold AssistantProviderRouter.failure
  rw [hDiagnostic]
  dsimp only
  rw [hOpen, bne_self_eq_false, Bool.or_false, if_neg Bool.false_ne_true]
  refine ⟨router.letGo_version, Option.some_ne_none _, router.letGo_probes.1.ge, fun id probe _ hProbe => ?_⟩
  rcases h.letGo hProbe with hAborted | hFinished
  · exact .inl hAborted
  · exact .inr (by rw [hFinished]; decide)

theorem select_route {row : ProviderSettingsRow} (hVersion : router.version = row.version) (hEnabled : row.enabled = true)
    (useBackup : Bool) : (router.select row useBackup).2 = router.route row useBackup := by
  have hSame : ¬Reconfigures router.version (some row) := by
    rintro ⟨-, hOther | hDisabled⟩
    · exact hOther hVersion
    · exact absurd (hEnabled.symm.trans hDisabled) (by decide)
  obtain ⟨-, hSync⟩ | ⟨hNew, -⟩ := router.sync_cases (some row)
  · rw [select, hSync]
    dsimp only
    rw [decide_eq_true (show router.version ≤ rowVersion (some row) from hVersion.le), if_pos rfl]
  · exact absurd hNew hSame

/-- Once the primary provider has failed, questions go to the backup one whatever callbacks of older
probes, failures and questions come in between, until the settings change or a probe from after the
failure comes through. Then they go to the primary one again. -/
theorem primary_stays_demoted (hReach : Reachable routerSystem router) {error : ProviderError}
    (hFault : (providerFault error).isSome = true) (hOpen : router.closed = false) {now : Nat} {es : List RouterAction}
    {after : AssistantProviderRouter} (hRun : Run routerSystem (router.failure router.version error now) es after)
    (hRows : ∀ action ∈ es, ∀ row, action.row? = some row → ¬Reconfigures router.version row)
    (hProbes : ∀ id now, router.probes.length ≤ id → RouterAction.succeeded id now ∉ es)
    {row : ProviderSettingsRow} (hVersion : router.version = row.version) (hEnabled : row.enabled = true)
    (hPrimary : providerAvailable (some row) .primary = true) (hBackup : providerAvailable (some row) .backup = true)
    (hLive : after.closed = false) :
    (after.select row false).2 = .ok .backup ∧ ∀ id probe at_, after.running = some id → after.probes[id]? = some probe →
      probe.stage = .pending → ((after.perform (.succeeded id at_)).select row false).2 = .ok .primary := by
  have hDemoted := ((reachable_coherent hReach).demoted hFault hOpen now).run hRun hRows hProbes
  have hFailed : Reachable routerSystem (router.failure router.version error now) :=
    hReach.step (e := .failure router.version error now) rfl
  have hCoherent := reachable_coherent (hFailed.run hRun)
  have hRetry : after.retryAt.isNone = false := Option.isNone_eq_false_iff.mpr (Option.isSome_iff_ne_none.mpr hDemoted.retry)
  refine ⟨?_, fun id probe at_ hRunning hProbe hPending => ?_⟩
  · rw [select_route (hDemoted.version.trans hVersion) hEnabled, route, hEnabled, hLive, hPrimary, hBackup, hRetry]
    rfl
  · obtain ⟨running, hHere, -, hCounts⟩ := hCoherent.running id hRunning
    obtain rfl := Option.some.inj (hHere.symm.trans hProbe)
    have hAfter : after.perform (.succeeded id at_) = { after.settle id .settled with
        retryAt := none, lastFailure := none, lastCheckedAt := some at_ } := by
      unfold perform succeeded
      dsimp only
      rw [hProbe]
      dsimp only
      rw [if_neg (not_not.mpr hPending), if_pos hCounts]
    have hSettled : (after.perform (.succeeded id at_)).version = row.version ∧
        (after.perform (.succeeded id at_)).closed = false ∧ (after.perform (.succeeded id at_)).retryAt = none := by
      rw [hAfter]
      exact ⟨hDemoted.version.trans hVersion, hLive, rfl⟩
    rw [select_route hSettled.1 hEnabled, route, hEnabled, hPrimary, hSettled.2.1, hSettled.2.2]
    rfl

def sampleConnection : ProviderConnection := ⟨true, "https://model.example/v1", "m", "k"⟩

def sampleRow : ProviderSettingsRow := ⟨1, true, sampleConnection, sampleConnection⟩

def sampleRouter : AssistantProviderRouter := fresh.perform (.select sampleRow false)

theorem sampleRouter_reachable : Reachable routerSystem sampleRouter :=
  (Reachable.of_init rfl).step (e := .select sampleRow false) rfl

def sampleFailed : AssistantProviderRouter := sampleRouter.failure sampleRouter.version (.assistant "AI_HTTP_500" none) 10

/-- Another failure comes while the first probe runs, and a second probe begins. -/
def sampleSuperseded : AssistantProviderRouter :=
  (((sampleRouter.perform (.failure 1 (.assistant "AI_HTTP_500" none) 10)).perform (.probe sampleRow 20 true)).perform
    (.failure 1 (.assistant "AI_HTTP_503" none) 30)).perform (.probe sampleRow 40 true)

theorem sampleSuperseded_reachable : Reachable routerSystem sampleSuperseded := by
  have hFailed := sampleRouter_reachable.step (e := .failure 1 (.assistant "AI_HTTP_500" none) 10) rfl
  have hProbed := hFailed.step (e := .probe sampleRow 20 true) rfl
  have hAgain := hProbed.step (e := .failure 1 (.assistant "AI_HTTP_503" none) 30) rfl
  exact hAgain.step (e := .probe sampleRow 40 true) rfl

/-- The first probe comes through after all. -/
theorem stale_probe_changes_nothing_sample :
    sampleSuperseded.probes = [⟨2, 1, true, .pending⟩, ⟨3, 1, false, .pending⟩] ∧ sampleSuperseded.running = some 1 ∧
      sampleSuperseded.perform (.succeeded 0 50) =
        { sampleSuperseded with probes := (sampleSuperseded.perform (.succeeded 0 50)).probes } :=
  ⟨by decide, by decide,
    (stale_probe_changes_nothing sampleSuperseded_reachable).2 0 (by decide) .other 50 _ List.mem_cons_self⟩

/-- A question is asked, and a probe begins. -/
theorem primary_stays_demoted_sample :
    ((sampleFailed.probe sampleRow 10 true).select sampleRow false).2 = .ok .backup ∧
      ∀ id probe at_, (sampleFailed.probe sampleRow 10 true).running = some id →
        (sampleFailed.probe sampleRow 10 true).probes[id]? = some probe → probe.stage = .pending →
        (((sampleFailed.probe sampleRow 10 true).perform (.succeeded id at_)).select sampleRow false).2 = .ok .primary := by
  have hRun : Run routerSystem sampleFailed [.probe sampleRow 10 true] (sampleFailed.probe sampleRow 10 true) := .single rfl
  have hRows : ∀ action ∈ [RouterAction.probe sampleRow 10 true], ∀ row, action.row? = some row →
      ¬Reconfigures sampleRouter.version row := by
    rintro _ hMem row hRow
    obtain rfl := List.mem_singleton.mp hMem
    obtain rfl := Option.some.inj hRow
    decide
  exact primary_stays_demoted sampleRouter_reachable (by decide) (by decide) hRun hRows (by simp) (by decide) (by decide)
    (by decide) (by decide) (by decide)

end AssistantProviderRouter

end GreenPms
