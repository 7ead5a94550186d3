import Kide.Index.BlobReferences
import Kide.Index.Command
import Kide.Index.Commits

/-!
# Linked artifacts

Whether an artifact that the cache holds is also referenced by the store. `cache_catalog_artifact`
records the reference after a promotion and returns before it on a hit, and the loop of
`--warm-dependencies` passes over the hits of its plan.
-/

namespace Kide
open Runs Transactions Checks

/-- The store references a blob of the artifact. -/
def HasBlob (store : IndexStore) (descriptor : ArtifactDescriptor) : Prop :=
  ∃ entry, store.artifactBlobFor descriptor.sourceUnit.id = some entry ∧ entry.identity = descriptor.identity

instance (store : IndexStore) (descriptor : ArtifactDescriptor) : Decidable (HasBlob store descriptor) :=
  decidable_of_iff (∃ entry ∈ store.artifactBlobFor descriptor.sourceUnit.id, entry.identity = descriptor.identity) Iff.rfl

/-- A complete blob is there under the key. -/
def ArtifactBlobCache.Holds (cache : ArtifactBlobCache) (tick : Nat) (key : ResolvedDependencyIdentity) : Prop :=
  ∃ byteLength, cache.opens tick key = .present byteLength

/-! ## Recording a blob -/

section
variable {store : IndexStore} {cacheKey : ResolvedDependencyIdentity → Fingerprint} {disk : Disk}
  {descriptor other : ArtifactDescriptor} {byteLength : Nat}

theorem recordArtifactBlob_hasBlob (h : (store.recordArtifactBlob cacheKey disk descriptor byteLength).1 = .ok ()) :
    HasBlob (store.recordArtifactBlob cacheKey disk descriptor byteLength).2 descriptor := by
  obtain ⟨blobs, hstore, -, hfind⟩ := recordArtifactBlob_ok h
  refine ⟨⟨cacheKey descriptor.identity, descriptor.identity, some byteLength⟩, ?_, rfl⟩
  rw [hstore]
  unfold IndexStore.artifactBlobFor
  simp only [find_upsert, if_pos, hfind, bind, Option.bind]

theorem recordArtifactBlob_keeps (h : HasBlob store other)
    (hsame : descriptor.sourceUnit.id = other.sourceUnit.id → descriptor.identity = other.identity) :
    HasBlob (store.recordArtifactBlob cacheKey disk descriptor byteLength).2 other := by
  cases hresult : (store.recordArtifactBlob cacheKey disk descriptor byteLength).1 with
  | error e =>
    have hkept : (store.recordArtifactBlob cacheKey disk descriptor byteLength).2 = store := transact_error hresult
    rwa [hkept]
  | ok u =>
    obtain ⟨blobs, hstore, hidentity, hfind⟩ := recordArtifactBlob_ok hresult
    obtain ⟨entry, hentry, hentryIdentity⟩ := h
    obtain ⟨reference, hreference, hentry⟩ := Option.bind_eq_some_iff.1 hentry
    obtain ⟨catalog, hcatalog, hentry⟩ := Option.bind_eq_some_iff.1 hentry
    cases hentry
    rw [hstore]
    unfold HasBlob IndexStore.artifactBlobFor
    by_cases hunit : descriptor.sourceUnit.id = other.sourceUnit.id
    · refine ⟨⟨cacheKey descriptor.identity, descriptor.identity, some byteLength⟩, ?_, hsame hunit⟩
      simp only [find_upsert, if_pos hunit, hfind, if_pos, bind, Option.bind]
    · simp only [find_upsert, if_neg hunit, hreference, hfind, bind, Option.bind]
      by_cases hkey : cacheKey descriptor.identity = reference.2
      · refine ⟨_, by rw [if_pos hkey], ?_⟩
        exact (hidentity catalog (hkey ▸ hcatalog)).symm.trans hentryIdentity
      · exact ⟨_, by rw [if_neg hkey, hcatalog], hentryIdentity⟩

theorem recordArtifactBlob_catalog :
    (store.recordArtifactBlob cacheKey disk descriptor byteLength).2.artifactCatalog = store.artifactCatalog := by
  cases hresult : (store.recordArtifactBlob cacheKey disk descriptor byteLength).1 with
  | error e =>
    have hkept : (store.recordArtifactBlob cacheKey disk descriptor byteLength).2 = store := transact_error hresult
    rw [hkept]
  | ok u =>
    obtain ⟨blobs, hstore, -⟩ := recordArtifactBlob_ok hresult
    rw [hstore]

end

/-! ## One artifact -/

/-- Time has passed and the store is as it was. -/
def Waited (index index' : Index) : Prop := index'.store = index.store ∧ index.clock ≤ index'.clock

theorem Waited.refl (index : Index) : Waited index index := ⟨rfl, Nat.le_refl _⟩

theorem Waited.trans {a b c : Index} (hab : Waited a b) (hbc : Waited b c) : Waited a c :=
  ⟨hbc.1.trans hab.1, Nat.le_trans hab.2 hbc.2⟩

section
variable (cache : ArtifactBlobCache)

theorem tick_waited {ε : Type} : Within Waited (Index.tick : Run Index ε Nat) := fun _ => ⟨rfl, Nat.le_succ _⟩

theorem cacheHitOrRemoveInvalid_waited (key : ResolvedDependencyIdentity) :
    Within Waited (cacheHitOrRemoveInvalid cache key) := by
  refine Within.bind (fun a b c => @Waited.trans a b c) tick_waited fun tick => ?_
  cases cache.opens tick key with
  | present byteLength => exact fun index => Waited.refl index
  | absent => exact fun index => Waited.refl index
  | invalid =>
    dsimp only
    split <;> exact fun index => Waited.refl index
  | failed => exact fun index => Waited.refl index

theorem promoteStaged_waited (response : ArtifactMaterializationResponse) : Within Waited (promoteStaged cache response) := by
  unfold promoteStaged
  split
  · exact fun index => Waited.refl index
  split
  · refine Within.bind (fun a b c => @Waited.trans a b c) tick_waited fun tick => ?_
    cases cache.promotes tick response with
    | none => exact fun index => Waited.refl index
    | some promoted =>
      dsimp only
      split <;> exact fun index => Waited.refl index
  · exact fun index => Waited.refl index

variable {cache} {env : Environment} {supervisor : Handle} {workspaceRoot : WorkspacePath} {stagingDirectory : String}

theorem materializeArtifact_waited (artifact : ArtifactDescriptor) (artifactLocator : Option String) (requestId : String) :
    Within (fun s s' : Index × Workers => Waited s.1 s'.1)
      (materializeArtifact cache env supervisor workspaceRoot stagingDirectory artifact artifactLocator requestId) := by
  have htrans : ∀ a b c : Index × Workers, Waited a.1 b.1 → Waited b.1 c.1 → Waited a.1 c.1 := fun _ _ _ => Waited.trans
  refine Within.bind htrans (Within.first (cacheHitOrRemoveInvalid_waited cache _)) fun cached => ?_
  split
  · exact fun s => Waited.refl s.1
  refine Within.bind htrans (Within.second Waited.refl _) fun response => ?_
  split
  · exact Within.first (promoteStaged_waited cache _)
  · exact fun s => Waited.refl s.1

/-- A hit is the answer `true`, and the only one. -/
theorem cacheHitOrRemoveInvalid_ok {key : ResolvedDependencyIdentity} {index index' : Index} {cached : Bool}
    (h : cacheHitOrRemoveInvalid cache key index = (.ok cached, index')) :
    (cached = true ↔ cache.Holds index.clock key) ∧ index'.store = index.store ∧ index'.clock = index.clock + 1 := by
  obtain ⟨tick, middle, htick, hrest⟩ := run_bind_ok.1 h
  cases htick
  unfold ArtifactBlobCache.Holds
  cases hopens : cache.opens index.clock key with
  | present byteLength =>
    rw [hopens] at hrest
    cases hrest
    exact ⟨⟨fun _ => ⟨_, rfl⟩, fun _ => rfl⟩, rfl, rfl⟩
  | absent =>
    rw [hopens] at hrest
    cases hrest
    exact ⟨⟨fun h => (nomatch h), fun ⟨_, h⟩ => (nomatch h)⟩, rfl, rfl⟩
  | invalid =>
    rw [hopens] at hrest
    dsimp only at hrest
    split at hrest <;> cases hrest
    exact ⟨⟨fun h => (nomatch h), fun ⟨_, h⟩ => (nomatch h)⟩, rfl, rfl⟩
  | failed =>
    rw [hopens] at hrest
    cases hrest

/-- How a call for a cataloged artifact returns: on a hit, without budget, or with the blob recorded. -/
theorem cacheCatalogArtifact_ok {sourceUnit : SourceUnitId} {artifactLocator : Option String} {remaining left : Nat}
    {outcome : MaterializationOutcome} {descriptor : ArtifactDescriptor} {state state' : Index × Workers}
    (hcatalog : state.1.store.artifactDescriptor sourceUnit = some descriptor)
    (hrun : cacheCatalogArtifact cache env supervisor workspaceRoot stagingDirectory sourceUnit artifactLocator remaining
      state = (.ok (outcome, left), state')) :
    (cache.Holds (state.1.clock + 1) descriptor.identity ∧ outcome = .alreadyMaterialized ∧ left = remaining ∧
        state'.1.store = state.1.store ∧ state'.1.clock = state.1.clock + 2) ∨
      (¬ cache.Holds (state.1.clock + 1) descriptor.identity ∧ outcome = .budgetExhausted ∧ remaining = 0 ∧
        state'.1.store = state.1.store) ∨
      (¬ cache.Holds (state.1.clock + 1) descriptor.identity ∧
        (outcome = .materialized ∨ outcome = .alreadyMaterialized) ∧ left = remaining - 1 ∧
        ∃ tick disk byteLength, state.1.clock ≤ tick ∧ tick < state'.1.clock ∧
          cache.Holds tick descriptor.identity ∧
          state.1.store.recordArtifactBlob cache.cacheKey disk descriptor byteLength = (.ok (), state'.1.store)) := by
  obtain ⟨found, s₁, hquery, hrun⟩ := run_bind_ok.1 hrun
  obtain ⟨rfl, rfl⟩ := onIndex_query_ok hquery
  rw [hcatalog] at hrun
  obtain ⟨cached, s₂, hhit, hrun⟩ := run_bind_ok.1 hrun
  obtain ⟨hcached, hstore₂, hclock₂⟩ := cacheHitOrRemoveInvalid_ok (run_first_ok hhit).1
  change s₂.1.store = state.1.store at hstore₂
  change s₂.1.clock = state.1.clock + 2 at hclock₂
  by_cases hholds : cache.Holds (state.1.clock + 1) descriptor.identity
  · left
    rw [hcached.2 hholds, if_pos rfl] at hrun
    cases hrun
    exact ⟨hholds, rfl, rfl, hstore₂, hclock₂⟩
  right
  rw [if_neg fun htrue => hholds (hcached.1 htrue)] at hrun
  by_cases hbudget : remaining = 0
  · left
    rw [if_pos hbudget] at hrun
    cases hrun
    exact ⟨hholds, rfl, hbudget, hstore₂⟩
  right
  rw [if_neg hbudget] at hrun
  obtain ⟨promoted, s₃, hmaterialize, hrun⟩ := run_bind_ok.1 hrun
  have hwaited := @materializeArtifact_waited cache env supervisor workspaceRoot stagingDirectory descriptor artifactLocator
    ("cache-materialize-" ++ sourceUnit.asStr) s₂
  rw [hmaterialize] at hwaited
  obtain ⟨tick, s₄, htick, hrun⟩ := run_bind_ok.1 hrun
  obtain ⟨rfl, rfl⟩ := onIndex_tick_ok htick
  cases hopens : cache.opens s₃.1.clock descriptor.identity with
  | absent =>
    rw [hopens] at hrun
    cases hrun
  | invalid =>
    rw [hopens] at hrun
    cases hrun
  | failed =>
    rw [hopens] at hrun
    cases hrun
  | present byteLength =>
    rw [hopens] at hrun
    obtain ⟨u, s₅, hwrite, hrun⟩ := run_bind_ok.1 hrun
    obtain ⟨hrecord, hstate₅⟩ := onIndex_write_ok hwrite
    obtain ⟨hresult, rfl⟩ := run_pure_ok.1 hrun
    obtain ⟨rfl, rfl⟩ := Prod.mk.inj hresult
    have hclock₅ : s₅.1.clock = s₃.1.clock + 2 := congrArg (·.1.clock) hstate₅
    have hlater : s₂.1.clock ≤ s₃.1.clock := hwaited.2
    have hstore₃ : s₃.1.store = state.1.store := Eq.trans hwaited.1 hstore₂
    refine ⟨hholds, ?_, rfl, s₃.1.clock, _, byteLength, by omega, by omega, ⟨_, hopens⟩, hstore₃ ▸ hrecord⟩
    cases promoted
    · exact .inr rfl
    · exact .inl rfl

/-- **One artifact.** A call that reports the artifact as cached leaves it linked exactly if it was linked
or the call's first look at the cache found no blob. -/
theorem cacheCatalogArtifact_links_iff {sourceUnit : SourceUnitId} {artifactLocator : Option String} {remaining left : Nat}
    {outcome : MaterializationOutcome} {descriptor : ArtifactDescriptor} {state state' : Index × Workers}
    (hcatalog : state.1.store.artifactDescriptor sourceUnit = some descriptor)
    (hrun : cacheCatalogArtifact cache env supervisor workspaceRoot stagingDirectory sourceUnit artifactLocator remaining
      state = (.ok (outcome, left), state'))
    (houtcome : outcome = .materialized ∨ outcome = .alreadyMaterialized) :
    (HasBlob state'.1.store descriptor ∧
        ∃ tick, state.1.clock ≤ tick ∧ tick < state'.1.clock ∧ cache.Holds tick descriptor.identity) ↔
      HasBlob state.1.store descriptor ∨ ¬ cache.Holds (state.1.clock + 1) descriptor.identity := by
  rcases cacheCatalogArtifact_ok hcatalog hrun with ⟨hholds, -, -, hstore, hclock⟩ | ⟨-, hexhausted, -⟩ |
    ⟨hmissed, -, -, tick, disk, byteLength, hfrom, huntil, hholds, hrecord⟩
  · rw [hstore]
    constructor
    · exact fun h => .inl h.1
    · rintro (hblob | hmissed)
      · exact ⟨hblob, state.1.clock + 1, by omega, by omega, hholds⟩
      · exact absurd hholds hmissed
  · rw [hexhausted] at houtcome
    rcases houtcome with h | h <;> cases h
  · refine ⟨fun _ => .inr hmissed, fun _ => ⟨?_, tick, hfrom, huntil, hholds⟩⟩
    have hblob := recordArtifactBlob_hasBlob (congrArg Prod.fst hrecord)
    rwa [hrecord] at hblob

/-! ## The loop over artifacts -/

/-- The unit is not in the catalog, or linked, or not in the cache at the first look of a call for it. -/
def LinkedOrMissed (cache : ArtifactBlobCache) (state : Index × Workers) (sourceUnit : SourceUnitId) : Prop :=
  ∀ descriptor, state.1.store.artifactDescriptor sourceUnit = some descriptor →
    HasBlob state.1.store descriptor ∨ ¬ cache.Holds (state.1.clock + 1) descriptor.identity

/-- No catalog row and no link is lost. -/
def LinksKept (store store' : IndexStore) : Prop :=
  store'.artifactCatalog = store.artifactCatalog ∧
    ∀ sourceUnit descriptor, store.artifactDescriptor sourceUnit = some descriptor →
      HasBlob store descriptor → HasBlob store' descriptor

theorem LinksKept.refl (store : IndexStore) : LinksKept store store := ⟨rfl, fun _ _ _ h => h⟩

theorem LinksKept.trans {a b c : IndexStore} (hab : LinksKept a b) (hbc : LinksKept b c) : LinksKept a c := by
  refine ⟨hbc.1.trans hab.1, fun sourceUnit descriptor hcatalog h => ?_⟩
  refine hbc.2 sourceUnit descriptor ?_ (hab.2 sourceUnit descriptor hcatalog h)
  unfold IndexStore.artifactDescriptor at hcatalog ⊢
  rwa [hab.1]

theorem artifactDescriptor_id {store : IndexStore} {sourceUnit : SourceUnitId} {descriptor : ArtifactDescriptor}
    (h : store.artifactDescriptor sourceUnit = some descriptor) : descriptor.sourceUnit.id = sourceUnit := by
  simpa using List.find?_some h

theorem recordArtifactBlob_linksKept {store : IndexStore} {cacheKey : ResolvedDependencyIdentity → Fingerprint} {disk : Disk}
    {sourceUnit : SourceUnitId} {descriptor : ArtifactDescriptor} {byteLength : Nat}
    (hcatalog : store.artifactDescriptor sourceUnit = some descriptor) :
    LinksKept store (store.recordArtifactBlob cacheKey disk descriptor byteLength).2 := by
  refine ⟨recordArtifactBlob_catalog, fun other otherDescriptor hother h => recordArtifactBlob_keeps h fun hsame => ?_⟩
  rw [artifactDescriptor_id hcatalog, artifactDescriptor_id hother] at hsame
  subst hsame
  rw [Option.some.inj (hcatalog.symm.trans hother)]

theorem cacheCatalogArtifact_step {sourceUnit : SourceUnitId} {artifactLocator : Option String} {remaining left : Nat}
    {outcome : MaterializationOutcome} {state state' : Index × Workers}
    (hrun : cacheCatalogArtifact cache env supervisor workspaceRoot stagingDirectory sourceUnit artifactLocator remaining
      state = (.ok (outcome, left), state')) (hbudget : remaining ≠ 0) (hlinked : LinkedOrMissed cache state sourceUnit) :
    outcome ≠ .budgetExhausted ∧ remaining - 1 ≤ left ∧ LinksKept state.1.store state'.1.store ∧
      ∀ descriptor, state.1.store.artifactDescriptor sourceUnit = some descriptor → HasBlob state'.1.store descriptor := by
  cases hcatalog : state.1.store.artifactDescriptor sourceUnit with
  | none =>
    obtain ⟨found, s₁, hquery, hrun⟩ := run_bind_ok.1 hrun
    obtain ⟨rfl, rfl⟩ := onIndex_query_ok hquery
    rw [hcatalog] at hrun
    cases hrun
    exact ⟨fun h => (nomatch h), Nat.sub_le _ _, LinksKept.refl _, fun _ h => (nomatch h)⟩
  | some descriptor =>
    rcases cacheCatalogArtifact_ok hcatalog hrun with ⟨hholds, rfl, rfl, hstore, -⟩ | ⟨-, -, hzero, -⟩ |
      ⟨-, houtcome, rfl, tick, disk, byteLength, -, -, -, hrecord⟩
    · refine ⟨fun h => (nomatch h), Nat.sub_le _ _, hstore ▸ LinksKept.refl _, ?_⟩
      rintro _ ⟨⟩
      rw [hstore]
      exact (hlinked descriptor hcatalog).resolve_right fun hmissed => hmissed hholds
    · exact absurd hzero hbudget
    · have hblob := recordArtifactBlob_hasBlob (congrArg Prod.fst hrecord)
      have hkept := @recordArtifactBlob_linksKept _ cache.cacheKey disk _ _ byteLength hcatalog
      rw [hrecord] at hblob hkept
      refine ⟨?_, Nat.le_refl _, hkept, ?_⟩
      · rcases houtcome with rfl | rfl <;> exact fun h => (nomatch h)
      · rintro _ ⟨⟩
        exact hblob

end

section
variable {env : CommandEnvironment} {command : IndexCommand}

/-- The condition at every call of the loop, each in the state in which it is made. -/
def EachLinkedOrMissed (env : CommandEnvironment) (command : IndexCommand) (supervisor : Handle) (workspaceRoot : WorkspacePath)
    (locatorOf : ArtifactDescriptor → Except CommandError (Option String))
    (afterwards : ArtifactDescriptor → MaterializationOutcome → CommandRun Unit) :
    List ArtifactDescriptor → Nat → Index × Workers → Prop
  | [], _, _ => True
  | descriptor :: rest, remaining, state =>
    LinkedOrMissed env.cache state descriptor.sourceUnit.id ∧
      ∀ locator outcome left next after, locatorOf descriptor = .ok locator →
        cacheCatalogArtifact env.cache env.toEnvironment supervisor workspaceRoot command.stagingDirectory
          descriptor.sourceUnit.id locator remaining state = (.ok (outcome, left), next) →
        afterwards descriptor outcome next = (.ok (), after) →
        EachLinkedOrMissed env command supervisor workspaceRoot locatorOf afterwards rest left after

theorem cacheArtifacts_links {supervisor : Handle} {workspaceRoot : WorkspacePath}
    {locatorOf : ArtifactDescriptor → Except CommandError (Option String)}
    {afterwards : ArtifactDescriptor → MaterializationOutcome → CommandRun Unit}
    (hwaits : ∀ descriptor outcome, Within (fun s s' => Waited s.1 s'.1) (afterwards descriptor outcome))
    {requested : List ArtifactDescriptor} {remaining : Nat} {state state' : Index × Workers}
    (hbudget : requested.length ≤ remaining)
    (heach : EachLinkedOrMissed env command supervisor workspaceRoot locatorOf afterwards requested remaining state)
    (hrun : cacheArtifacts env command supervisor workspaceRoot locatorOf afterwards requested remaining state = (.ok (), state')) :
    LinksKept state.1.store state'.1.store ∧
      ∀ sourceUnit ∈ requested.map (·.sourceUnit.id), ∀ descriptor,
        state.1.store.artifactDescriptor sourceUnit = some descriptor → HasBlob state'.1.store descriptor := by
  induction requested generalizing remaining state with
  | nil =>
    cases hrun
    exact ⟨LinksKept.refl _, fun _ h => (nomatch h)⟩
  | cons descriptor rest ih =>
    obtain ⟨hlinked, hnext⟩ := heach
    obtain ⟨locator, s₁, hlift, hrun⟩ := run_bind_ok.1 hrun
    obtain ⟨hlocator, rfl⟩ := Prod.mk.inj hlift
    obtain ⟨⟨outcome, left⟩, next, hcall, hrun⟩ := run_bind_ok.1 hrun
    have hcall := run_mapError_ok.1 hcall
    rw [List.length_cons] at hbudget
    obtain ⟨houtcome, hleft, hkept, hblob⟩ := cacheCatalogArtifact_step hcall (by omega) hlinked
    dsimp only at hrun
    rw [if_neg houtcome] at hrun
    obtain ⟨u, after, hafter, hrun⟩ := run_bind_ok.1 hrun
    have hsame := hwaits descriptor outcome next
    rw [hafter] at hsame
    have hstore : after.1.store = next.1.store := hsame.1
    obtain ⟨hrestKept, hrest⟩ := ih (by omega) (hnext locator outcome left next after hlocator hcall hafter) hrun
    rw [hstore] at hrestKept hrest
    refine ⟨hkept.trans hrestKept, fun sourceUnit hunit other hother => ?_⟩
    have hother' : next.1.store.artifactDescriptor sourceUnit = some other := by
      unfold IndexStore.artifactDescriptor at hother ⊢
      rwa [hkept.1]
    rcases List.mem_cons.1 hunit with rfl | hunit
    · exact hrestKept.2 _ other hother' (hblob other hother)
    · exact hrest sourceUnit hunit other hother'

/-! ## Warming -/

theorem readBack_waited (descriptor : ArtifactDescriptor) (outcome : MaterializationOutcome) :
    Within (fun s s' => Waited s.1 s'.1) (readBack env descriptor outcome) := by
  unfold readBack
  split
  · refine Within.bind (fun (a b c : Index × Workers) => @Waited.trans a.1 b.1 c.1) (Within.first tick_waited) fun tick => ?_
    split <;> exact fun s => Waited.refl s.1
  · exact fun s => Waited.refl s.1

/-- What the plan of `--warm-dependencies 0` finds missing in the cache. -/
def plannedMisses (env : CommandEnvironment) (persisted : List ArtifactDescriptor) (state : Index × Workers) :
    List ArtifactDescriptor :=
  warmMisses (fun key => (env.cache.opens (state.1.clock + 1) key) matches .present _) persisted
    state.1.store.artifactDescriptors 0

def startWarming (env : CommandEnvironment) (launch : WorkerLaunch) : CommandRun Handle := do
  let supervisor ← second (Workers.newSupervisor launch)
  let _ ← onOrchestrator (onWorkers (Workers.handshake env.workers supervisor "warm-dependency-cache"))
  pure supervisor

/-- Each cataloged artifact is linked as the warming starts, or missing at the plan and at the call. -/
structure LinkedOrWarmed (env : CommandEnvironment) (command : IndexCommand) (manifest : ProjectManifest) (launch : WorkerLaunch)
    (persisted : List ArtifactDescriptor) (locators : List ArtifactLocator) (state : Index × Workers) : Prop where
  budget : (plannedMisses env persisted state).length ≤ remainingBudget 0
  hits : ∀ sourceUnit descriptor, state.1.store.artifactDescriptor sourceUnit = some descriptor →
    sourceUnit ∉ (plannedMisses env persisted state).map (·.sourceUnit.id) → HasBlob state.1.store descriptor
  misses : ∀ supervisor started,
    startWarming env launch ({ state.1 with clock := state.1.clock + 2 }, state.2) = (.ok supervisor, started) →
      EachLinkedOrMissed env command supervisor manifest.root (fun descriptor => .ok (locatorFor locators descriptor))
        (readBack env) (plannedMisses env persisted state) (remainingBudget 0) started

theorem onStore_ok {α : Type} {question : IndexStore → α} {a : α} {s s' : Index × Workers}
    (h : onStore env question s = (.ok a, s')) :
    a = question s.1.store ∧ s' = ({ s.1 with clock := s.1.clock + 1 }, s.2) :=
  onIndex_query_ok (run_mapError_ok.1 h)

/-- Starting the worker is no matter of the index. -/
theorem startWarming_index (launch : WorkerLaunch) :
    Within (fun s s' : Index × Workers => s'.1 = s.1) (startWarming env launch) := by
  have htrans : ∀ a b c : Index × Workers, b.1 = a.1 → c.1 = b.1 → c.1 = a.1 := fun _ _ _ hab hbc => hbc.trans hab
  refine Within.bind htrans (fun _ => rfl) fun supervisor => ?_
  have hhandshake : Within (fun s s' : Index × Workers => s'.1 = s.1)
      (onWorkers (Workers.handshake env.workers supervisor "warm-dependency-cache")) := fun _ => rfl
  exact Within.bind htrans (Within.mapError hhandshake) fun _ _ => rfl

theorem warmDependencies_links {manifest : ProjectManifest} {launch : WorkerLaunch} {persisted : List ArtifactDescriptor}
    {locators : List ArtifactLocator} {state state' : Index × Workers}
    (h : LinkedOrWarmed env command manifest launch persisted locators state)
    (hrun : warmDependencies env command manifest launch persisted locators 0 state = (.ok (), state')) :
    state'.1.store.artifactCatalog = state.1.store.artifactCatalog ∧
      ∀ sourceUnit descriptor, state.1.store.artifactDescriptor sourceUnit = some descriptor →
        HasBlob state'.1.store descriptor := by
  obtain ⟨descriptors, s₁, hquery, hrun⟩ := run_bind_ok.1 hrun
  obtain ⟨rfl, rfl⟩ := onStore_ok hquery
  obtain ⟨tick, s₂, htick, hrun⟩ := run_bind_ok.1 hrun
  obtain ⟨htick, hwhere⟩ := Prod.mk.inj htick
  cases htick
  subst hwhere
  change (if plannedMisses env persisted state = [] then pure () else do
    let supervisor ← second (Workers.newSupervisor launch)
    let _ ← onOrchestrator (onWorkers (Workers.handshake env.workers supervisor "warm-dependency-cache"))
    cacheArtifacts env command supervisor manifest.root (fun descriptor => .ok (locatorFor locators descriptor))
      (readBack env) (plannedMisses env persisted state) (remainingBudget 0) : CommandRun Unit)
    ({ state.1 with clock := state.1.clock + 2 }, state.2) = (.ok (), state') at hrun
  by_cases hnone : plannedMisses env persisted state = []
  · rw [if_pos hnone] at hrun
    cases hrun
    refine ⟨rfl, fun sourceUnit descriptor hcatalog => h.hits sourceUnit descriptor hcatalog ?_⟩
    rw [hnone]
    exact List.not_mem_nil
  rw [if_neg hnone] at hrun
  obtain ⟨supervisor, s₃, hnew, hrun⟩ := run_bind_ok.1 hrun
  obtain ⟨capabilities, s₄, hhandshake, hrun⟩ := run_bind_ok.1 hrun
  have hstart : startWarming env launch ({ state.1 with clock := state.1.clock + 2 }, state.2) = (.ok supervisor, s₄) :=
    run_bind_ok.2 ⟨supervisor, s₃, hnew, run_bind_ok.2 ⟨capabilities, s₄, hhandshake, rfl⟩⟩
  have hindex := @startWarming_index env launch ({ state.1 with clock := state.1.clock + 2 }, state.2)
  rw [hstart] at hindex
  have hsame : s₄.1 = { state.1 with clock := state.1.clock + 2 } := hindex
  have hstore : s₄.1.store = state.1.store := by rw [hsame]
  obtain ⟨hkept, hlinked⟩ := cacheArtifacts_links (@readBack_waited env) h.budget (h.misses supervisor s₄ hstart) hrun
  rw [hstore] at hkept hlinked
  refine ⟨hkept.1, fun sourceUnit descriptor hcatalog => ?_⟩
  by_cases hrequested : sourceUnit ∈ (plannedMisses env persisted state).map (·.sourceUnit.id)
  · exact hlinked sourceUnit hrequested descriptor hcatalog
  · exact hkept.2 sourceUnit descriptor hcatalog (h.hits sourceUnit descriptor hcatalog hrequested)

/-! ## The command -/

structure BeforeWarming where
  manifest : ProjectManifest
  sources : List SourceUnit
  selection : WorkerSelection
  persisted : List ArtifactDescriptor
  run : IndexRun

/-- The command up to the warming of its dependencies. -/
def beforeWarming (env : CommandEnvironment) (command : IndexCommand) : CommandRun BeforeWarming := do
  let persisted ← onStore env (·.artifactDescriptors)
  let configurationChanges ← onStore env (·.configurationInputStatus command.configurationInputRecords)
  forceReanalysis env command
  bailing command.cacheDirectories
  let installation ← bailing command.installation
  let resolved ← resolvePlan env command installation configurationChanges
  let sources ← lift (coverSources resolved.manifest command.sourceUnits)
  let limit ← bailing command.sourceBatchLimit
  let selection ← mapError .registry (second (selectWithBatchLimit env.workers [installation]
    resolved.manifest sources [.fileAnalysisSnapshot] limit))
  if selection.unsupported ≠ [] then fail (.bail "unsupported_worker_batches")
  else do
    let run ← runPath env resolved.manifest resolved.executionPlan sources selection
    pure ⟨resolved.manifest, sources, selection, persisted, run⟩

theorem indexCommand_phases (hsources : command.materializeOnly = false) {report : IndexReport} {state state' : Index × Workers}
    (hrun : indexCommand env command state = (.ok report, state')) :
    ∃ before s₁ s₂, beforeWarming env command state = (.ok before, s₁) ∧
      warmIfAsked env command before.manifest before.selection before.persisted before.run s₁ = (.ok (), s₂) ∧
      publish env command before.manifest before.sources s₂ = (.ok report, state') := by
  obtain ⟨persisted, m₁, hpersisted, hrun⟩ := run_bind_ok.1 hrun
  obtain ⟨changes, m₂, hchanges, hrun⟩ := run_bind_ok.1 hrun
  obtain ⟨u, m₃, hforce, hrun⟩ := run_bind_ok.1 hrun
  obtain ⟨u', m₄, hdirectories, hrun⟩ := run_bind_ok.1 hrun
  rw [hsources] at hrun
  obtain ⟨installation, m₅, hinstallation, hrun⟩ := run_bind_ok.1 hrun
  obtain ⟨resolved, m₆, hresolved, hrun⟩ := run_bind_ok.1 hrun
  obtain ⟨sources, m₇, hcover, hrun⟩ := run_bind_ok.1 hrun
  obtain ⟨limit, m₈, hlimit, hrun⟩ := run_bind_ok.1 hrun
  obtain ⟨selection, m₉, hselection, hrun⟩ := run_bind_ok.1 hrun
  by_cases hunsupported : selection.unsupported ≠ []
  · rw [if_pos hunsupported] at hrun
    cases hrun
  rw [if_neg hunsupported] at hrun
  obtain ⟨run, m, hpath, hrun⟩ := run_bind_ok.1 hrun
  obtain ⟨w, m', hwarm, hpublish⟩ := run_bind_ok.1 hrun
  refine ⟨⟨resolved.manifest, sources, selection, persisted, run⟩, m, m', ?_, hwarm, hpublish⟩
  refine run_bind_ok.2 ⟨persisted, m₁, hpersisted, run_bind_ok.2 ⟨changes, m₂, hchanges, run_bind_ok.2 ⟨u, m₃, hforce, ?_⟩⟩⟩
  refine run_bind_ok.2 ⟨u', m₄, hdirectories, run_bind_ok.2 ⟨installation, m₅, hinstallation, ?_⟩⟩
  refine run_bind_ok.2 ⟨resolved, m₆, hresolved, run_bind_ok.2 ⟨sources, m₇, hcover, run_bind_ok.2 ⟨limit, m₈, hlimit, ?_⟩⟩⟩
  refine run_bind_ok.2 ⟨selection, m₉, hselection, ?_⟩
  rw [if_neg hunsupported]
  exact run_bind_ok.2 ⟨run, m, hpath, rfl⟩

theorem publish_artifacts {manifest : ProjectManifest} {sources : List SourceUnit} {report : IndexReport}
    {state state' : Index × Workers} (hrun : publish env command manifest sources state = (.ok report, state')) :
    state'.1.store.artifactCatalog = state.1.store.artifactCatalog ∧
      state'.1.store.artifactBlobCatalog = state.1.store.artifactBlobCatalog ∧
      state'.1.store.projectArtifactBlobRefs = state.1.store.projectArtifactBlobRefs := by
  obtain ⟨u, s₁, htext, hrun⟩ := run_bind_ok.1 hrun
  obtain ⟨-, rfl⟩ := Prod.mk.inj htext
  obtain ⟨u', s₂, hinputs, hrun⟩ := run_bind_ok.1 hrun
  obtain ⟨hinputs, -⟩ := onIndex_write_ok (run_mapError_ok.1 hinputs)
  have hstore₂ := IndexStore.replaceConfigurationInputs_ok (congrArg Prod.fst hinputs)
  rw [hinputs] at hstore₂
  obtain ⟨descriptors, s₃, hquery, hrun⟩ := run_bind_ok.1 hrun
  obtain ⟨rfl, rfl⟩ := onStore_ok hquery
  obtain ⟨u'', s₄, hcheckpoint, hrun⟩ := run_bind_ok.1 hrun
  obtain ⟨hcheckpoint, -⟩ := onIndex_write_ok (run_mapError_ok.1 hcheckpoint)
  have hstore₄ := IndexStore.putWorkspaceCheckpoint_ok (congrArg Prod.fst hcheckpoint)
  rw [hcheckpoint] at hstore₄
  obtain ⟨-, rfl⟩ := run_pure_ok.1 hrun
  let tables := fun store : IndexStore => (store.artifactCatalog, store.artifactBlobCatalog, store.projectArtifactBlobRefs)
  have htables₄ := congrArg tables hstore₄
  have htables₂ := congrArg tables hstore₂
  obtain ⟨hcatalog, hrest⟩ := Prod.mk.inj (htables₄.trans htables₂)
  exact ⟨hcatalog, Prod.mk.inj hrest⟩

theorem indexCommand_links (hsources : command.materializeOnly = false) (hwarm : command.warmDependencies = some 0)
    {report : IndexReport} {before : BeforeWarming} {batch : WorkerBatch} {state s₁ state' : Index × Workers}
    (hrun : indexCommand env command state = (.ok report, state'))
    (hbefore : beforeWarming env command state = (.ok before, s₁)) (hbatch : before.selection.batches.head? = some batch)
    (h : LinkedOrWarmed env command before.manifest batch.worker.installation.launch before.persisted
      before.run.artifactLocators s₁) (sourceUnit : SourceUnitId) (descriptor : ArtifactDescriptor)
    (hcatalog : state'.1.store.artifactDescriptor sourceUnit = some descriptor) : HasBlob state'.1.store descriptor := by
  obtain ⟨before', s₁', s₂, hbefore', hwarmed, hpublish⟩ := indexCommand_phases hsources hrun
  rw [hbefore] at hbefore'
  cases hbefore'
  unfold warmIfAsked at hwarmed
  rw [hwarm, hbatch] at hwarmed
  obtain ⟨hkept, hlinked⟩ := warmDependencies_links h hwarmed
  obtain ⟨hsameCatalog, hsameBlobs, hsameRefs⟩ := publish_artifacts hpublish
  unfold HasBlob IndexStore.artifactBlobFor
  rw [hsameBlobs, hsameRefs]
  apply hlinked sourceUnit descriptor
  unfold IndexStore.artifactDescriptor at hcatalog ⊢
  rwa [hsameCatalog, hkept] at hcatalog

end

/-- **Cached and linked.** One call links what it reports as cached exactly if the artifact was linked or
missing at the call's first look; a warming run links the whole catalog if at each step that is so. -/
theorem cached_artifacts_linked (env : CommandEnvironment) :
    (∀ (supervisor : Handle) (workspaceRoot : WorkspacePath) (stagingDirectory : String) (sourceUnit : SourceUnitId)
      (artifactLocator : Option String) (remaining left : Nat) (outcome : MaterializationOutcome)
      (descriptor : ArtifactDescriptor) (state state' : Index × Workers),
      state.1.store.artifactDescriptor sourceUnit = some descriptor →
      cacheCatalogArtifact env.cache env.toEnvironment supervisor workspaceRoot stagingDirectory sourceUnit artifactLocator
        remaining state = (.ok (outcome, left), state') →
      outcome = .materialized ∨ outcome = .alreadyMaterialized →
      ((HasBlob state'.1.store descriptor ∧
          ∃ tick, state.1.clock ≤ tick ∧ tick < state'.1.clock ∧ env.cache.Holds tick descriptor.identity) ↔
        HasBlob state.1.store descriptor ∨ ¬ env.cache.Holds (state.1.clock + 1) descriptor.identity)) ∧
    ∀ (command : IndexCommand) (report : IndexReport) (before : BeforeWarming) (batch : WorkerBatch)
      (state s₁ state' : Index × Workers), command.materializeOnly = false → command.warmDependencies = some 0 →
      indexCommand env command state = (.ok report, state') → beforeWarming env command state = (.ok before, s₁) →
      before.selection.batches.head? = some batch →
      LinkedOrWarmed env command before.manifest batch.worker.installation.launch before.persisted
        before.run.artifactLocators s₁ →
      ∀ sourceUnit descriptor, state'.1.store.artifactDescriptor sourceUnit = some descriptor →
        HasBlob state'.1.store descriptor := by
  refine ⟨?_, ?_⟩
  · intro supervisor workspaceRoot stagingDirectory sourceUnit artifactLocator remaining left outcome descriptor
      state state' hcatalog hrun houtcome
    exact cacheCatalogArtifact_links_iff hcatalog hrun houtcome
  · intro command report before batch state s₁ state' hsources hwarm hrun hbefore hbatch h sourceUnit descriptor hcatalog
    exact indexCommand_links hsources hwarm hrun hbefore hbatch h sourceUnit descriptor hcatalog

/-! ## A cold and a warm cache -/

def warmedManifest : ProjectManifest :=
  ⟨⟨"workspace"⟩, ⟨"."⟩, [⟨⟨"app:main"⟩, "main", .gradle, ⟨"."⟩, [.kotlin], ⟨"sha256:context"⟩, [], [], none, none⟩], [],
    ⟨"sha256:manifest"⟩, sampleProvenance⟩

/-- A worker that resolves one component with one library. -/
def libraryWorker : WorkerEnvironment where
  now _ := 0
  exited _ := false
  spawns _ := true
  writes _ := .written
  receives _ request := .envelope (.new request.requestId (
    match request.message with
    | .handshakeRequest _ => .handshakeResponse sampleCapabilities
    | .projectManifestRequest _ => .projectManifestResponse ⟨warmedManifest, ⟨"gradle", ⟨"sha256:manifest"⟩, []⟩⟩
    | .artifactDiscoveryRequest _ => .artifactDiscoveryResponse ⟨[BlobOperation.sampleArtifact "sha256:library"], none, []⟩
    | .analyzeBatchRequest request => .analysisBatchResponse ⟨request.sourceUnits.map emptySnapshot⟩
    | .artifactMaterializationRequest _ => .artifactMaterializationResponse
        ⟨"staged.blob", 10, ⟨"sha256:" ++ String.ofList (List.replicate 64 '0')⟩, 1⟩
    | message => message))

/-- A cache that is empty until `filled`. -/
def fillingCache (filled : Nat) : ArtifactBlobCache :=
  ⟨fun tick _ => if tick < filled then .absent else .present 10, fun _ => true, fun _ _ => some true, fun _ => true, (·.content)⟩

def warmingEnvironment (filled : Nat) : CommandEnvironment :=
  ⟨sampleEnvironment libraryWorker, fillingCache filled, id⟩

/-- `kide index --warm-dependencies 0` on one file. -/
def warmingCommand : IndexCommand where
  root := ⟨"."⟩
  sourceUnits := [sampleUnit "A.kt" "sha256:a"]
  configurationInputRecords := []
  force := false
  warmDependencies := some 0
  materializeOnly := false
  installation := .ok ⟨"kotlin", sampleLaunch, [.gradle]⟩
  sourceBatchLimit := .ok DEFAULT_MAX_SOURCE_UNITS_PER_WORKER_BATCH
  cacheDirectories := .ok ()
  stagingDirectory := "staging"
  workspaceText := .ok ()

def coldRun : Except CommandError IndexReport × Index × Workers :=
  indexCommand (warmingEnvironment 17) warmingCommand (emptyIndex, noWorkers)

def coldStart : Except CommandError BeforeWarming × Index × Workers :=
  beforeWarming (warmingEnvironment 17) warmingCommand (emptyIndex, noWorkers)

/-- The cache is filled by this very run: the plan and the two looks before the promotion find nothing. -/
theorem cold_cache_links :
    ∀ sourceUnit descriptor, coldRun.2.1.store.artifactDescriptor sourceUnit = some descriptor →
      HasBlob coldRun.2.1.store descriptor := by
  have hok : coldRun.1.isOk = true := by decide +kernel
  have hstarted : coldStart.1.isOk = true := by decide +kernel
  have hclock : coldStart.2.1.clock = 11 := by decide +kernel
  have hcatalog : coldStart.2.1.store.artifactCatalog = [BlobOperation.sampleArtifact "sha256:library"] := by decide +kernel
  have hbatch : (coldStart.1.toOption.any fun before => before.selection.batches.head?.isSome) = true := by decide +kernel
  have hmisses : (coldStart.1.toOption.any fun before =>
      plannedMisses (warmingEnvironment 17) before.persisted coldStart.2 = [BlobOperation.sampleArtifact "sha256:library"]) =
        true := by decide +kernel
  obtain ⟨⟨result, state'⟩, hrun⟩ : ∃ run, coldRun = run := ⟨_, rfl⟩
  obtain ⟨⟨value, s₁⟩, hbefore⟩ : ∃ run, coldStart = run := ⟨_, rfl⟩
  rw [hrun] at hok ⊢
  rw [hbefore] at hstarted hclock hcatalog hbatch hmisses
  obtain ⟨report, rfl⟩ := exists_ok_of_isOk hok
  obtain ⟨before, rfl⟩ := exists_ok_of_isOk hstarted
  obtain ⟨batch, hbatch⟩ := Option.isSome_iff_exists.1 hbatch
  have hmisses : plannedMisses (warmingEnvironment 17) before.persisted s₁ =
      [BlobOperation.sampleArtifact "sha256:library"] := of_decide_eq_true hmisses
  refine (cached_artifacts_linked (warmingEnvironment 17)).2 warmingCommand report before batch (emptyIndex, noWorkers) s₁ state'
    rfl rfl hrun hbefore hbatch ⟨?_, ?_, ?_⟩
  · rw [hmisses]
    decide
  · intro sourceUnit descriptor hfound hmissing
    have hmem := List.mem_of_find?_eq_some hfound
    rw [hcatalog] at hmem
    rw [hmisses, ← artifactDescriptor_id hfound, List.mem_singleton.1 hmem] at hmissing
    exact absurd List.mem_cons_self hmissing
  · intro supervisor started hstart
    have hindex := @startWarming_index (warmingEnvironment 17) batch.worker.installation.launch
      ({ s₁.1 with clock := s₁.1.clock + 2 }, s₁.2)
    rw [hstart] at hindex
    have hsame : started.1 = { s₁.1 with clock := s₁.1.clock + 2 } := hindex
    have hlook : started.1.clock = 13 := by rw [hsame, hclock]
    rw [hmisses]
    refine ⟨fun descriptor _ => .inr ?_, fun _ _ _ _ _ _ _ _ => trivial⟩
    rw [hlook]
    rintro ⟨byteLength, hopens⟩
    cases hopens

def warmCall : Except IndexOrchestratorError (MaterializationOutcome × Nat) × Index × Workers :=
  cacheCatalogArtifact (fillingCache 0) (sampleEnvironment libraryWorker) 0 ⟨"."⟩ "staging" ⟨"jar:library"⟩ none 1
    (⟨{ artifactCatalog := [BlobOperation.sampleArtifact "sha256:library"] }, 0, []⟩, noWorkers)

/-- The store is new and the shared cache already has the blob. -/
theorem warm_cache_unlinked :
    ¬ ∀ (cache : ArtifactBlobCache) (env : Environment) (supervisor : Handle) (workspaceRoot : WorkspacePath)
      (stagingDirectory : String) (sourceUnit : SourceUnitId) (artifactLocator : Option String) (remaining left : Nat)
      (outcome : MaterializationOutcome) (descriptor : ArtifactDescriptor) (state state' : Index × Workers),
      state.1.store.artifactDescriptor sourceUnit = some descriptor →
      cacheCatalogArtifact cache env supervisor workspaceRoot stagingDirectory sourceUnit artifactLocator remaining state =
        (.ok (outcome, left), state') →
      outcome = .materialized ∨ outcome = .alreadyMaterialized →
      HasBlob state'.1.store descriptor ∧
        ∃ tick, state.1.clock ≤ tick ∧ tick < state'.1.clock ∧ cache.Holds tick descriptor.identity := by
  intro h
  have houtcome : warmCall.1.toOption = some (.alreadyMaterialized, 1) := by decide +kernel
  have hunlinked : ¬ HasBlob warmCall.2.1.store (BlobOperation.sampleArtifact "sha256:library") := by decide +kernel
  obtain ⟨⟨result, state'⟩, hrun⟩ : ∃ run, warmCall = run := ⟨_, rfl⟩
  rw [hrun] at houtcome hunlinked
  cases result with
  | error e => cases houtcome
  | ok value =>
    cases houtcome
    exact hunlinked (h _ _ _ _ _ _ _ _ _ _ _ _ _ (by decide +kernel) hrun (.inr rfl)).1

end Kide
