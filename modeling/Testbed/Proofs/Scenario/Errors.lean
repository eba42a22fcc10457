/-
The errors of a build.

A build fails for one of eight causes, or because a scenario embedded in an operation
cannot be built, which comes down to one of the eight in the end.  Other errors of
scenarios are met before a build, or never: among the causes there is none about
writing the document down.

Each step of a build gets one lemma; a step that consists of others has the errors of
those.
-/
import Testbed.Proofs.Scenario.Actions

namespace Testbed

open Outcome

/-- The errors of a build. -/
inductive ScenarioError.OfBuild : ScenarioError → Prop
  | foreignOperation (scenario : String) (index : Nat) : OfBuild (.foreignOperation scenario index)
  | unknownReference (name : String) (operation : Nat) : OfBuild (.unknownReference name operation)
  | duplicateName (table : NameTable) (name : String) : OfBuild (.duplicateName table name)
  | selfWait (operation : Nat) : OfBuild (.selfWait operation)
  | waitCycle (cycle : List Nat) : OfBuild (.waitCycle cycle)
  | unconfigured (operation : Nat) (kind : Kind) : OfBuild (.unconfigured operation kind)
  | invalidTarget (operation target : Nat) (expected found : Kind) :
      OfBuild (.invalidTarget operation target expected found)
  | reservedJobName (operation : Nat) (job : String) : OfBuild (.reservedJobName operation job)
  | subScenario (name : String) (operation : Nat) {source : ScenarioError} (h : OfBuild source) :
      OfBuild (.subScenario name operation source)

/-- The error that is left when all embedded scenarios around it are taken away. -/
def ScenarioError.innermost : ScenarioError → ScenarioError
  | subScenario _ _ source => source.innermost
  | e => e

theorem ScenarioError.OfBuild.innermost_ne {e : ScenarioError} (h : e.OfBuild)
    (fault : Json.Fault) : e.innermost ≠ .serialization fault := by
  induction h with
  | subScenario _ _ _ ih => exact ih
  | _ =>
      intro heq
      cases heq

/-- A step of a build: it fails with the errors of a build, if it fails. -/
abbrev FailsAsBuild {α : Type} (x : Except ScenarioError α) : Prop :=
  FailsOnly ScenarioError.OfBuild x

namespace Scenario

/-! ### Names and waits -/

theorem failsOnly_resolve (s : Scenario) (h : Handle) : FailsAsBuild (s.resolve h) := by
  unfold resolve
  split
  · exact failsOnly_ok _
  · exact failsOnly_error (.foreignOperation _ _)

theorem failsOnly_operation (s : Scenario) (h : Handle) :
    FailsAsBuild (s.operation h) := by
  refine failsOnly_bind (failsOnly_resolve s h) fun position => ?_
  split
  · exact failsOnly_ok _
  · exact failsOnly_error (.foreignOperation _ _)

theorem failsOnly_resolveAll (s : Scenario) (handles : List Handle) :
    FailsAsBuild (s.resolveAll handles) :=
  failsOnly_mapM (failsOnly_resolve s) handles

theorem failsOnly_checkNames (s : Scenario) : FailsAsBuild s.checkNames := by
  unfold checkNames
  dsimp only
  split
  · exact failsOnly_error (.duplicateName _ _)
  · split
    · exact failsOnly_error (.duplicateName _ _)
    · exact failsOnly_ok _

theorem failsOnly_buildWaits (s : Scenario) : ∀ (operations : List (Operation Scenario))
    (position : Nat), FailsAsBuild (s.buildWaits position operations) := by
  intro operations
  induction operations with
  | nil => intro position; exact failsOnly_ok _
  | cons op rest ih =>
      intro position
      have hwait : FailsAsBuild (s.buildWait position op.wait) := by
        refine failsOnly_bind (failsOnly_resolveAll s _) fun launched => ?_
        refine failsOnly_bind (failsOnly_resolveAll s _) fun finished => ?_
        split
        · exact failsOnly_error (.selfWait _)
        · exact failsOnly_ok _
      exact failsOnly_bind hwait fun wait => failsOnly_bind (ih _) fun waits => failsOnly_ok _

theorem failsOnly_checkCycles (waits : List Document.Wait) :
    FailsAsBuild (checkCycles waits) := by
  unfold checkCycles
  split
  · exact failsOnly_error (.waitCycle _)
  · exact failsOnly_ok _

/-! ### Actions -/

theorem failsOnly_resolveToken (d : Declarations) (position : Nat) (t : Token) :
    FailsAsBuild (resolveToken d position t) := by
  unfold resolveToken
  split
  · exact failsOnly_ok _
  · exact failsOnly_error (.unknownReference _ _)

theorem failsOnly_resolveNamed (d : Declarations) (position : Nat) (entries : NamedTokens) :
    FailsAsBuild (resolveNamed d position entries) := by
  have hentries : FailsAsBuild (resolveEntries d position entries) := by
    induction entries with
    | nil => exact failsOnly_ok _
    | cons entry rest ih =>
        exact failsOnly_bind (failsOnly_resolveToken d position entry.2) fun value =>
          failsOnly_bind ih fun values => failsOnly_ok _
  exact failsOnly_bind hentries fun values => failsOnly_ok _

theorem failsOnly_buildCondition (d : Declarations) (position : Nat) (c : Condition) :
    FailsAsBuild (buildCondition d position c) := by
  unfold buildCondition
  split
  · exact failsOnly_ok _
  · exact failsOnly_error (.unknownReference _ _)

theorem failsOnly_resolveTarget (s : Scenario) (position : Nat) (kind : Kind) (target : Handle) :
    FailsAsBuild (s.resolveTarget position kind target) := by
  refine failsOnly_bind (failsOnly_resolve s target) fun found => ?_
  refine failsOnly_bind (failsOnly_operation s target) fun op => ?_
  dsimp only
  split
  · split
    · exact failsOnly_ok _
    · exact failsOnly_error (.invalidTarget _ _ _ _)
  · exact failsOnly_ok _

theorem failsOnly_buildJob (d : Declarations) (position : Nat) (launch : JobLaunch) :
    FailsAsBuild (buildJob d position launch) := by
  unfold buildJob
  split
  · exact failsOnly_error (.reservedJobName _ _)
  · exact failsOnly_bind (failsOnly_resolveNamed d position _) fun arguments =>
      failsOnly_bind (failsOnly_resolveToken d position _) fun entity => failsOnly_ok _

theorem failsOnly_buildSubScenario (position : Nat) (name : String) {built : Option Built}
    (hbuilt : ∀ result, built = some result → FailsAsBuild result) :
    FailsAsBuild (buildSubScenario position name built) := by
  match built with
  | none => exact failsOnly_ok _
  | some (.ok document) => exact failsOnly_ok _
  | some (.error source) => exact failsOnly_error (.subScenario _ _ (hbuilt _ rfl source rfl))

theorem failsOnly_buildAction (s : Scenario) (d : Declarations) (position : Nat)
    (op : Operation Scenario) {built : Option Built}
    (hbuilt : ∀ result, built = some result → FailsAsBuild result) :
    FailsAsBuild (s.buildAction d position op built) := by
  unfold buildAction
  split
  · exact failsOnly_error (.unconfigured _ _)
  · exact failsOnly_bind (failsOnly_buildJob d position _) fun job => failsOnly_ok _
  · exact failsOnly_bind (failsOnly_resolveTarget s position _ _) fun target => failsOnly_ok _
  · exact failsOnly_bind (failsOnly_mapM (failsOnly_resolveTarget s position _) _) fun targets =>
      failsOnly_ok _
  · exact failsOnly_bind (failsOnly_buildSubScenario position _ hbuilt) fun scenario =>
      failsOnly_bind (failsOnly_resolveNamed d position _) fun arguments => failsOnly_ok _
  · exact failsOnly_bind (failsOnly_resolveTarget s position _ _) fun target => failsOnly_ok _
  · exact failsOnly_bind (failsOnly_resolveToken d position _) fun entity => failsOnly_ok _
  · exact failsOnly_bind (failsOnly_buildCondition d position _) fun value =>
      failsOnly_bind (failsOnly_resolveAll s _) fun first =>
        failsOnly_bind (failsOnly_resolveAll s _) fun second => failsOnly_ok _
  · exact failsOnly_bind (failsOnly_buildCondition d position _) fun value =>
      failsOnly_bind (failsOnly_resolveAll s _) fun first =>
        failsOnly_bind (failsOnly_resolveAll s _) fun second => failsOnly_ok _

theorem failsOnly_buildFunctions (s : Scenario) (d : Declarations) :
    ∀ (operations : List (Operation Scenario)) (position : Nat) (waits : List Document.Wait)
      (builts : List (Option Built)),
    (∀ built ∈ builts, ∀ result, built = some result →
      FailsAsBuild result) →
    FailsAsBuild (s.buildFunctions d position operations waits builts) := by
  intro operations
  induction operations with
  | nil => intro position waits builts _; exact failsOnly_ok _
  | cons op rest ih =>
      intro position waits builts hbuilts
      match waits, builts with
      | [], _ => exact failsOnly_ok _
      | _ :: _, [] => exact failsOnly_ok _
      | wait :: waits, built :: builts =>
          obtain ⟨hbuilt, hrest⟩ := List.forall_mem_cons.mp hbuilts
          exact failsOnly_bind (failsOnly_buildAction s d position op hbuilt) fun action =>
            failsOnly_bind (ih _ waits builts hrest) fun functions => failsOnly_ok _

/-! ### Documents -/

/-- **A build fails with one of the errors of a build, however deep the cause lies.** -/
theorem failsOnly_build (s : Scenario) : FailsAsBuild s.build := by
  induction s using embeddedInduction with
  | step s ih =>
      have hbuilts : ∀ built ∈ s.operations.map embeddedBuild, ∀ result, built = some result →
          FailsAsBuild result := by
        intro built hbuilt result hresult
        obtain ⟨op, hop, rfl⟩ := List.mem_map.mp hbuilt
        obtain ⟨sub, hsub, rfl⟩ := Option.map_eq_some_iff.mp hresult
        exact ih op hop sub hsub
      rw [build_eq]
      exact failsOnly_bind (failsOnly_checkNames s) fun _ =>
        failsOnly_bind (failsOnly_buildWaits s _ 0) fun waits =>
          failsOnly_bind (failsOnly_checkCycles waits) fun _ =>
            failsOnly_bind (failsOnly_buildFunctions s _ _ 0 waits _ hbuilts) fun functions =>
              failsOnly_ok _

end Scenario

end Testbed
