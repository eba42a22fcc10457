/-
Workspaces under other identities.

A command that is given in a workspace whose identities were exchanged for others does what it
does in the workspace itself, with the same answer, or fails with the same error: up to the
exchange of identities, of course.  Identities that are given out by the command have to
be exchanged for those that are given out in the other workspace, and only those.  How many
they are does not depend on whether the command is carried out.
-/
import Testbed.Proofs.Keyed
import Testbed.Proofs.Scenario.Renaming
import Testbed.Workspace

namespace Testbed

open Outcome

/-- An answer under other identities. -/
def WorkspaceAnswer.rename (f : Nat → Nat) : WorkspaceAnswer → WorkspaceAnswer
  | operation op => operation (op.rename f)
  | scenario s => scenario (s.rename f)
  | a => a

namespace Workspace

/-- A workspace under other identities; `n` is the next one to be given out. -/
def rename (f : Nat → Nat) (n : IdentityCounter) (w : Workspace) : Workspace :=
  ⟨n, w.scenarios.map (Prod.map id (Scenario.rename f)),
    w.handles.map (Prod.map id (Handle.rename f))⟩

variable {f : Nat → Nat} {n : IdentityCounter} (w : Workspace)

/-! ### Looking up and keeping -/

theorem scenario_rename (name : String) :
    (w.rename f n).scenario name = (w.scenario name).map (Scenario.rename f) := by
  unfold scenario
  rw [rename, Keyed.get?_map]
  cases Keyed.get? name w.scenarios with
  | none => rfl
  | some s => rfl

theorem handle_rename (name : String) :
    (w.rename f n).handle name = (w.handle name).map (Handle.rename f) := by
  unfold handle
  rw [rename, Keyed.get?_map]
  cases Keyed.get? name w.handles with
  | none => rfl
  | some h => rfl

theorem handlesOf_rename (names : List String) :
    (w.rename f n).handlesOf names = (w.handlesOf names).map (List.map (Handle.rename f)) := by
  unfold handlesOf
  induction names with
  | nil => rfl
  | cons name rest ih =>
      rw [List.mapM_cons, List.mapM_cons, handle_rename, ih]
      exact map_bind fun h => map_bind fun others => rfl

theorem keep_rename (name : String) (s : Scenario) :
    (w.rename f n).keep name (s.rename f) = (w.keep name s).rename f n := by
  unfold keep rename
  rw [Keyed.insert_map]

theorem keepHandle_rename (name : String) (h : Handle) :
    (w.rename f n).keepHandle name (h.rename f) = (w.keepHandle name h).rename f n := by
  unfold keepHandle rename
  rw [Keyed.insert_map]

theorem rename_id : w.rename id w.counter = w := by
  have hscenarios : w.scenarios.map (Prod.map id (Scenario.rename id)) = w.scenarios :=
    List.map_id'' (fun entry => congrArg (entry.1, ·) entry.2.rename_id) _
  have hhandles : w.handles.map (Prod.map id (Handle.rename id)) = w.handles := List.map_id _
  rw [rename, hscenarios, hhandles]

theorem rename_rename (f g : Nat → Nat) (n m : IdentityCounter) :
    (w.rename f n).rename g m = w.rename (g ∘ f) m := by
  have hscenarios : (w.scenarios.map (Prod.map id (Scenario.rename f))).map
        (Prod.map id (Scenario.rename g))
      = w.scenarios.map (Prod.map id (Scenario.rename (g ∘ f))) := by
    rw [List.map_map]
    exact List.map_congr_left fun entry _ => congrArg (entry.1, ·) (entry.2.rename_rename f g)
  rw [rename, rename, rename, hscenarios, List.map_map]
  rfl

/-! ### How many identities are taken -/

/-- How many identities a copy of a scenario takes. -/
def copySize (name : String) : Nat :=
  match w.scenario name with
  | .ok s => s.family.length
  | .error _ => 0

theorem copySize_of_ok {w : Workspace} {name : String} {s : Scenario}
    (h : w.scenario name = .ok s) : w.copySize name = s.family.length := by
  rw [copySize, h]

theorem copySize_rename (name : String) : (w.rename f n).copySize name = w.copySize name := by
  unfold copySize
  rw [scenario_rename]
  cases w.scenario name with
  | error e => rfl
  | ok s =>
      show (s.rename f).family.length = s.family.length
      rw [Scenario.family_rename, List.length_map]

/-- How many identities are taken for a payload. -/
def payloadDemand : PayloadRequest → Nat
  | .startScenario (.embedded name) _ => w.copySize name
  | _ => 0

/-- How many identities a command takes, whether it is carried out or refused in the end. -/
def demand : WorkspaceCommand → Nat
  | .create _ _ _ => 1
  | .clone source _ => w.copySize source
  | .configure _ _ payload => w.payloadDemand payload
  | _ => 0

theorem demand_rename (command : WorkspaceCommand) :
    (w.rename f n).demand command = w.demand command := by
  cases command with
  | clone source as => exact w.copySize_rename source
  | configure scenario operation payload =>
      match payload with
      | .startScenario (.embedded name) _ => exact w.copySize_rename name
      | .startScenario (.known _) _ | .startJob _ | .stopJob _ | .stopJobs _ | .stopScenario _
      | .reboot _ | .branch _ | .loop _ => rfl
  | _ => rfl

/-! ### Requests -/

section Requests

variable (hf : Function.Injective f)

include hf

theorem waitOf_rename (r : WaitRequest) :
    (w.rename f n).waitOf r = (w.waitOf r).map (Wait.mapHandles (Handle.rename f)) := by
  unfold waitOf
  rw [handlesOf_rename, handlesOf_rename]
  refine map_bind fun launched => map_bind fun finished => ?_
  have hwait : (Wait.immediate.onLaunched (launched.map (Handle.rename f))).onFinished
        (finished.map (Handle.rename f))
      = ((Wait.immediate.onLaunched launched).onFinished finished).mapHandles
        (Handle.rename f) := by
    rw [← Wait.onFinished_rename hf, ← Wait.onLaunched_rename hf]
    rfl
  rw [hwait]
  cases r.delay with
  | none => rfl
  | some delay => rfl

end Requests

/-- A launch gets the arguments that setting them one by one leaves behind. -/
theorem launchOf_eq (scenario : SubScenario Scenario) (arguments : NamedTokens) :
    launchOf scenario arguments = .startScenario ⟨scenario, Keyed.ofList arguments⟩ := by
  have hfold : ∀ (entries table : NamedTokens),
      entries.foldl (fun (l : ScenarioLaunch Scenario) entry => l.argument entry.1 entry.2)
          ⟨scenario, table⟩
        = ⟨scenario, Keyed.setAll table entries⟩ := by
    intro entries
    induction entries with
    | nil => intro table; rfl
    | cons entry rest ih => intro table; exact ih _
  exact congrArg Payload.startScenario (hfold arguments [])

/-- A payload under other identities, with the next identity after those that it took. -/
theorem payloadOf_rename (r : PayloadRequest)
    (hfits : ∀ k < w.payloadDemand r, f (w.counter + k) = n + k) :
    (w.rename f n).payloadOf r
      = (w.payloadOf r).map (Prod.map (Payload.rename f) fun _ => n + w.payloadDemand r) := by
  cases r with
  | startJob launch | reboot entity | branch condition | loop condition => rfl
  | stopJob target | stopScenario target =>
      rw [payloadOf, payloadOf, handle_rename]
      exact map_bind fun h => rfl
  | stopJobs targets =>
      rw [payloadOf, payloadOf, handlesOf_rename]
      exact map_bind fun handles => rfl
  | startScenario target arguments =>
      cases target with
      | known name =>
          show Except.ok (launchOf (.named name) arguments, n)
            = .ok ((launchOf (.named name) arguments).rename f, n)
          rw [launchOf_eq]
          rfl
      | embedded name =>
          rw [payloadOf, payloadOf, scenario_rename]
          cases hs : w.scenario name with
          | error e => rfl
          | ok s =>
              have hsize : w.copySize name = s.family.length := copySize_of_ok hs
              have hcopy := Scenario.clone_rename s w.counter n fun k hk =>
                hfits k (show k < w.copySize name from hsize ▸ hk)
              show Except.ok (launchOf (.embedded ((s.rename f).clone.run n).1) arguments,
                  ((s.rename f).clone.run n).2)
                = .ok ((launchOf (.embedded (s.clone.run w.counter).1) arguments).rename f,
                  n + w.copySize name)
              rw [hcopy, hsize, launchOf_eq, launchOf_eq]
              rfl

/-! ### Families of commands

The commands of a family differ in what is declared, changed or asked for.  A lemma says of the
family what a command has to do under other identities, and takes the difference as a premise. -/

/-- Commands that make a scenario: the one that is made with renamed identities is kept as the
renamed one. -/
theorem mint_rename (as : String) {make make' : StateM IdentityCounter Scenario} {taken : Nat}
    (hmake : make'.run n = ((make.run w.counter).1.rename f, n + taken)) :
    (w.rename f n).mint as make' = (w.mint as make).rename f (n + taken) := by
  show (w.rename f (make'.run n).2).keep as (make'.run n).1 = _
  rw [hmake]
  exact keep_rename w as (make.run w.counter).1

/-- Commands that declare a name of a scenario. -/
theorem declare_rename (scenario : String) {g : Scenario → Scenario}
    (hg : ∀ s, g (s.rename f) = (g s).rename f) :
    (do
      let s ← (w.rename f n).scenario scenario
      return (WorkspaceAnswer.done, (w.rename f n).keep scenario (g s)))
      = (do
          let s ← w.scenario scenario
          return (WorkspaceAnswer.done, w.keep scenario (g s))).map
        (Prod.map (WorkspaceAnswer.rename f) (rename f n)) := by
  rw [scenario_rename]
  refine map_bind fun s => congrArg (fun v => Except.ok (WorkspaceAnswer.done, v)) ?_
  rw [hg]
  exact keep_rename w scenario (g s)

/-- Commands that only change the workspace. -/
theorem done_rename {x x' : Except CommandError Workspace} (h : x' = x.map (rename f n)) :
    (do return (WorkspaceAnswer.done, ← x')) = (do return (WorkspaceAnswer.done, ← x)).map
      (Prod.map (WorkspaceAnswer.rename f) (rename f n)) := by
  rw [h]
  exact map_bind fun v => rfl

/-- Commands that answer with what they look up, and change nothing. -/
theorem ask_rename {α : Type} {r : α → α} {x x' : Except CommandError α} (h : x' = x.map r)
    {answer : α → WorkspaceAnswer} (hanswer : ∀ a, answer (r a) = (answer a).rename f) :
    (do return (answer (← x'), w.rename f n)) = (do return (answer (← x), w)).map
      (Prod.map (WorkspaceAnswer.rename f) (rename f n)) := by
  rw [h]
  exact map_bind fun a => congrArg (fun v => Except.ok (v, w.rename f n)) (hanswer a)

section Families

variable (hf : Function.Injective f)

include hf

/-- Commands that change an operation. -/
theorem change_rename (scenario operation : String)
    {g g' : Operation Scenario → Except ScenarioError (Operation Scenario)}
    (hg : ∀ op, g' (op.rename f) = (g op).map (Operation.rename f)) :
    (w.rename f n).change scenario operation g'
      = (w.change scenario operation g).map (rename f n) := by
  rw [Workspace.change, Workspace.change, scenario_rename, handle_rename]
  refine map_bind fun s => map_bind fun h => ?_
  rw [Scenario.modifyOperation_rename hf h hg]
  cases s.modifyOperation h g with
  | error e => rfl
  | ok changed => exact congrArg Except.ok (keep_rename w scenario changed)

/-- Commands that change the wait of an operation. -/
theorem changeWait_rename (scenario operation : String) {g g' : Wait → Wait}
    (hg : ∀ wait, g' (wait.mapHandles (Handle.rename f))
      = (g wait).mapHandles (Handle.rename f)) :
    (w.rename f n).changeWait scenario operation g'
      = (w.changeWait scenario operation g).map (rename f n) := by
  refine change_rename w hf scenario operation fun op => ?_
  simp only [Operation.rename, hg]
  rfl

theorem lookUp_rename (scenario operation : String) :
    (w.rename f n).lookUp scenario operation
      = (w.lookUp scenario operation).map (Operation.rename f) := by
  rw [lookUp, lookUp, scenario_rename, handle_rename]
  refine map_bind fun s => map_bind fun h => ?_
  rw [Scenario.operation_rename hf]
  cases s.operation h with
  | error e => rfl
  | ok op => rfl

omit hf in
/-- Commands that build a scenario, in one form or another: what is built does not show the
identities. -/
theorem tell_rename (scenario : String) {α : Type} {g : Scenario → Except ScenarioError α}
    (hg : ∀ s, g (s.rename f) = g s) {answer : α → WorkspaceAnswer}
    (hanswer : ∀ a, (answer a).rename f = answer a) :
    (do
      let s ← (w.rename f n).scenario scenario
      return (answer (← lift (g s)), w.rename f n))
      = (do
          let s ← w.scenario scenario
          return (answer (← lift (g s)), w)).map
        (Prod.map (WorkspaceAnswer.rename f) (rename f n)) := by
  rw [scenario_rename]
  refine map_bind fun s => ?_
  rw [hg]
  exact bind_map fun a => congrArg (fun v => Except.ok (v, w.rename f n)) (hanswer a).symm

theorem document_rename (scenario : String) :
    (w.rename f n).document scenario = w.document scenario := by
  rw [document, document, scenario_rename]
  cases w.scenario scenario with
  | error e => rfl
  | ok s =>
      show lift (s.rename f).build = lift s.build
      rw [Scenario.build_rename hf]

end Families

/-! ### Commands -/

/-- A command gives under other identities what it gives in the workspace, with the identities
exchanged in the answer and in the workspace that it leaves. -/
def RunsAlike (f : Nat → Nat) (n : IdentityCounter) (w : Workspace) (command : WorkspaceCommand) :
    Prop :=
  (w.rename f n).run command = (w.run command).map
    (Prod.map (WorkspaceAnswer.rename f) (rename f (n + w.demand command)))

/-! #### Scenarios and what is added to them -/

theorem create_runsAlike (as name description : String) (hfresh : f w.counter = n) :
    RunsAlike f n w (.create as name description) := by
  have hnew : (Scenario.new name description).run n
      = (((Scenario.new name description).run w.counter).1.rename f, n + 1) := by
    rw [← hfresh]
    rfl
  exact congrArg (fun v => Except.ok (WorkspaceAnswer.done, v)) (mint_rename w as hnew)

theorem clone_runsAlike (source as : String)
    (hfits : ∀ k < w.copySize source, f (w.counter + k) = n + k) :
    RunsAlike f n w (.clone source as) := by
  rw [RunsAlike, run, run, scenario_rename]
  cases hs : w.scenario source with
  | error e => rfl
  | ok s =>
      have hsize : w.copySize source = s.family.length := copySize_of_ok hs
      have hcopy := Scenario.clone_rename s w.counter n fun k hk => hfits k (hsize ▸ hk)
      rw [← hsize] at hcopy
      exact congrArg (fun v => Except.ok (WorkspaceAnswer.done, v)) (mint_rename w as hcopy)

theorem handleAt_runsAlike (scenario : String) (index : Nat) (as : String) :
    RunsAlike f n w (.handleAt scenario index as) := by
  rw [RunsAlike, run, run, scenario_rename]
  refine map_bind fun s => ?_
  rw [Scenario.handles_rename, List.getElem?_map]
  cases s.handles[index]? with
  | none => rfl
  | some h =>
      exact congrArg (fun v => Except.ok (WorkspaceAnswer.position h.index, v))
        (keepHandle_rename w as h)

section Commands

variable (hf : Function.Injective f)

include hf

theorem addOperation_runsAlike (scenario kind as : String) (wait : WaitRequest) :
    RunsAlike f n w (.addOperation scenario kind as wait) := by
  rw [RunsAlike, run, run, scenario_rename, waitOf_rename w hf]
  refine map_bind fun s => map_bind fun wait => ?_
  cases Kind.read kind with
  | error cause => rfl
  | ok kind =>
      dsimp only
      rw [Scenario.addOperation_rename, keep_rename, keepHandle_rename, Scenario.size_rename]
      rfl

/-! #### Changes of operations -/

theorem addWaits_runsAlike (scenario operation : String) (launched finished : List String) :
    RunsAlike f n w (.addWaits scenario operation launched finished) := by
  rw [RunsAlike, run, run, handlesOf_rename, handlesOf_rename]
  refine map_bind fun launched => map_bind fun finished => ?_
  rw [changeWait_rename w hf scenario operation
    (g := fun wait => (wait.onLaunched launched).onFinished finished)
    fun wait => by rw [Wait.onLaunched_rename hf, Wait.onFinished_rename hf]]
  refine map_bind fun w => ?_
  rw [lookUp_rename w hf]
  refine map_bind fun op => ?_
  simp only [Operation.rename, Wait.mapHandles, Wait.references, List.length_append,
    List.length_map]
  rfl

theorem configure_runsAlike (scenario operation : String) (payload : PayloadRequest)
    (hfits : ∀ k < w.payloadDemand payload, f (w.counter + k) = n + k) :
    RunsAlike f n w (.configure scenario operation payload) := by
  rw [RunsAlike, run, run, payloadOf_rename w payload hfits]
  refine map_bind fun result => ?_
  dsimp only [Prod.map]
  rw [change_rename w hf scenario operation (g := (·.configure result.1))
    fun op => op.configure_rename result.1]
  exact map_bind fun v => rfl

/-! #### Questions -/

theorem sameHandle_runsAlike (left right : String) : RunsAlike f n w (.sameHandle left right) := by
  rw [RunsAlike, run, run, handle_rename, handle_rename]
  refine map_bind fun l => map_bind fun r => ?_
  have hsame : (l.rename f == r.rename f) = (l == r) := by
    rw [Bool.eq_iff_iff, beq_iff_eq, beq_iff_eq]
    exact (Handle.rename_injective hf).eq_iff
  rw [hsame]
  rfl

theorem owns_runsAlike (scenario operation : String) :
    RunsAlike f n w (.owns scenario operation) := by
  rw [RunsAlike, run, run, scenario_rename, handle_rename]
  refine map_bind fun s => map_bind fun h => ?_
  rw [Scenario.owns_rename hf]
  rfl

/-! #### All commands -/

/-- **A command does in a workspace under other identities what it does in the workspace.** -/
theorem run_rename (command : WorkspaceCommand)
    (hfits : ∀ k < w.demand command, f (w.counter + k) = n + k) :
    (w.rename f n).run command = (w.run command).map
      (Prod.map (WorkspaceAnswer.rename f) (rename f (n + w.demand command))) := by
  cases command with
  | create as name description => exact create_runsAlike w as name description (hfits 0 Nat.one_pos)
  | clone source as => exact clone_runsAlike w source as hfits
  | addArgument scenario name description =>
      exact declare_rename w scenario fun s => s.addArgument_rename f name description
  | addConstant scenario name value =>
      exact declare_rename w scenario fun s => s.addConstant_rename f name value
  | addOperation scenario kind as wait => exact addOperation_runsAlike w hf scenario kind as wait
  | handleAt scenario index as => exact handleAt_runsAlike w scenario index as
  | sameHandle left right => exact sameHandle_runsAlike w hf left right
  | addWaits scenario operation launched finished =>
      exact addWaits_runsAlike w hf scenario operation launched finished
  | setWait scenario operation wait =>
      rw [run, run, waitOf_rename w hf]
      exact map_bind fun wait =>
        done_rename (changeWait_rename w hf scenario operation fun _ => rfl)
  | setLabel scenario operation label =>
      exact done_rename (change_rename w hf scenario operation fun op => rfl)
  | configure scenario operation payload =>
      exact configure_runsAlike w hf scenario operation payload hfits
  | configureCondition scenario operation condition =>
      exact done_rename (change_rename w hf scenario operation
        fun op => op.configureCondition_rename condition)
  | configureBody scenario operation body operations =>
      rw [run, run, handlesOf_rename]
      exact map_bind fun handles => done_rename (change_rename w hf scenario operation
        fun op => op.configureBody_rename body handles)
  | owns scenario operation => exact owns_runsAlike w hf scenario operation
  | operation scenario operation =>
      exact ask_rename w (lookUp_rename w hf scenario operation) fun _ => rfl
  | scenario scenario => exact ask_rename w (scenario_rename w scenario) fun _ => rfl
  | build scenario pretty =>
      exact tell_rename w scenario (fun s => Scenario.toText_rename hf s pretty) fun _ => rfl
  | serialize scenario =>
      exact tell_rename w scenario (Scenario.serialize_rename hf) fun _ => rfl
  | validate scenario =>
      rw [run, run, document_rename w hf]
      exact bind_map fun d => rfl
  | roundTrip scenario =>
      rw [run, run, document_rename w hf]
      exact bind_map fun d => bind_map fun holds => rfl

end Commands

end Workspace

end Testbed
