/-
Which scenarios can be built.

`Complete` lists everything that a build asks of a scenario alone; a scenario is
`Buildable` if it and all scenarios embedded in it, at any depth, are complete.  That
is exactly when a build gives a document, because the payload of every operation is
for operations of its kind: no call can put in another one.
-/
import Testbed.Proofs.Scenario.Errors
import Testbed.Proofs.Scenario.Provenance

namespace Testbed

open Outcome

namespace Scenario

/-! ### What a build asks for -/

/-- Everything that a build asks of a scenario, apart from those embedded in it. -/
structure Complete (s : Scenario) : Prop where
  /-- No name is declared twice, in one table or in both. -/
  names : (s.arguments.map Prod.fst ++ Keyed.keys s.constants).Nodup
  waits : ∀ i op, s.operations[i]? = some op → s.WaitReady i op.wait
  acyclic : ∀ i, ¬ Relation.TransGen s.WaitsOn i i
  configured : ∀ op ∈ s.operations, ∃ p, op.payload = some p ∧ s.Configured op p

/-- A scenario is complete, and so are all scenarios embedded in it. -/
inductive Buildable : Scenario → Prop
  | mk {s : Scenario} (complete : s.Complete)
      (embedded : ∀ op ∈ s.operations, ∀ sub, op.embedded? = some sub → Buildable sub) :
      Buildable s

theorem succeeds_action_iff {s : Scenario} {op : Operation Scenario} (hcoherent : op.Coherent)
    (position : Nat) : Succeeds (s.buildAction s.declarations position op (embeddedBuild op))
      ↔ (∃ p, op.payload = some p ∧ s.Configured op p)
        ∧ ∀ sub, op.embedded? = some sub → Succeeds sub.build := by
  cases hp : op.payload with
  | none =>
      refine iff_of_false ?_ fun h => ?_
      · unfold buildAction
        rw [hp]
        exact not_succeeds_error _
      · obtain ⟨⟨p, hp', -⟩, -⟩ := h
        cases hp'
  | some p =>
      rw [embeddedBuild, succeeds_buildAction hp (hcoherent p hp)]
      simp

/-- A build asks for a complete scenario, and for a document of every embedded one. -/
theorem succeeds_build {s : Scenario} (hcoherent : ∀ op ∈ s.operations, op.Coherent) :
    Succeeds s.build ↔ s.Complete
      ∧ ∀ op ∈ s.operations, ∀ sub, op.embedded? = some sub → Succeeds sub.build := by
  have hfunctions : Succeeds s.functions ↔ ∀ op ∈ s.operations,
      (∃ p, op.payload = some p ∧ s.Configured op p)
        ∧ ∀ sub, op.embedded? = some sub → Succeeds sub.build := by
    rw [functions, waits, succeeds_buildFunctions]
    refine ⟨?_, ?_⟩
    · intro hall op hop
      obtain ⟨i, hi⟩ := List.mem_iff_getElem?.mp hop
      exact (succeeds_action_iff (hcoherent op hop) _).mp (hall i op hi)
    · intro hall i op hi
      have hop := List.mem_of_getElem? hi
      exact (succeeds_action_iff (hcoherent op hop) _).mpr (hall op hop)
  refine ⟨?_, ?_⟩
  · intro h
    obtain ⟨d, hd⟩ := h
    obtain ⟨hnames, hwaits, hacyclic, functions, hok, -⟩ := build_eq_ok.mp hd
    have hall := hfunctions.mp ⟨functions, hok⟩
    exact ⟨⟨hnames, hwaits, hacyclic, fun op hop => (hall op hop).1⟩,
      fun op hop => (hall op hop).2⟩
  · intro h
    obtain ⟨hcomplete, hembedded⟩ := h
    obtain ⟨functions, hok⟩ :=
      hfunctions.mpr fun op hop => ⟨hcomplete.configured op hop, hembedded op hop⟩
    exact ⟨_, build_eq_ok.mpr ⟨hcomplete.names, hcomplete.waits, hcomplete.acyclic, functions,
      hok, rfl⟩⟩

/-! ### Scenarios that can be reached -/

end Scenario

namespace World

/-- No call gives an operation the payload of another kind. -/
theorem Reachable.coherent {w : World} (hw : w.Reachable) {s : Scenario} (hs : s ∈ w.live) :
    ∀ op ∈ s.operations, op.Coherent :=
  hw.each_operation Operation.coherent_new Change.apply_coherent
    (fun s h => Operation.coherent_withEmbedded h s) hs

theorem Reachable.succeeds_build {w : World} (hw : w.Reachable) {s : Scenario} (hs : s ∈ w.live) :
    Succeeds s.build ↔ s.Buildable := by
  induction s using Scenario.embeddedInduction with
  | step s ih =>
      have hembedded : ∀ op ∈ s.operations, ∀ sub, op.embedded? = some sub →
          (Succeeds sub.build ↔ sub.Buildable) := fun op hop sub hsub =>
        ih op hop sub hsub (live_trans hs
          (Scenario.mem_family_of_embedded hop hsub (Scenario.mem_family_self sub)))
      rw [Scenario.succeeds_build (hw.coherent hs)]
      refine ⟨?_, ?_⟩
      · intro h
        obtain ⟨hcomplete, hbuilds⟩ := h
        exact .mk hcomplete fun op hop sub hsub =>
          (hembedded op hop sub hsub).mp (hbuilds op hop sub hsub)
      · intro h
        obtain ⟨hcomplete, hbuildable⟩ := h
        exact ⟨hcomplete, fun op hop sub hsub =>
          (hembedded op hop sub hsub).mpr (hbuildable op hop sub hsub)⟩

end World

namespace Scenario

/--
**A scenario has a document exactly if it is complete, with all that is embedded in it.**

Otherwise the build fails with one of the errors of a build, at whatever depth; among them there
is none about writing the document down.
-/
theorem build_isOk_iff {s : Scenario} (h : s.Reachable) :
    ((∃ d, s.build = .ok d) ↔ s.Buildable)
      ∧ ∀ e, s.build = .error e → e.OfBuild ∧ ∀ fault, e.innermost ≠ .serialization fault := by
  obtain ⟨w, hw, hs⟩ := h
  refine ⟨hw.succeeds_build hs, fun e he => ?_⟩
  have hofBuild := failsOnly_build s e he
  exact ⟨hofBuild, hofBuild.innermost_ne⟩

/-- A scenario with some arguments and a reboot of an entity. -/
def rebootOf (arguments : List (String × String)) (entity : Token) : Scenario :=
  ⟨1, [], "Reboot", "", arguments, [],
    [⟨.reboot, none, some (.reboot entity), .immediate, [], []⟩]⟩

/-- It was made, with its arguments, and the operation was added and configured. -/
def rebootOfMade (arguments : List (String × String)) (entity : Token) : World :=
  ⟨2, [rebootOf arguments entity], [.created 1, .added ⟨1, 0⟩ (.new .reboot .immediate),
    .issued ⟨1, 0⟩ ⟨1, 0⟩, .changed ⟨1, 0⟩ (.payload (.reboot entity))]⟩

theorem rebootOfMade_reachable (arguments : List (String × String)) (entity : Token) :
    (rebootOfMade arguments entity).Reachable := by
  have hcreate : World.initial.Leads ⟨2, [⟨1, [], "Reboot", "", [], [], []⟩], [.created 1]⟩ :=
    .single (.create "Reboot" "" rfl)
  have harguments := hcreate.trans (World.leads_arguments arguments _)
  exact harguments.trans (World.leads_withLast .reboot .immediate (Log.issued_immediate _)
    [.payload (.reboot entity)]
    (List.forall_mem_singleton.mpr (Log.offers_payload (List.forall_mem_nil _))) rfl)

theorem rebootOf_reachable (arguments : List (String × String)) (entity : Token) :
    (rebootOf arguments entity).Reachable :=
  (rebootOfMade_reachable arguments entity).scenario

/-- A scenario with an argument and a reboot of what the argument names. -/
def rebootAgent : Scenario :=
  ⟨1, [], "Reboot", "", [("agent", "What to reboot")], [],
    [⟨.reboot, none, some (.reboot (.placeholder "agent")), .immediate, [], []⟩]⟩

theorem rebootAgent_reachable : rebootAgent.Reachable :=
  rebootOf_reachable [("agent", "What to reboot")] (.placeholder "agent")

/-- Its document. -/
def rebootAgentDocument : Document :=
  ⟨"Reboot", "", [("agent", .string "What to reboot")], [],
    [⟨0, "#0", .reboot (.string "$agent"), .immediate⟩]⟩

theorem rebootAgent_build : rebootAgent.build = .ok rebootAgentDocument := by cbv

/-- A rate that is more than five. -/
def highRate : Condition :=
  .binary .above (.operand (.value (.placeholder "rate"))) (.operand (.value (.literal (.ofNat 5))))

/-- A server is loaded, and rebooted by a scenario that is sent along; ten seconds after that the
load is stopped.  A last operation branches to the stop or to the reboot. -/
def loadTest (check : Option (Payload Scenario)) : Scenario :=
  ⟨2, [], "Load test", "", [("server", "What to load")], [("rate", .ofNat 10)],
    [⟨.startJob, some "Load", some (.startJob ⟨"iperf", .placeholder "server", .zero,
        some (.ofSeconds 60), [("rate", .constant "rate")]⟩), .immediate, [], []⟩,
      ⟨.startScenario, none, some (.startScenario ⟨.embedded rebootAgent,
        [("agent", .argument "server")]⟩), ⟨.zero, [⟨2, 0⟩], []⟩, [], []⟩,
      ⟨.stopJob, none, some (.stopJob ⟨2, 0⟩), ⟨.ofSeconds 10, [⟨2, 0⟩], [⟨2, 1⟩]⟩, [], []⟩,
      ⟨.branch, some "Check", check, .immediate, [⟨2, 2⟩], [⟨2, 1⟩]⟩]⟩

/-- The document of a load test that checks the rate. -/
def loadTestDocument : Document :=
  ⟨"Load test", "", [("server", .string "What to load")], [("rate", .ofNat 10)],
    [⟨0, "Load", .startJob ⟨.string "$server", .integer 0, some (.integer 60),
        [("iperf", .object [("rate", .ofNat 10)])]⟩, .immediate⟩,
      ⟨1, "#1", .startScenario rebootAgentDocument.toJson [("agent", .string "$server")],
        ⟨.integer 0, [0], []⟩⟩,
      ⟨2, "#2", .stopJob 0, ⟨.integer 10, [0], [1]⟩⟩,
      ⟨3, "Check", .branch (.object [("type", .string ">"),
        ("left_operand", .object [("type", .string "value"), ("value", .ofNat 10)]),
        ("right_operand", .object [("type", .string "value"), ("value", .ofNat 5)])]) [2] [1],
        .immediate⟩]⟩

theorem loadTest_build : (loadTest (some (.branch highRate))).build = .ok loadTestDocument := by
  cbv

theorem loadTest_unchecked : (loadTest none).build = .error (.unconfigured 3 .branch) := by cbv

/-- Everything can be set but the condition. -/
theorem loadTest_drafted : ∃ log : Log, World.Reachable ⟨3, [loadTest none], log⟩
    ∧ log.Issued ⟨2, 3⟩ := by
  have hcreate := (rebootOfMade_reachable [("agent", "What to reboot")]
    (.placeholder "agent")).tail (.create "Load test" "" rfl)
  have hnames := (hcreate.trans (World.leads_arguments [("server", "What to load")] _)).tail
    (.constant "rate" (.ofNat 10))
  have hload := hnames.trans (World.leads_withLast .startJob .immediate (Log.issued_immediate _)
    [.label "Load", .payload (.startJob ⟨"iperf", .placeholder "server", .zero,
      some (.ofSeconds 60), [("rate", .constant "rate")]⟩)]
    (List.forall_mem_cons.mpr ⟨Log.offers_label _, List.forall_mem_singleton.mpr
      (Log.offers_payload (List.forall_mem_nil _))⟩) rfl)
  have hreboot := hload.trans (World.leads_withLast .startScenario
    (Wait.Made.immediate.launched ⟨2, 0⟩) (List.forall_mem_singleton.mpr Log.issued_logLast)
    [.payload (.startScenario ⟨.embedded rebootAgent, [("agent", .argument "server")]⟩)]
    (List.forall_mem_singleton.mpr (Log.offers_payload (List.forall_mem_nil _))) rfl)
  have hstop := hreboot.trans (World.leads_withLast .stopJob
    (((Wait.Made.immediate.launched ⟨2, 0⟩).finished ⟨2, 1⟩).delayed (.ofSeconds 10))
    (List.forall_mem_cons.mpr ⟨Log.issued_logLast.append _,
      List.forall_mem_singleton.mpr Log.issued_logLast⟩)
    [.payload (.stopJob ⟨2, 0⟩)]
    (List.forall_mem_singleton.mpr (Log.offers_payload
      (List.forall_mem_singleton.mpr (Log.issued_logLast.append _)))) rfl)
  have hcheck := hstop.trans (World.leads_withLast .branch .immediate (Log.issued_immediate _)
    [.label "Check", .body .ifTrue [⟨2, 2⟩], .body .ifFalse [⟨2, 1⟩]]
    (List.forall_mem_cons.mpr ⟨Log.offers_label _, List.forall_mem_cons.mpr
      ⟨Log.offers_body (List.forall_mem_singleton.mpr Log.issued_logLast),
        List.forall_mem_singleton.mpr (Log.offers_body
          (List.forall_mem_singleton.mpr (Log.issued_logLast.append _)))⟩⟩) rfl)
  exact ⟨_, hcheck, Log.issued_logLast⟩

theorem loadTest_reachable : (loadTest (some (.branch highRate))).Reachable := by
  obtain ⟨log, hw, hknown⟩ := loadTest_drafted
  have hchecked : World.Reachable ⟨3, [loadTest (some (.branch highRate))],
      log ++ [.changed ⟨2, 3⟩ (.condition highRate)]⟩ :=
    hw.tail (.change (c := .condition highRate) hknown (Log.offers_condition _) rfl)
  exact hchecked.scenario

/-- A load test is complete once it has its condition, and not before. -/
theorem loadTest_buildable :
    ((loadTest none).Reachable ∧ ¬ (loadTest none).Buildable
      ∧ (ScenarioError.unconfigured 3 .branch).OfBuild)
    ∧ (loadTest (some (.branch highRate))).Reachable
    ∧ (loadTest (some (.branch highRate))).Buildable := by
  obtain ⟨log, hw, -⟩ := loadTest_drafted
  obtain ⟨hiff, herrors⟩ := build_isOk_iff hw.scenario
  refine ⟨⟨hw.scenario, fun h => ?_, (herrors _ loadTest_unchecked).1⟩, loadTest_reachable,
    (build_isOk_iff loadTest_reachable).1.mp ⟨_, loadTest_build⟩⟩
  obtain ⟨d, hd⟩ := hiff.mpr h
  rw [loadTest_unchecked] at hd
  cases hd

end Scenario

end Testbed
