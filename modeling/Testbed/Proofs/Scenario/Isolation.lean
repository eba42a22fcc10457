/-
Scenarios that are sent along are built by themselves.

A scenario that an operation carries has names and numbers of its own.  When the scenario
around it is built, it becomes what it is serialized to by itself, and when it is the reason why
the scenario around it is not built, the error tells what building it by itself fails with.  So
an error can be followed inwards, one operation after the other, down to the scenario in which
the defect is.
-/
import Testbed.Proofs.Scenario.Errors
import Testbed.Proofs.Scenario.FirstDefect
import Testbed.Proofs.Scenario.ReadBack

namespace Testbed

open Outcome

namespace ScenarioError

/-- The operations that carry the scenarios around the cause of an error, from the outside. -/
def way : ScenarioError → List Nat
  | subScenario _ i source => i :: source.way
  | _ => []

theorem innermost_ne_subScenario (e : ScenarioError) (name : String) (i : Nat)
    (source : ScenarioError) : e.innermost ≠ .subScenario name i source := by
  induction e with
  | subScenario _ _ _ ih => exact ih
  | _ =>
      intro h
      cases h

end ScenarioError

namespace Document

/-- A function launches one value. -/
theorem Launches.unique {d : Document} {i : Nat} {v v' : Json} (h : d.Launches i v)
    (h' : d.Launches i v') : v' = v := by
  obtain ⟨f, arguments, hf, haction⟩ := h
  obtain ⟨f', arguments', hf', haction'⟩ := h'
  cases hf.symm.trans hf'
  cases haction.symm.trans haction'
  rfl

end Document

namespace Scenario

/-- The same scenario with other names that its tokens may refer to. -/
def withNames (s : Scenario) (arguments : List (String × String)) (constants : Members) :
    Scenario :=
  { s with arguments := arguments, constants := constants }

/-! ### What is launched -/

theorem serialize_eq_ok {s : Scenario} {v : Json} :
    s.serialize = .ok v ↔ ∃ d, s.build = .ok d ∧ d.toJson = v := by
  unfold serialize
  simp only [bind_eq_ok, pure_eq_ok]

/-- The function of an operation launches what the scenario in it is serialized to. -/
theorem launches_serialize {s : Scenario} {d : Document} (hd : s.build = .ok d) {i : Nat}
    {sub : Scenario} (hsub : s.embedded? i = some sub) :
    ∃ v, sub.serialize = .ok v ∧ d.Launches i v := by
  obtain ⟨e, he, hlaunches⟩ := launches_of_build hd hsub
  exact ⟨e.toJson, serialize_eq_ok.mpr ⟨e, he, rfl⟩, hlaunches⟩

/-! ### What is reported -/

/-- Only the scenario in an operation is reported as one that cannot be built by itself. -/
theorem Defect.of_subScenario {s : Scenario} {p : Place} {name : String} {i : Nat}
    {source : ScenarioError} (h : s.Defect p (.subScenario name i source)) :
    ∃ sub, s.embedded? i = some sub ∧ sub.name = name ∧ sub.build = .error source := by
  cases h with
  | wait _ wrong => cases wrong
  | action found wrong =>
      cases wrong with
      | opening wrong =>
          cases wrong with
          | subScenario carries fails =>
              exact ⟨_, Option.bind_eq_some_iff.mpr ⟨_, found, carries⟩, rfl, fails⟩
      | target _ wrong => cases wrong

theorem of_build_subScenario {s : Scenario} {name : String} {i : Nat} {source : ScenarioError}
    (h : s.build = .error (.subScenario name i source)) :
    ∃ sub, s.embedded? i = some sub ∧ sub.name = name ∧ sub.build = .error source := by
  obtain ⟨p, hdefect, -⟩ := s.finds_build.first _ h
  exact hdefect.of_subScenario

/-- An error is followed inwards to the scenario that fails with its cause. -/
theorem embeddedAt?_way : ∀ (e : ScenarioError) {s : Scenario}, s.build = .error e →
    ∃ sub, s.embeddedAt? e.way = some sub ∧ sub.build = .error e.innermost := by
  intro e
  induction e with
  | subScenario name i source ih =>
      intro s h
      obtain ⟨next, hnext, -, hfails⟩ := of_build_subScenario h
      obtain ⟨sub, hsub, hcause⟩ := ih hfails
      exact ⟨sub, Option.bind_eq_some_iff.mpr ⟨next, hnext, hsub⟩, hcause⟩
  | _ => exact fun {s} h => ⟨s, rfl, h⟩

/--
**A scenario that is sent along is built by itself.**

If the scenario around it is built, what is launched is what it is serialized to by itself, at
every depth, and other names of the scenario around it would change nothing.  If a scenario that
is sent along is reported, it is the one that the operation carries, and it fails by itself with
the source of the error.  Followed inwards, every error leads to a scenario that fails by itself
with the cause, and the cause is not that another one fails.
-/
theorem build_isolated (s : Scenario) :
    (∀ d, s.build = .ok d →
      (∀ i sub, s.embedded? i = some sub → ∃ v, sub.serialize = .ok v ∧ d.Launches i v)
        ∧ (∀ path sub, s.embeddedAt? path = some sub →
          ∃ v, sub.serialize = .ok v ∧ d.toJson.launchedAt? path = some v)
        ∧ ∀ arguments constants d', (s.withNames arguments constants).build = .ok d' →
          ∀ i sub v, s.embedded? i = some sub → d.Launches i v → d'.Launches i v)
      ∧ (∀ name i source, s.build = .error (.subScenario name i source) →
        ∃ sub, s.embedded? i = some sub ∧ sub.name = name ∧ sub.build = .error source)
      ∧ ∀ e, s.build = .error e → ∃ sub, s.embeddedAt? e.way = some sub
        ∧ sub.build = .error e.innermost
        ∧ ∀ name i source, e.innermost ≠ .subScenario name i source := by
  refine ⟨fun d hd => ⟨fun i sub hsub => launches_serialize hd hsub, fun path sub hsub => ?_,
    fun arguments constants d' hd' i sub v hsub hlaunches => ?_⟩,
    fun name i source h => of_build_subScenario h, fun e he => ?_⟩
  · obtain ⟨e, he, hlaunched⟩ := launchedAt?_of_build path hd hsub
    exact ⟨e.toJson, serialize_eq_ok.mpr ⟨e, he, rfl⟩, hlaunched⟩
  · obtain ⟨v₁, hv₁, hlaunches₁⟩ := launches_serialize hd hsub
    obtain ⟨v₂, hv₂, hlaunches₂⟩ := launches_serialize hd' hsub
    cases hlaunches₁.unique hlaunches
    cases hv₁.symm.trans hv₂
    exact hlaunches₂
  · obtain ⟨sub, hsub, hcause⟩ := embeddedAt?_way e he
    exact ⟨sub, hsub, hcause, e.innermost_ne_subScenario⟩

/-- An agent is rebooted that is declared around the scenario, but not in it. -/
def lostAgent : Scenario :=
  ⟨0, [], "Lost agent", "", [], [],
    [⟨.reboot, none, some (.reboot (.placeholder "agent")), .immediate, [], []⟩]⟩

/-- It is the second operation of a scenario that has a constant of that name. -/
def lostInside : Scenario :=
  ⟨1, [], "Lost inside", "", [], [("agent", .string "server")], [
    ⟨.reboot, none, some (.reboot (.placeholder "agent")), .immediate, [], []⟩,
    ⟨.startScenario, none, some (.startScenario ⟨.embedded lostAgent, []⟩), .immediate, [], []⟩]⟩

/-- That one is sent along in turn, by a scenario that has an argument of that name. -/
def lostOutside : Scenario :=
  ⟨2, [], "Lost outside", "", [("agent", "")], [],
    [⟨.startScenario, none, some (.startScenario ⟨.embedded lostInside, []⟩), .immediate, [], []⟩]⟩

/-- The error leads to the scenario in the middle, and from there to the one in which the agent is
missing.  What is launched by a scenario that is built is launched as well if it has an argument in
the place of a constant. -/
theorem lostOutside_build :
    lostOutside.build = .error (.subScenario "Lost inside" 0 (.subScenario "Lost agent" 1
      (.unknownReference "agent" 0)))
    ∧ (∃ sub, lostOutside.embedded? 0 = some sub ∧ sub.name = "Lost inside"
      ∧ sub.build = .error (.subScenario "Lost agent" 1 (.unknownReference "agent" 0)))
    ∧ (∃ sub, lostOutside.embeddedAt? [0, 1] = some sub
      ∧ sub.build = .error (.unknownReference "agent" 0)
      ∧ ∀ name i source, ScenarioError.unknownReference "agent" 0 ≠ .subScenario name i source)
    ∧ rebootThenPing.build = .ok rebootThenPingDocument
    ∧ (∃ v, rebootAgent.serialize = .ok v ∧ rebootThenPingDocument.toJson.launchedAt? [0] = some v)
    ∧ ∃ v d, rebootAgent.serialize = .ok v ∧ rebootThenPingDocument.Launches 0 v
      ∧ (rebootThenPing.withNames [("count", "")] []).build = .ok d ∧ d.Launches 0 v := by
  have hfails : lostOutside.build = .error (.subScenario "Lost inside" 0
      (.subScenario "Lost agent" 1 (.unknownReference "agent" 0))) := by cbv
  have hother : (rebootThenPing.withNames [("count", "")] []).build
      = .ok ⟨"Reboot then ping", "", [("count", .string "")], [],
        [⟨0, "#0", .startScenario rebootAgentDocument.toJson [("agent", .string "server")],
            .immediate⟩,
          ⟨1, "#1", .startJob ⟨.string "client", .integer 0, none,
            [("fping", .object [("count", .string "$count")])]⟩, ⟨.integer 5, [], [0]⟩⟩]⟩ := by
    cbv
  obtain ⟨-, hsource, hcause⟩ := build_isolated lostOutside
  obtain ⟨hlaunched, hat, hnames⟩ := (build_isolated rebootThenPing).1 _ rebootThenPing_build
  obtain ⟨v, hv, hlaunches⟩ := hlaunched 0 rebootAgent rfl
  exact ⟨hfails, hsource _ _ _ hfails, hcause _ hfails, rebootThenPing_build,
    hat [0] rebootAgent rfl, v, _, hv, hlaunches, hother,
    hnames _ _ _ hother 0 rebootAgent v rfl hlaunches⟩

end Scenario

end Testbed
