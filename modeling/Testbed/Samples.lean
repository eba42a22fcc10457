/-
Ready-made scenarios: a branch, a loop, and scenarios inside a scenario.
-/
import Testbed.Scenario.Edit
import Testbed.Scenario.Build

namespace Testbed

/-- The ready-made scenarios. -/
inductive Sample where
  | branching
  | looping
  | nested
deriving DecidableEq, Inhabited

namespace Sample

open Scenario (Edit)

/-- All samples, in the order in which they are listed to users. -/
def all : List Sample := [branching, looping, nested]

/-- The name of a sample. -/
def tag : Sample → String
  | branching => "if"
  | looping => "while"
  | nested => "nested"

/-- The sample with a given name. -/
def ofTag? (tag : String) : Option Sample := all.find? fun s => s.tag == tag

/-- The sample that a word names. -/
def read : String → Except UnknownWord Sample := expectWord (all.map tag) ofTag?

/-- A whole number as a token. -/
def whole (n : Nat) : Token := .literal (.ofNat n)

/-- A job that pings the destination from an entity. -/
def ping (entity : String) : JobLaunch :=
  (JobLaunch.new "fping" (.parse entity)).argument "destination_ip" (.parse "$destination")

/-- Reboots an agent; if it comes back, both agents ping, otherwise the other one alone;
the pings of the first case are stopped after ten seconds. -/
def branchingSteps : Edit Unit := do
  Edit.argument "agentA" "Address of the rebooted agent"
  Edit.constant "destination" (.string "192.168.1.4")
  let reboot ← Edit.operation .reboot .immediate
  Edit.configure reboot (.reboot (.parse "Agent A"))
  let check ← Edit.operation .branch (Wait.immediate.onLaunched [reboot])
  let pingA ← Edit.operation .startJob .immediate
  Edit.configure pingA (.startJob (ping "Agent A"))
  let pingB ← Edit.operation .startJob .immediate
  Edit.configure pingB (.startJob (ping "Agent B"))
  let fallback ← Edit.operation .startJob .immediate
  Edit.configure fallback (.startJob ((ping "Agent B").argument "count" (whole 10)))
  Edit.condition check (.binary .equal
    (.operand (.database "Agent" (.parse "$agentA") "status"))
    (.operand (.value (.parse "available"))))
  Edit.body check .ifTrue [pingA, pingB]
  Edit.body check .ifFalse [fallback]
  let stop ← Edit.operation .stopJobs
    ((Wait.immediate.onLaunched [pingA, pingB]).withDelay (.ofSeconds 10))
  Edit.configure stop (.stopJobs [pingA, pingB])

/-- Watches the rate on an entity and generates traffic while it stays low. -/
def loopingSteps : Edit Unit := do
  Edit.argument "entity" "Entity generating and measuring traffic"
  Edit.argument "server" "Address of the iperf3 server"
  Edit.constant "threshold" (.ofNat 1000000)
  let monitor ← Edit.operation .startJob .immediate
  Edit.configure monitor (.startJob
    { (JobLaunch.new "rate_monitoring" (.parse "$entity")).argument "interface" (.parse "eth0") with
      interval := some (.ofSeconds 1) })
  let lowRate ← Edit.operation .loop
    ((Wait.immediate.onLaunched [monitor]).withDelay (.ofSeconds 5))
  let traffic ← Edit.operation .startJob .immediate
  Edit.configure traffic (.startJob
    (((JobLaunch.new "iperf3" (.parse "$entity")).argument "server_ip" (.parse "$server")).argument
      "duration" (whole 10)))
  let stop ← Edit.operation .stopJob .immediate
  Edit.configure stop (.stopJob monitor)
  Edit.body lowRate .eachRound [traffic]
  Edit.body lowRate .atEnd [stop]
  Edit.condition lowRate (.binary .below
    (.operand (.statistic (.parse "rate_monitoring") "rate"))
    (.operand (.value (.parse "$threshold"))))

/-- Reboots the agent it is given. -/
def rebootSteps : Edit Unit := do
  Edit.argument "agent" "Entity to reboot"
  let reboot ← Edit.operation .reboot .immediate
  Edit.configure reboot (.reboot (.parse "$agent"))

/-- Runs a scenario that is sent along, then one that is known by name for a minute. -/
def nestedSteps (sub : Scenario) : Edit Unit := do
  Edit.argument "agent" "Entity under test"
  let embedded ← Edit.operation .startScenario .immediate
  Edit.configure embedded (.startScenario
    ((ScenarioLaunch.new (.embedded sub)).argument "agent" (.parse "$agent")))
  let delay ← Edit.operation .startScenario (Wait.immediate.onFinished [embedded])
  Edit.configure delay (.startScenario
    (((ScenarioLaunch.new (.named "Network Delay")).argument "entity" (.parse "$agent")).argument
      "duration" (whole 60)))
  let stop ← Edit.operation .stopScenario
    ((Wait.immediate.onLaunched [delay]).withDelay (.ofSeconds 60))
  Edit.label stop "stop delay measurement"
  Edit.configure stop (.stopScenario delay)

/-- The scenario of a sample, with identities from 1 on. -/
def scenario : Sample → Except ScenarioError Scenario
  | branching =>
    let (s, _) := (Scenario.new "If"
      "Ping a destination from both agents if the rebooted one is available").run 1
    s.edit branchingSteps
  | looping =>
    let (s, _) := (Scenario.new "While"
      "Generate traffic until the monitored rate reaches the threshold").run 1
    s.edit loopingSteps
  | nested => do
    let (sub, next) := (Scenario.new "Reboot" "Reboot one agent").run 1
    let (s, _) := (Scenario.new "Nested"
      "Reboot an agent, then measure delay from it for one minute").run next
    s.edit (nestedSteps (← sub.edit rebootSteps))

end Sample

end Testbed
