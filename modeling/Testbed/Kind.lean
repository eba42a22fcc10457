/-
The kinds of operations.

A scenario is made of operations of eight kinds.  The tag of a kind is its name in
documents; three of the kinds stop what an operation of another kind has started.
-/
import Testbed.Vocabulary

namespace Testbed

/-- What an operation does. -/
inductive Kind where
  | startJob
  | stopJob
  | stopJobs
  | startScenario
  | stopScenario
  | reboot
  | branch
  | loop
deriving DecidableEq, Inhabited

namespace Kind

/-- All kinds, in the order in which they are listed to users. -/
def all : List Kind :=
  [startJob, stopJob, stopJobs, startScenario, stopScenario, reboot, branch, loop]

/-- The name of a kind in documents. -/
def tag : Kind → String
  | startJob => "start_job_instance"
  | stopJob => "stop_job_instance"
  | stopJobs => "stop_job_instances"
  | startScenario => "start_scenario_instance"
  | stopScenario => "stop_scenario_instance"
  | reboot => "reboot"
  | branch => "if"
  | loop => "while"

/-- The kind of a name. -/
def ofTag? (tag : String) : Option Kind := all.find? fun kind => kind.tag == tag

/-- The kind that a word names. -/
def read : String → Except UnknownWord Kind := expectWord (all.map tag) ofTag?

/-- The kind that the targets of a stop operation must have. -/
def stopTarget? : Kind → Option Kind
  | stopJob => some startJob
  | stopJobs => some startJob
  | stopScenario => some startScenario
  | _ => none

end Kind

end Testbed
