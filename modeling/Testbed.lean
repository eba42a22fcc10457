/-
Scenarios for a network testbed.

A scenario is a graph of operations that wait on one another, branch and loop.  It is
built into a document, which the testbed runs; documents from elsewhere are read back and
checked.  What holds of all this is proved in `Proofs`.
-/
import Testbed.Main
import Testbed.Workspace
import Testbed.CommandLine.FileTree
import Testbed.Decimal.Literal
import Testbed.Json.Pointer
import Testbed.Proofs.Scenario.Ownership
import Testbed.Proofs.Scenario.Mirror
import Testbed.Proofs.Origin
import Testbed.Proofs.Document.Wire
import Testbed.Proofs.Scenario.Origins
import Testbed.Proofs.Scenario.Waits
import Testbed.Proofs.Json.Proper
import Testbed.Proofs.Json.Record
import Testbed.Proofs.Document.Reading
import Testbed.Proofs.Scenario.Values
import Testbed.Proofs.Scenario.ReadBack
import Testbed.Proofs.Json.Reading
import Testbed.Proofs.Json.Numeral
import Testbed.Proofs.Json.Printing
import Testbed.Proofs.Json.Skipping
import Testbed.Proofs.Json.Fields
import Testbed.Proofs.Json.Equality
import Testbed.Proofs.Json.Likeness
import Testbed.Proofs.Json.Agreement
import Testbed.Proofs.Document.Text
import Testbed.Proofs.Document.Records
import Testbed.Proofs.Document.Grammar
import Testbed.Proofs.Document.Likeness
import Testbed.Proofs.Document.Order
import Testbed.Proofs.Document.Repetition
import Testbed.Proofs.Scenario.Likeness
import Testbed.Proofs.Scenario.Stored
import Testbed.Proofs.Scenario.Copying
import Testbed.Proofs.Scenario.Renaming
import Testbed.Proofs.Workspace.Renaming
import Testbed.Proofs.Workspace.Programs
import Testbed.Proofs.Finding
import Testbed.Proofs.Missing
import Testbed.Proofs.Scenario.Defects
import Testbed.Proofs.Scenario.Isolation
import Testbed.Proofs.WaitGraph.Verdict
import Testbed.Proofs.Scenario.Usage
import Testbed.Proofs.Schema.Written
import Testbed.Proofs.Schema.Documents
import Testbed.Proofs.Document.Cycles
import Testbed.Proofs.Substitution
import Testbed.Proofs.OperatorTree
import Testbed.Proofs.Scanning
import Testbed.Proofs.WaitGraph.Run
import Testbed.Proofs.Document.Bodies
import Testbed.Proofs.Scenario.Settings
import Testbed.Proofs.Scenario.Growth
import Testbed.Proofs.Scenario.LaunchArguments
