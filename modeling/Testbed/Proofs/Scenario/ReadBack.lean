/-
Reading back what was built.

A document that was read from a value, or built from a scenario into which proper values
were put, is read back from its wire form as it was, with all entries in their order.  The
name of a job is the only key beside the fixed ones, and so it is found again.  A scenario
that is sent along is found in the wire form by the same way by which it is found in the
scenario, and what is read from there is what it is built to by itself.
-/
import Testbed.Proofs.Document.Text
import Testbed.Proofs.Scenario.Values

namespace Testbed

open Outcome

/-! ### Ways to embedded scenarios -/

namespace Json

/-- What stands under a key. -/
def member? (key : String) : Json → Option Json
  | .object members => Keyed.get? key members
  | _ => none

/-- The item at a position. -/
def item? (i : Nat) : Json → Option Json
  | .array items => items[i]?
  | _ => none

/-- What the function at a position of a document launches, in the wire form. -/
def launched? (i : Nat) (document : Json) : Option Json := do
  let functions ← document.member? "openbach_functions"
  let function ← functions.item? i
  let launch ← function.member? Kind.startScenario.tag
  launch.member? "scenario_name"

/-- What is launched at the end of a way through documents that are sent along. -/
def launchedAt? : List Nat → Json → Option Json
  | [], document => some document
  | i :: path, document => document.launched? i >>= launchedAt? path

end Json

namespace Document

/-- The function at a position launches a value. -/
def Launches (d : Document) (i : Nat) (v : Json) : Prop :=
  ∃ f arguments, d.functions[i]? = some f ∧ f.action = .startScenario v arguments

/-- What a function launches is found in the wire form. -/
theorem Launches.launched? {d : Document} {i : Nat} {v : Json} (h : d.Launches i v) :
    d.toJson.launched? i = some v := by
  obtain ⟨f, arguments, hf, haction⟩ := h
  have hitem : (Json.array (d.functions.map Function.toJson)).item? i = some f.toJson := by
    rw [Json.item?, List.getElem?_map, hf]
    rfl
  show (Json.array (d.functions.map Function.toJson)).item? i >>= _ = _
  rw [hitem]
  obtain ⟨id, label, action, wait⟩ := f
  cases haction
  rfl

end Document

namespace Scenario

/-- The scenario that the operation at a position carries. -/
def embedded? (i : Nat) (s : Scenario) : Option Scenario := s.operations[i]? >>= Operation.embedded?

/-- The scenario at the end of a way through embedded ones. -/
def embeddedAt? : List Nat → Scenario → Option Scenario
  | [], s => some s
  | i :: path, s => s.embedded? i >>= embeddedAt? path

/-! ### Documents that were built -/

section Built

variable {s : Scenario} {d : Document} (hd : s.build = .ok d)

include hd

/-- The job that a function starts has the name that the operation was configured with. -/
theorem name?_of_build {i : Nat} {f : Document.Function} (hf : d.functions[i]? = some f)
    {job : Document.Job} (hjob : f.action = .startJob job) : ∃ op launch,
      s.operations[i]? = some op ∧ op.payload = some (.startJob launch)
        ∧ job.name? = some launch.job := by
  obtain ⟨op, p, action, hop, hp, henacts, rfl⟩ := operation_of_build hd hf
  cases hjob
  cases henacts with
  | @startJob launch _ hjob =>
      obtain ⟨-, _, _, -, -, rfl⟩ := buildJob_eq_ok hjob
      exact ⟨op, launch, hop, hp, rfl⟩

/-- A scenario that an operation carries is launched as the document that it is built to. -/
theorem launches_of_build {i : Nat} {sub : Scenario} (hsub : s.embedded? i = some sub) :
    ∃ e, sub.build = .ok e ∧ d.Launches i e.toJson := by
  obtain ⟨op, hop, hembedded⟩ := Option.bind_eq_some_iff.mp hsub
  obtain ⟨_, hpayload⟩ := Operation.payload_of_embedded? hembedded
  obtain ⟨p, action, hp, henacts, hf⟩ := (functions_of_build hd).2 i op hop
  cases hpayload.symm.trans hp
  cases henacts with
  | startScenario hvalue _ =>
      rcases buildSubScenario_eq_ok hp hvalue with ⟨_, htarget, -⟩ | ⟨_, e, htarget, -, he, rfl⟩
      · cases htarget
      · cases htarget
        exact ⟨e, he, _, _, hf, rfl⟩

/-- A scenario that an operation carries is found in the wire form as what it is built to. -/
theorem launched?_of_build {i : Nat} {sub : Scenario} (hsub : s.embedded? i = some sub) :
    ∃ e, sub.build = .ok e ∧ d.toJson.launched? i = some e.toJson := by
  obtain ⟨e, he, hlaunches⟩ := launches_of_build hd hsub
  exact ⟨e, he, hlaunches.launched?⟩

end Built

/-- All scenarios that are embedded at some depth are sent along as what they are built to. -/
theorem launchedAt?_of_build : ∀ (path : List Nat) {s sub : Scenario} {d : Document},
    s.build = .ok d → s.embeddedAt? path = some sub →
      ∃ e, sub.build = .ok e ∧ d.toJson.launchedAt? path = some e.toJson := by
  intro path
  induction path with
  | nil =>
      intro s sub d hd hsub
      cases hsub
      exact ⟨d, hd, rfl⟩
  | cons i path ih =>
      intro s sub d hd hsub
      obtain ⟨next, hnext, hsub⟩ := Option.bind_eq_some_iff.mp hsub
      obtain ⟨e, he, hlaunched⟩ := launched?_of_build hd hnext
      obtain ⟨e', he', hpath⟩ := ih he hsub
      refine ⟨e', he', ?_⟩
      rw [Json.launchedAt?, hlaunched]
      exact hpath

theorem Proper.embeddedAt {ok : Number → Prop} : ∀ (path : List Nat) {s sub : Scenario},
    s.Proper ok → s.embeddedAt? path = some sub → sub.Proper ok := by
  intro path
  induction path with
  | nil =>
      intro s sub h hsub
      cases hsub
      exact h
  | cons i path ih =>
      intro s sub h hsub
      obtain ⟨next, hnext, hsub⟩ := Option.bind_eq_some_iff.mp hsub
      obtain ⟨op, hop, hembedded⟩ := Option.bind_eq_some_iff.mp hnext
      exact ih (h.embedded (List.mem_of_getElem? hop) hembedded) hsub

/--
**Reading a value undoes writing a document.**

It does for every document that was read from a value, and for every document that was built, if
every object that was put into the scenario has each key once.  In a document that was built a
job is found under the name that the operation was configured with, and a scenario that is
embedded at any depth is read back from its place as the document that it is built to by itself.
-/
theorem readBack_toJson :
    (∀ v d, Document.ofJson v = .ok d → Document.ofJson d.toJson = .ok d)
      ∧ ∀ s : Scenario, (s.Proper fun _ => True) → ∀ d, s.build = .ok d →
        Document.ofJson d.toJson = .ok d
          ∧ (∀ (i : Nat) (f : Document.Function) (job : Document.Job),
            d.functions[i]? = some f → f.action = .startJob job → ∃ op launch,
              s.operations[i]? = some op ∧ op.payload = some (.startJob launch)
                ∧ job.name? = some launch.job)
          ∧ ∀ path sub, s.embeddedAt? path = some sub → ∃ e, sub.build = .ok e
            ∧ d.toJson.launchedAt? path = some e.toJson
            ∧ Document.ofJson e.toJson = .ok e := by
  refine ⟨fun v d hd => (Document.canonical_of_ofJson hd).ofJson_toJson, fun s h d hd => ?_⟩
  refine ⟨(h.canonical hd).ofJson_toJson, fun i f job hf hjob => name?_of_build hd hf hjob,
    fun path sub hsub => ?_⟩
  obtain ⟨e, he, hlaunched⟩ := launchedAt?_of_build path hd hsub
  exact ⟨e, he, hlaunched, ((Proper.embeddedAt path h hsub).canonical he).ofJson_toJson⟩

/-- A scenario that sends another one along, and starts a job. -/
def rebootThenPing : Scenario :=
  ⟨2, [], "Reboot then ping", "", [], [("count", .ofNat 3)],
    [⟨.startScenario, none, some (.startScenario ⟨.embedded rebootAgent,
        [("agent", .literal (.string "server"))]⟩), .immediate, [], []⟩,
      ⟨.startJob, none, some (.startJob ⟨"fping", .literal (.string "client"), .zero, none,
        [("count", .placeholder "count")]⟩), ⟨.ofSeconds 5, [], [⟨2, 0⟩]⟩, [], []⟩]⟩

/-- Its document. -/
def rebootThenPingDocument : Document :=
  ⟨"Reboot then ping", "", [], [("count", .ofNat 3)],
    [⟨0, "#0", .startScenario rebootAgentDocument.toJson [("agent", .string "server")],
        .immediate⟩,
      ⟨1, "#1", .startJob ⟨.string "client", .integer 0, none,
        [("fping", .object [("count", .ofNat 3)])]⟩, ⟨.integer 5, [], [0]⟩⟩]⟩

theorem rebootThenPing_build : rebootThenPing.build = .ok rebootThenPingDocument := by cbv

theorem rebootThenPing_family : rebootThenPing.family = [rebootThenPing, rebootAgent] := by cbv

section Numbers

variable {ok : Number → Prop} (h : ∀ n : Nat, n ≤ 5 → ok (.integer n))

include h

theorem rebootAgent_holds : rebootAgent.Holds ok := by
  refine ⟨by simp [rebootAgent], ?_, ?_, ?_, ?_, ?_⟩
  · intro op hop p hp t ht
    cases List.mem_singleton.mp hop
    cases hp
    rw [List.mem_singleton.mp ht]
    exact .placeholder _
  · intro op hop
    rw [List.mem_singleton.mp hop]
    exact h 0 (by decide)
  · intro op hop launch hp
    cases List.mem_singleton.mp hop
    cases hp
  · intro op hop launch hp
    cases List.mem_singleton.mp hop
    cases hp
  · intro i hi
    have hsize : rebootAgent.size = 1 := rfl
    exact h i (by omega)

theorem rebootThenPing_holds : rebootThenPing.Holds ok := by
  refine ⟨?_, ?_, ?_, ?_, ?_, ?_⟩
  · intro entry hentry
    rw [List.mem_singleton.mp hentry]
    exact .number (h 3 (by decide))
  · intro op hop p hp t ht
    rcases List.mem_cons.mp hop with rfl | hop
    · cases hp
      rw [List.mem_singleton.mp ht]
      exact .literal (.string _)
    · cases List.mem_singleton.mp hop
      cases hp
      rcases List.mem_cons.mp ht with rfl | ht
      · exact .placeholder _
      · rw [List.mem_singleton.mp ht]
        exact .literal (.string _)
  · intro op hop
    rcases List.mem_cons.mp hop with rfl | hop
    · exact h 0 (by decide)
    · rw [List.mem_singleton.mp hop]
      exact h 5 (by decide)
  · intro op hop launch hp
    rcases List.mem_cons.mp hop with rfl | hop
    · cases hp
    · cases List.mem_singleton.mp hop
      cases hp
      exact h 0 (by decide)
  · intro op hop launch hp interval hinterval
    rcases List.mem_cons.mp hop with rfl | hop
    · cases hp
    · cases List.mem_singleton.mp hop
      cases hp
      cases hinterval
  · intro i hi
    have hsize : rebootThenPing.size = 2 := rfl
    exact h i (by omega)

/-- Whatever is asked of the numbers in these scenarios, it is enough to ask it of these. -/
theorem rebootThenPing_proper : rebootThenPing.Proper ok := by
  intro t ht
  rw [rebootThenPing_family] at ht
  rcases List.mem_cons.mp ht with rfl | ht
  · exact rebootThenPing_holds h
  · rw [List.mem_singleton.mp ht]
    exact rebootAgent_holds h

end Numbers

/-- The document is read back, and so is the one that is sent along. -/
theorem rebootThenPing_readBack :
    Document.ofJson rebootThenPingDocument.toJson = .ok rebootThenPingDocument
      ∧ (∃ op launch, rebootThenPing.operations[1]? = some op
        ∧ op.payload = some (.startJob launch) ∧ some "fping" = some launch.job)
      ∧ (∃ e, rebootAgent.build = .ok e
        ∧ rebootThenPingDocument.toJson.launchedAt? [0] = some e.toJson
        ∧ Document.ofJson e.toJson = .ok e)
      ∧ Document.ofJson rebootAgentDocument.toJson = .ok rebootAgentDocument := by
  have hproper : rebootThenPing.Proper fun _ => True := rebootThenPing_proper fun _ _ => trivial
  obtain ⟨hread, hbuilt⟩ := readBack_toJson
  obtain ⟨hself, hjob, hembedded⟩ := hbuilt _ hproper _ rebootThenPing_build
  obtain ⟨e, he, hlaunched, hback⟩ := hembedded [0] rebootAgent rfl
  cases rebootAgent_build.symm.trans he
  exact ⟨hself, hjob 1 _ _ rfl rfl, ⟨_, he, hlaunched, hback⟩, hread _ _ hback⟩

/-! ### Texts -/

/--
**Reading the text of a scenario gives the document that it is built to,** in both layouts, if
in its wire form no more brackets stand inside one another than a text may have.

Objects have each key once, integers have 64 bits, and floats are read back from their digits:
that is asked of what was put into the scenario.  Of names, labels, keys and strings nothing is
asked.
-/
theorem ofText_toText {s : Scenario} (h : s.Proper Number.Restorable) {d : Document}
    (hd : s.build = .ok d) (hdepth : d.toJson.depth ≤ Json.depthLimit) (pretty : Bool) :
    ∃ text, s.toText pretty = .ok text ∧ Document.ofText text = .ok d := by
  have hserialize : s.serialize = .ok d.toJson := bind_eq_ok.mpr ⟨d, hd, rfl⟩
  have htext : s.toText pretty = .ok (d.toJson.render (.ofPretty pretty)) :=
    bind_eq_ok.mpr ⟨d.toJson, hserialize, rfl⟩
  exact ⟨_, htext, (h.canonical hd).ofText_render hdepth pretty⟩

/-- One eighth. -/
def eighth : Binary64 := ⟨false, ⟨1020, by decide⟩, ⟨0, by decide⟩⟩

theorem eighth_restorable : (Number.float eighth).Restorable := by
  show Json.Reader.number.run (Number.floatText eighth) = .ok (.float eighth, [])
  decide +kernel

/-- A scenario with the greatest and the least integers, a float, and marks that are escaped. -/
def limits : Scenario :=
  ⟨3, [], "Größe 😀", "\"a\\b\"\n", [("agent\x01", "\t")],
    [("highest", .number (.integer 18446744073709551615)),
      ("lowest", .number (.integer (-9223372036854775808))), ("ratio", .number (.float eighth))],
    [⟨.reboot, some "\x1f/", some (.reboot (.placeholder "ratio")), .immediate, [], []⟩]⟩

/-- Its document, in which the reboot has the float for its entity. -/
def limitsDocument : Document :=
  ⟨"Größe 😀", "\"a\\b\"\n", [("agent\x01", .string "\t")],
    [("highest", .number (.integer 18446744073709551615)),
      ("lowest", .number (.integer (-9223372036854775808))), ("ratio", .number (.float eighth))],
    [⟨0, "\x1f/", .reboot (.number (.float eighth)), .immediate⟩]⟩

theorem limits_build : limits.build = .ok limitsDocument := by cbv

theorem limits_family : limits.family = [limits] := by cbv

theorem limits_proper : limits.Proper Number.Restorable := by
  intro t ht
  rw [limits_family, List.mem_singleton] at ht
  subst ht
  refine ⟨?_, ?_, ?_, ?_, ?_, ?_⟩
  · refine List.forall_mem_cons.mpr ⟨.number ⟨by decide, by decide⟩, List.forall_mem_cons.mpr
      ⟨.number ⟨by decide, by decide⟩, List.forall_mem_singleton.mpr (.number eighth_restorable)⟩⟩
  · intro op hop p hp t ht
    cases List.mem_singleton.mp hop
    cases hp
    rw [List.mem_singleton.mp ht]
    exact .placeholder _
  · intro op hop
    rw [List.mem_singleton.mp hop]
    exact Number.restorable_natural (n := 0) (by decide)
  · intro op hop launch hp
    cases List.mem_singleton.mp hop
    cases hp
  · intro op hop launch hp
    cases List.mem_singleton.mp hop
    cases hp
  · intro i hi
    have hsize : limits.size = 1 := rfl
    exact Number.restorable_natural (Nat.lt_of_lt_of_le (hsize ▸ hi) (by decide))

theorem limits_depth : limitsDocument.toJson.depth = 5 := by cbv

/-- The document is read from the indented text. -/
theorem limits_text : (limits.Proper Number.Restorable ∧ limits.build = .ok limitsDocument
      ∧ limitsDocument.toJson.depth ≤ Json.depthLimit)
    ∧ ∃ text, limits.toText true = .ok text ∧ Document.ofText text = .ok limitsDocument := by
  have hdepth : limitsDocument.toJson.depth ≤ Json.depthLimit := by
    rw [limits_depth]
    decide
  exact ⟨⟨limits_proper, limits_build, hdepth⟩,
    ofText_toText limits_proper limits_build hdepth true⟩

end Scenario

end Testbed
