/-
A document mirrors the scenario that it was built from.

There is one function for each operation, in the same order, with the numbers of the
positions that the handles of the operation point at; the tables are the declarations.
As only owned handles are let into a document, all its numbers are those of functions,
and what the checks of a document find wrong with numbers and references cannot be
wrong with it.
-/
import Testbed.Proofs.Scenario.Buildable
import Testbed.Proofs.Validation

namespace Testbed

open Outcome

namespace Scenario

/-- A function says what the operation at a position of a scenario says. -/
structure FunctionOf (log : Log) (s : Scenario) (position : Nat) (op : Operation Scenario)
    (f : Document.Function) : Prop where
  id : f.id = position
  label : f.label = op.label.getD ("#" ++ toString position)
  kind : f.action.kind = op.kind
  /-- The kind is the one that the operation was added with. -/
  added : ∃ source wait, .added source (.new f.action.kind wait) ∈ log
    ∧ log.Becomes (source, .new f.action.kind wait) (⟨s.identity, position⟩, op)
  launched : f.wait.launched = op.wait.launched.map Handle.index
  finished : f.wait.finished = op.wait.finished.map Handle.index
  targets : ∃ p, op.payload = some p ∧ f.action.targets = p.targets.map Handle.index
  bodies : f.action.bodies? = if op.kind = .branch ∨ op.kind = .loop
    then some (op.firstBody.map Handle.index, op.secondBody.map Handle.index) else none

/-- All numbers in a function are positions of operations. -/
theorem FunctionOf.names_lt {log : Log} {s : Scenario} {position : Nat}
    {op : Operation Scenario} {f : Document.Function} (hof : FunctionOf log s position op f)
    (hready : s.WaitReady position op.wait) {p : Payload Scenario} (hp : op.payload = some p)
    (hconfigured : s.Configured op p) {id : Nat} (hid : f.Names id) : id < s.size := by
  have howned : ∀ {handles : List Handle}, (∀ h ∈ handles, s.owns h = true) →
      id ∈ handles.map Handle.index → id < s.size := by
    intro handles hall hmem
    obtain ⟨h, hh, rfl⟩ := List.mem_map.mp hmem
    exact lt_size_of_owns (hall h hh)
  obtain ⟨hlaunched, hfinished⟩ := List.forall_mem_append.mp hready
  rcases hid with hid | hid | hid | hid
  · rw [hof.launched] at hid
    exact howned (fun h hh => (hlaunched h hh).1) hid
  · rw [hof.finished] at hid
    exact howned (fun h hh => (hfinished h hh).1) hid
  · rw [Document.Function.members, hof.bodies] at hid
    by_cases hkind : op.kind = .branch ∨ op.kind = .loop
    · rw [if_pos hkind] at hid
      refine howned (hconfigured.bodies hkind) ?_
      rw [List.map_append]
      exact hid
    · rw [if_neg hkind] at hid
      cases hid
  · obtain ⟨p', hp', htargets⟩ := hof.targets
    rw [hp] at hp'
    cases hp'
    rw [htargets] at hid
    exact howned (fun h hh => (hconfigured.targets h hh).1) hid

/-- A document says what a scenario says. -/
structure Mirror (log : Log) (s : Scenario) (d : Document) : Prop where
  size : d.functions.length = s.size
  functions : ∀ i op, s.operations[i]? = some op →
    ∃ f, d.functions[i]? = some f ∧ FunctionOf log s i op f
  name : d.name = s.name
  description : d.description = s.description
  arguments : d.arguments = s.arguments.map fun (name, text) => (name, .string text)
  constants : d.constants = s.constants

namespace Mirror

variable {log : Log} {s : Scenario} {d : Document}

/-- Every function is that of an operation. -/
theorem operation (h : Mirror log s d) {i : Nat} {f : Document.Function}
    (hf : d.functions[i]? = some f) :
    ∃ op, s.operations[i]? = some op ∧ FunctionOf log s i op f := by
  have hlt : i < s.operations.length := by
    have hlt := (List.getElem?_eq_some_iff.mp hf).1
    have hsize : d.functions.length = s.operations.length := h.size
    omega
  have hop := List.getElem?_eq_getElem hlt
  obtain ⟨f', hf', hof⟩ := h.functions i _ hop
  rw [hf] at hf'
  cases hf'
  exact ⟨_, hop, hof⟩

theorem numbered (h : Mirror log s d) : d.Numbered := by
  intro i f hf
  obtain ⟨op, -, hof⟩ := h.operation hf
  exact hof.id

theorem names (h : Mirror log s d)
    (hnames : (s.arguments.map Prod.fst ++ Keyed.keys s.constants).Nodup) (name : String) :
    ¬ (name ∈ Keyed.keys d.arguments ∧ name ∈ Keyed.keys d.constants) := by
  have hkeys : Keyed.keys d.arguments = s.arguments.map Prod.fst := by
    rw [h.arguments, Keyed.keys, List.map_map]
    rfl
  rw [hkeys, h.constants]
  intro h
  obtain ⟨hargument, hconstant⟩ := h
  exact (List.nodup_append.mp hnames).2.2 name hargument name hconstant rfl

theorem selfWaits (h : Mirror log s d)
    (hready : ∀ i op, s.operations[i]? = some op → s.WaitReady i op.wait) :
    ∀ f ∈ d.functions, f.id ∉ f.wait.launched ∧ f.id ∉ f.wait.finished := by
  intro f hf
  obtain ⟨i, hi⟩ := List.mem_iff_getElem?.mp hf
  obtain ⟨op, hop, hof⟩ := h.operation hi
  have hready' := List.forall_mem_append.mp (hready i op hop)
  rw [hof.id, hof.launched, hof.finished]
  simp only [List.mem_map, not_exists, not_and]
  exact ⟨fun a ha => (hready'.1 a ha).2, fun a ha => (hready'.2 a ha).2⟩

/-- Functions wait on each other as the operations do. -/
theorem waits (h : Mirror log s d) {i j : Nat} (hwaits : d.Waits i j) : s.WaitsOn i j := by
  obtain ⟨f, g, hf, hg, hmem⟩ := hwaits
  obtain ⟨op, hop, hof⟩ := h.operation hf
  refine ⟨op, hop, List.mem_map.mp ?_⟩
  rw [h.numbered j g hg, Document.Wait.references, hof.launched, hof.finished,
    ← List.map_append] at hmem
  exact hmem

/-- Every number in a function is that of a function. -/
theorem references (h : Mirror log s d) (hcomplete : s.Complete) :
    ∀ f ∈ d.functions, ∀ id, f.Names id → id < d.functions.length := by
  intro f hf id hid
  obtain ⟨i, hi⟩ := List.mem_iff_getElem?.mp hf
  obtain ⟨op, hop, hof⟩ := h.operation hi
  obtain ⟨p, hp, hconfigured⟩ := hcomplete.configured op (List.mem_of_getElem? hop)
  rw [h.size]
  exact hof.names_lt (hcomplete.waits i op hop) hp hconfigured hid

theorem targets (h : Mirror log s d)
    (hconfigured : ∀ op ∈ s.operations, ∃ p, op.payload = some p ∧ s.Configured op p) :
    ∀ f ∈ d.functions, ∀ expected, f.action.kind.stopTarget? = some expected →
      ∀ id ∈ f.action.targets, ∀ g, d.functions[id]? = some g → g.action.kind = expected := by
  intro f hf expected hexpected id hid g hg
  obtain ⟨i, hi⟩ := List.mem_iff_getElem?.mp hf
  obtain ⟨op, hop, hof⟩ := h.operation hi
  obtain ⟨p, hp, hready⟩ := hconfigured op (List.mem_of_getElem? hop)
  obtain ⟨p', hp', htargets⟩ := hof.targets
  rw [hp] at hp'
  cases hp'
  rw [htargets] at hid
  obtain ⟨handle, hhandle, rfl⟩ := List.mem_map.mp hid
  obtain ⟨-, target, htarget, hkind⟩ := hready.targets handle hhandle
  obtain ⟨op', hop', hof'⟩ := h.operation hg
  rw [htarget] at hop'
  cases hop'
  rw [hof.kind, hkind] at hexpected
  rw [hof'.kind]
  exact Option.some.inj hexpected

/-- The checks of a mirrored document find no fault but names that are not declared. -/
theorem errors (h : Mirror log s d) (hcomplete : s.Complete) :
    ∀ e ∈ d.validate.errors, ∃ function name, e = .undeclaredToken function name := by
  have hself := h.selfWaits hcomplete.waits
  have hids : Document.idErrors 0 d.functions = [] := Document.numbered_iff.mpr h.numbered
  have hnames : d.nameErrors = [] := Document.nameErrors_eq_nil_iff.mpr (h.names hcomplete.names)
  have hreferences : d.referenceErrors = [] :=
    (Document.referenceErrors_eq_nil_iff h.numbered).mpr fun f hf =>
      ⟨h.references hcomplete f hf, hself f hf, h.targets hcomplete.configured f hf⟩
  have hcycles : d.cycleErrors = [] := by
    rw [Document.cycleErrors_eq_nil_iff, Document.acyclic_waitGraph_iff h.numbered hself]
    have hsub : d.Waits ≤ s.WaitsOn := fun _ _ => h.waits
    exact fun i hi => hcomplete.acyclic i (Relation.TransGen.mono hsub i i hi)
  intro e he
  simp only [Document.validate, hids, hnames, hreferences, hcycles, List.nil_append,
    Document.tokenErrors, List.mem_flatMap] at he
  obtain ⟨f, -, hmem⟩ := he
  obtain ⟨name, -, rfl⟩ := List.mem_map.mp hmem
  exact ⟨f.id, name, rfl⟩

end Mirror

/-! ### Documents that were built -/

theorem FunctionOf.of_build {w : World} (hw : w.Recorded) {s : Scenario} (hs : s ∈ w.live)
    {position : Nat} {op : Operation Scenario} (hop : s.operations[position]? = some op)
    (hcoherent : op.Coherent) {action : Document.Action}
    (haction : s.buildAction s.declarations position op (embeddedBuild op) = .ok action) :
    FunctionOf w.log s position op ⟨position, labelOf op position, action, op.wait.built⟩ := by
  obtain ⟨p, hp, henacts⟩ := enacts_of_buildAction haction
  obtain ⟨hkind, htargets, hbodies⟩ := henacts.parts
  have hop' : action.kind = op.kind := hkind.trans (hcoherent p hp)
  obtain ⟨source, added, hadded, hpath, -⟩ := hw.operations s hs position op hop
  obtain ⟨-, kind, wait, rfl⟩ := hw.added source added hadded
  have hcreated : action.kind = kind := hop'.trans (Log.Becomes.kind hpath)
  refine ⟨rfl, rfl, hop', ⟨source, wait, ?_, ?_⟩, rfl, rfl, ⟨p, hp, htargets⟩, ?_⟩
  · rwa [hcreated]
  · rwa [hcreated]
  · rw [hbodies, hcoherent p hp]

/--
**A document that was built mirrors its scenario.**

There is one function for each operation, in order, of the kind that the operation was added
with, and all declarations are in the tables.  The numbers in it are the positions of the handles
that the operations hold, and none is without a function.  The checks of the document can find
nothing wrong but tokens: its numbers, names, references and waits are in order.
-/
theorem build_mirror {w : World} (hw : w.Reachable) {s : Scenario} (hs : s ∈ w.live)
    {d : Document} (hd : s.build = .ok d) :
    Mirror w.log s d
      ∧ (∀ f ∈ d.functions, ∀ id, f.Names id → id < d.functions.length)
      ∧ ∀ e ∈ d.validate.errors, ∃ function name, e = .undeclaredToken function name := by
  have hcoherent := hw.coherent hs
  have hcomplete := ((succeeds_build hcoherent).mp ⟨d, hd⟩).1
  have hmirror : Mirror w.log s d := by
    obtain ⟨hnames, -, -, functions, hfunctions, rfl⟩ := build_eq_ok.mp hd
    obtain ⟨hlength, hall⟩ := buildFunctions_eq_ok _ _ hfunctions
    obtain ⟨harguments, hconstants, -⟩ := List.nodup_append.mp hnames
    refine ⟨hlength, fun i op hop => ?_, rfl, rfl, ?_, Keyed.ofList_of_nodup hconstants⟩
    · obtain ⟨action, haction, hf⟩ := hall i op hop
      rw [Nat.zero_add] at haction hf
      exact ⟨_, hf, .of_build hw.recorded hs hop (hcoherent op (List.mem_of_getElem? hop)) haction⟩
    · refine Keyed.ofList_of_nodup ?_
      rw [Keyed.keys, List.map_map]
      exact harguments
  exact ⟨hmirror, hmirror.references hcomplete, hmirror.errors hcomplete⟩

/-- The document of a load test mirrors it, and what is in the place of the scenario that is sent
along mirrors that one. -/
theorem loadTest_mirrored : ∃ w : World, w.Reachable
    ∧ loadTest (some (.branch highRate)) ∈ w.live ∧ rebootAgent ∈ w.live
    ∧ (loadTest (some (.branch highRate))).build = .ok loadTestDocument
    ∧ Mirror w.log (loadTest (some (.branch highRate))) loadTestDocument
    ∧ (∀ f ∈ loadTestDocument.functions, ∀ id, f.Names id → id < 4)
    ∧ (∀ e ∈ loadTestDocument.validate.errors, ∃ function name,
      e = .undeclaredToken function name)
    ∧ Mirror w.log rebootAgent rebootAgentDocument := by
  obtain ⟨w, hw, hlive⟩ := loadTest_reachable
  have hembedded : rebootAgent ∈ w.live :=
    World.live_trans hlive (mem_family_of_embedded
      (List.mem_cons_of_mem _ List.mem_cons_self) rfl (mem_family_self _))
  obtain ⟨hmirror, hreferences, herrors⟩ := build_mirror hw hlive loadTest_build
  exact ⟨w, hw, hlive, hembedded, loadTest_build, hmirror, hreferences, herrors,
    (build_mirror hw hembedded rebootAgent_build).1⟩

end Scenario

end Testbed
